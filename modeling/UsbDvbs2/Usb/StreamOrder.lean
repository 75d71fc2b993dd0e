import UsbDvbs2.Usb.StreamTransfers

/-! # Nobody needs a stream that is freed

The invariant that carries the life of a stream over every interleaving, as long as other threads
keep out of its opening and closing: where the owner stands, who may be in a callback, and what
the counter and the flag of a lost stream then say.
-/

namespace Usb

open Concurrency Memory

namespace Stream

/-- The stream ran dry, and that is known or about to be. -/
def Noticed (s : Stream) : Prop :=
  s.lost = true ∨ ∃ handler,
    s.callback = some (handler, .retired 0) ∨ s.callback = some (handler, .losing)

/-- Nobody has come to know the stream yet. -/
structure Fresh (s : Stream) : Prop where
  callback : s.callback = none
  events : s.events = .absent
  stopping : s.stopping = false
  lost : s.lost = false

/-- Nobody knows the stream any more. -/
structure Quiet (s : Stream) : Prop where
  abroad : s.abroad = 0
  callback : s.callback = none
  events : s.events = .absent ∨ s.events = .ended

/-- What holds where the owner stands. -/
def Place (s : Stream) : Owner → Prop
  | .allocating | .submitting | .counting | .checking => s.Fresh
  | .starting => s.Fresh ∧ s.inFlight ≠ 0
  | .returned => s.stopping = false ∧ (s.inFlight = 0 → s.Noticed)
  | .interrupting _ | .joining _ => s.events ≠ .absent
  | .collecting _ | .handling _ => s.events = .absent
  | .freeing .. | .closed _ => s.Quiet
  | _ => True

/-- Where a handler stands while its callback runs; a guest is gone before the stream closes. -/
def Runs (s : Stream) : Handler → Prop
  | .events => s.events = .handling
  | .owner => s.owner.isHandling = true
  | .guest => s.owner = .returned

structure Orderly (s : Stream) : Prop extends Accounted s where
  place : s.Place s.owner
  runs : ∀ handler callback, s.callback = some (handler, callback) → s.Runs handler
  ended : s.events = .ended → s.abroad = 0
  retired : ∀ handler left, s.callback = some (handler, .retired left) → left = s.inFlight
  losing : ∀ handler, s.callback = some (handler, .losing) → s.inFlight = 0
  dry : s.lost = true → s.inFlight = 0

section Orderly

variable {s after : Stream}

theorem Fresh.orderly (fresh : after.Fresh) (accounted : after.Accounted)
    (place : after.Place after.owner) : after.Orderly where
  toAccounted := accounted
  place := place
  runs _ _ running := by
    rw [fresh.callback] at running
    cases running
  ended ended := by
    rw [fresh.events] at ended
    cases ended
  retired _ _ running := by
    rw [fresh.callback] at running
    cases running
  losing _ running := by
    rw [fresh.callback] at running
    cases running
  dry lost := by
    rw [fresh.lost] at lost
    cases lost

/-- A move of the owner or of the event thread, which finds the transfers as they are. -/
theorem Orderly.goOn (orderly : s.Orderly) (accounted : after.Accounted)
    (callback : after.callback = s.callback) (inFlight : after.inFlight = s.inFlight)
    (lost : after.lost = s.lost) (place : after.Place after.owner)
    (runs : ∀ handler callback, s.callback = some (handler, callback) → after.Runs handler)
    (ended : after.events = .ended → after.abroad = 0) : after.Orderly where
  toAccounted := accounted
  place := place
  runs := by rwa [callback]
  ended := ended
  retired := by
    rw [callback, inFlight]
    exact orderly.retired
  losing := by
    rw [callback, inFlight]
    exact orderly.losing
  dry := by
    rw [lost, inFlight]
    exact orderly.dry

/-- Nobody is in a callback when a handler is neither of the two threads nor a guest. -/
theorem Orderly.nobody (orderly : s.Orderly) (events : s.events ≠ .handling)
    (owner : s.owner.isHandling = false) (guest : s.owner ≠ .returned) : s.callback = none := by
  cases running : s.callback with
  | none => rfl
  | some pair =>
      obtain ⟨handler, callback⟩ := pair
      have runs := orderly.runs handler callback running
      cases handler with
      | events => exact (events runs).elim
      | owner => exact (Bool.false_ne_true (owner.symm.trans runs)).elim
      | guest => exact (guest runs).elim

/-- Nothing is out when the counter is not positive, but for what is just being submitted. -/
theorem Accounted.abroad_zero (accounted : s.Accounted) (none : ¬ 0 < s.inFlight)
    (counted : s.owner.uncounted = 0) : s.abroad = 0 := by
  have flight := accounted.flight
  rw [counted] at flight
  omega

theorem Orderly.noOwner (orderly : s.Orderly) (elsewhere : s.owner.isHandling = false)
    (callback : Callback) : s.callback ≠ some (.owner, callback) := fun running =>
  Bool.false_ne_true (elsewhere.symm.trans (orderly.runs _ callback running))

theorem Orderly.noGuest (orderly : s.Orderly) (elsewhere : s.owner ≠ .returned)
    (callback : Callback) : s.callback ≠ some (.guest, callback) := fun running =>
  elsewhere (orderly.runs _ callback running)

/-- The owner goes on, while only the event thread can be in a callback. -/
theorem Orderly.onward (orderly : s.Orderly) {owner : Owner} {stopping : Bool}
    (accounted : Accounted { s with stopping, owner })
    (place : Place { s with stopping, owner } owner)
    (noOwner : ∀ callback, s.callback ≠ some (.owner, callback))
    (noGuest : ∀ callback, s.callback ≠ some (.guest, callback)) :
    Orderly { s with stopping, owner } := by
  refine orderly.goOn accounted rfl rfl rfl place (fun handler callback running => ?_) orderly.ended
  cases handler with
  | events => exact orderly.runs _ callback running
  | owner => exact (noOwner callback running).elim
  | guest => exact (noGuest callback running).elim

/-- The owner goes on, from where it neither waits in libusb nor leaves the stream to others. -/
theorem Orderly.aside (orderly : s.Orderly) {before owner : Owner} {stopping : Bool}
    (at' : s.owner = before) (elsewhere : before.isHandling = false) (away : before ≠ .returned)
    (accounted : Accounted { s with stopping, owner })
    (place : Place { s with stopping, owner } owner) : Orderly { s with stopping, owner } := by
  subst at'
  exact orderly.onward accounted place (orderly.noOwner elsewhere) (orderly.noGuest away)

theorem Orderly.goes (orderly : s.Orderly) {owner : Owner} (goes : s.Goes s.owner owner)
    (polite : s.owner = .returned → ∀ callback, s.callback ≠ some (.guest, callback))
    (accounted : Accounted { s with owner }) : Orderly { s with owner } := by
  have place := orderly.place
  generalize at' : s.owner = before at goes place
  cases goes with
  | allocated | refused => exact Fresh.orderly { place with } accounted { place with }
  | idle => exact Fresh.orderly { place with } accounted trivial
  | flying some => exact Fresh.orderly { place with } accounted ⟨{ place with }, some⟩
  | unstarted => exact Fresh.orderly { place.1 with } accounted trivial
  | called =>
      exact orderly.onward accounted trivial (orderly.noOwner (by rw [at']; rfl)) (polite at')
  | cancelled | timedOut => exact orderly.aside at' rfl Owner.noConfusion accounted trivial
  | alone code index there | accompanied code index there =>
      exact orderly.aside at' rfl Owner.noConfusion accounted there
  | interrupted | waits => exact orderly.aside at' rfl Owner.noConfusion accounted place
  | joined code ended =>
      have nobody : s.callback = none := by
        refine orderly.nobody ?_ (by rw [at']; rfl) (by rw [at']; exact Owner.noConfusion)
        rw [ended]
        exact EventThread.noConfusion
      exact orderly.aside at' rfl Owner.noConfusion accounted
        ⟨orderly.ended ended, nobody, .inr ended⟩
  | collected code none =>
      have nobody : s.callback = .none := by
        refine orderly.nobody ?_ (by rw [at']; rfl) (by rw [at']; exact Owner.noConfusion)
        rw [place]
        exact EventThread.noConfusion
      exact orderly.aside at' rfl Owner.noConfusion accounted
        ⟨orderly.abroad_zero none (by rw [at']; rfl), nobody, .inl place⟩
  | handled code elsewhere =>
      refine orderly.onward accounted place (fun callback running => ?_)
        (orderly.noGuest (by rw [at']; exact Owner.noConfusion))
      rw [running] at elsewhere
      exact elsewhere rfl
  | freed | closed =>
      exact orderly.aside at' rfl Owner.noConfusion accounted { place with }

theorem Orderly.ownerNext {answer : Int} (orderly : s.Orderly)
    (polite : s.owner = .returned → ∀ callback, s.callback ≠ some (.guest, callback))
    (moved : s.ownerNext answer = some after) : after.Orderly := by
  have accounted := orderly.toAccounted.ownerNext moved
  have place := orderly.place
  cases ownerMoves moved with
  | allocates at' | submits at' | counts at' =>
      rw [at'] at place
      exact Fresh.orderly { place with } accounted { place with }
  | starts at' =>
      rw [at'] at place
      obtain ⟨fresh, counted⟩ := place
      refine orderly.goOn accounted rfl rfl rfl
        ⟨fresh.stopping, fun none => (counted none).elim⟩ (fun _ _ running => ?_)
        fun ended => by cases ended
      rw [fresh.callback] at running
      cases running
  | stops code at' => exact orderly.aside at' rfl Owner.noConfusion accounted trivial
  | goes owner goes => exact orderly.goes goes polite accounted

theorem Runs.events {handler : Handler} (runs : s.Runs handler)
    (elsewhere : s.owner.isHandling = false) (closing : s.owner ≠ .returned) :
    s.events = .handling := by
  cases handler with
  | events => exact runs
  | owner => exact (Bool.false_ne_true (elsewhere.symm.trans runs)).elim
  | guest => exact (closing runs).elim

/-- While somebody waits in libusb or is in a callback, the owner is neither before nor behind
the life of the stream. -/
theorem Runs.place {handler : Handler} (runs : s.Runs handler) (place : s.Place s.owner)
    (owner : after.owner = s.owner) (events : after.events = s.events)
    (stopping : after.stopping = s.stopping)
    (noticed : s.owner = .returned → after.inFlight = 0 → after.Noticed) :
    after.Place after.owner := by
  rw [owner]
  cases at' : s.owner with
  | allocating | submitting | counting | checking =>
      rw [at'] at place
      cases place.events.symm.trans
        (runs.events (by rw [at']; rfl) (by rw [at']; exact Owner.noConfusion))
  | starting =>
      rw [at'] at place
      cases place.1.events.symm.trans
        (runs.events (by rw [at']; rfl) (by rw [at']; exact Owner.noConfusion))
  | returned =>
      rw [at'] at place
      exact ⟨stopping.trans place.1, noticed at'⟩
  | freeing | closed =>
      rw [at'] at place
      have waits := runs.events (by rw [at']; rfl) (by rw [at']; exact Owner.noConfusion)
      rcases place.events with absent | ended
      · cases absent.symm.trans waits
      · cases ended.symm.trans waits
  | interrupting | joining =>
      rw [at'] at place
      exact fun absent => place (events.symm.trans absent)
  | collecting | handling =>
      rw [at'] at place
      exact events.trans place
  | stopping | cancelling | leaked => trivial

theorem Runs.counted {handler : Handler} (runs : s.Runs handler) (place : s.Place s.owner) :
    s.owner.uncounted = 0 := by
  cases at' : s.owner with
  | counting =>
      rw [at'] at place
      cases place.events.symm.trans
        (runs.events (by rw [at']; rfl) (by rw [at']; exact Owner.noConfusion))
  | _ => rfl

/-- What is out is in flight. -/
theorem Orderly.inFlight_pos (orderly : s.Orderly) {handler : Handler} (runs : s.Runs handler)
    {index : Nat} {holder : Holder} (there : s.transfers[index]? = some holder)
    (out : holder ≠ .stream) : 0 < s.inFlight := by
  have flight := orderly.flight
  rw [runs.counted orderly.place] at flight
  have some : s.abroad ≠ 0 := fun none => out (abroad_eq_zero none there)
  omega

/-- As long as the event thread is there, it does not matter where it is. -/
theorem Orderly.place_live (orderly : s.Orderly) (there : s.events ≠ .absent)
    (going : s.events ≠ .ended) {events : EventThread} (still : events ≠ .absent) :
    Place { s with events } s.owner := by
  have place := orderly.place
  cases at' : s.owner with
  | allocating | submitting | counting | checking =>
      rw [at'] at place
      exact (there place.events).elim
  | starting =>
      rw [at'] at place
      exact (there place.1.events).elim
  | returned =>
      rw [at'] at place
      exact place
  | collecting | handling =>
      rw [at'] at place
      exact (there place).elim
  | freeing | closed =>
      rw [at'] at place
      exact (place.events.elim there going).elim
  | interrupting | joining => exact still
  | stopping | cancelling | leaked => trivial

theorem Orderly.counted (orderly : s.Orderly) (there : s.events ≠ .absent) :
    s.owner.uncounted = 0 := by
  have place := orderly.place
  cases at' : s.owner with
  | counting =>
      rw [at'] at place
      exact (there place.events).elim
  | _ => rfl

theorem Orderly.eventsNext (orderly : s.Orderly) (moved : s.eventsNext = some after) :
    after.Orderly := by
  have accounted := orderly.toAccounted.eventsNext moved
  cases at' : s.events with
  | checking =>
      have there : s.events ≠ .absent := by rw [at']; exact EventThread.noConfusion
      have going : s.events ≠ .ended := by rw [at']; exact EventThread.noConfusion
      simp only [Stream.eventsNext, at'] at moved
      cases moved
      have still : (if 0 < s.inFlight then EventThread.handling else .ended) ≠ .absent := by
        split
        · exact EventThread.noConfusion
        · exact EventThread.noConfusion
      refine orderly.goOn accounted rfl rfl rfl (orderly.place_live there going still) ?_
        fun ended => ?_
      · intro handler callback running
        have runs := orderly.runs _ _ running
        cases handler with
        | events => cases at'.symm.trans runs
        | owner => exact runs
        | guest => exact runs
      · refine orderly.abroad_zero (fun some => ?_) (orderly.counted there)
        have ended : (if 0 < s.inFlight then EventThread.handling else .ended) = .ended := ended
        rw [if_pos some] at ended
        cases ended
  | handling =>
      have there : s.events ≠ .absent := by rw [at']; exact EventThread.noConfusion
      have going : s.events ≠ .ended := by rw [at']; exact EventThread.noConfusion
      simp only [Stream.eventsNext, at'] at moved
      split at moved
      · cases moved
      · rename_i elsewhere
        cases moved
        refine orderly.goOn accounted rfl rfl rfl
          (orderly.place_live there going EventThread.noConfusion) ?_ fun ended => by cases ended
        intro handler callback running
        have runs := orderly.runs _ _ running
        cases handler with
        | events =>
            rw [running] at elsewhere
            exact (elsewhere rfl).elim
        | owner => exact runs
        | guest => exact runs
  | absent | ended =>
      simp only [Stream.eventsNext, at'] at moved
      cases moved

theorem Orderly.handOver {handler : Handler} {index : Nat} {status : TransferStatus}
    {data : List UInt8} (orderly : s.Orderly) (polite : handler = .guest → s.owner = .returned)
    (moved : s.handOver handler index status data = some after) : after.Orderly := by
  have accounted := orderly.toAccounted.handOver moved
  rw [Stream.handOver] at moved
  split at moved
  · rename_i possible
    obtain ⟨out, -, waits, -⟩ := possible
    have runs : s.Runs handler := by
      cases handler with
      | events => exact @of_decide_eq_true (s.events = .handling) _ waits
      | owner => exact waits
      | guest => exact polite rfl
    have flying := orderly.inFlight_pos runs out (by decide)
    cases moved
    exact {
      toAccounted := accounted
      place := runs.place orderly.place rfl rfl rfl fun _ (none : s.inFlight = 0) => by omega
      runs := fun _ _ running => by
        cases running
        cases handler <;> exact runs
      ended := fun ended => by
        have zero := orderly.ended ended
        cases abroad_eq_zero zero out
      retired := fun _ _ running => by cases running
      losing := fun _ running => by cases running
      dry := orderly.dry }
  · cases moved

/-- A callback goes on, and disposes of no transfer. -/
theorem Orderly.turn (orderly : s.Orderly) {handler : Handler} {callback : Callback}
    (running : s.callback = some (handler, callback)) (accounted : after.Accounted)
    (owner : after.owner = s.owner) (events : after.events = s.events)
    (stopping : after.stopping = s.stopping) (transfers : after.transfers = s.transfers)
    (inFlight : after.inFlight = s.inFlight) (dry : after.lost = true → s.inFlight = 0)
    (later : ∀ other later, after.callback = some (other, later) → other = handler ∧
      (∀ left, later = .retired left → left = s.inFlight) ∧ (later = .losing → s.inFlight = 0))
    (noticed : s.owner = .returned → s.inFlight = 0 → after.Noticed) : after.Orderly where
  toAccounted := accounted
  place := by
    refine (orderly.runs _ _ running).place orderly.place owner events stopping ?_
    rwa [inFlight]
  runs other callback there := by
    have runs := orderly.runs _ _ running
    obtain ⟨rfl, -⟩ := later other callback there
    cases other with
    | events => exact events.trans runs
    | owner => rwa [Runs, owner]
    | guest => exact owner.trans runs
  ended ended := by
    rw [abroad, transfers]
    exact orderly.ended (events.symm.trans ended)
  retired other left there := by
    rw [inFlight]
    exact (later other _ there).2.1 left rfl
  losing other there := by
    rw [inFlight]
    exact (later other _ there).2.2 rfl
  dry lost := by
    rw [inFlight]
    exact dry lost

theorem Orderly.flying (orderly : s.Orderly) {handler : Handler} {callback : Callback}
    (running : s.callback = some (handler, callback)) {index : Nat}
    (there : callback.transfer = some index) : s.inFlight ≠ 0 :=
  Int.ne_of_gt (orderly.inFlight_pos (orderly.runs _ _ running)
    (orderly.held _ _ _ running there) (by decide))

theorem Orderly.proceeds (orderly : s.Orderly) {handler : Handler} {callback later : Callback}
    {ring : UsbStream} (running : s.callback = some (handler, callback))
    (goes : s.Proceeds callback later)
    (accounted : Accounted { s with ring, callback := some (handler, later) }) :
    Orderly { s with ring, callback := some (handler, later) } := by
  refine orderly.turn running accounted rfl rfl rfl rfl rfl orderly.dry ?_ ?_
  · intro _ _ there
    cases there
    refine ⟨rfl, fun _ retired => ?_, fun losing => ?_⟩
    · subst retired
      cases goes
    · subst losing
      cases goes
      exact (orderly.retired _ _ running).symm
  · intro at' none
    cases goes with
    | entered | goesBack | retires | refused => exact absurd none (orderly.flying running rfl)
    | last => exact .inr ⟨handler, .inr rfl⟩
    | wakes left going =>
        have place := orderly.place
        rw [at'] at place
        exact absurd ⟨(orderly.retired _ _ running).trans none, place.1⟩ going

theorem Orderly.callbackNext {answer : Int} (orderly : s.Orderly)
    (moved : s.callbackNext answer = some after) : after.Orderly := by
  have accounted := orderly.toAccounted.callbackNext moved
  obtain ⟨handler, callback, running, moves⟩ := callbackMoves moved
  have runs := orderly.runs _ _ running
  cases moves with
  | proceeds callback later ring goes => exact orderly.proceeds running goes accounted
  | resubmits index =>
      have out := orderly.held _ _ _ running rfl
      exact {
        toAccounted := accounted
        place := runs.place orderly.place rfl rfl rfl fun _ (none : s.inFlight = 0) =>
          absurd none (orderly.flying running rfl)
        runs := fun _ _ there => by cases there
        ended := fun ended => by cases abroad_eq_zero (orderly.ended ended) out
        retired := fun _ _ there => by cases there
        losing := fun _ there => by cases there
        dry := orderly.dry }
  | retires index =>
      have out := orderly.held _ _ _ running rfl
      exact {
        toAccounted := accounted
        place := runs.place orderly.place rfl rfl rfl fun _ (none : s.inFlight - 1 = 0) =>
          .inr ⟨handler, .inl (by rw [none])⟩
        runs := fun _ _ there => by
          cases there
          cases handler <;> exact runs
        ended := fun ended => by cases abroad_eq_zero (orderly.ended ended) out
        retired := fun _ _ there => by
          cases there
          rfl
        losing := fun _ there => by cases there
        dry := fun lost => absurd (orderly.dry lost) (orderly.flying running rfl) }
  | loses =>
      refine orderly.turn running accounted rfl rfl rfl rfl rfl
        (fun _ => orderly.losing _ running) ?_ fun _ _ => .inl rfl
      intro _ _ there
      cases there
      exact ⟨rfl, fun _ absurd => (by cases absurd), fun absurd => by cases absurd⟩
  | wakes =>
      refine orderly.turn running accounted rfl rfl rfl rfl rfl orderly.dry
        (fun _ _ there => by cases there) fun at' none => ?_
      have place := orderly.place
      rw [at'] at place
      rcases place.2 none with lost | ⟨handler, retired | losing⟩
      · exact .inl lost
      · cases running.symm.trans retired
      · cases running.symm.trans losing

/-- What is in the ring does not matter. -/
theorem Orderly.ring (orderly : s.Orderly) (ring : UsbStream) : Orderly { s with ring } := by
  refine orderly.goOn ?_ rfl rfl rfl ?_ (fun handler callback running => ?_) orderly.ended
  · exact orderly.kept rfl rfl rfl id fun _ callback _ there index => ⟨callback, there, index⟩
  · have place := orderly.place
    show Place { s with ring } s.owner
    cases at' : s.owner with
    | allocating | submitting | counting | checking =>
        rw [at'] at place
        exact { place with }
    | starting =>
        rw [at'] at place
        exact ⟨{ place.1 with }, place.2⟩
    | returned | interrupting | joining | collecting | handling =>
        rw [at'] at place
        exact place
    | freeing | closed =>
        rw [at'] at place
        exact { place with }
    | stopping | cancelling | leaked => trivial
  · have runs := orderly.runs _ _ running
    cases handler <;> exact runs

/-- Another thread is handed a transfer only while the stream is open, and is through with it
before the stream is closed. -/
def polite (s : Stream) : StreamMove → Bool
  | .handOver .guest .. => s.owner = .returned
  | .owner _ => s.owner ≠ .returned ∨ s.callback.map Prod.fst ≠ some .guest
  | _ => true

theorem Orderly.next {move : StreamMove} (orderly : s.Orderly) (polite : s.polite move = true)
    (moved : Step s move after) : after.Orderly := by
  cases move with
  | owner answer =>
      refine orderly.ownerNext (fun at' callback guest => ?_) moved
      rcases of_decide_eq_true polite with elsewhere | through
      · exact elsewhere at'
      · rw [guest] at through
        exact through rfl
  | events => exact orderly.eventsNext moved
  | handOver handler index status data =>
      refine orderly.handOver (fun guest => ?_) moved
      rw [guest] at polite
      exact of_decide_eq_true polite
  | callback answer => exact orderly.callbackNext moved
  | read capacity =>
      simp only [Step, Stream.next] at moved
      split at moved
      · cases moved
        exact orderly.ring _
      · cases moved
  | flush =>
      simp only [Step, Stream.next] at moved
      split at moved
      · cases moved
        exact orderly.ring _
      · cases moved

end Orderly

/-! ## Every run -/

/-- All transfers are home. -/
def Home (s : Stream) : Prop := ∀ holder ∈ s.transfers, holder = .stream

theorem home_iff {s : Stream} : s.Home ↔ s.abroad = 0 := by
  simp only [Home, abroad, List.countP_eq_zero, ne_eq, decide_not, Bool.not_eq_true',
    decide_eq_false_iff_not, not_not]

/-- What one move leaves behind. -/
structure Safe (moved : Moved Stream StreamMove) : Prop where
  /-- Nothing is freed that the driver, a callback or the event thread still needs, -/
  released : moved.after.owner.isReleasing → moved.after.Home ∧ moved.after.callback = none ∧
    (moved.after.events = .absent ∨ moved.after.events = .ended)
  /-- and behind that nobody else moves. -/
  alone : moved.before.owner.isReleasing → ∃ answer, moved.event = .owner answer
  /-- The event thread leaves nothing behind. -/
  ended : moved.after.events = .ended → moved.after.Home
  /-- The stream is lost when it ran dry, -/
  lost : moved.after.lost = true → moved.after.Home
  /-- and whoever reads an open stream is told so. -/
  told : moved.after.owner = .returned → moved.after.callback = none → moved.after.Home →
    moved.after.lost = true

theorem streamOpen_orderly {device memory : Bool} {transfers chunkBytes ringBytes : Nat}
    {ring : Space UInt8} {opened : Stream}
    (opens : streamOpen device transfers chunkBytes ringBytes memory ring = .ok opened) :
    opened.Orderly := by
  rw [streamOpen] at opens
  split at opens
  · cases opens
  · split at opens
    · cases opens
    · cases opens
      exact Fresh.orderly ⟨rfl, rfl, rfl, rfl⟩
        ⟨rfl, fun _ _ _ absurd => (by cases absurd), fun absurd => by cases absurd⟩
        ⟨rfl, rfl, rfl, rfl⟩

theorem Orderly.quiet {s : Stream} (orderly : s.Orderly) (releasing : s.owner.isReleasing = true) :
    s.Quiet := by
  have place := orderly.place
  cases at' : s.owner with
  | freeing | closed =>
      rw [at'] at place
      exact place
  | _ =>
      rw [at'] at releasing
      cases releasing

theorem Orderly.lost_home {s : Stream} (orderly : s.Orderly) (lost : s.lost = true) : s.Home := by
  have none := orderly.dry lost
  refine home_iff.mpr (orderly.abroad_zero (by omega) ?_)
  have place := orderly.place
  cases at' : s.owner with
  | counting =>
      rw [at'] at place
      cases place.lost.symm.trans lost
  | _ => rfl

/-- Behind the last callback nobody but the owner moves. -/
theorem Quiet.alone {s after : Stream} {move : StreamMove} (quiet : s.Quiet)
    (releasing : s.owner.isReleasing = true) (moved : Step s move after) :
    ∃ answer, move = .owner answer := by
  have elsewhere : s.owner ≠ .returned := by
    intro at'
    rw [at'] at releasing
    cases releasing
  cases move with
  | owner answer => exact ⟨answer, rfl⟩
  | events =>
      simp only [Step, Stream.next, Stream.eventsNext] at moved
      rcases quiet.events with absent | ended
      · rw [absent] at moved
        cases moved
      · rw [ended] at moved
        cases moved
  | handOver handler index status data =>
      simp only [Step, Stream.next, Stream.handOver] at moved
      split at moved
      · rename_i possible
        cases abroad_eq_zero quiet.abroad possible.1
      · cases moved
  | callback answer =>
      simp only [Step, Stream.next, Stream.callbackNext, quiet.callback] at moved
      cases moved
  | read capacity =>
      simp only [Step, Stream.next, if_neg elsewhere] at moved
      cases moved
  | flush =>
      simp only [Step, Stream.next, if_neg elsewhere] at moved
      cases moved

theorem Orderly.safe {before after : Stream} {move : StreamMove} (orderly : before.Orderly)
    (later : after.Orderly) (moved : Step before move after) : Safe ⟨before, move, after⟩ where
  released releasing := by
    have quiet := later.quiet releasing
    exact ⟨home_iff.mpr quiet.abroad, quiet.callback, quiet.events⟩
  alone releasing := (orderly.quiet releasing).alone releasing moved
  ended ended := home_iff.mpr (later.ended ended)
  lost := later.lost_home
  told at' nobody home := by
    have place := later.place
    have flight := later.flight
    have at' : after.owner = .returned := at'
    rw [at'] at place flight
    have none : after.inFlight = 0 := by
      have counted : Owner.returned.uncounted = 0 := rfl
      rw [home_iff.mp home, counted] at flight
      omega
    rcases place.2 none with lost | ⟨handler, retired | losing⟩
    · exact lost
    · cases nobody.symm.trans retired
    · cases nobody.symm.trans losing

/-- Whatever the driver, the two threads and the others do, and in whatever order: the counter
of a stream counts what is out, and as long as other threads keep out of the opening and the
closing, a stream is freed only when nobody needs it any more, and is called lost only when it ran
dry, and always when it did so while open. -/
theorem transfers_safe {device memory : Bool} {transfers chunkBytes ringBytes : Nat}
    {ring : Space UInt8} {opened final : Stream} {moves : List (Moved Stream StreamMove)}
    (opens : streamOpen device transfers chunkBytes ringBytes memory ring = .ok opened)
    (walk : Walk Step opened moves final) :
    (∀ moved ∈ moves, moved.after.Accounted) ∧
      ((∀ moved ∈ moves, moved.before.polite moved.event = true) →
        ∀ moved ∈ moves, Safe moved) := by
  have orderly := streamOpen_orderly opens
  constructor
  · apply walk.wanted_of_allowed Accounted (fun _ => True) (fun moved => moved.after.Accounted)
      _ orderly.toAccounted fun _ _ => trivial
    intro moved step _ accounted
    have next := accounted.next step
    exact ⟨next, next⟩
  · intro polite
    apply walk.wanted_of_allowed Orderly (fun moved => moved.before.polite moved.event = true) Safe
      _ orderly polite
    intro moved step polite orderly
    have later := orderly.next polite step
    exact ⟨later, orderly.safe later step⟩

/-! ## One life -/

theorem sampleRing_pos : 0 < 8 := Nat.succ_pos 7

/-- A stream of one transfer, just opened. -/
def sampleStream : Stream where
  transferCount := 1
  chunkBytes := 4
  transfers := []
  ring := .opened ⟨8, sampleRing_pos⟩ fun _ => 0
  inFlight := 0
  stopping := false
  lost := false
  callback := none
  events := .absent
  owner := .allocating

/-- A guest submits the transfer again, and the stream is closed while it is out. -/
def sampleLife : List StreamMove :=
  .replicate 6 (.owner 0) ++
    [.events, .handOver .guest 0 .completed [1, 2], .callback 0, .callback 0, .callback 0,
      .read 8, .owner 0, .owner 0, .owner 0, .owner 0, .owner 0,
      .handOver .events 0 .cancelled []] ++
    .replicate 5 (.callback 0) ++ [.events, .events] ++ .replicate 3 (.owner 0)

/-- The stream is freed in the end. -/
theorem transfers_safe_sampleLife : ∃ final moves,
    streamOpen true 1 4 8 true (fun _ => 0) = .ok sampleStream ∧
      Walk Step sampleStream moves final ∧ moves.map Moved.event = sampleLife ∧
        final.owner = .closed none ∧ ∀ moved ∈ moves, Safe moved := by
  have opens : streamOpen true 1 4 8 true (fun _ => 0) = .ok sampleStream := rfl
  have walk := walk_follow Stream.next sampleStream sampleLife
  have safe := (transfers_safe opens walk).2 (List.all_eq_true.mp rfl)
  exact ⟨_, _, opens, walk, rfl, rfl, safe⟩

/-- A guest finds the device gone, and is slow behind setting `lost`. -/
def lateGuest : List StreamMove :=
  .replicate 6 (.owner 0) ++ .handOver .guest 0 .noDevice [] :: .replicate 5 (.callback 0) ++
    .events :: .replicate 8 (.owner 0) ++ [.callback 0]

/-- Keeping out is needed: a guest that is not through wakes the readers of a freed stream. -/
theorem lateGuest_wakes_freed : ∃ final moves,
    Walk Step sampleStream moves final ∧ moves.map Moved.event = lateGuest ∧
      ∃ moved ∈ moves, moved.before.owner = .closed none ∧
        moved.before.callback = some (.guest, .waking) ∧ moved.event = .callback 0 :=
  ⟨_, _, walk_follow Stream.next sampleStream lateGuest, rfl, _,
    List.getElem_mem (n := 21) (by decide), rfl, rfl, rfl⟩

end Stream
end Usb
