import UsbDvbs2.Usb.StreamOrder

/-! # The end of a stream

From the moment `stopping` is set, the driver gives back what it holds and at most one transfer
more, whatever the other threads do; and behind the last callback the two threads end the stream
by themselves.
-/

namespace Usb

open Concurrency Memory

/-- The callback may still submit its transfer. -/
def Callback.goingBack : Callback → Nat
  | .judging _ _ _ true | .resubmitting _ => 1
  | _ => 0

/-- `stopping` is set. -/
def Owner.isClosing : Owner → Bool
  | .cancelling .. | .interrupting _ | .joining _ | .collecting _ | .handling _ | .freeing ..
  | .closed _ | .leaked _ => true
  | _ => false

def StreamMove.isHandOver : StreamMove → Bool
  | .handOver .. => true
  | _ => false

namespace Stream

def submitted (s : Stream) : Nat := s.transfers.countP (· = .driver)

def goingBack (s : Stream) : Nat :=
  match s.callback with
  | some (_, callback) => callback.goingBack
  | none => 0

/-- The transfers that the driver can still give back. -/
def pending (s : Stream) : Nat := s.submitted + s.goingBack

/-- `stopping` shows where the owner stands. -/
def Marked (s : Stream) : Prop := s.stopping = s.owner.isClosing

section Pending

variable {s after : Stream}

theorem submitted_given {index : Nat} (there : s.transfers[index]? = some .driver)
    (same : after.transfers = s.transfers.set index .callback) :
    after.submitted + 1 = s.submitted := by
  have count := @countP_set _ (· = .driver) _ _ _ there .callback
  rw [submitted, same]
  exact count

theorem submitted_taken {index : Nat} (there : s.transfers[index]? = some .callback)
    (same : after.transfers = s.transfers.set index .driver) :
    after.submitted = s.submitted + 1 := by
  have count := @countP_set _ (· = .driver) _ _ _ there .driver
  rw [submitted, same]
  exact count

theorem submitted_kept {index : Nat} (there : s.transfers[index]? = some .callback)
    (same : after.transfers = s.transfers.set index .stream) : after.submitted = s.submitted := by
  have count := @countP_set _ (· = .driver) _ _ _ there .stream
  rw [submitted, same]
  exact count

theorem Goes.isClosing {owner later : Owner} (goes : s.Goes owner later) :
    later.isClosing = owner.isClosing := by
  cases goes <;> rfl

/-- The owner goes on closing. -/
theorem ownerNext_closing {answer : Int} (marked : s.Marked) (stopping : s.stopping = true)
    (moved : s.ownerNext answer = some after) :
    ∃ owner : Owner, owner.isClosing = true ∧ after = { s with owner } := by
  have closing := marked.symm.trans stopping
  cases ownerMoves moved with
  | goes owner goes => exact ⟨owner, goes.isClosing.trans closing, rfl⟩
  | allocates at' | submits at' | counts at' | starts at' | stops _ at' =>
      rw [at'] at closing
      cases closing

/-- A stopping stream gives nothing more back to the driver. -/
theorem Proceeds.goingBack_le {callback later : Callback} (goes : s.Proceeds callback later)
    (stopping : s.stopping = true) : later.goingBack ≤ callback.goingBack := by
  cases goes with
  | entered =>
      rw [stopping]
      exact Nat.le_refl _
  | goesBack => exact Nat.le_refl _
  | retires | refused | last | wakes => exact Nat.zero_le _

theorem pending_callbackNext {answer : Int} (accounted : s.Accounted)
    (stopping : s.stopping = true) (moved : s.callbackNext answer = some after) :
    after.pending ≤ s.pending := by
  obtain ⟨handler, callback, running, moves⟩ := callbackMoves moved
  have held := fun index => accounted.held handler callback index running
  have before : s.pending = s.submitted + callback.goingBack := by
    rw [pending, goingBack, running]
  rw [before]
  cases moves with
  | proceeds callback later ring goes =>
      exact Nat.add_le_add_left (goes.goingBack_le stopping) s.submitted
  | resubmits index => exact Nat.le_of_eq (submitted_taken (held index rfl) rfl)
  | retires index => exact Nat.le_of_eq (submitted_kept (held index rfl) rfl)
  | loses | wakes => exact Nat.le_refl _

/-- One move: what is given back was pending. -/
theorem pending_next {move : StreamMove} (accounted : s.Accounted) (marked : s.Marked)
    (stopping : s.stopping = true) (moved : Step s move after) :
    after.pending + move.isHandOver.toNat ≤ s.pending ∧ after.Marked ∧ after.stopping = true := by
  cases move with
  | owner answer =>
      obtain ⟨owner, closing, rfl⟩ := ownerNext_closing marked stopping moved
      exact ⟨Nat.le_refl _, stopping.trans closing.symm, stopping⟩
  | events =>
      obtain ⟨events, rfl⟩ := eventsNext_eq moved
      exact ⟨Nat.le_refl _, marked, stopping⟩
  | handOver handler index status data =>
      simp only [Step, Stream.next, Stream.handOver] at moved
      split at moved
      · rename_i possible
        cases moved
        obtain ⟨out, nobody, -⟩ := possible
        refine ⟨?_, marked, stopping⟩
        exact Nat.le_trans (Nat.le_of_eq (submitted_given out rfl)) (Nat.le_add_right _ _)
      · cases moved
  | callback answer =>
      have less := pending_callbackNext accounted stopping moved
      obtain ⟨_, _, _, _, _, rfl⟩ := callbackNext_eq moved
      exact ⟨less, marked, stopping⟩
  | read capacity =>
      simp only [Step, Stream.next] at moved
      split at moved
      · cases moved
        exact ⟨Nat.le_refl _, marked, stopping⟩
      · cases moved
  | flush =>
      simp only [Step, Stream.next] at moved
      split at moved
      · cases moved
        exact ⟨Nat.le_refl _, marked, stopping⟩
      · cases moved

/-- A whole run. -/
theorem pending_walk {final : Stream} {moves : List (Moved Stream StreamMove)}
    (walk : Walk Step s moves final) (accounted : s.Accounted) (marked : s.Marked)
    (stopping : s.stopping = true) :
    final.pending + moves.countP (fun moved => moved.event.isHandOver) ≤ s.pending := by
  induction walk with
  | nil => exact Nat.le_refl _
  | @cons s middle final move moves moved _ ih =>
      obtain ⟨less, marked, stopping⟩ := pending_next accounted marked stopping moved
      have rest := ih (accounted.next moved) marked stopping
      have turn : (if move.isHandOver then 1 else 0) = move.isHandOver.toNat := by
        cases move.isHandOver <;> rfl
      rw [List.countP_cons, turn]
      omega

theorem goingBack_le_one : s.goingBack ≤ 1 := by
  rw [goingBack]
  split
  · rename_i callback _
    rw [Callback.goingBack.eq_def]
    split <;> omega
  · exact Nat.zero_le 1

end Pending

/-! ## Where `stopping` is set -/

section Marked

variable {s after : Stream}

theorem Marked.ownerNext {answer : Int} (marked : s.Marked)
    (moved : s.ownerNext answer = some after) : after.Marked := by
  rw [Marked] at marked
  cases ownerMoves moved with
  | allocates at' | submits at' | counts at' | starts at' =>
      rw [at'] at marked
      exact marked
  | stops => rfl
  | goes owner goes => exact marked.trans goes.isClosing.symm

theorem Marked.next {move : StreamMove} (marked : s.Marked) (moved : Step s move after) :
    after.Marked := by
  cases move with
  | owner answer => exact marked.ownerNext moved
  | events =>
      obtain ⟨events, rfl⟩ := eventsNext_eq moved
      exact marked
  | handOver handler index status data =>
      simp only [Step, Stream.next, Stream.handOver] at moved
      split at moved
      · cases moved
        exact marked
      · cases moved
  | callback answer =>
      obtain ⟨_, _, _, _, _, rfl⟩ := callbackNext_eq moved
      exact marked
  | read capacity =>
      simp only [Step, Stream.next] at moved
      split at moved
      · cases moved
        exact marked
      · cases moved
  | flush =>
      simp only [Step, Stream.next] at moved
      split at moved
      · cases moved
        exact marked
      · cases moved

theorem streamOpen_marked {device memory : Bool} {transfers chunkBytes ringBytes : Nat}
    {ring : Space UInt8} {opened : Stream}
    (opens : streamOpen device transfers chunkBytes ringBytes memory ring = .ok opened) :
    opened.Marked := by
  rw [streamOpen] at opens
  split at opens
  · cases opens
  · split at opens
    · cases opens
    · cases opens
      rfl

end Marked

/-! ## The last moves -/

/-- The owner and the event thread can end the stream by themselves. -/
def Ends (s : Stream) : Prop :=
  ∃ moves final, Walk Step s moves final ∧
    (∀ moved ∈ moves, moved.event = .owner 0 ∨ moved.event = .events) ∧
      ∃ code, final.owner = .closed code

section Ends

variable {s after : Stream}

theorem Ends.before {move : StreamMove} (ends : after.Ends) (moved : Step s move after)
    (own : move = .owner 0 ∨ move = .events) : s.Ends := by
  obtain ⟨moves, final, walk, all, closed⟩ := ends
  refine ⟨_, final, .cons moved walk, fun other listed => ?_, closed⟩
  rcases List.mem_cons.mp listed with rfl | later
  · exact own
  · exact all other later

/-- A move of the owner. -/
theorem ends_owner {owner : Owner} (moved : s.ownerNext 0 = some { s with owner })
    (ends : Ends { s with owner }) : s.Ends :=
  @Ends.before s _ (.owner 0) ends moved (.inl rfl)

theorem ends_freeing {code : Option Int} {index : Nat} (at' : s.owner = .freeing code index) :
    s.Ends := by
  induction rest : s.transfers.length - index generalizing s index with
  | zero =>
      have ended : ¬ index < s.transfers.length := by omega
      have moved : s.ownerNext 0 = some { s with owner := .closed code } := by
        simp only [Stream.ownerNext, at', if_neg ended]
      exact ends_owner moved
        ⟨[], _, .nil _, fun _ absurd => (List.not_mem_nil absurd).elim, code, rfl⟩
  | succ left ih =>
      have going : index < s.transfers.length := by omega
      have moved : s.ownerNext 0 = some { s with owner := .freeing code (index + 1) } := by
        simp only [Stream.ownerNext, at', if_pos going]
      have shorter : s.transfers.length - (index + 1) = left := by omega
      exact ends_owner moved (ih rfl shorter)

theorem ends_joining {code : Option Int} (at' : s.owner = .joining code)
    (ended : s.events = .ended) : s.Ends := by
  have moved : s.ownerNext 0 = some { s with owner := .freeing code 0 } := by
    simp only [Stream.ownerNext, at', if_pos ended]
    rfl
  exact ends_owner moved (ends_freeing rfl)

theorem ends_interrupting {code : Option Int} (at' : s.owner = .interrupting code)
    (ended : s.events = .ended) : s.Ends := by
  have moved : s.ownerNext 0 = some { s with owner := .joining code } := by
    simp only [Stream.ownerNext, at']
  exact ends_owner moved (ends_joining rfl ended)

theorem ends_collecting {code : Option Int} (at' : s.owner = .collecting code)
    (dry : ¬ 0 < s.inFlight) : s.Ends := by
  have moved : s.ownerNext 0 = some { s with owner := .freeing code 0 } := by
    simp only [Stream.ownerNext, at', if_neg dry]
  exact ends_owner moved (ends_freeing rfl)

theorem ends_cancelling {code : Option Int} {index : Nat} (at' : s.owner = .cancelling code index)
    (events : s.events = .absent ∨ s.events = .ended) (dry : ¬ 0 < s.inFlight) : s.Ends := by
  induction rest : s.transfers.length - index generalizing s index with
  | zero =>
      have cancelled : ¬ index < s.transfers.length := by omega
      rcases events with absent | ended
      · have moved : s.ownerNext 0 = some { s with owner := .collecting code } := by
          simp only [Stream.ownerNext, at', if_neg cancelled, if_pos absent]
        exact ends_owner moved (ends_collecting rfl dry)
      · have there : s.events ≠ .absent := by
          rw [ended]
          exact EventThread.noConfusion
        have moved : s.ownerNext 0 = some { s with owner := .interrupting code } := by
          simp only [Stream.ownerNext, at', if_neg cancelled, if_neg there]
        exact ends_owner moved (ends_interrupting rfl ended)
  | succ left ih =>
      have going : index < s.transfers.length := by omega
      have moved : s.ownerNext 0 = some { s with owner := .cancelling code (index + 1) } := by
        simp only [Stream.ownerNext, at', if_pos going]
      have shorter : s.transfers.length - (index + 1) = left := by omega
      exact ends_owner moved (ih rfl events dry shorter)

/-- The event thread has seen that nothing is in flight, or was never there. -/
theorem ends_closing (orderly : s.Orderly) (closing : s.owner.isClosing = true)
    (leaked : ∀ code, s.owner ≠ .leaked code) (events : s.events = .absent ∨ s.events = .ended)
    (dry : ¬ 0 < s.inFlight) (nobody : s.callback = none) : s.Ends := by
  have place := orderly.place
  cases at' : s.owner with
  | allocating | submitting | counting | checking | starting | returned | stopping =>
      rw [at'] at closing
      cases closing
  | cancelling code index => exact ends_cancelling at' events dry
  | interrupting code =>
      rw [at'] at place
      exact ends_interrupting at' (events.resolve_left place)
  | joining code =>
      rw [at'] at place
      exact ends_joining at' (events.resolve_left place)
  | collecting code => exact ends_collecting at' dry
  | handling code =>
      have moved : s.ownerNext 0 = some { s with owner := .collecting code } := by
        simp only [Stream.ownerNext, at', nobody, Option.map_none]
        rfl
      exact ends_owner moved (ends_collecting rfl dry)
  | freeing code index => exact ends_freeing at'
  | closed code =>
      exact ⟨[], s, .nil s, fun _ absurd => (List.not_mem_nil absurd).elim, code, at'⟩
  | leaked code => exact (leaked code at').elim

/-- Behind the last callback. -/
theorem Orderly.ends (orderly : s.Orderly) (closing : s.owner.isClosing = true)
    (leaked : ∀ code, s.owner ≠ .leaked code) (home : s.Home) (nobody : s.callback = none) :
    s.Ends := by
  have counted : s.owner.uncounted = 0 := by
    cases at' : s.owner with
    | counting =>
        rw [at'] at closing
        cases closing
    | _ => rfl
  have dry : ¬ 0 < s.inFlight := by
    have flight := orderly.flight
    rw [counted, home_iff.mp home] at flight
    omega
  have ended {s : Stream} (orderly : s.Orderly) (closing : s.owner.isClosing = true)
      (leaked : ∀ code, s.owner ≠ .leaked code) (dry : ¬ 0 < s.inFlight)
      (nobody : s.callback = none) (at' : s.events = .checking) : s.Ends := by
    have moved : Step s .events { s with events := .ended } := by
      simp only [Step, Stream.next, Stream.eventsNext, at', if_neg dry]
    have later := orderly.next rfl moved
    exact (ends_closing later closing leaked (.inr rfl) dry nobody).before moved (.inr rfl)
  cases at' : s.events with
  | absent => exact ends_closing orderly closing leaked (.inl at') dry nobody
  | ended => exact ends_closing orderly closing leaked (.inr at') dry nobody
  | checking => exact ended orderly closing leaked dry nobody at'
  | handling =>
      have moved : Step s .events { s with events := .checking } := by
        simp only [Step, Stream.next, Stream.eventsNext, at', nobody, Option.map_none]
        rfl
      have later := orderly.next rfl moved
      exact (ended later closing leaked dry nobody rfl).before moved (.inr rfl)

end Ends

/-- From the moment `stopping` is set in a run in which other threads keep out of the opening and
the closing: whatever follows, the driver gives back at most what it holds then and one transfer
more, which a callback was just submitting; and once everything is home, the closing thread and
the event thread need nobody else to free the stream, unless the waiting was given up. -/
theorem shutdown_bounded {device memory : Bool} {transfers chunkBytes ringBytes : Nat}
    {ring : Space UInt8} {opened s : Stream} {moves : List (Moved Stream StreamMove)}
    (opens : streamOpen device transfers chunkBytes ringBytes memory ring = .ok opened)
    (walk : Walk Step opened moves s)
    (polite : ∀ moved ∈ moves, moved.before.polite moved.event = true)
    (stopping : s.stopping = true) :
    (∀ later final, Walk Step s later final →
      later.countP (fun moved => moved.event.isHandOver) ≤ s.submitted + 1) ∧
    ((∀ code, s.owner ≠ .leaked code) → s.Home → s.callback = none → s.Ends) := by
  obtain ⟨orderly, marked⟩ := walk.invariant (fun s => s.Orderly ∧ s.Marked)
    (fun moved => moved.before.polite moved.event = true)
    (fun _ moved polite kept => ⟨kept.1.next polite moved, kept.2.next moved⟩)
    ⟨streamOpen_orderly opens, streamOpen_marked opens⟩ polite
  refine ⟨fun later final rest => ?_, fun leaked home nobody => ?_⟩
  · have bound := pending_walk rest orderly.toAccounted marked stopping
    have one := @goingBack_le_one s
    have parts : s.pending = s.submitted + s.goingBack := rfl
    omega
  · exact orderly.ends (marked.symm.trans stopping) leaked home nobody

/-- A callback is about to submit its transfer again when `stopping` is set. -/
def sampleRace : List StreamMove :=
  .replicate 6 (.owner 0) ++
    [.events, .handOver .events 0 .completed [1, 2], .callback 0, .callback 0, .owner 0, .owner 0]

/-- The transfer goes to the driver once more, and from there home. -/
def sampleReturn : List StreamMove :=
  [.callback 0, .handOver .events 0 .timedOut []] ++ .replicate 5 (.callback 0)

theorem shutdown_bounded_sampleRace : ∃ s final later, s.stopping = true ∧ s.submitted = 0 ∧
    Walk Step s later final ∧ (later.countP fun moved => moved.event.isHandOver) = 1 ∧
      (later.countP fun moved => moved.event.isHandOver) ≤ s.submitted + 1 ∧ final.Ends := by
  have opens : streamOpen true 1 4 8 true (fun _ => 0) = .ok sampleStream := rfl
  have race := walk_follow Stream.next sampleStream sampleRace
  have back := walk_follow Stream.next (follow Stream.next sampleStream sampleRace).2 sampleReturn
  have polite := fun moved => List.all_eq_true.mp (rfl :
    ((follow Stream.next sampleStream sampleRace).1.all fun moved =>
      moved.before.polite moved.event) = true) moved
  have bound := (shutdown_bounded opens race polite rfl).1 _ _ back
  have whole := race.append back
  have ends := (shutdown_bounded opens whole (List.all_eq_true.mp rfl) rfl).2
    (fun code => Owner.noConfusion) (fun holder listed => List.mem_singleton.mp listed) rfl
  exact ⟨_, _, _, rfl, rfl, back, rfl, bound, ends⟩

end Stream
end Usb
