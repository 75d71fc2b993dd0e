import UsbDvbs2.Camd.PublishedPid

/-! # The state that is shown

`dtv_camd_set_service` writes the state without a look at the connection, which only the
worker knows about. The state is asked for between the calls and the rounds of the worker,
as long as the client is not told to stop.
-/

namespace Camd

open Concurrency Program ThreadSystem

structure Display where
  courseOf : Party → Course := fun _ => {}
  /-- a control word was published since the service was set -/
  worded : Bool := false

def Display.note {config : Config} (display : Display) (event : (camd config).Event) : Display where
  courseOf := chart display.courseOf event
  worded :=
    match event with
    | .perform _ ⟨.setService .., _⟩ => false
    | .perform _ ⟨.publishControlWords .., _⟩ => true
    | _ => display.worded

abbrev Showing (config : Config) : Type :=
  Moved ((camd config).Config × Display) (camd config).Event

/-- The worker holds a connection it logged in on, and where a login proves nothing, the
server has answered on it. -/
structure Course.Online (course : Course) (proto : Proto) : Prop where
  opened : course.opened = true
  loggedIn : course.loggedIn = true
  proved : proto.verifiesLogin = false → course.answered = true

/-- What `dtv_camd_get_status` answers is true. -/
structure ShowsTruth {config : Config} (current : (camd config).Config) (display : Display) :
    Prop where
  connected : current.shared.client.status.state = .connected ∨
      current.shared.client.status.state = .decrypting →
    current.shared.client.connection.opened = true ∧
      (display.courseOf .worker).Online config.proto
  decrypting : current.shared.client.status.state = .decrypting → display.worded = true

def ShownTruly {config : Config} (moved : Showing config) : Prop :=
  Idle moved.after.1 → moved.after.1.shared.client.stop = false →
    ShowsTruth moved.after.1 moved.after.2

/-- A service is set while the worker is online, or is going to write the state in the round
it is in. -/
def SetsOnline {config : Config} (moved : Showing config) : Prop :=
  ∀ party serviceId candidates answer,
    moved.event = .perform party ⟨.setService serviceId candidates, answer⟩ →
      (moved.before.2.courseOf .worker).Online config.proto ∨
        (moved.before.2.courseOf .worker).due = true

/-! ## What the state stands for -/

/-- The state claims a connection only if there is one or the worker is about to write it. -/
structure Displayed (proto : Proto) (client : Client) (courseOf : Party → Course) (worded : Bool) :
    Prop where
  told : ∀ party, (courseOf party).stopping = true → client.stop = true
  linked : client.stop = false → client.connection.opened = (courseOf .worker).opened
  online : client.stop = false →
    client.status.state = .connected ∨ client.status.state = .decrypting →
      (courseOf .worker).Online proto ∨ (courseOf .worker).due = true
  decrypting : client.status.state = .decrypting → worded = true

variable {proto : Proto} {course : Course}

/-- The worker is online, or still has to write the state. -/
def Course.Stands (course : Course) (proto : Proto) : Prop :=
  course.Online proto ∨ course.due = true

/-- The sections that write the state. -/
def Op.Displays : Op → Prop
  | .setStatus .. | .publishControlWords .. | .setService .. => True
  | _ => False

section Operation

variable {operation : Op} {input : Input} {state next : State} {answer : operation.Answer}
  {config : Config} {courseOf : Party → Course} {mover : Party} {worded : Bool}

/-- A connection is given up only by a worker that writes the state afterwards. -/
theorem Course.Stands.write (stands : course.Stands proto)
    (may : course.Allows proto .worker operation) (silent : ¬ operation.Displays) :
    (course.write ⟨operation, answer⟩).Stands proto := by
  cases operation with
  | setStatus | publishControlWords | setService => exact (silent trivial).elim
  | openConnection =>
      exact .inr (stands.resolve_left fun online => nomatch may.2.symm.trans online.opened)
  | login =>
      exact .inr (stands.resolve_left fun online => nomatch may.2.2.symm.trans online.loggedIn)
  | closeConnection =>
      refine .inr (Bool.or_eq_true_iff.2 (stands.symm.imp_right fun online => ?_))
      exact online.loggedIn
  | takePendingEcm =>
      rw [Course.write]
      split
      · exact stands
      · exact .inr rfl
  | sendEcm =>
      rw [Course.write]
      split
      · exact stands.imp_left fun online => { online with }
      · exact stands
  | recvCw =>
      exact stands.imp_left fun online =>
        { online with
          proved := fun unproved => Bool.or_eq_true_iff.2 (.inl (online.proved unproved)) }
  | getError =>
      exact stands.imp_left fun online =>
        { online with
          proved := fun unproved => Bool.or_eq_true_iff.2 (.inl (online.proved unproved)) }
  | _ => exact stands.imp_left fun online => { online with }

theorem undisplayed (silent : ¬ operation.Displays)
    (performed : machine.exec operation input state = some (answer, next)) :
    next.client.status.state = state.client.status.state := by
  cases performed
  cases operation with
  | setStatus | publishControlWords | setService => exact (silent trivial).elim
  | submitEcm ecm =>
      simp only [effect, Client.submitEcm]
      split <;> rfl
  | takePendingEcm =>
      simp only [effect, Client.takePendingEcm]
      split <;> rfl
  | applyCandidate =>
      simp only [effect, Client.applyCandidate]
      split <;> rfl
  | _ => rfl

/-- Whether the worker is to stop is only ever told. -/
theorem stop_step (performed : machine.exec operation input state = some (answer, next)) :
    (state.client.stop = true → next.client.stop = true) ∧
      ((course.write ⟨operation, answer⟩).stopping = true →
        course.stopping = true ∨ next.client.stop = true) := by
  cases performed
  cases operation with
  | setStop => exact ⟨fun _ => rfl, fun _ => .inr rfl⟩
  | getStop => exact ⟨id, fun told => Bool.or_eq_true_iff.1 told⟩
  | setStatus progress message => cases message <;> exact ⟨id, .inl⟩
  | submitEcm ecm =>
      simp only [effect, Client.submitEcm]
      split <;> exact ⟨id, .inl⟩
  | takePendingEcm =>
      by_cases none : state.client.pendingEcm = []
      · simp only [effect, Client.takePendingEcm, if_pos none]
        exact ⟨id, .inl⟩
      · simp only [effect, Client.takePendingEcm, if_neg none, Course.write]
        exact ⟨id, .inl⟩
  | sendEcm =>
      refine ⟨id, fun told => .inl ?_⟩
      rw [Course.write] at told
      split at told <;> exact told
  | applyCandidate =>
      simp only [effect, Client.applyCandidate]
      split <;> exact ⟨id, .inl⟩
  | _ => exact ⟨id, .inl⟩

/-- A party that knows the worker is to stop is right. -/
theorem Displayed.told_step (displayed : Displayed proto state.client courseOf worded)
    (performed : machine.exec operation input state = some (answer, next)) (party : Party)
    (told : (@chart config courseOf (.perform mover ⟨operation, answer⟩) party).stopping = true) :
    next.client.stop = true := by
  have stays := (@stop_step {} _ _ _ _ _ performed).1
  by_cases own : party = mover
  · subst own
    rw [chart_self] at told
    rcases (stop_step performed).2 told with already | now
    · exact stays (displayed.told party already)
    · exact now
  · rw [chart_other _ own] at told
    exact stays (displayed.told party told)

/-- The operations that open and close the connection. -/
def Op.Links : Op → Prop
  | .openConnection | .closeConnection => True
  | _ => False

theorem unlinked (quiet : ¬ operation.Links)
    (performed : machine.exec operation input state = some (answer, next)) :
    next.client.connection.opened = state.client.connection.opened ∧
      (course.write ⟨operation, answer⟩).opened = course.opened := by
  cases performed
  cases operation with
  | openConnection | closeConnection => exact (quiet trivial).elim
  | setStatus progress message => cases message <;> exact ⟨rfl, rfl⟩
  | submitEcm ecm =>
      simp only [effect, Client.submitEcm]
      split <;> exact ⟨rfl, rfl⟩
  | takePendingEcm =>
      by_cases none : state.client.pendingEcm = []
      · simp only [effect, Client.takePendingEcm, if_pos none]
        exact ⟨trivial, rfl⟩
      · simp only [effect, Client.takePendingEcm, if_neg none, Course.write]
        exact ⟨trivial, trivial⟩
  | sendEcm =>
      refine ⟨rfl, ?_⟩
      rw [Course.write]
      split <;> rfl
  | applyCandidate =>
      simp only [effect, Client.applyCandidate]
      split <;> exact ⟨rfl, rfl⟩
  | _ => exact ⟨rfl, rfl⟩

/-- What the worker's course says of its connection is so, until it is told to stop. -/
theorem Displayed.linked_step (displayed : Displayed proto state.client courseOf worded)
    (may : (courseOf mover).Allows proto mover operation)
    (performed : machine.exec operation input state = some (answer, next))
    (on : next.client.stop = false) :
    next.client.connection.opened =
      (@chart config courseOf (.perform mover ⟨operation, answer⟩) .worker).opened := by
  have stays : state.client.stop = false := by
    refine Bool.eq_false_iff.2 fun told => ?_
    exact nomatch on.symm.trans ((@stop_step {} _ _ _ _ _ performed).1 told)
  have linked := displayed.linked stays
  rw [chart_worker]
  by_cases quiet : ¬ operation.Links
  · obtain ⟨opened, kept⟩ := @unlinked (courseOf .worker) _ _ _ _ _ quiet performed
    rw [opened, linked]
    split
    · exact kept.symm
    · rfl
  · cases performed
    cases operation with
    | openConnection =>
        obtain ⟨rfl, closed⟩ := may
        rw [if_pos rfl]
        simp only [effect, linked, closed, Bool.false_or]
        rfl
    | closeConnection =>
        rcases may with ⟨rfl, _⟩ | ⟨_, told⟩
        · rw [if_pos rfl]
          rfl
        · exact nomatch stays.symm.trans (displayed.told mover told)
    | _ => exact (quiet id).elim

/-- The state claims a connection only while the worker stands by it. -/
theorem Displayed.online_step (displayed : Displayed proto state.client courseOf worded)
    (may : (courseOf mover).Allows proto mover operation)
    (performed : machine.exec operation input state = some (answer, next))
    (sets : ∀ serviceId candidates, operation = .setService serviceId candidates →
      (courseOf .worker).Stands proto) (on : next.client.stop = false)
    (shows : next.client.status.state = .connected ∨ next.client.status.state = .decrypting) :
    (@chart config courseOf (.perform mover ⟨operation, answer⟩) .worker).Stands proto := by
  have stays : state.client.stop = false := by
    refine Bool.eq_false_iff.2 fun told => ?_
    exact nomatch on.symm.trans ((@stop_step {} _ _ _ _ _ performed).1 told)
  rw [chart_worker]
  by_cases silent : ¬ operation.Displays
  · rw [undisplayed silent performed] at shows
    have stands := displayed.online stays shows
    by_cases worker : mover = .worker
    · subst worker
      rw [if_pos rfl]
      exact Course.Stands.write stands may silent
    · rw [if_neg worker]
      exact stands
  · cases performed
    cases operation with
    | setService serviceId candidates =>
        rw [if_neg may.1]
        exact sets serviceId candidates rfl
    | publishControlWords words latencyMs =>
        obtain ⟨rfl, opened, loggedIn, answered⟩ := may
        rw [if_pos rfl]
        exact .inl ⟨opened, loggedIn, fun _ => answered⟩
    | setStatus progress message =>
        obtain ⟨rfl, words, connects⟩ := may
        rw [if_pos rfl]
        have written : progress = .connected := by
          cases message <;> exact shows.resolve_right words
        obtain ⟨opened, loggedIn, verified⟩ := connects written
        exact .inl ⟨opened, loggedIn, fun unproved => nomatch verified.symm.trans unproved⟩
    | _ => exact (silent id).elim

/-- A control word is published before the state says so. -/
theorem decrypting_step {display : Display}
    (decrypting : state.client.status.state = .decrypting → display.worded = true)
    (may : (display.courseOf mover).Allows proto mover operation)
    (performed : machine.exec operation input state = some (answer, next))
    (shows : next.client.status.state = .decrypting) :
    (@Display.note config display (.perform mover ⟨operation, answer⟩)).worded = true := by
  by_cases silent : ¬ operation.Displays
  · rw [undisplayed silent performed] at shows
    cases operation with
    | setStatus | publishControlWords | setService => exact (silent trivial).elim
    | _ => exact decrypting shows
  · cases performed
    cases operation with
    | setService serviceId candidates => exact nomatch shows
    | publishControlWords words latencyMs => rfl
    | setStatus progress message => cases message <;> exact absurd shows may.2.1
    | _ => exact (silent id).elim

end Operation

/-! ## Whole runs -/

/-- The parties keep to their courses, and the state stands for what it should. -/
structure Display.Valid {config : Config} (current : (camd config).Config × Display) : Prop where
  onCourse : OnCourse current.1 current.2.courseOf
  displayed : Displayed config.proto current.1.shared.client current.2.courseOf current.2.worded

variable {config : Config} {before next : (camd config).Config} {event : (camd config).Event}
  {display : Display}

theorem Display.valid_launched (now : UInt64) :
    Display.Valid (launched config now, ({} : Display)) where
  onCourse := onCourse_launched config now
  displayed := ⟨nofun, fun _ => rfl, fun _ shows => shows.elim nofun nofun, nofun⟩

/-- Between the rounds the worker has nothing to write, so the state is true. -/
theorem Display.Valid.truth (valid : Display.Valid (next, display)) (idle : Idle next)
    (on : next.shared.client.stop = false) : ShowsTruth next display := by
  obtain ⟨worker, resting⟩ := idle .worker
  have fits : (display.courseOf .worker).Fits worker := by
    have carries := valid.onCourse .worker
    rw [resting] at carries
    exact carries
  have runs : worker.running = true := by
    refine (Bool.not_eq_false _).mp fun left => ?_
    exact nomatch on.symm.trans (valid.displayed.told _ (fits.stopped left))
  refine ⟨fun shows => ?_, valid.displayed.decrypting⟩
  rcases valid.displayed.online on shows with online | due
  · exact ⟨(valid.displayed.linked on).trans online.opened, online⟩
  · exact nomatch (fits.written runs).symm.trans due

theorem Display.Valid.step (valid : Display.Valid (before, display))
    (step : (camd config).Step before event next)
    (sets : SetsOnline ⟨(before, display), event, (next, display.note event)⟩) :
    Display.Valid (next, display.note event) := by
  obtain ⟨onCourse, allowed⟩ := valid.onCourse.step step
  refine ⟨onCourse, ?_⟩
  have displayed := valid.displayed
  cases step with
  | @start mover command _ _ _ _ =>
      have opens : ∀ party, (display.note (.start mover command)).courseOf party =
          if mover = party then (display.courseOf party).opens else display.courseOf party :=
        fun _ => rfl
      constructor
      · intro party told
        rw [opens] at told
        split at told <;> exact displayed.told party told
      · intro on
        rw [opens]
        split <;> exact displayed.linked on
      · intro on shows
        rw [opens]
        have stands := displayed.online on shows
        split
        · exact stands.imp (fun online => { online with }) fun due =>
            Bool.or_eq_true_iff.2 (.inl due)
        · exact stands
      · exact displayed.decrypting
  | finish _ => exact ⟨displayed.told, displayed.linked, displayed.online, displayed.decrypting⟩
  | @perform mover _ operation _ input answer shared _ performed =>
      have may := allowed mover ⟨operation, answer⟩ rfl
      constructor
      · exact fun party => displayed.told_step performed party
      · exact displayed.linked_step may performed
      · refine displayed.online_step may performed ?_
        rintro serviceId candidates rfl
        exact sets mover serviceId candidates answer rfl
      · exact decrypting_step displayed.decrypting may performed

/-- The steps of a run, with what is known of the connection. -/
def showing (moves : List (Moved (camd config).Config (camd config).Event)) :
    List (Showing config) :=
  record Display.note {} moves

/-- **The state that is shown is true, as long as services are set online.** In every
interleaving of the worker with any number of callers in which every service is set while the
worker is online or still has to write the state in its round, the state that is shown
between the rounds is true, until the client is told to stop. -/
theorem state_shown_truly {now : UInt64} {final : (camd config).Config}
    {moves : List (Moved (camd config).Config (camd config).Event)}
    (walk : Walk (camd config).Step (launched config now) moves final)
    (sets : ∀ moved ∈ showing moves, SetsOnline moved) :
    ∀ moved ∈ showing moves, ShownTruly moved := by
  refine walk.recorded_wanted Display.Valid SetsOnline _ ?_ (Display.valid_launched now) sets
  intro before after event display step valid online
  have later := valid.step step online
  exact ⟨later, later.truth⟩

/-! ### A service set without a connection -/

/-- The server cannot be reached. -/
def unreachable : Op → Input
  | .openConnection => { code := -1 }
  | _ => {}

/-- The worker logs in, then a service is set, and its ECM brings a control word. -/
def setOnline : List (camd localServer).Move :=
  .start .worker () :: performing .worker 12 willing ++ .finish .worker ::
    setting 0 1 [⟨0x500, 0x100, 0⟩] ++ handing 0 ++ .start .worker () ::
      performing .worker 10 willing ++ [.finish .worker]

/-- The worker has failed to connect, and then a service is set. -/
def setOffline : List (camd localServer).Move :=
  .start .worker () :: performing .worker 6 unreachable ++ .finish .worker :: setting 0 1 []

def setsOnline (moved : Showing localServer) : Bool :=
  match moved.event with
  | .perform _ ⟨.setService .., _⟩ =>
      (moved.before.2.courseOf .worker).opened && (moved.before.2.courseOf .worker).loggedIn
  | _ => true

theorem setsOnline_of_checked {moved : Showing localServer} (checked : setsOnline moved = true) :
    SetsOnline moved := by
  intro party serviceId candidates answer event
  rw [setsOnline, event, Bool.and_eq_true] at checked
  exact .inl ⟨checked.1, checked.2, nofun⟩

theorem state_shown_truly_online :
    (tracked setOnline).2.shared.client.status.state = .decrypting ∧
      ∀ moved ∈ showing (tracked setOnline).1, ShownTruly moved := by
  have checked : (showing (tracked setOnline).1).all setsOnline = true := by decide +kernel
  exact ⟨by decide +kernel, state_shown_truly ((launched localServer 0).walk_track _)
    fun moved member => setsOnline_of_checked (List.all_eq_true.1 checked moved member)⟩

/-- The state says connected, and there is no connection. -/
theorem connected_shown_offline :
    ∃ final, Walk (camd localServer).Step (launched localServer 0) (tracked setOffline).1 final ∧
      Idle final ∧ final.shared.client.stop = false ∧
        final.shared.client.status.state = .connected ∧
          final.shared.client.connection.opened = false :=
  ⟨_, (launched localServer 0).walk_track setOffline,
    idle_tracked (by decide +kernel) (by decide +kernel) (by decide +kernel) (by decide +kernel),
    by decide +kernel, by decide +kernel, by decide +kernel⟩

end Camd
