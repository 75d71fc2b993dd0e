import UsbDvbs2.Camd.Course
import UsbDvbs2.Camd.KeyOrigin

/-! # The published pid and the candidate

`apply_candidate` takes the pid of the current candidate under the lock and publishes it
after giving the lock back. Every section that takes a pid gets a number, so that a pid
published after one taken later can be told.
-/

namespace Camd

open Concurrency Program ThreadSystem

/-- The CA system the worker is asking about. -/
def Client.candidate (client : Client) : Option Candidate :=
  client.candidates[client.candidateIndex]?

def Client.candidatePid (client : Client) : UInt16 := (client.candidate.map (·.ecmPid)).getD noPid

/-- The connection asks about the current candidate. -/
@[mk_iff]
structure Client.AsksCandidate (client : Client) : Prop where
  caSystemId : client.connection.caSystemId = (client.candidate.map (·.caSystemId)).getD 0
  providerId : client.connection.providerId = (client.candidate.map (·.providerId)).getD 0

/-- What is known of the pids that were taken and published. -/
structure Bulletin where
  courseOf : Party → Course := fun _ => {}
  /-- how many pids were taken -/
  taken : Nat := 0
  /-- the number of the pid that a party took last -/
  number : Party → Nat := fun _ => 0
  /-- the highest number that was published -/
  published : Nat := 0

def Bulletin.note {config : Config} (bulletin : Bulletin) (event : (camd config).Event) :
    Bulletin :=
  let carried := { bulletin with courseOf := chart bulletin.courseOf event }
  match event with
  | .perform party ⟨.applyCandidate, _⟩ =>
      { carried with
        taken := bulletin.taken + 1
        number := Function.update bulletin.number party (bulletin.taken + 1) }
  | .perform party ⟨.setActiveEcmPid _, _⟩ =>
      { carried with published := max bulletin.published (bulletin.number party) }
  | _ => carried

abbrev Posting (config : Config) : Type :=
  Moved ((camd config).Config × Bulletin) (camd config).Event

/-- A pid is published before any that was taken later, or is the same as is shown. -/
def PublishesInOrder {config : Config} (moved : Posting config) : Prop :=
  ∀ party pid answer, moved.event = .perform party ⟨.setActiveEcmPid pid, answer⟩ →
    moved.before.2.published < moved.before.2.number party ∨
      pid = moved.before.1.shared.client.activeEcmPid

/-- Nobody is between changing the candidate and publishing its pid. -/
def Bulletin.Quiet (bulletin : Bulletin) : Prop :=
  ∀ party, (bulletin.courseOf party).publishing = .settled

/-- Once nobody is at it, the candidate's pid is published. -/
def PublishesCandidate {config : Config} (moved : Posting config) : Prop :=
  moved.after.2.Quiet →
    moved.after.1.shared.client.activeEcmPid = moved.after.1.shared.client.candidatePid

/-- Once nobody is at it, the connection asks about the candidate. -/
def AsksCandidate {config : Config} (moved : Posting config) : Prop :=
  moved.after.2.Quiet → moved.after.1.shared.client.AsksCandidate

/-! ## The sections -/

/-- What the sections on the candidate read and write. -/
def Client.placard (client : Client) :
    (List Candidate × Nat) × (UInt16 × UInt32) × UInt16 × UInt16 :=
  ((client.candidates, client.candidateIndex),
    (client.connection.caSystemId, client.connection.providerId),
    client.status.ecmPid, client.activeEcmPid)

def Op.Placards : Op → Prop
  | .setService .. | .rotateCandidate | .applyCandidate | .setActiveEcmPid _ => True
  | _ => False

variable {operation : Op} {input : Input} {state next : State} {answer : operation.Answer}

theorem placard_unchanged (quiet : ¬ operation.Placards)
    (performed : machine.exec operation input state = some (answer, next)) :
    next.client.placard = state.client.placard := by
  cases performed
  cases operation with
  | setService | rotateCandidate | applyCandidate | setActiveEcmPid => exact (quiet trivial).elim
  | submitEcm ecm =>
      simp only [effect, Client.submitEcm]
      split <;> rfl
  | takePendingEcm =>
      simp only [effect, Client.takePendingEcm]
      split <;> rfl
  | setStatus progress message => cases message <;> rfl
  | _ => rfl

/-- The section of `apply_candidate` takes the candidate's pid, and lets the connection
ask about the candidate. -/
theorem applyCandidate_spec (client : Client) :
    client.applyCandidate.1 = client.candidatePid ∧
      client.applyCandidate.2.candidate = client.candidate ∧
        client.applyCandidate.2.status.ecmPid = client.candidatePid ∧
          client.applyCandidate.2.activeEcmPid = client.activeEcmPid ∧
            client.applyCandidate.2.AsksCandidate := by
  have pid : client.candidatePid =
      ((client.candidates[client.candidateIndex]?).map (·.ecmPid)).getD noPid := rfl
  cases here : client.candidates[client.candidateIndex]? with
  | none =>
      rw [here] at pid
      simp only [Client.applyCandidate, here, Client.asksCandidate_iff]
      refine ⟨pid.symm, rfl, pid.symm, trivial, ?_⟩
      simp only [Client.candidate, here]
      exact ⟨rfl, rfl⟩
  | some candidate =>
      rw [here] at pid
      simp only [Client.applyCandidate, here, Client.asksCandidate_iff]
      refine ⟨pid.symm, rfl, pid.symm, trivial, ?_⟩
      simp only [Client.candidate, here]
      exact ⟨rfl, rfl⟩

/-! ## The pids and who holds them -/

/-- The pid taken last is held by a party unless its number is published, and it is the
candidate's unless a party has still to take one. -/
structure Posted (client : Client) (bulletin : Bulletin) : Prop where
  applied : (∀ party, (bulletin.courseOf party).publishing ≠ .changed) →
    client.status.ecmPid = client.candidatePid ∧ client.AsksCandidate
  numbered : ∀ party, bulletin.number party ≤ bulletin.taken
  bounded : bulletin.published ≤ bulletin.taken
  latest : ∀ party pid, (bulletin.courseOf party).publishing = .taken pid →
    bulletin.number party = bulletin.taken → pid = client.status.ecmPid
  owed : bulletin.published ≠ bulletin.taken → ∃ party pid,
    (bulletin.courseOf party).publishing = .taken pid ∧ bulletin.number party = bulletin.taken

/-- Once the highest number is published, so is its pid. -/
def Shown (client : Client) (bulletin : Bulletin) : Prop :=
  bulletin.published = bulletin.taken → client.activeEcmPid = client.status.ecmPid

theorem Posted.published {client : Client} {bulletin : Bulletin} (posted : Posted client bulletin)
    (shown : Shown client bulletin) (quiet : bulletin.Quiet) :
    client.activeEcmPid = client.candidatePid := by
  have all : bulletin.published = bulletin.taken := by
    by_contra missing
    obtain ⟨party, pid, holds, _⟩ := posted.owed missing
    exact nomatch (quiet party).symm.trans holds
  rw [shown all]
  exact (posted.applied fun party changed => nomatch (quiet party).symm.trans changed).1

theorem Posted.asks {client : Client} {bulletin : Bulletin} (posted : Posted client bulletin)
    (quiet : bulletin.Quiet) : client.AsksCandidate :=
  (posted.applied fun party changed => nomatch (quiet party).symm.trans changed).2

section Steps

variable {client after : Client} {bulletin later : Bulletin} {party : Party}

/-- Nothing about the pids changes. -/
theorem Posted.congr (posted : Posted client bulletin) (same : after.placard = client.placard)
    (kept : ∀ party, (later.courseOf party).publishing = (bulletin.courseOf party).publishing)
    (counts : later.taken = bulletin.taken ∧ later.number = bulletin.number ∧
      later.published = bulletin.published) : Posted after later := by
  simp only [Client.placard, Prod.mk.injEq] at same
  obtain ⟨⟨candidates, index⟩, ⟨caSystemId, providerId⟩, ecmPid, -⟩ := same
  obtain ⟨taken, number, published⟩ := counts
  have candidate : after.candidate = client.candidate := by
    rw [Client.candidate, Client.candidate, candidates, index]
  have pid : after.candidatePid = client.candidatePid := by
    rw [Client.candidatePid, Client.candidatePid, candidate]
  have asks : after.AsksCandidate ↔ client.AsksCandidate := by
    rw [Client.asksCandidate_iff, Client.asksCandidate_iff, candidate, caSystemId, providerId]
  constructor
  · simp only [kept, ecmPid, pid, asks]
    exact posted.applied
  · rw [number, taken]
    exact posted.numbered
  · rw [published, taken]
    exact posted.bounded
  · simp only [kept, number, taken, ecmPid]
    exact posted.latest
  · simp only [published, taken, kept, number]
    exact posted.owed

/-- A party that had settled changes the candidate. -/
theorem Posted.changes (posted : Posted client bulletin)
    (settled : (bulletin.courseOf party).publishing = .settled)
    (changed : (later.courseOf party).publishing = .changed)
    (others : ∀ other, other ≠ party → later.courseOf other = bulletin.courseOf other)
    (counts : later.taken = bulletin.taken ∧ later.number = bulletin.number ∧
      later.published = bulletin.published)
    (same : after.status.ecmPid = client.status.ecmPid) : Posted after later := by
  obtain ⟨taken, number, published⟩ := counts
  have holder : ∀ other pid, (later.courseOf other).publishing = .taken pid ↔
      (bulletin.courseOf other).publishing = .taken pid := by
    intro other pid
    by_cases here : other = party
    · rw [here, changed, settled]
      exact iff_of_false nofun nofun
    · rw [others other here]
  constructor
  · exact fun none => (none party changed).elim
  · rw [number, taken]
    exact posted.numbered
  · rw [published, taken]
    exact posted.bounded
  · simp only [holder, number, taken, same]
    exact posted.latest
  · simp only [published, taken, holder, number]
    exact posted.owed

/-- A party takes the candidate's pid. -/
theorem Posted.applies (posted : Posted client bulletin)
    (took : (later.courseOf party).publishing = .taken client.applyCandidate.1)
    (taken : later.taken = bulletin.taken + 1)
    (number : later.number = Function.update bulletin.number party (bulletin.taken + 1))
    (published : later.published = bulletin.published) :
    Posted client.applyCandidate.2 later := by
  obtain ⟨pid, candidate, ecmPid, active, asks⟩ := applyCandidate_spec client
  have candidatePid : client.applyCandidate.2.candidatePid = client.candidatePid := by
    rw [Client.candidatePid, Client.candidatePid, candidate]
  have own : later.number party = later.taken := by rw [number, taken, Function.update_self]
  have old : ∀ other, other ≠ party → later.number other ≤ bulletin.taken := by
    intro other different
    rw [number, Function.update_of_ne different]
    exact posted.numbered other
  constructor
  · exact fun _ => ⟨ecmPid.trans candidatePid.symm, asks⟩
  · intro other
    by_cases here : other = party
    · rw [here]
      exact Nat.le_of_eq own
    · exact Nat.le_trans (old other here) (taken ▸ Nat.le_succ _)
  · rw [published, taken]
    exact Nat.le_succ_of_le posted.bounded
  · intro other held holds last
    by_cases here : other = party
    · rw [here, took, Publishing.taken.injEq] at holds
      rw [← holds, pid, ecmPid]
    · exact absurd (old other here) (by rw [last, taken]; exact Nat.not_succ_le_self _)
  · exact fun _ => ⟨party, _, took, own⟩

/-- A party publishes the pid it holds. -/
theorem Posted.publishes {pid : UInt16} (posted : Posted client bulletin)
    (held : (bulletin.courseOf party).publishing = .taken pid)
    (settled : (later.courseOf party).publishing = .settled)
    (others : ∀ other, other ≠ party → later.courseOf other = bulletin.courseOf other)
    (taken : later.taken = bulletin.taken) (number : later.number = bulletin.number)
    (published : later.published = max bulletin.published (bulletin.number party)) :
    Posted { client with activeEcmPid := pid } later := by
  have unchanged : (∀ other, (later.courseOf other).publishing ≠ .changed) →
      ∀ other, (bulletin.courseOf other).publishing ≠ .changed := by
    intro none other
    by_cases here : other = party
    · rw [here, held]
      exact nofun
    · exact others other here ▸ none other
  constructor
  · intro none
    obtain ⟨ecmPid, asks⟩ := posted.applied (unchanged none)
    exact ⟨ecmPid, ⟨asks.caSystemId, asks.providerId⟩⟩
  · rw [number, taken]
    exact posted.numbered
  · rw [published, taken]
    exact Nat.max_le.2 ⟨posted.bounded, posted.numbered party⟩
  · intro other own holds last
    by_cases here : other = party
    · rw [here, settled] at holds
      exact nomatch holds
    · rw [others other here] at holds
      rw [number, taken] at last
      exact posted.latest other own holds last
  · intro missing
    rw [published, taken] at missing
    have below := posted.numbered party
    have bounded := posted.bounded
    obtain ⟨other, own, holds, last⟩ := posted.owed (by omega)
    have different : other ≠ party := by
      rintro rfl
      omega
    exact ⟨other, own, others other different ▸ holds, by rw [number, taken, last]⟩

/-- In order, what is published under the highest number is the pid taken last. -/
theorem Shown.publishes {pid : UInt16} (shown : Shown client bulletin)
    (posted : Posted client bulletin)
    (held : (bulletin.courseOf party).publishing = .taken pid)
    (taken : later.taken = bulletin.taken)
    (published : later.published = max bulletin.published (bulletin.number party))
    (ordered : bulletin.published < bulletin.number party ∨ pid = client.activeEcmPid) :
    Shown { client with activeEcmPid := pid } later := by
  intro all
  rw [published, taken] at all
  have below := posted.numbered party
  by_cases last : bulletin.number party = bulletin.taken
  · exact posted.latest party pid held last
  · have already : bulletin.published = bulletin.taken := by omega
    rcases ordered with before | same
    · omega
    · exact same.trans (shown already)

end Steps

/-! ## Whole runs -/

/-- The parties keep to their courses, and the pids are posted. -/
structure Bulletin.Valid {config : Config} (current : (camd config).Config × Bulletin) : Prop where
  onCourse : OnCourse current.1 current.2.courseOf
  posted : Posted current.1.shared.client current.2

variable {config : Config}

theorem Bulletin.valid_launched (now : UInt64) :
    Bulletin.Valid (launched config now, ({} : Bulletin)) where
  onCourse := onCourse_launched config now
  posted :=
    { applied := fun _ => ⟨rfl, rfl, rfl⟩
      numbered := fun _ => Nat.le_refl _
      bounded := Nat.le_refl _
      latest := nofun
      owed := fun missing => (missing rfl).elim }

theorem write_publishing {course : Course} (quiet : ¬ operation.Placards) :
    (course.write ⟨operation, answer⟩).publishing = course.publishing := by
  cases operation with
  | setService | rotateCandidate | applyCandidate | setActiveEcmPid => exact (quiet trivial).elim
  | takePendingEcm =>
      rw [Course.write]
      split <;> rfl
  | sendEcm =>
      rw [Course.write]
      split <;> rfl
  | _ => rfl

section Performs

variable {bulletin : Bulletin} {mover : Party}

theorem note_courseOf (event : (camd config).Event) :
    (bulletin.note event).courseOf = chart bulletin.courseOf event := by
  unfold Bulletin.note
  split <;> rfl

theorem note_other (performed : Performed signature) (other : Party) (different : other ≠ mover) :
    (@Bulletin.note config bulletin (.perform mover performed)).courseOf other =
      bulletin.courseOf other := by
  rw [note_courseOf, chart_other performed different]

theorem note_self (performed : Performed signature) :
    (@Bulletin.note config bulletin (.perform mover performed)).courseOf mover =
      (bulletin.courseOf mover).write performed := by
  rw [note_courseOf, chart_self]

theorem Posted.performs {proto : Proto} (posted : Posted state.client bulletin)
    (may : (bulletin.courseOf mover).Allows proto mover operation)
    (performed : machine.exec operation input state = some (answer, next)) :
    Posted next.client (@Bulletin.note config bulletin (.perform mover ⟨operation, answer⟩)) := by
  by_cases quiet : ¬ operation.Placards
  · refine posted.congr (placard_unchanged quiet performed) (fun party => ?_) ?_
    · by_cases here : party = mover
      · rw [here, note_self, write_publishing quiet]
      · rw [note_other _ _ here]
    · cases operation with
      | setService | rotateCandidate | applyCandidate | setActiveEcmPid =>
          exact (quiet trivial).elim
      | _ => exact ⟨rfl, rfl, rfl⟩
  · cases performed
    cases operation with
    | setService serviceId candidates =>
        exact posted.changes may.2 (congrArg _ (note_self _)) (note_other _) ⟨rfl, rfl, rfl⟩ rfl
    | rotateCandidate =>
        have settled : (bulletin.courseOf mover).publishing = .settled := may.2.1
        by_cases rotated : 1 < state.client.candidates.length
        · refine posted.changes settled ?_ (note_other _) ⟨rfl, rfl, rfl⟩ rfl
          rw [note_self]
          exact if_pos (decide_eq_true rotated)
        · refine posted.congr ?_ (fun party => ?_) ⟨rfl, rfl, rfl⟩
          · simp only [effect, Client.rotateCandidate, if_neg rotated]
            rfl
          · by_cases here : party = mover
            · rw [here, note_self, settled]
              exact if_neg (Bool.eq_false_iff.1 (decide_eq_false rotated))
            · rw [note_other _ _ here]
    | applyCandidate =>
        exact posted.applies (congrArg _ (note_self _)) rfl rfl rfl
    | setActiveEcmPid pid =>
        exact posted.publishes may (congrArg _ (note_self _)) (note_other _) rfl rfl rfl
    | _ => exact (quiet id).elim

theorem Shown.performs {proto : Proto} (shown : Shown state.client bulletin)
    (posted : Posted state.client bulletin)
    (may : (bulletin.courseOf mover).Allows proto mover operation)
    (performed : machine.exec operation input state = some (answer, next))
    (ordered : ∀ pid, operation = .setActiveEcmPid pid →
      bulletin.published < bulletin.number mover ∨ pid = state.client.activeEcmPid) :
    Shown next.client (@Bulletin.note config bulletin (.perform mover ⟨operation, answer⟩)) := by
  by_cases quiet : ¬ operation.Placards
  · have same := placard_unchanged quiet performed
    simp only [Client.placard, Prod.mk.injEq] at same
    obtain ⟨-, -, ecmPid, active⟩ := same
    cases operation with
    | setService | rotateCandidate | applyCandidate | setActiveEcmPid => exact (quiet trivial).elim
    | _ => exact fun all => (active.trans (shown all)).trans ecmPid.symm
  · cases performed
    cases operation with
    | setService serviceId candidates => exact shown
    | rotateCandidate => exact shown
    | applyCandidate =>
        intro all
        have missing : bulletin.published = bulletin.taken + 1 := all
        exact absurd posted.bounded (by omega)
    | setActiveEcmPid pid => exact shown.publishes posted may rfl rfl (ordered pid rfl)
    | _ => exact (quiet id).elim

end Performs

theorem Bulletin.Valid.step {before after : (camd config).Config} {event : (camd config).Event}
    {bulletin : Bulletin} (valid : Bulletin.Valid (before, bulletin))
    (step : (camd config).Step before event after) :
    Bulletin.Valid (after, bulletin.note event) := by
  obtain ⟨onCourse, allowed⟩ := valid.onCourse.step step
  refine ⟨note_courseOf event ▸ onCourse, ?_⟩
  cases step with
  | start _ _ =>
      refine valid.posted.congr rfl (fun party => ?_) ⟨rfl, rfl, rfl⟩
      simp only [Bulletin.note, chart, Event.carry]
      split <;> rfl
  | finish _ => exact valid.posted.congr rfl (fun _ => rfl) ⟨rfl, rfl, rfl⟩
  | @perform mover _ operation _ input answer shared _ performed =>
      exact valid.posted.performs (allowed mover ⟨operation, answer⟩ rfl) performed

theorem Bulletin.Valid.shown_step {before after : (camd config).Config}
    {event : (camd config).Event} {bulletin : Bulletin} (valid : Bulletin.Valid (before, bulletin))
    (shown : Shown before.shared.client bulletin) (step : (camd config).Step before event after)
    (ordered : PublishesInOrder ⟨(before, bulletin), event, (after, bulletin.note event)⟩) :
    Shown after.shared.client (bulletin.note event) := by
  obtain ⟨_, allowed⟩ := valid.onCourse.step step
  cases step with
  | start _ _ => exact shown
  | finish _ => exact shown
  | @perform mover _ operation _ input answer shared _ performed =>
      refine shown.performs valid.posted (allowed mover ⟨operation, answer⟩ rfl) performed ?_
      rintro pid rfl
      exact ordered mover pid answer rfl

/-- The steps of a run, with what is known of the pids. -/
def posting (moves : List (Moved (camd config).Config (camd config).Event)) :
    List (Posting config) :=
  record Bulletin.note {} moves

/-- **The published pid is the candidate's.** In every interleaving of the worker with any
number of callers, whenever no party is between changing the candidate and publishing its
pid, the connection asks about the candidate; and if no pid is published after another one
that was taken later, the published pid is the candidate's. -/
theorem published_pid_of_candidate {now : UInt64} {final : (camd config).Config}
    {moves : List (Moved (camd config).Config (camd config).Event)}
    (walk : Walk (camd config).Step (launched config now) moves final) :
    (∀ moved ∈ posting moves, AsksCandidate moved) ∧
      ((∀ moved ∈ posting moves, PublishesInOrder moved) →
        ∀ moved ∈ posting moves, PublishesCandidate moved) := by
  have launches := @Bulletin.valid_launched config now
  constructor
  · refine walk.recorded_wanted Bulletin.Valid (fun _ => True) _ ?_ launches fun _ _ => trivial
    intro before after event bulletin step valid _
    exact ⟨valid.step step, (valid.step step).posted.asks⟩
  · refine walk.recorded_wanted
      (fun current => Bulletin.Valid current ∧ Shown current.1.shared.client current.2)
      PublishesInOrder _ ?_ ⟨launches, fun _ => rfl⟩
    intro before after event bulletin step valid ordered
    have shown := valid.1.shown_step valid.2 step ordered
    exact ⟨⟨valid.1.step step, shown⟩, (valid.1.step step).posted.published shown⟩

/-! ### A pid that is overtaken -/

/-- A server that cannot decode anything. -/
def refusing : Op → Input
  | .login => { code := 1 }
  | _ => {}

def setting (caller : Nat) (service : UInt16) (candidates : List Candidate) :
    List (camd localServer).Move :=
  .start (.caller caller) (Call.setService service candidates) ::
    performing (.caller caller) 3 refusing ++ [.finish (.caller caller)]

def handing (ecm : UInt8) : List (camd localServer).Move :=
  .start (.caller 0) (Call.submitEcm [0x80, 0x70, ecm]) ::
    performing (.caller 0) 2 refusing ++ [.finish (.caller 0)]

/-- The first operations of a round. -/
def working (count : Nat) : List (camd localServer).Move :=
  .start .worker () :: performing .worker count refusing

/-- The rest of a round. -/
def ending (count : Nat) : List (camd localServer).Move :=
  performing .worker count refusing ++ [.finish .worker]

/-- Three ECMs of a service with two candidates are refused; the worker is about to rotate. -/
def refusedThrice : List (camd localServer).Move :=
  setting 0 1 [⟨0x500, 0x100, 0⟩, ⟨0x100, 0x101, 0⟩] ++ handing 0 ++ working 18 ++ ending 0 ++
    handing 1 ++ working 11 ++ ending 0 ++ handing 2 ++ working 11

/-- The worker rotates, and then the next service is set. -/
def rotatesFirst : List (camd localServer).Move :=
  refusedThrice ++ ending 3 ++ setting 1 2 [⟨0x600, 0x200, 0⟩]

/-- The next service is set before the worker has published the pid of the second
candidate. -/
def overtaken : List (camd localServer).Move :=
  refusedThrice ++ performing .worker 2 refusing ++ setting 1 2 [⟨0x600, 0x200, 0⟩] ++ ending 1

def inOrder (moved : Posting localServer) : Bool :=
  match moved.event with
  | .perform party ⟨.setActiveEcmPid pid, _⟩ =>
      decide (moved.before.2.published < moved.before.2.number party) ||
        pid == moved.before.1.shared.client.activeEcmPid
  | _ => true

theorem publishesInOrder_of_inOrder {moved : Posting localServer} (ordered : inOrder moved = true) :
    PublishesInOrder moved := by
  intro party pid answer event
  rw [inOrder, event] at ordered
  exact (Bool.or_eq_true_iff.1 ordered).imp of_decide_eq_true eq_of_beq

theorem published_pid_of_candidate_rotated :
    (tracked rotatesFirst).2.shared.client.candidatePid = 0x200 ∧
      (∀ moved ∈ posting (tracked rotatesFirst).1, AsksCandidate moved) ∧
        ∀ moved ∈ posting (tracked rotatesFirst).1, PublishesCandidate moved := by
  have ordered : (posting (tracked rotatesFirst).1).all inOrder = true := by decide +kernel
  have holds := published_pid_of_candidate
    ((launched localServer 0).walk_track rotatesFirst)
  exact ⟨by decide +kernel, holds.1, holds.2 fun moved member =>
    publishesInOrder_of_inOrder (List.all_eq_true.1 ordered moved member)⟩

/-- Of all the callers only two move. -/
def twoCallers (moved : Moved (camd localServer).Config (camd localServer).Event) : Bool :=
  moved.event.mover == .worker || moved.event.mover == .caller 0 || moved.event.mover == .caller 1

/-- After a schedule of the worker and two callers nobody is in the middle of something if
these three are not. -/
theorem idle_tracked {schedule : List (camd localServer).Move}
    (few : (tracked schedule).1.all twoCallers = true)
    (worker : ((tracked schedule).2.phase .worker).isIdle = true)
    (first : ((tracked schedule).2.phase (.caller 0)).isIdle = true)
    (second : ((tracked schedule).2.phase (.caller 1)).isIdle = true) :
    Idle (tracked schedule).2 := by
  intro party
  match party with
  | .worker => exact Phase.exists_of_isIdle worker
  | .caller 0 => exact Phase.exists_of_isIdle first
  | .caller 1 => exact Phase.exists_of_isIdle second
  | .caller (index + 2) =>
      refine ⟨(), phase_of_absent ((launched localServer 0).walk_track schedule) ?_⟩
      intro moved member same
      have mover := List.all_eq_true.1 few moved member
      rw [twoCallers, same] at mover
      simp at mover

/-- The pid of a candidate that was left behind stays published when all calls are over. -/
theorem overtaken_pid_published :
    ∃ final, Walk (camd localServer).Step (launched localServer 0) (tracked overtaken).1 final ∧
      Idle final ∧ final.shared.client.candidatePid = 0x200 ∧
        final.shared.client.activeEcmPid = 0x101 :=
  ⟨_, (launched localServer 0).walk_track overtaken,
    idle_tracked (by decide +kernel) (by decide +kernel) (by decide +kernel) (by decide +kernel),
    by decide +kernel, by decide +kernel⟩

end Camd
