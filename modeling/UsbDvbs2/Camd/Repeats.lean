import UsbDvbs2.Camd.PublishedPid

/-! # Which ECMs are dropped as repeats

The last ECM is put down when the worker takes it, before anything is known of its outcome.
Beside the client it is kept which ECM the worker took last, whether its exchange is still
under way, and what came of it.
-/

namespace Camd

open Concurrency Program ThreadSystem

structure Errand where
  courseOf : Party → Course := fun _ => {}
  /-- the ECM that was taken last -/
  ecm : List UInt8 := []
  /-- the round of the worker that took it is not over -/
  underWay : Bool := false
  /-- it brought a control word -/
  answered : Bool := false
  /-- a service was set since, or the worker rotated -/
  outdated : Bool := false

def Errand.note {config : Config} (errand : Errand) (event : (camd config).Event) : Errand :=
  let carried := { errand with courseOf := chart errand.courseOf event }
  match event with
  | .perform _ ⟨.takePendingEcm, ecm⟩ =>
      if ecm = ([] : List UInt8) then carried else ⟨carried.courseOf, ecm, true, false, false⟩
  | .perform _ ⟨.recvCw, reply⟩ =>
      { carried with answered := errand.answered || decide (reply.1 = 1) }
  | .perform _ ⟨.setService .., _⟩ | .perform _ ⟨.rotateCandidate, _⟩ =>
      { carried with outdated := true }
  | .finish .worker _ => { carried with underWay := false }
  | _ => carried

/-- The section is pending, or the one the worker is busy with, or the last one it sent,
answered with a control word for the current service. -/
def Accounted (client : Client) (errand : Errand) (ecm : List UInt8) : Prop :=
  client.pendingEcm = ecm ∨ errand.ecm = ecm ∧
    (errand.underWay = true ∨ errand.answered = true ∧ errand.outdated = false)

abbrev Running (config : Config) : Type :=
  Moved ((camd config).Config × Errand) (camd config).Event

/-- A section that is dropped as a repeat is accounted for. -/
def DropsAccounted {config : Config} (moved : Running config) : Prop :=
  ∀ party ecm, moved.event = .perform party ⟨.submitEcm ecm, false⟩ →
    Accounted moved.before.1.shared.client moved.before.2 ecm

/-- Every section that would be dropped if it was handed in now is accounted for. -/
def SuppressesAccounted (client : Client) (errand : Errand) : Prop :=
  ∀ ecm, isEcm ecm = true → (client.submitEcm ecm).1 = false → Accounted client errand ecm

/-- An exchange ends without a control word, and neither was a service set since it took its
ECM nor did the worker rotate. -/
def EndsUnanswered {config : Config} (moved : Running config) : Prop :=
  ∃ command, moved.event = .finish .worker command ∧ moved.before.2.underWay = true ∧
    moved.before.2.answered = false ∧ moved.before.2.outdated = false

/-! ## What the last ECM stands for -/

/-- The last ECM is the one that was taken last, unless it was cleared since; what is pending
is another one. -/
structure Recalled (client : Client) (errand : Errand) : Prop where
  last : client.lastEcm ≠ [] →
    client.lastEcm = errand.ecm ∧ errand.outdated = false ∧ isEcm client.lastEcm = true
  busy : errand.underWay = true → errand.outdated = false → client.lastEcm ≠ []
  pending : client.pendingEcm ≠ [] →
    isEcm client.pendingEcm = true ∧ client.pendingEcm ≠ client.lastEcm

/-- The last ECM was answered, or its exchange is under way. -/
def LastAnswered (client : Client) (errand : Errand) : Prop :=
  client.lastEcm ≠ [] → errand.underWay = true ∨ errand.answered = true

theorem ne_nil_of_isEcm {ecm : List UInt8} (valid : isEcm ecm = true) : ecm ≠ [] := by
  rintro rfl
  exact nomatch valid

theorem submitEcm_drops_iff {client : Client} {ecm : List UInt8} :
    (client.submitEcm ecm).1 = false ↔ client.lastEcm = ecm := by
  unfold Client.submitEcm
  by_cases fresh : client.lastEcm ≠ ecm
  · rw [if_pos fresh]
    exact iff_of_false nofun fresh
  · rw [if_neg fresh]
    exact iff_of_true rfl (Decidable.not_not.1 fresh)

variable {client after : Client} {errand later : Errand}

/-- The only section that can be dropped is the last ECM, so it is what counts. -/
theorem Recalled.suppresses_iff (recalled : Recalled client errand) :
    SuppressesAccounted client errand ↔ LastAnswered client errand := by
  constructor
  · intro accounted some
    obtain ⟨_, _, valid⟩ := recalled.last some
    rcases accounted client.lastEcm valid (submitEcm_drops_iff.2 rfl) with pending | ⟨_, done⟩
    · exact absurd pending (recalled.pending (pending ▸ some)).2
    · exact done.imp_right And.left
  · intro answered ecm valid drops
    obtain rfl := submitEcm_drops_iff.1 drops
    obtain ⟨same, current, _⟩ := recalled.last (ne_nil_of_isEcm valid)
    refine .inr ⟨same.symm, ?_⟩
    exact (answered (ne_nil_of_isEcm valid)).imp_right fun word => ⟨word, current⟩

/-- Nothing about the last ECM and its errand changes. -/
theorem Recalled.congr (recalled : Recalled client errand)
    (last : after.lastEcm = client.lastEcm) (pending : after.pendingEcm = client.pendingEcm)
    (same : later.ecm = errand.ecm ∧ later.underWay = errand.underWay ∧
      later.outdated = errand.outdated) : Recalled after later := by
  obtain ⟨ecm, underWay, outdated⟩ := same
  constructor
  · rw [last, ecm, outdated]
    exact recalled.last
  · rw [underWay, outdated, last]
    exact recalled.busy
  · rw [pending, last]
    exact recalled.pending

/-! ## One operation -/

/-- What the last ECM and the pending one depend on. -/
def Op.Recalls : Op → Prop
  | .setService .. | .rotateCandidate | .submitEcm _ | .takePendingEcm => True
  | _ => False

section Operation

variable {operation : Op} {input : Input} {state next : State} {answer : operation.Answer}
  {config : Config} {mover : Party} {proto : Proto}

theorem unrecalled (quiet : ¬ operation.Recalls)
    (performed : machine.exec operation input state = some (answer, next)) :
    next.client.lastEcm = state.client.lastEcm ∧
      next.client.pendingEcm = state.client.pendingEcm := by
  cases performed
  cases operation with
  | setService | rotateCandidate | submitEcm | takePendingEcm => exact (quiet trivial).elim
  | setStatus progress message => cases message <;> exact ⟨rfl, rfl⟩
  | applyCandidate =>
      simp only [effect, Client.applyCandidate]
      split <;> exact ⟨rfl, rfl⟩
  | _ => exact ⟨rfl, rfl⟩

theorem note_unrecalled (quiet : ¬ operation.Recalls) :
    let later := @Errand.note config errand (.perform mover ⟨operation, answer⟩)
    (later.ecm = errand.ecm ∧ later.underWay = errand.underWay ∧
        later.outdated = errand.outdated) ∧
      (errand.answered = true → later.answered = true) := by
  cases operation with
  | setService | rotateCandidate | submitEcm | takePendingEcm => exact (quiet trivial).elim
  | recvCw => exact ⟨⟨rfl, rfl, rfl⟩, fun answered => Bool.or_eq_true_iff.2 (.inl answered)⟩
  | _ => exact ⟨⟨rfl, rfl, rfl⟩, id⟩

theorem Recalled.performs (recalled : Recalled state.client errand)
    (may : (errand.courseOf mover).Allows proto mover operation)
    (performed : machine.exec operation input state = some (answer, next)) :
    Recalled next.client (@Errand.note config errand (.perform mover ⟨operation, answer⟩)) := by
  by_cases quiet : ¬ operation.Recalls
  · obtain ⟨last, pending⟩ := unrecalled quiet performed
    exact recalled.congr last pending (note_unrecalled quiet).1
  · cases performed
    cases operation with
    | setService serviceId candidates =>
        exact ⟨fun some => (some rfl).elim, fun _ => nofun, fun some => (some rfl).elim⟩
    | rotateCandidate =>
        exact ⟨fun some => (some rfl).elim, fun _ => nofun, fun some => (some rfl).elim⟩
    | submitEcm ecm =>
        by_cases fresh : state.client.lastEcm ≠ ecm
        · simp only [effect, Client.submitEcm, if_pos fresh]
          exact ⟨recalled.last, recalled.busy, fun _ => ⟨may, Ne.symm fresh⟩⟩
        · simp only [effect, Client.submitEcm, if_neg fresh]
          exact recalled.congr rfl rfl ⟨rfl, rfl, rfl⟩
    | takePendingEcm =>
        by_cases none : state.client.pendingEcm = []
        · simp only [effect, Client.takePendingEcm, if_pos none]
          exact recalled.congr rfl rfl ⟨rfl, rfl, rfl⟩
        · simp only [effect, Client.takePendingEcm, if_neg none, Errand.note]
          exact ⟨fun _ => ⟨rfl, rfl, (recalled.pending none).1⟩, fun _ _ => none,
            fun some => (some rfl).elim⟩
    | _ => exact (quiet id).elim

theorem LastAnswered.performs (answered : LastAnswered state.client errand)
    (performed : machine.exec operation input state = some (answer, next)) :
    LastAnswered next.client
      (@Errand.note config errand (.perform mover ⟨operation, answer⟩)) := by
  by_cases quiet : ¬ operation.Recalls
  · obtain ⟨last, -⟩ := unrecalled quiet performed
    obtain ⟨⟨_, underWay, _⟩, grows⟩ :=
      @note_unrecalled errand operation answer config mover quiet
    intro some
    rw [last] at some
    exact (answered some).imp underWay.trans grows
  · cases performed
    cases operation with
    | setService serviceId candidates => exact fun some => (some rfl).elim
    | rotateCandidate => exact fun some => (some rfl).elim
    | submitEcm ecm =>
        simp only [effect, Client.submitEcm]
        split <;> exact answered
    | takePendingEcm =>
        by_cases none : state.client.pendingEcm = []
        · simp only [effect, Client.takePendingEcm, if_pos none]
          exact answered
        · simp only [effect, Client.takePendingEcm, if_neg none, Errand.note]
          exact fun _ => .inl rfl
    | _ => exact (quiet id).elim

end Operation

/-! ## Whole runs -/

/-- The parties keep to their courses, and the last ECM is what it should be. -/
structure Errand.Valid {config : Config} (current : (camd config).Config × Errand) : Prop where
  onCourse : OnCourse current.1 current.2.courseOf
  recalled : Recalled current.1.shared.client current.2

variable {config : Config} {before next : (camd config).Config} {event : (camd config).Event}

theorem Errand.valid_launched (now : UInt64) :
    Errand.Valid (launched config now, ({} : Errand)) :=
  ⟨onCourse_launched config now, fun some => (some rfl).elim, nofun, fun some => (some rfl).elim⟩

theorem Errand.note_courseOf : (errand.note event).courseOf = chart errand.courseOf event := by
  unfold Errand.note
  split
  · split <;> rfl
  all_goals rfl

theorem Errand.Valid.step (valid : Errand.Valid (before, errand))
    (step : (camd config).Step before event next) : Errand.Valid (next, errand.note event) := by
  obtain ⟨onCourse, allowed⟩ := valid.onCourse.step step
  refine ⟨Errand.note_courseOf ▸ onCourse, ?_⟩
  cases step with
  | start _ _ => exact valid.recalled.congr rfl rfl ⟨rfl, rfl, rfl⟩
  | @finish mover command _ _ =>
      cases mover with
      | worker => exact { valid.recalled with busy := nofun }
      | caller index => exact valid.recalled.congr rfl rfl ⟨rfl, rfl, rfl⟩
  | @perform mover _ operation _ input answer shared _ performed =>
      exact valid.recalled.performs (allowed mover ⟨operation, answer⟩ rfl) performed

theorem Errand.Valid.lastAnswered_iff (valid : Errand.Valid (before, errand))
    (answered : LastAnswered before.shared.client errand)
    (step : (camd config).Step before event next) {after : (camd config).Config × Errand} :
    LastAnswered next.shared.client (errand.note event) ↔
      ¬ EndsUnanswered ⟨(before, errand), event, after⟩ := by
  cases step with
  | start _ _ =>
      refine iff_of_true answered ?_
      rintro ⟨command, ends, -⟩
      exact nomatch ends
  | perform _ performed =>
      refine iff_of_true (answered.performs performed) ?_
      rintro ⟨command, ends, -⟩
      exact nomatch ends
  | @finish mover command _ _ =>
      cases mover with
      | caller index =>
          refine iff_of_true answered ?_
          rintro ⟨command, ends, -⟩
          exact nomatch ends
      | worker =>
          have busy := valid.recalled.busy
          constructor
          · rintro done ⟨_, _, underWay, unanswered, current⟩
            rcases done (busy underWay current) with impossible | word
            · exact nomatch impossible
            · exact nomatch unanswered.symm.trans word
          · intro ends some
            obtain ⟨_, current, _⟩ := valid.recalled.last some
            rcases answered some with underWay | word
            · refine .inr (Bool.not_eq_false _ ▸ fun unanswered => ends ?_)
              exact ⟨command, rfl, underWay, unanswered, current⟩
            · exact .inr word

/-- The steps of a run, with the errands of the worker. -/
def running (moves : List (Moved (camd config).Config (camd config).Event)) :
    List (Running config) :=
  record Errand.note {} moves

/-- **An ECM that is needed is not dropped, as long as exchanges bring control words.** In
every interleaving of the worker with any number of callers, every section that would be
dropped as a repeat at any moment is pending, under way or answered for the current service
exactly when no exchange ends without a control word, unless a service was set meanwhile or
the worker rotates; then all sections that are dropped are accounted for. -/
theorem drops_accounted {now : UInt64} {final : (camd config).Config}
    {moves : List (Moved (camd config).Config (camd config).Event)}
    (walk : Walk (camd config).Step (launched config now) moves final) :
    ((∀ moved ∈ running moves,
        SuppressesAccounted moved.after.1.shared.client moved.after.2) ↔
      ∀ moved ∈ running moves, ¬ EndsUnanswered moved) ∧
    ((∀ moved ∈ running moves, ¬ EndsUnanswered moved) →
      ∀ moved ∈ running moves, DropsAccounted moved) := by
  have launches := @Errand.valid_launched config now
  constructor
  · refine walk.recorded_good_iff
      (fun current => Errand.Valid current ∧ LastAnswered current.1.shared.client current.2)
      _ _ ?_ ?_ ⟨launches, fun some => (some rfl).elim⟩
    · intro before after event errand step ⟨valid, answered⟩
      exact (valid.step step).recalled.suppresses_iff.trans (valid.lastAnswered_iff answered step)
    · intro before after event errand step ⟨valid, _⟩ accounted
      exact ⟨valid.step step, (valid.step step).recalled.suppresses_iff.1 accounted⟩
  · refine walk.recorded_wanted
      (fun current => Errand.Valid current ∧ LastAnswered current.1.shared.client current.2)
      _ _ ?_ ⟨launches, fun some => (some rfl).elim⟩
    intro before after event errand step ⟨valid, answered⟩ settles
    refine ⟨⟨valid.step step, (valid.lastAnswered_iff answered step).2 settles⟩, ?_⟩
    intro party ecm drops
    obtain ⟨_, allowed⟩ := valid.onCourse.step step
    have checked : isEcm ecm = true := allowed party _ drops
    have dropped : (before.shared.client.submitEcm ecm).1 = false := by
      cases drops
      rcases step.shared_cases with ⟨_, other⟩ | ⟨_, _, _, _, same, performed⟩
      · exact absurd rfl (other _ _)
      · cases same
        exact (congrArg Prod.fst (Option.some.inj performed))
    exact valid.recalled.suppresses_iff.2 answered ecm checked dropped

/-! ### An ECM that is refused once -/

/-- An ECM is handed in, and the worker exchanges it for whatever the server answers. -/
def exchanging (answer : Op → Input) (count : Nat) : List (camd localServer).Move :=
  handing 0 ++ .start .worker () :: performing .worker count answer ++ [.finish .worker]

/-- The second time the ECM is dropped, since it was answered. -/
def answeredOnce : List (camd localServer).Move :=
  setting 0 1 [⟨0x2600, 0x100, 0⟩] ++ exchanging willing 17 ++
    [.start (.caller 0) (Call.submitEcm [0x80, 0x70, 0]), .perform (.caller 0) 1 refusing]

/-- The second time the ECM is dropped, though it was refused. -/
def refusedOnce : List (camd localServer).Move :=
  setting 0 1 [⟨0x2600, 0x100, 0⟩] ++ exchanging refusing 18 ++
    [.start (.caller 0) (Call.submitEcm [0x80, 0x70, 0]), .perform (.caller 0) 1 refusing]

/-- The transition drops the section as a repeat. -/
def dropsRepeat (ecm : List UInt8) (moved : Running localServer) : Bool :=
  match moved.event with
  | .perform _ ⟨.submitEcm dropped, false⟩ => dropped == ecm
  | _ => false

def endsUnanswered (moved : Running localServer) : Bool :=
  match moved.event with
  | .finish .worker _ => moved.before.2.underWay && !moved.before.2.answered &&
      !moved.before.2.outdated
  | _ => false

theorem not_endsUnanswered {moved : Running localServer} (settles : endsUnanswered moved = false) :
    ¬ EndsUnanswered moved := by
  rintro ⟨command, event, underWay, unanswered, current⟩
  rw [endsUnanswered, event, underWay, unanswered, current] at settles
  exact nomatch settles

theorem drops_accounted_answered :
    (running (tracked answeredOnce).1).any (dropsRepeat [0x80, 0x70, 0]) = true ∧
      ∀ moved ∈ running (tracked answeredOnce).1, DropsAccounted moved := by
  have settle : (running (tracked answeredOnce).1).all (fun moved => !endsUnanswered moved) =
      true := by decide +kernel
  refine ⟨by decide +kernel, (drops_accounted ((launched localServer 0).walk_track _)).2 ?_⟩
  intro moved member
  exact not_endsUnanswered (Bool.not_eq_true' _ ▸ List.all_eq_true.1 settle moved member)

theorem exists_of_dropsRepeat {ecm : List UInt8} {moved : Running localServer}
    (drops : dropsRepeat ecm moved = true) :
    ∃ party, moved.event = .perform party ⟨.submitEcm ecm, false⟩ := by
  unfold dropsRepeat at drops
  split at drops
  · rename_i party ecm event
    obtain rfl := eq_of_beq drops
    exact ⟨party, event⟩
  · exact nomatch drops

/-- The refused ECM is dropped with nothing pending, nothing under way and no control word. -/
theorem refused_ecm_dropped :
    ∃ final, Walk (camd localServer).Step (launched localServer 0) (tracked refusedOnce).1 final ∧
      ∃ moved ∈ running (tracked refusedOnce).1,
        moved.before.1.shared.client.pendingEcm = [] ∧ moved.before.2.underWay = false ∧
          moved.before.2.answered = false ∧ ¬ DropsAccounted moved := by
  have drops : (running (tracked refusedOnce).1).any (fun moved =>
      dropsRepeat [0x80, 0x70, 0] moved && moved.before.1.shared.client.pendingEcm == [] &&
        !moved.before.2.underWay && !moved.before.2.answered) = true := by decide +kernel
  obtain ⟨moved, member, found⟩ := List.any_eq_true.1 drops
  simp only [Bool.and_eq_true, beq_iff_eq, Bool.not_eq_true'] at found
  obtain ⟨⟨⟨drops, pending⟩, underWay⟩, answered⟩ := found
  refine ⟨_, (launched localServer 0).walk_track refusedOnce, moved, member, pending, underWay,
    answered, fun accounted => ?_⟩
  obtain ⟨party, event⟩ := exists_of_dropsRepeat drops
  rcases accounted party _ event with same | ⟨_, busy | ⟨word, _⟩⟩
  · exact nomatch pending.symm.trans same
  · exact nomatch underWay.symm.trans busy
  · exact nomatch answered.symm.trans word

end Camd
