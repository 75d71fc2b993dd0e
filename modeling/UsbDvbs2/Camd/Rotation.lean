import UsbDvbs2.Camd.PublishedPid

/-! # On whose record a CA system is left

The worker counts refusals in a variable of its own, and the service can be set while it
counts. Every exchange is put down with the service and the candidate its ECM was handed in
for, and with the connection it was made on.
-/

namespace Camd

open Concurrency Program ThreadSystem

/-- How many services were set, and how often the worker rotated. -/
structure Era where
  services : Nat := 0
  rotations : Nat := 0
  deriving DecidableEq

/-- An exchange that is over. -/
structure Outcome where
  /-- it brought a control word -/
  word : Bool
  /-- when its ECM was handed in -/
  era : Era
  connection : Nat

structure Tally where
  era : Era := {}
  connections : Nat := 0
  /-- when the pending ECM was handed in -/
  pendingFor : Era := {}
  /-- when the ECM taken last was handed in -/
  askedFor : Era := {}
  /-- the exchanges so far, the last one first -/
  outcomes : List Outcome := []
  /-- a service was set since the first exchange that counts took its ECM -/
  crossed : Bool := false

/-- What an operation adds, when the worker counts `rejects` refusals. -/
def Tally.note (tally : Tally) (rejects : Nat) : Performed signature → Tally
  | ⟨.setService .., _⟩ =>
      { tally with
        era := { tally.era with services := tally.era.services + 1 }
        crossed := true }
  | ⟨.rotateCandidate, _⟩ =>
      { tally with era := { tally.era with rotations := tally.era.rotations + 1 } }
  | ⟨.submitEcm _, woken⟩ => if woken then { tally with pendingFor := tally.era } else tally
  | ⟨.takePendingEcm, ecm⟩ =>
      if ecm = ([] : List UInt8) then tally
      else
        { tally with
          askedFor := tally.pendingFor
          crossed := tally.crossed && decide (0 < rejects) }
  | ⟨.login, rc⟩ =>
      if rc = (1 : Int) then { tally with connections := tally.connections + 1 } else tally
  | ⟨.sendEcm _, rc⟩ =>
      if rc < (0 : Int) then
        { tally with outcomes := ⟨false, tally.askedFor, tally.connections⟩ :: tally.outcomes }
      else tally
  | ⟨.recvCw, reply⟩ =>
      { tally with
        outcomes := ⟨decide (reply.1 = 1), tally.askedFor, tally.connections⟩ :: tally.outcomes }
  | _ => tally

structure Docket where
  courseOf : Party → Course := fun _ => {}
  tally : Tally := {}

def Docket.note {config : Config} (docket : Docket) (event : (camd config).Event) : Docket where
  courseOf := chart docket.courseOf event
  tally :=
    match event with
    | .perform _ performed => docket.tally.note (docket.courseOf .worker).rejects performed
    | _ => docket.tally

abbrev Hearing (config : Config) : Type :=
  Moved ((camd config).Config × Docket) (camd config).Event

/-- The worker leaves the candidate after three exchanges in a row without a control word,
all on this connection and for ECMs of this service and candidate. -/
def RotatesOnRecord {config : Config} (moved : Hearing config) : Prop :=
  ∀ party answer, moved.event = .perform party ⟨.rotateCandidate, answer⟩ →
    rejectsBeforeRotate ≤ moved.before.2.tally.outcomes.length ∧
      ∀ outcome ∈ moved.before.2.tally.outcomes.take rejectsBeforeRotate,
        outcome.word = false ∧ outcome.connection = moved.before.2.tally.connections ∧
          outcome.era = moved.before.2.tally.era

/-- The worker leaves the candidate without a service having been set since it took the ECM
of the first exchange that counts. -/
def RotatesUncrossed {config : Config} (moved : Hearing config) : Prop :=
  ∀ party answer, moved.event = .perform party ⟨.rotateCandidate, answer⟩ →
    moved.before.2.tally.crossed = false

/-! ## What the count stands for -/

/-- The counted exchanges are refusals on this connection, and of the current service and
candidate unless a service was set in between; then one of them is of an earlier one. -/
structure Kept (client : Client) (course : Course) (tally : Tally) : Prop where
  pending : client.pendingEcm ≠ [] → tally.pendingFor = tally.era
  enough : course.rejects ≤ tally.outcomes.length
  refused : ∀ outcome ∈ tally.outcomes.take course.rejects, outcome.word = false ∧
    outcome.connection = tally.connections ∧ outcome.era.services ≤ tally.era.services
  asked : course.asking = true → tally.askedFor.services ≤ tally.era.services
  own : tally.crossed = false →
    (∀ outcome ∈ tally.outcomes.take course.rejects, outcome.era = tally.era) ∧
      (course.asking = true → tally.askedFor = tally.era)
  stray : tally.crossed = true →
    (course.asking = true → course.rejects = 0 →
      tally.askedFor.services < tally.era.services) ∧
      (0 < course.rejects → ∃ outcome ∈ tally.outcomes.take course.rejects,
        outcome.era.services < tally.era.services)

variable {client after : Client} {course later : Course} {tally : Tally}

/-- At a rotation the three exchanges are on record exactly when no service was set in
between. -/
theorem Kept.on_record_iff (kept : Kept client course tally)
    (full : course.rejects = rejectsBeforeRotate) :
    (rejectsBeforeRotate ≤ tally.outcomes.length ∧
      ∀ outcome ∈ tally.outcomes.take rejectsBeforeRotate, outcome.word = false ∧
        outcome.connection = tally.connections ∧ outcome.era = tally.era) ↔
      tally.crossed = false := by
  rw [← full]
  constructor
  · intro record
    by_contra crossed
    obtain ⟨outcome, member, before⟩ :=
      (kept.stray (Bool.not_eq_false _ ▸ crossed)).2 (full ▸ rotates_later)
    rw [(record.2 outcome member).2.2] at before
    exact absurd before (Nat.lt_irrefl _)
  · intro uncrossed
    refine ⟨kept.enough, fun outcome member => ?_⟩
    obtain ⟨noWord, connection, -⟩ := kept.refused outcome member
    exact ⟨noWord, connection, (kept.own uncrossed).1 outcome member⟩

theorem Kept.congr (kept : Kept client course tally)
    (pending : after.pendingEcm = client.pendingEcm)
    (rejects : later.rejects = course.rejects) (asking : later.asking = course.asking) :
    Kept after later tally := by
  constructor
  · rw [pending]
    exact kept.pending
  · rw [rejects]
    exact kept.enough
  · rw [rejects]
    exact kept.refused
  · rw [asking]
    exact kept.asked
  · rw [rejects, asking]
    exact kept.own
  · rw [rejects, asking]
    exact kept.stray

/-- Nothing is counted any more, and no exchange is under way. -/
theorem Kept.of_none (pending : client.pendingEcm ≠ [] → tally.pendingFor = tally.era)
    (none : course.rejects = 0) (calm : course.asking = false) : Kept client course tally := by
  have nothing : tally.outcomes.take course.rejects = [] := by rw [none, List.take_zero]
  constructor
  · exact pending
  · rw [none]
    exact Nat.zero_le _
  · rw [nothing]
    exact nofun
  · rw [calm]
    exact nofun
  · rw [nothing, calm]
    exact fun _ => ⟨nofun, nofun⟩
  · rw [none, calm]
    exact fun _ => ⟨nofun, fun impossible => absurd impossible (Nat.lt_irrefl 0)⟩

/-- A service is set: whatever is counted or under way is now of an earlier one. -/
theorem Kept.setService (kept : Kept client course tally) (rejects : Nat) {serviceId : UInt16}
    {candidates : List Candidate} :
    Kept (client.setService serviceId candidates) course
      (tally.note rejects ⟨.setService serviceId candidates, ()⟩) where
  pending pending := (pending rfl).elim
  enough := kept.enough
  refused outcome member := by
    obtain ⟨noWord, connection, past⟩ := kept.refused outcome member
    exact ⟨noWord, connection, Nat.le_succ_of_le past⟩
  asked asking := Nat.le_succ_of_le (kept.asked asking)
  own := nofun
  stray _ := by
    refine ⟨fun asking _ => Nat.lt_succ_of_le (kept.asked asking), fun some => ?_⟩
    have first : tally.outcomes.take course.rejects ≠ [] := by
      rw [Ne, List.take_eq_nil_iff, not_or, ← List.length_eq_zero_iff]
      have enough := kept.enough
      omega
    obtain ⟨outcome, member⟩ := List.exists_mem_of_ne_nil _ first
    exact ⟨outcome, member, Nat.lt_succ_of_le (kept.refused outcome member).2.2⟩

/-- The worker takes an ECM. -/
theorem Kept.takes (kept : Kept client course tally) (some : client.pendingEcm ≠ []) :
    Kept client.takePendingEcm.2 { course with asking := true, due := true }
      (tally.note course.rejects ⟨.takePendingEcm, client.takePendingEcm.1⟩) := by
  have current := kept.pending some
  simp only [Client.takePendingEcm, if_neg some, Tally.note]
  constructor
  · exact fun pending => (pending rfl).elim
  · exact kept.enough
  · exact kept.refused
  · intro _
    exact Nat.le_of_eq (by rw [current])
  · intro uncrossed
    refine ⟨?_, fun _ => current⟩
    by_cases none : 0 < course.rejects
    · rw [decide_eq_true none, Bool.and_true] at uncrossed
      exact (kept.own uncrossed).1
    · rw [Nat.eq_zero_of_not_pos none, List.take_zero]
      exact List.forall_mem_nil _
  · intro crossed
    obtain ⟨crossed, some⟩ := Bool.and_eq_true_iff.1 crossed
    exact ⟨fun _ none => absurd (of_decide_eq_true some) (by rw [none]; exact Nat.lt_irrefl 0),
      (kept.stray crossed).2⟩

/-- An exchange is refused. -/
theorem Kept.refuses (kept : Kept client course tally) (asking : course.asking = true)
    (counts : later.rejects = course.rejects + 1) (calm : later.asking = false) :
    Kept client later
      { tally with
        outcomes := ⟨false, tally.askedFor, tally.connections⟩ :: tally.outcomes } := by
  constructor
  · exact kept.pending
  · rw [counts, List.length_cons]
    exact Nat.succ_le_succ kept.enough
  · rw [counts, List.take_succ_cons, List.forall_mem_cons]
    exact ⟨⟨rfl, rfl, kept.asked asking⟩, kept.refused⟩
  · rw [calm]
    exact nofun
  · rw [counts, calm, List.take_succ_cons, List.forall_mem_cons]
    exact fun uncrossed =>
      ⟨⟨(kept.own uncrossed).2 asking, (kept.own uncrossed).1⟩, nofun⟩
  · rw [counts, calm, List.take_succ_cons]
    intro crossed
    refine ⟨nofun, fun _ => ?_⟩
    obtain ⟨first, others⟩ := kept.stray crossed
    by_cases none : course.rejects = 0
    · exact ⟨_, List.mem_cons_self, first asking none⟩
    · obtain ⟨outcome, member, before⟩ := others (Nat.pos_of_ne_zero none)
      exact ⟨outcome, List.mem_cons_of_mem _ member, before⟩

theorem Kept.submits (kept : Kept client course tally) (ecm : List UInt8) :
    Kept (client.submitEcm ecm).2 course
      (tally.note course.rejects ⟨.submitEcm ecm, (client.submitEcm ecm).1⟩) := by
  by_cases fresh : client.lastEcm ≠ ecm
  · simp only [Client.submitEcm, if_pos fresh]
    exact { kept with pending := fun _ => rfl }
  · simp only [Client.submitEcm, if_neg fresh]
    exact kept

theorem Kept.takesPending (kept : Kept client course tally) :
    Kept client.takePendingEcm.2 (course.write ⟨.takePendingEcm, client.takePendingEcm.1⟩)
      (tally.note course.rejects ⟨.takePendingEcm, client.takePendingEcm.1⟩) := by
  by_cases none : client.pendingEcm = []
  · simp only [Client.takePendingEcm, if_pos none]
    exact kept
  · have taken : course.write ⟨.takePendingEcm, client.takePendingEcm.1⟩ =
        { course with asking := true, due := true } := by
      refine if_neg ?_
      rw [Client.takePendingEcm, if_neg none]
      exact none
    exact taken ▸ kept.takes none

theorem Kept.logsIn (kept : Kept client course tally) (calm : course.asking = false) (rc : Int) :
    Kept client (course.write ⟨.login, rc⟩) (tally.note course.rejects ⟨.login, rc⟩) := by
  by_cases accepted : rc = 1
  · have counted : tally.note course.rejects ⟨.login, rc⟩ =
        { tally with connections := tally.connections + 1 } := if_pos accepted
    rw [counted]
    exact .of_none kept.pending (if_pos accepted) calm
  · have same : tally.note course.rejects ⟨.login, rc⟩ = tally := if_neg accepted
    rw [same]
    exact kept.congr rfl (if_neg accepted) rfl

theorem Kept.sends (kept : Kept client course tally) (ecm : List UInt8) (rc : Int) :
    Kept client (course.write ⟨.sendEcm ecm, rc⟩)
      (tally.note course.rejects ⟨.sendEcm ecm, rc⟩) := by
  by_cases failed : rc < 0
  · have lost : course.write ⟨.sendEcm ecm, rc⟩ = { course with asking := false, rejects := 0 } :=
      if_pos failed
    have counted : tally.note course.rejects ⟨.sendEcm ecm, rc⟩ =
        { tally with outcomes := ⟨false, tally.askedFor, tally.connections⟩ :: tally.outcomes } :=
      if_pos failed
    rw [lost, counted]
    exact .of_none kept.pending rfl rfl
  · have fine : course.write ⟨.sendEcm ecm, rc⟩ = course := if_neg failed
    have same : tally.note course.rejects ⟨.sendEcm ecm, rc⟩ = tally := if_neg failed
    rw [fine, same]
    exact kept

theorem Kept.hears (kept : Kept client course tally) (asking : course.asking = true)
    (reply : signature.Answer .recvCw) :
    Kept client (course.write ⟨.recvCw, reply⟩) (tally.note course.rejects ⟨.recvCw, reply⟩) := by
  by_cases refused : reply.1 = 0
  · have noWord : decide (reply.1 = 1) = false := by
      rw [refused]
      rfl
    have refuses := @Kept.refuses client course (course.write ⟨.recvCw, reply⟩) tally kept asking
      (if_pos refused) rfl
    rw [← noWord] at refuses
    exact refuses.congr rfl rfl rfl
  · exact .of_none kept.pending (if_neg refused) rfl

/-! ## One operation -/

/-- What the count and the hand-ins depend on. -/
def Op.Counts : Op → Prop
  | .setService .. | .rotateCandidate | .submitEcm _ | .takePendingEcm | .login
  | .closeConnection | .sendEcm _ | .recvCw => True
  | _ => False

section Operation

variable {operation : Op} {input : Input} {state next : State} {answer : operation.Answer}
  {config : Config} {courseOf : Party → Course} {mover : Party}

theorem uncounted (quiet : ¬ operation.Counts)
    (performed : machine.exec operation input state = some (answer, next)) (rejects : Nat) :
    next.client.pendingEcm = state.client.pendingEcm ∧
      (course.write ⟨operation, answer⟩).rejects = course.rejects ∧
        (course.write ⟨operation, answer⟩).asking = course.asking ∧
          tally.note rejects ⟨operation, answer⟩ = tally := by
  cases performed
  cases operation with
  | setService | rotateCandidate | submitEcm | takePendingEcm | login | closeConnection | sendEcm
  | recvCw => exact (quiet trivial).elim
  | setStatus progress message => cases message <;> exact ⟨rfl, rfl, rfl, rfl⟩
  | applyCandidate =>
      simp only [effect, Client.applyCandidate]
      split <;> exact ⟨rfl, rfl, rfl, rfl⟩
  | _ => exact ⟨rfl, rfl, rfl, rfl⟩

theorem Kept.performs {proto : Proto} (kept : Kept state.client (courseOf .worker) tally)
    (may : (courseOf mover).Allows proto mover operation)
    (performed : machine.exec operation input state = some (answer, next)) :
    Kept next.client (@chart config courseOf (.perform mover ⟨operation, answer⟩) .worker)
      (tally.note (courseOf .worker).rejects ⟨operation, answer⟩) := by
  by_cases quiet : ¬ operation.Counts
  · obtain ⟨pending, rejects, asking, same⟩ :=
      @uncounted (courseOf .worker) tally _ _ _ _ _ quiet performed (courseOf .worker).rejects
    rw [same, chart_worker]
    split
    · exact kept.congr pending rejects asking
    · exact kept.congr pending rfl rfl
  · cases performed
    cases operation with
    | setService serviceId candidates =>
        rw [chart_worker, if_neg may.1]
        exact kept.setService _
    | rotateCandidate =>
        obtain ⟨rfl, -, calm, -⟩ := may
        rw [chart_worker, if_pos rfl]
        exact .of_none (fun pending => (pending rfl).elim) rfl calm
    | submitEcm ecm =>
        have same : ∀ woken, @chart config courseOf (.perform mover ⟨.submitEcm ecm, woken⟩)
            .worker = courseOf .worker := by
          intro woken
          rw [chart_worker]
          split <;> rfl
        rw [same]
        exact kept.submits ecm
    | takePendingEcm =>
        obtain rfl := may trivial
        rw [chart_worker, if_pos rfl]
        exact kept.takesPending
    | login =>
        obtain ⟨rfl, calm, -⟩ := may
        rw [chart_worker, if_pos rfl]
        exact (kept.logsIn calm input.code).congr rfl rfl rfl
    | closeConnection =>
        rcases may with ⟨rfl, calm⟩ | ⟨caller, -⟩
        · rw [chart_worker, if_pos rfl]
          exact .of_none kept.pending rfl calm
        · rw [chart_worker, if_neg caller]
          exact kept.congr rfl rfl rfl
    | sendEcm ecm =>
        obtain ⟨rfl, -⟩ := may
        rw [chart_worker, if_pos rfl]
        exact (kept.sends ecm _).congr rfl rfl rfl
    | recvCw =>
        obtain ⟨rfl, asking⟩ := may
        rw [chart_worker, if_pos rfl]
        exact (kept.hears asking _).congr rfl rfl rfl
    | _ => exact (quiet id).elim

end Operation

/-! ## Whole runs -/

/-- The parties keep to their courses, and the count stands for what it should. -/
structure Docket.Valid {config : Config} (current : (camd config).Config × Docket) : Prop where
  onCourse : OnCourse current.1 current.2.courseOf
  kept : Kept current.1.shared.client (current.2.courseOf .worker) current.2.tally

variable {config : Config}

theorem Docket.valid_launched (now : UInt64) :
    Docket.Valid (launched config now, ({} : Docket)) :=
  ⟨onCourse_launched config now, .of_none (fun pending => (pending rfl).elim) rfl rfl⟩

theorem Docket.Valid.step {before after : (camd config).Config} {event : (camd config).Event}
    {docket : Docket} (valid : Docket.Valid (before, docket))
    (step : (camd config).Step before event after) : Docket.Valid (after, docket.note event) := by
  obtain ⟨onCourse, allowed⟩ := valid.onCourse.step step
  refine ⟨onCourse, ?_⟩
  cases step with
  | @start mover _ _ _ _ _ =>
      refine valid.kept.congr rfl ?_ ?_
      · simp only [Docket.note, chart, Event.carry]
        split <;> rfl
      · simp only [Docket.note, chart, Event.carry]
        split <;> rfl
  | finish _ => exact valid.kept
  | @perform mover _ operation _ input answer shared _ performed =>
      exact valid.kept.performs (allowed mover ⟨operation, answer⟩ rfl) performed

theorem Docket.Valid.rotates_iff {before after : (camd config).Config}
    {event : (camd config).Event} {docket : Docket} (valid : Docket.Valid (before, docket))
    (step : (camd config).Step before event after) {later : (camd config).Config × Docket} :
    RotatesOnRecord ⟨(before, docket), event, later⟩ ↔
      RotatesUncrossed ⟨(before, docket), event, later⟩ := by
  obtain ⟨_, allowed⟩ := valid.onCourse.step step
  refine forall_congr' fun party => forall_congr' fun answer => forall_congr' fun rotates => ?_
  obtain ⟨rfl, -, -, full⟩ := allowed party _ rotates
  exact valid.kept.on_record_iff full

/-- The steps of a run, with the exchanges so far. -/
def hearing (moves : List (Moved (camd config).Config (camd config).Event)) :
    List (Hearing config) :=
  record Docket.note {} moves

/-- **A CA system is left on its own record exactly if no service came in between.** In every
interleaving of the worker with any number of callers, every rotation comes after three
exchanges in a row without a control word, on this connection and for this service and
candidate, exactly when none comes after a service was set since the first of the exchanges
took its ECM. -/
theorem rotates_on_record_iff {now : UInt64} {final : (camd config).Config}
    {moves : List (Moved (camd config).Config (camd config).Event)}
    (walk : Walk (camd config).Step (launched config now) moves final) :
    (∀ moved ∈ hearing moves, RotatesOnRecord moved) ↔
      ∀ moved ∈ hearing moves, RotatesUncrossed moved :=
  walk.recorded_good_iff Docket.Valid _ _ (fun step valid => valid.rotates_iff step)
    (fun step valid _ => valid.step step) (Docket.valid_launched now)

/-! ### A service set between the refusals -/

/-- Two ECMs of the first service are refused, and then the first one of the next. -/
def crossedRefusals : List (camd localServer).Move :=
  setting 0 1 [⟨0x500, 0x100, 0⟩, ⟨0x100, 0x101, 0⟩] ++ handing 0 ++ working 18 ++ ending 0 ++
    handing 1 ++ working 11 ++ ending 0 ++ setting 1 2 [⟨0x600, 0x200, 0⟩, ⟨0x700, 0x201, 0⟩] ++
      handing 2 ++ working 12

def rotates (moved : Hearing localServer) : Bool :=
  match moved.event with
  | .perform _ ⟨.rotateCandidate, _⟩ => true
  | _ => false

theorem exists_of_rotates {moved : Hearing localServer} (rotated : rotates moved = true) :
    ∃ party answer, moved.event = .perform party ⟨.rotateCandidate, answer⟩ := by
  unfold rotates at rotated
  split at rotated
  · exact ⟨_, _, ‹_›⟩
  · exact nomatch rotated

theorem rotates_on_record_iff_thrice :
    (hearing (tracked (refusedThrice ++ ending 3)).1).any rotates = true ∧
      ((∀ moved ∈ hearing (tracked (refusedThrice ++ ending 3)).1, RotatesOnRecord moved) ↔
        ∀ moved ∈ hearing (tracked (refusedThrice ++ ending 3)).1, RotatesUncrossed moved) :=
  ⟨by decide +kernel, rotates_on_record_iff ((launched localServer 0).walk_track _)⟩

/-- A rotation under the second service counts two ECMs of the first. -/
def leavesEarly (moved : Hearing localServer) : Bool :=
  rotates moved && moved.before.2.tally.era.services == 2 &&
    (moved.before.2.tally.outcomes.map fun outcome => outcome.era.services) == [2, 1, 1]

/-- The worker leaves the second service's first CA system after a single refusal. -/
theorem rotates_on_other_service :
    ∃ final, Walk (camd localServer).Step (launched localServer 0) (tracked crossedRefusals).1
        final ∧
      ∃ moved ∈ hearing (tracked crossedRefusals).1, moved.before.2.tally.era.services = 2 ∧
        (moved.before.2.tally.outcomes.map fun outcome => outcome.era.services) = [2, 1, 1] ∧
          ¬ RotatesOnRecord moved := by
  have early : (hearing (tracked crossedRefusals).1).any leavesEarly = true := by decide +kernel
  obtain ⟨moved, member, leaves⟩ := List.any_eq_true.1 early
  simp only [leavesEarly, Bool.and_eq_true, beq_iff_eq] at leaves
  obtain ⟨⟨rotates, services⟩, asked⟩ := leaves
  refine ⟨_, (launched localServer 0).walk_track crossedRefusals, moved, member, services, asked,
    fun onRecord => ?_⟩
  obtain ⟨party, answer, event⟩ := exists_of_rotates rotates
  have first : 1 ∈ (moved.before.2.tally.outcomes.take rejectsBeforeRotate).map
      fun outcome => outcome.era.services := by
    rw [List.map_take, asked]
    decide
  obtain ⟨outcome, member, older⟩ := List.mem_map.1 first
  rw [((onRecord party answer event).2 outcome member).2.2, services] at older
  exact nomatch older

end Camd
