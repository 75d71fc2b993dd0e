import UsbDvbs2.Camd.Protocols
import UsbDvbs2.Camd.Worker
import UsbDvbs2.Concurrency.Ledger

/-! # What a party of the client does next

Every party keeps a course of what it did: the pid it has still to publish, and for the
worker its connection, its exchange and the refusals it counts. From the course follows
which operations can come next (`Course.Allows`), whatever the server answers.
-/

namespace Camd

open Concurrency Program ThreadSystem

/-- How far a party is with a change of the candidate. -/
inductive Publishing where
  | settled
  /-- the candidate is another one and not yet applied -/
  | changed
  /-- `apply_candidate` has given its lock back and holds this pid -/
  | taken (pid : UInt16)

structure Course where
  publishing : Publishing := .settled
  /-- it told the worker to stop, or was told -/
  stopping : Bool := false
  opened : Bool := false
  loggedIn : Bool := false
  /-- the server answered an ECM on this connection -/
  answered : Bool := false
  /-- the last answer was no control word -/
  refused : Bool := false
  /-- an ECM was taken and its outcome is not known -/
  asking : Bool := false
  /-- the state is still to be written in this round -/
  due : Bool := false
  /-- refusals in a row -/
  rejects : Nat := 0

/-- A refusal is an answer unless its text is the one for silence. -/
def Course.write (course : Course) : Performed signature → Course
  | ⟨.setService .., _⟩ => { course with publishing := .changed }
  | ⟨.rotateCandidate, rotated⟩ =>
      { course with publishing := if rotated then .changed else .settled, rejects := 0 }
  | ⟨.applyCandidate, pid⟩ => { course with publishing := .taken pid }
  | ⟨.setActiveEcmPid _, _⟩ => { course with publishing := .settled }
  | ⟨.setStop, _⟩ => { course with stopping := true }
  | ⟨.getStop, stopped⟩ => { course with stopping := course.stopping || stopped }
  | ⟨.openConnection, rc⟩ => { course with opened := decide (rc = (0 : Int)) }
  | ⟨.login, rc⟩ =>
      { course with
        loggedIn := decide (rc = (1 : Int))
        rejects := if rc = (1 : Int) then 0 else course.rejects }
  | ⟨.closeConnection, _⟩ =>
      { course with
        opened := false
        loggedIn := false
        answered := false
        due := course.due || course.loggedIn
        rejects := 0 }
  | ⟨.takePendingEcm, ecm⟩ =>
      if ecm = ([] : List UInt8) then course
      else { course with asking := true, due := true }
  | ⟨.sendEcm _, rc⟩ =>
      if rc < (0 : Int) then { course with asking := false, rejects := 0 } else course
  | ⟨.recvCw, reply⟩ =>
      { course with
        asking := false
        answered := course.answered || decide (reply.1 = 1)
        refused := decide (reply.1 = 0)
        rejects := if reply.1 = 0 then course.rejects + 1 else 0 }
  | ⟨.getError, text⟩ =>
      { course with
        answered := course.answered || course.refused && decide (text ≠ noAnswer)
        refused := false }
  | ⟨.setStatus state _, _⟩ =>
      { course with due := course.due && (decide (state = .connecting) && !course.loggedIn) }
  | ⟨.publishControlWords .., _⟩ => { course with due := false }
  | _ => course

/-- A round that begins without a connection writes the state when it tries for one. -/
def Course.opens (course : Course) : Course :=
  { course with due := course.due || !course.loggedIn }

/-- The operations of the worker alone. -/
def Op.Working : Op → Prop
  | .setStatus .. | .rotateCandidate | .publishControlWords .. | .takePendingEcm
  | .openConnection | .login | .sendEcm _ | .recvCw => True
  | _ => False

def Course.Allows (proto : Proto) (course : Course) (party : Party) : Op → Prop
  | .setActiveEcmPid pid => course.publishing = .taken pid
  | .applyCandidate => course.publishing = .changed
  | .setService .. => party ≠ .worker ∧ course.publishing = .settled
  | .setStop => party ≠ .worker
  | .closeConnection =>
      party = .worker ∧ course.asking = false ∨ party ≠ .worker ∧ course.stopping = true
  | .rotateCandidate =>
      party = .worker ∧ course.publishing = .settled ∧ course.asking = false ∧
        course.rejects = rejectsBeforeRotate
  | .setStatus state _ =>
      party = .worker ∧ state ≠ .decrypting ∧
        (state = .connected → course.opened = true ∧ course.loggedIn = true ∧
          proto.verifiesLogin = true)
  | .publishControlWords .. =>
      party = .worker ∧ course.opened = true ∧ course.loggedIn = true ∧ course.answered = true
  | .sendEcm _ | .recvCw => party = .worker ∧ course.asking = true
  | .openConnection => party = .worker ∧ course.opened = false
  | .login => party = .worker ∧ course.asking = false ∧ course.loggedIn = false
  | .submitEcm ecm => isEcm ecm = true
  | operation => operation.Working → party = .worker

def courses (proto : Proto) (party : Party) : Rules signature Course :=
  ⟨Course.write, fun course => course.Allows proto party⟩

/-- Between two rounds: nothing is half done, and what the worker remembers is so. -/
structure Course.Fits (course : Course) (worker : Worker) : Prop where
  settled : course.publishing = .settled
  calm : course.asking = false
  stopped : worker.running = false → course.stopping = true
  written : worker.running = true → course.due = false
  opened : worker.running = true → course.opened = worker.loggedIn
  loggedIn : worker.running = true → course.loggedIn = worker.loggedIn
  counted : worker.running = true → worker.loggedIn = true →
    course.rejects = worker.rejects ∧ worker.rejects < rejectsBeforeRotate

/-- What the course of an idle party says. -/
def Party.Fits : (party : Party) → Course → party.Locals → Prop
  | .worker, course, kept => course.Fits kept
  | .caller _, course, _ => course.publishing = .settled

/-! ## Code away from the course -/

/-- What is written into a course, or restricted by it. -/
def Op.Charted : Op → Prop
  | .getActiveEcmPid | .setWake | .waitWake _ | .joinWorker _ | .tick | .clearError
  | .getKeys | .getStatus | .countSent | .countFailed | .keepalive => False
  | _ => True

variable {proto : Proto} {party : Party} {course : Course}

theorem courses_free (course : Course) (operation : Op) (free : ¬ operation.Charted) :
    (courses proto party).allows course operation ∧
      ∀ answer, (courses proto party).write course ⟨operation, answer⟩ = course := by
  cases operation with
  | getActiveEcmPid | setWake | waitWake | joinWorker | tick | clearError | getKeys
  | getStatus | countSent | countFailed | keepalive => exact ⟨False.elim, fun _ => rfl⟩
  | _ => exact (free trivial).elim

theorem write_sendEcm (ecm : List UInt8) (rc : Int) :
    (courses proto party).write course ⟨.sendEcm ecm, rc⟩ =
      if rc < 0 then { course with asking := false, rejects := 0 } else course := rfl

theorem write_takePendingEcm (ecm : List UInt8) :
    (courses proto party).write course ⟨.takePendingEcm, ecm⟩ =
      if ecm = [] then course else { course with asking := true, due := true } := rfl

section Steps

variable {α : Type} {post : Course → α → Prop}

/-- A charted operation in front of other code. -/
theorem obeys_op {operation : Op} {rest : operation.Answer → Code α}
    (allowed : course.Allows proto party operation)
    (later : ∀ answer, (rest answer).Obeys (courses proto party) post
      (course.write ⟨operation, answer⟩)) :
    (op operation >>= rest).Obeys (courses proto party) post course := ⟨allowed, later⟩

/-- An operation that leaves the course alone, in front of other code. -/
theorem obeys_free {operation : Op} {rest : operation.Answer → Code α}
    (free : ¬ operation.Charted)
    (later : ∀ answer, (rest answer).Obeys (courses proto party) post course) :
    (op operation >>= rest).Obeys (courses proto party) post course := by
  obtain ⟨allowed, same⟩ := @courses_free proto party course operation free
  refine ⟨allowed, fun answer => ?_⟩
  rw [same]
  exact later answer

end Steps

/-! ## The worker's round -/

section Round

variable {config : Config} {worker : Worker}

/-- The worker holds a connection it logged in on, and counts as its course does. -/
structure Course.Holds (course : Course) (worker : Worker) : Prop where
  settled : course.publishing = .settled
  running : worker.running = true
  opened : course.opened = true
  loggedIn : course.loggedIn = true
  kept : worker.loggedIn = true
  counted : course.rejects = worker.rejects
  few : worker.rejects < rejectsBeforeRotate

/-- The worker has given its connection up, or none came about. -/
structure Course.Parted (course : Course) (worker : Worker) : Prop where
  settled : course.publishing = .settled
  running : worker.running = true
  closed : course.opened = false
  loggedOut : course.loggedIn = false
  forgotten : worker.loggedIn = false
  calm : course.asking = false

theorem Course.Holds.fits (holds : course.Holds worker) (calm : course.asking = false)
    (written : course.due = false) : course.Fits worker where
  settled := holds.settled
  calm := calm
  stopped left := nomatch holds.running.symm.trans left
  written _ := written
  opened _ := holds.opened.trans holds.kept.symm
  loggedIn _ := holds.loggedIn.trans holds.kept.symm
  counted _ _ := ⟨holds.counted, holds.few⟩

theorem Course.Parted.fits (parted : course.Parted worker) (written : course.due = false) :
    course.Fits worker where
  settled := parted.settled
  calm := parted.calm
  stopped left := nomatch parted.running.symm.trans left
  written _ := written
  opened _ := parted.closed.trans parted.forgotten.symm
  loggedIn _ := parted.loggedOut.trans parted.forgotten.symm
  counted _ kept := nomatch parted.forgotten.symm.trans kept

/-- A worker that has left its loop was told to, and has nothing half done. -/
theorem Course.fits_left (settled : course.publishing = .settled) (calm : course.asking = false)
    (stopping : course.stopping = true) (left : worker.running = false) : course.Fits worker where
  settled := settled
  calm := calm
  stopped _ := stopping
  written running := nomatch left.symm.trans running
  opened running := nomatch left.symm.trans running
  loggedIn running := nomatch left.symm.trans running
  counted running := nomatch left.symm.trans running

theorem rotates_later : 0 < rejectsBeforeRotate := by decide

abbrev Course.Round (proto : Proto) (course : Course) (code : Code Worker) : Prop :=
  code.Obeys (courses proto .worker) Course.Fits course

theorem obeys_leave (settled : course.publishing = .settled) (calm : course.asking = false)
    (stopping : course.stopping = true) : course.Round proto (leave worker) :=
  obeys_op (.inl ⟨rfl, calm⟩) fun _ => Course.fits_left settled calm stopping rfl

/-- The worker asks whether it is to stop, and leaves if so. -/
theorem obeys_getStop {rest : Code Worker} (settled : course.publishing = .settled)
    (calm : course.asking = false)
    (goesOn : ∀ stopping, { course with stopping }.Round proto rest) :
    course.Round proto (do
      let stopped : Bool ← op .getStop
      if stopped then leave worker else rest) := by
  refine obeys_op nofun fun stopped => .ite (fun told => ?_) fun _ => goesOn _
  exact obeys_leave settled calm (Bool.or_eq_true_iff.2 (.inr told))

theorem obeys_retryLater (parted : course.Parted worker) (written : course.due = false) :
    course.Round proto (retryLater worker) := by
  apply obeys_free id
  intro woken
  refine .ite (fun _ => ?_) fun _ => parted.fits written
  exact obeys_getStop parted.settled parted.calm fun _ =>
    Course.Parted.fits { parted with } written

/-- The text the protocol left may tell a refusal from silence; then the state is written. -/
theorem obeys_failure {state : Progress} {otherwise : String} {rest : Unit → Code Worker}
    (bad : state = .rejected ∨ state = .error)
    (later : ∀ answered, (rest ()).Obeys (courses proto .worker) Course.Fits
      { course with answered, refused := false, due := false }) :
    course.Round proto (failure state otherwise >>= rest) := by
  refine .bind ?_
  refine ⟨nofun, fun text => ?_⟩
  refine ⟨⟨rfl, ?_, ?_⟩, fun _ => ?_⟩
  · rcases bad with rfl | rfl <;> nofun
  · rcases bad with rfl | rfl <;> nofun
  · have written : (course.due && (decide (state = .connecting) && !course.loggedIn)) = false := by
      rcases bad with rfl | rfl <;> exact Bool.and_false _
    change Obeys (courses proto .worker) Course.Fits (rest ()) { course with
      answered := course.answered || course.refused && decide (text ≠ noAnswer)
      refused := false
      due := course.due && (decide (state = .connecting) && !course.loggedIn) }
    rw [written]
    exact later _

/-- After the connection is given up the state is written once more. -/
theorem obeys_drop_failure {otherwise : String} (settled : course.publishing = .settled)
    (running : worker.running = true) (calm : course.asking = false) :
    course.Round proto (do
      let dropped ← dropConnection worker
      failure .error otherwise
      pure dropped) := by
  refine ⟨.inl ⟨rfl, calm⟩, fun _ => ?_⟩
  refine obeys_failure (.inr rfl) fun answered => Course.Parted.fits ?_ rfl
  exact ⟨settled, running, rfl, rfl, rfl, calm⟩

theorem obeys_idle (holds : course.Holds worker) (calm : course.asking = false)
    (written : course.due = false) : course.Round proto (idle config worker) := by
  apply obeys_free id
  intro woken
  refine obeys_getStop holds.settled calm fun stopping => ?_
  have holds : { course with stopping }.Holds worker := { holds with }
  refine .ite (fun _ => holds.fits calm written) fun _ => ?_
  apply obeys_free id
  intro now
  refine .ite (fun _ => ?_) fun _ => holds.fits calm written
  have goesOn : ∀ rc : Int, { course with stopping }.Round proto (if rc < 0 then do
        let dropped ← dropConnection worker
        setStatus .error "CAM connection dropped"
        pure dropped
      else do
        let sent : UInt64 ← op .tick
        pure { worker with lastTraffic := sent }) := by
    intro rc
    refine .ite (fun _ => ?_) fun _ => ?_
    · refine ⟨.inl ⟨rfl, calm⟩, fun _ => ⟨⟨rfl, nofun, nofun⟩, fun _ => Course.Parted.fits ?_ ?_⟩⟩
      · exact ⟨holds.settled, holds.running, rfl, rfl, rfl, calm⟩
      · exact Bool.and_false _
    · apply obeys_free id
      intro sent
      exact Course.Holds.fits { holds with } calm written
  exact .ite (fun _ => obeys_free id goesOn) fun _ => goesOn 0

theorem obeys_rotateCandidate {rest : Unit → Code Worker}
    (settled : course.publishing = .settled) (calm : course.asking = false)
    (enough : course.rejects = rejectsBeforeRotate)
    (later : (rest ()).Obeys (courses proto .worker) Course.Fits
      { course with publishing := .settled, rejects := 0 }) :
    course.Round proto (rotateCandidate >>= rest) := by
  refine .bind ⟨⟨rfl, settled, calm, enough⟩, fun rotated => ?_⟩
  cases rotated with
  | false => exact later
  | true => exact ⟨rfl, fun pid => ⟨rfl, fun _ => later⟩⟩

/-- What comes of an exchange; the course counts it before the worker does. -/
theorem obeys_answered {started : UInt64} {rc : Int} {words : Words}
    (holds : course.Holds worker) :
    (answered worker started rc words).Obeys (courses proto .worker) Course.Fits
      (course.write ⟨.recvCw, (rc, words)⟩) := by
  refine .ite (fun word => ?_) fun noWord => ?_
  · subst word
    apply obeys_free id
    intro now
    refine ⟨⟨rfl, holds.opened, holds.loggedIn, Bool.or_true _⟩, fun _ => ?_⟩
    exact Course.Holds.fits { holds with counted := rfl, few := rotates_later } rfl rfl
  · apply obeys_free id
    intro counted
    refine .ite (fun refused => ?_) fun lost => ?_
    · subst refused
      refine obeys_failure (.inl rfl) fun answered => ?_
      refine .ite (fun enough => ?_) fun few => ?_
      · refine obeys_rotateCandidate holds.settled rfl ?_ ?_
        · exact (congrArg (· + 1) holds.counted).trans (Nat.le_antisymm holds.few enough)
        · exact Course.Holds.fits
            { holds with settled := rfl, counted := rfl, few := rotates_later } rfl rfl
      · exact Course.Holds.fits
          { holds with
            counted := congrArg (· + 1) holds.counted
            few := Nat.lt_of_not_le few } rfl rfl
    · refine ⟨.inl ⟨rfl, rfl⟩, fun _ => ?_⟩
      refine obeys_failure (.inr rfl) fun answered => Course.Parted.fits ?_ rfl
      exact ⟨holds.settled, holds.running, rfl, rfl, rfl, rfl⟩

theorem obeys_exchangeEcm {ecm : List UInt8} (holds : course.Holds worker)
    (asking : course.asking = true) : course.Round proto (exchangeEcm worker ecm) := by
  apply obeys_free id
  intro cleared
  apply obeys_free id
  intro started
  apply obeys_free id
  intro counted
  refine ⟨⟨rfl, asking⟩, fun sent => .ite (fun failed => ?_) fun fine => ?_⟩
  · rw [write_sendEcm, if_pos failed]
    exact obeys_drop_failure holds.settled holds.running rfl
  · rw [write_sendEcm, if_neg fine]
    refine ⟨⟨rfl, asking⟩, fun reply => obeys_free id fun now => ?_⟩
    exact obeys_answered { holds with }

theorem obeys_serveEcm (holds : course.Holds worker) (calm : course.asking = false)
    (written : course.due = false) : course.Round proto (serveEcm config worker) := by
  refine ⟨fun _ => rfl, fun ecm => .ite (fun none => ?_) fun some => ?_⟩
  · rw [write_takePendingEcm, if_pos none]
    exact obeys_idle holds calm written
  · rw [write_takePendingEcm, if_neg some]
    exact obeys_exchangeEcm { holds with } rfl

/-- A worker that is not logged in tries for a connection. -/
theorem obeys_connect (parted : course.Parted worker) :
    course.Round config.proto (connect config worker) := by
  refine ⟨⟨rfl, nofun, nofun⟩, fun _ => obeys_free id fun _ => ?_⟩
  refine ⟨⟨rfl, parted.closed⟩, fun opened => .ite (fun failed => ?_) fun connected => ?_⟩
  · refine ⟨⟨rfl, nofun, nofun⟩, fun _ => obeys_retryLater ?_ ?_⟩
    · exact { parted with closed := decide_eq_false failed }
    · exact Bool.and_false _
  · have isOpen : opened = 0 := Decidable.not_not.1 connected
    refine ⟨⟨rfl, parted.calm, parted.loggedOut⟩, fun rc =>
      .ite (fun refused => ?_) fun accepted => ?_⟩
    · refine obeys_failure (.inr rfl) fun answered => ⟨.inl ⟨rfl, parted.calm⟩, fun _ => ?_⟩
      refine obeys_retryLater ?_ ?_
      · exact { parted with closed := rfl, loggedOut := rfl }
      · exact decide_eq_false refused
    · have isIn : rc = 1 := Decidable.not_not.1 accepted
      subst isOpen isIn
      refine obeys_free id fun now => .bind (.ite (fun verified => ?_) fun silent => ?_)
      · refine ⟨⟨rfl, nofun, fun _ => ⟨rfl, rfl, verified⟩⟩, fun _ => obeys_free id fun _ => ?_⟩
        refine obeys_serveEcm ?_ parted.calm (Bool.and_false _)
        exact ⟨parted.settled, parted.running, rfl, rfl, rfl, rfl, rotates_later⟩
      · refine ⟨⟨rfl, nofun, nofun⟩, fun _ => obeys_free id fun _ => ?_⟩
        refine obeys_serveEcm ?_ parted.calm (Bool.and_false _)
        exact ⟨parted.settled, parted.running, rfl, rfl, rfl, rfl, rotates_later⟩

/-- One round of the worker keeps to its course. -/
theorem obeys_camdWorker (fits : course.Fits worker) (running : worker.running = true) :
    course.opens.Round config.proto (camdWorker config worker) := by
  refine obeys_getStop fits.settled fits.calm fun stopping => ?_
  refine .ite (fun kept => ?_) fun apart => ?_
  · have loggedIn := (fits.loggedIn running).trans kept
    refine obeys_serveEcm ?_ fits.calm ?_
    · obtain ⟨counted, few⟩ := fits.counted running kept
      exact ⟨fits.settled, running, (fits.opened running).trans kept, loggedIn, kept, counted, few⟩
    · rw [Course.opens, fits.written running, loggedIn]
      rfl
  · have forgotten : worker.loggedIn = false := Bool.eq_false_iff.2 apart
    have loggedOut := (fits.loggedIn running).trans forgotten
    exact obeys_connect ⟨fits.settled, running, (fits.opened running).trans forgotten, loggedOut,
      forgotten, fits.calm⟩

end Round

/-! ## The callers -/

theorem obeys_call {index : Nat} (call : Call) (settled : course.publishing = .settled) :
    call.code.Obeys (courses proto (.caller index)) (fun course _ => course.publishing = .settled)
      course := by
  cases call with
  | setService serviceId candidates =>
      exact ⟨⟨nofun, settled⟩, fun _ => ⟨rfl, fun pid => ⟨rfl, fun _ => rfl⟩⟩⟩
  | submitEcm ecm =>
      refine .ite (fun valid => obeys_op valid fun wake => ?_) fun _ => settled
      exact .ite (fun _ => obeys_free id fun _ => settled) fun _ => settled
  | getKeys => exact obeys_free id fun _ => settled
  | ecmPid => exact obeys_free id fun _ => settled
  | getStatus => exact obeys_free id fun _ => settled
  | stop =>
      refine ⟨nofun, fun _ => obeys_free id fun _ => obeys_free id fun first => ?_⟩
      refine .ite (fun _ => ⟨.inr ⟨nofun, rfl⟩, fun _ => obeys_free id fun second => ?_⟩) fun _ =>
        settled
      exact .ite (fun _ => obeys_free id fun _ => settled) fun _ => settled

/-! ## Every party, along every interleaving -/

/-- The courses of all parties after an event. -/
def chart {config : Config} (courseOf : Party → Course) (event : (camd config).Event)
    (party : Party) : Course :=
  event.carry party (courses config.proto party) Course.opens (courseOf party)

section Chart

variable {config : Config} {courseOf : Party → Course} {mover : Party}

theorem chart_self (performed : Performed signature) :
    @chart config courseOf (.perform mover performed) mover =
      (courseOf mover).write performed := if_pos rfl

theorem chart_other {party : Party} (performed : Performed signature) (other : party ≠ mover) :
    @chart config courseOf (.perform mover performed) party = courseOf party :=
  if_neg (Ne.symm other)

/-- What the worker's course says after an operation of whatever party. -/
theorem chart_worker (performed : Performed signature) :
    @chart config courseOf (.perform mover performed) .worker =
      if mover = .worker then (courseOf .worker).write performed else courseOf .worker := rfl

end Chart

/-- The parties keep to their courses. -/
def OnCourse {config : Config} (current : (camd config).Config) (courseOf : Party → Course) :
    Prop :=
  ∀ party, (current.phase party).Carries (courses config.proto party) party.Fits (courseOf party)

theorem onCourse_launched (config : Config) (now : UInt64) :
    OnCourse (launched config now) fun _ => {} := by
  intro party
  cases party with
  | worker =>
      exact ⟨rfl, rfl, nofun, fun _ => rfl, fun _ => rfl, fun _ => rfl,
        fun _ _ => ⟨rfl, rotates_later⟩⟩
  | caller index => rfl

theorem OnCourse.step {config : Config} {before after : (camd config).Config}
    {event : (camd config).Event} {courseOf : Party → Course} (onCourse : OnCourse before courseOf)
    (step : (camd config).Step before event after) :
    OnCourse after (chart courseOf event) ∧
      ∀ party performed, event = .perform party performed →
        (courseOf party).Allows config.proto party performed.1 := by
  have carried (party : Party) :
      (after.phase party).Carries (courses config.proto party) party.Fits
          (event.carry party (courses config.proto party) Course.opens (courseOf party)) ∧
        ∀ performed, event = .perform party performed →
          (courses config.proto party).allows (courseOf party) performed.1 := by
    refine step.carries (onCourse party) ?_
    intro command locals program body fits
    cases party with
    | worker =>
        simp only [Party.body, Option.ite_none_right_eq_some, Option.some.injEq] at body
        obtain ⟨running, rfl⟩ := body
        exact obeys_camdWorker fits running
    | caller index =>
        cases body
        exact obeys_call command fits
  exact ⟨fun party => (carried party).1, fun party => (carried party).2⟩

/-- Neither the worker nor a caller is in the middle of something. -/
def Idle {config : Config} (current : (camd config).Config) : Prop :=
  ∀ party, ∃ locals, current.phase party = .idle locals

end Camd
