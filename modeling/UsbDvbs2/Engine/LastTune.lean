import UsbDvbs2.Concurrency.Ledger
import UsbDvbs2.Engine.CommandMonitor

/-! # What the monitor tunes to

A re-acquisition takes the transponder that the last tune left behind, and a tune
leaves its own only once it gets through to the search for the signal. Every call
keeps a ledger of its turn at the tune lock.
-/

namespace Engine

open Concurrency Program ThreadSystem

/-! ## A turn at the tune lock -/

/-- The symbol rate that a lock reports, in thousands of symbols a second. -/
def SignalStatus.ksps (status : SignalStatus) : UInt32 := (status.symbolRateHz + 500) / 1000

/-- A transponder that was asked for, or, if that was without a symbol rate, the one
with a rate that a complete lock reported. -/
def Transponder.Found (asked : Transponder) (reported : List SignalStatus)
    (kept : Transponder) : Prop :=
  kept = asked ∨ asked.blind = true ∧ ∃ status ∈ reported, status.locked = true ∧
    status.complete = true ∧ kept = { asked with srKsps := status.ksps }

/-- What a thread has done since it was called. -/
structure Turn where
  /-- what it tunes to -/
  subject : Option Transponder := none
  /-- it read that there is a frequency -/
  sawFreq : Bool := false
  holds : Bool := false
  /-- the status it reported since it took the lock -/
  reported : List SignalStatus := []
  /-- whether it left a transponder behind since -/
  stored : Bool := false

def Turn.write (turn : Turn) : Performed signature → Turn
  | ⟨.lockTune, _⟩ => { turn with holds := true, reported := [], stored := false }
  | ⟨.unlockTune, _⟩ => { turn with holds := false, subject := none }
  | ⟨.getFreqKhz, freqKhz⟩ => { turn with sawFreq := freqKhz != 0 }
  | ⟨.getTransponder, cached⟩ => if turn.holds then { turn with subject := some cached } else turn
  | ⟨.setStatus status, _⟩ => { turn with reported := turn.reported ++ [status] }
  | ⟨.setTransponder _, _⟩ => { turn with stored := true }
  | _ => turn

/-- The command thread locks for what it was asked to tune to, and the monitor once it
saw a frequency; it looks up what to tune to under the lock. What is left behind is what
was tuned to. -/
def Turn.Allows (thread : Thread) (turn : Turn) : Op → Prop
  | .lockTune => turn.holds = false ∧
      match thread with
      | .command => turn.subject ≠ none
      | .monitor => turn.sawFreq = true
  | .unlockTune => turn.holds = true
  | .getTransponder =>
      match thread with
      | .command => turn.holds = false
      | .monitor => turn.holds = true ∧ turn.sawFreq = true
  | .setTransponder kept => turn.holds = true ∧
      ∃ asked, turn.subject = some asked ∧ asked.Found turn.reported kept
  | _ => True

def turns (thread : Thread) : Rules signature Turn := ⟨Turn.write, Turn.Allows thread⟩

/-- A call begins with what it asks for. -/
def Turn.begins : (thread : Thread) → engine.Command thread → Turn
  | .command, .tune asked => { subject := some asked }
  | _, _ => {}

/-- The lock is not kept. -/
def Turn.Closed (turn : Turn) : Prop := turn.holds = false

/-! ## Code away from the lock -/

/-- What is written into a ledger. -/
def Op.Tuning : Op → Prop
  | .lockTune | .unlockTune | .getTransponder | .getFreqKhz | .setStatus _ | .setTransponder _ =>
      True
  | _ => False

/-- Code that writes nothing into a ledger. -/
def Aloof {α : Type} (code : Code α) : Prop := code.Avoids Op.Tuning fun _ _ => True

theorem Op.Tuning.desk {operation : Op} (tuning : operation.Tuning) : operation.Desk := by
  cases operation with
  | lockTune | unlockTune | getTransponder | getFreqKhz | setStatus | setTransponder => trivial
  | _ => exact tuning.elim

theorem Plain.aloof {α : Type} {code : Code α} (plain : Plain code) : Aloof code :=
  Avoids.mono plain (fun _ => Op.Tuning.desk) fun _ _ _ => trivial

theorem aloof_op {operation : Op} (free : ¬ operation.Tuning) : Aloof (op operation) :=
  avoids_op free

theorem aloof_write32 (reg value : UInt32) : Aloof (Avl62x1.write32 reg value) := by
  rw [Avl62x1.write32, Avl62x1.write_single reg (by simp [Avl62x1.bytes32])
    (by simp [Avl62x1.bytes32, Avl62x1.writeDataMax])]
  have wrote : Aloof (op (.demodWrite reg (Avl62x1.bytes32 value))) := aloof_op id
  exact Avoids.ifZero wrote (Avoids.bind Avl62x1.plain_breathe.aloof fun _ => avoids_done 0)

theorem aloof_setLnbPins (enable select : UInt32) : Aloof (Avl62x1.setLnbPins enable select) := by
  apply Avoids.untilFailure
  intro code member
  simp only [List.mem_cons, List.not_mem_nil, or_false] at member
  rcases member with rfl | rfl
  · exact aloof_write32 _ _
  · exact aloof_write32 _ _

theorem aloof_setLnbVoltage (volts : UInt32) : Aloof (Avl62x1.setLnbVoltage volts) :=
  Avoids.ite (fun _ => aloof_setLnbPins _ _) fun _ =>
    Avoids.ite (fun _ => aloof_setLnbPins _ _) fun _ =>
      Avoids.ite (fun _ => aloof_setLnbPins _ _) fun _ => avoids_done _

theorem aloof_lnbPowerDown : Aloof lnbPowerDown := by
  apply (aloof_op id).bind
  intro enabled
  refine Avoids.ite (fun _ => ?_) fun _ => avoids_done _
  apply Avoids.bind (Avl62x1.plain_set22khzTone false).aloof
  intro toned
  exact Avoids.bind (aloof_setLnbVoltage 0) fun _ => aloof_op id

theorem aloof_switchLnb (asked : Transponder) (relight changed : Bool) :
    Aloof (switchLnb asked relight changed) := by
  refine Avoids.ite (fun _ => Avoids.ite (fun _ => ?_) fun _ => ?_) fun _ => avoids_done _
  · exact Avoids.bind aloof_lnbPowerDown fun _ => avoids_done _
  · apply (aloof_op id).bind
    intro staged
    have cut : Aloof cutForRelight :=
      Avoids.bind (aloof_setLnbVoltage 0) fun _ =>
        Avoids.bind (plain_sleep 120).aloof fun _ => aloof_op id
    apply (Avoids.when fun _ => cut).bind
    intro ready
    apply Avoids.bind (aloof_setLnbVoltage _)
    intro rc
    exact Avoids.ite (fun _ => avoids_done _) fun _ =>
      (aloof_op id).bind fun _ => (plain_afterSwitchOn asked).aloof

theorem aloof_close : Aloof Engine.close := by
  apply (aloof_op id).bind
  intro running
  refine Avoids.ite (fun _ => ?_) fun _ => avoids_done _
  apply (aloof_op id).bind
  intro quit
  apply (aloof_op id).bind
  intro joined
  apply Avoids.bind aloof_lnbPowerDown
  intro dark
  have detaches : Aloof (op .detachStreamThread) := aloof_op id
  have closes : Aloof (op .closeUsb) := aloof_op id
  exact (Avoids.when fun _ => detaches).bind fun _ => (aloof_op id).bind fun _ =>
    (aloof_op id).bind fun _ => (aloof_op id).bind fun _ => (aloof_op id).bind fun _ =>
      Avoids.when fun _ => closes

/-! ## Every call takes its turn -/

variable {thread : Thread} {turn : Turn}

theorem turns_free (turn : Turn) (operation : Op) (free : ¬ operation.Tuning) :
    (turns thread).allows turn operation ∧
      ∀ answer, (turns thread).write turn ⟨operation, answer⟩ = turn := by
  cases operation with
  | lockTune | unlockTune | getTransponder | getFreqKhz | setStatus | setTransponder =>
      exact (free trivial).elim
  | _ => exact ⟨trivial, fun _ => rfl⟩

section Calls

variable {α β : Type}

/-- Aloof code in front of other code. -/
theorem Aloof.then {post : Turn → β → Prop} {code : Code α} {rest : α → Code β}
    (aloof : Aloof code) (later : ∀ value, (rest value).Obeys (turns thread) post turn) :
    (code >>= rest).Obeys (turns thread) post turn :=
  .bind (.of_avoids aloof turns_free later)

theorem Aloof.obeys {post : Turn → α → Prop} {code : Code α} (aloof : Aloof code)
    (ends : ∀ value, post turn value) : code.Obeys (turns thread) post turn :=
  .of_avoids aloof turns_free ends

/-- An operation in front of other code. -/
theorem obeys_op {post : Turn → β → Prop} {operation : Op} {rest : operation.Answer → Code β}
    (allowed : turn.Allows thread operation)
    (later : ∀ answer, (rest answer).Obeys (turns thread) post
      (turn.write ⟨operation, answer⟩)) :
    (op operation >>= rest).Obeys (turns thread) post turn := ⟨allowed, later⟩

end Calls

/-- In the middle of a tune. -/
def Turn.Busy (turn : Turn) (asked : Transponder) : Prop :=
  turn.holds = true ∧ turn.subject = some asked

/-- The symbol rate that the polls found is one that was reported. -/
def Turn.Polled (turn : Turn) (poll : Poll) : Prop :=
  poll.foundSrKsps ≠ 0 → ∃ status ∈ turn.reported, status.locked = true ∧
    status.complete = true ∧ poll.foundSrKsps = status.ksps

theorem Turn.Polled.report {poll : Poll} (polled : turn.Polled poll) (status : SignalStatus) :
    (turn.write ⟨.setStatus status, ()⟩).Polled poll := by
  intro found
  obtain ⟨other, member, same⟩ := polled found
  exact ⟨other, List.mem_append_left _ member, same⟩

theorem obeys_pollSignal {asked : Transponder} {blind : Bool} {left : Nat} {poll : Poll}
    (busy : turn.Busy asked) (polled : turn.Polled poll) :
    (pollSignal blind left poll).Obeys (turns thread)
      (fun turn poll => turn.Busy asked ∧ turn.Polled poll) turn := by
  induction left generalizing turn poll with
  | zero => exact ⟨busy, polled⟩
  | succ left ih =>
      refine (aloof_op id).then fun quit => ?_
      refine .ite (fun _ => ⟨busy, polled⟩) fun _ => ?_
      refine (plain_sleep 80).aloof.then fun _ => ?_
      refine Avl62x1.plain_getSignalStatus.aloof.then fun answer => ?_
      rcases answer with rc | status
      · exact ⟨busy, polled⟩
      refine .ite (fun locked => ?_) fun _ => ih busy polled
      refine obeys_op trivial fun _ => ?_
      have known := polled.report status
      refine .ite (fun complete => ?_) fun _ => ih busy known
      have found : ∀ samples, (turn.write ⟨.setStatus status, ()⟩).Polled
          ⟨true, (status.symbolRateHz + 500) / 1000, samples⟩ := fun _ _ =>
        ⟨status, List.mem_append_right _ (List.mem_singleton_self _), locked, complete, rfl⟩
      refine .ite (fun _ => ?_) fun _ => ih busy (found _)
      exact (aloof_op id).then fun _ => ⟨busy, found _⟩

theorem obeys_storeTransponder {asked : Transponder} {poll : Poll} (busy : turn.Busy asked)
    (polled : turn.Polled poll) :
    (storeTransponder asked poll).Obeys (turns thread) (fun turn _ => turn.holds = true) turn := by
  refine obeys_op ⟨busy.1, asked, busy.2, ?_⟩ fun _ => ?_
  · by_cases found : (asked.blind && poll.locked && poll.foundSrKsps != 0) = true
    · rw [if_pos found]
      simp only [Bool.and_eq_true, bne_iff_ne] at found
      obtain ⟨status, member, locked, complete, same⟩ := polled found.2
      exact .inr ⟨found.1.1, status, member, locked, complete, by rw [same]⟩
    · rw [if_neg found]
      exact .inl rfl
  · refine .ite (fun _ => ?_) fun _ => (aloof_op id).then fun _ => busy.1
    exact (aloof_op id).then fun _ => (aloof_op id).then fun _ => busy.1

theorem obeys_daemonTune {asked : Transponder} (busy : turn.Busy asked) :
    (daemonTune asked).Obeys (turns thread) (fun turn _ => turn.holds = true) turn := by
  refine plain_relightWanted.aloof.then fun relight => ?_
  refine (plain_lnbChanged asked relight).aloof.then fun changed => ?_
  refine (aloof_op id).then fun _ => ?_
  refine obeys_op trivial fun _ => ?_
  have busy : (turn.write ⟨.setStatus noSignal, ()⟩).Busy asked := busy
  generalize turn.write ⟨.setStatus noSignal, ()⟩ = turn at busy
  refine (plain_programTuner asked).aloof.then fun rc => ?_
  refine .ite (fun _ => (aloof_op id).then fun _ => busy.1) fun _ => ?_
  refine (aloof_switchLnb asked relight changed).then fun rc => ?_
  refine .ite (fun _ => busy.1) fun _ => ?_
  refine (aloof_op id).then fun _ => ?_
  refine (Avl62x1.plain_acquire _ _ _).aloof.then fun rc => ?_
  refine .ite (fun _ => (aloof_op id).then fun _ => busy.1) fun _ => ?_
  refine .bind ((obeys_pollSignal busy fun none_ => absurd rfl none_).mono ?_)
  exact fun turn poll polled => obeys_storeTransponder polled.1 polled.2

theorem obeys_releaseTune {post : Turn → Unit → Prop} (holds : turn.holds = true)
    (ends : post (turn.write ⟨.unlockTune, ()⟩) ()) :
    releaseTune.Obeys (turns thread) post turn :=
  (aloof_op id).then fun _ => (aloof_op id).then fun _ => ⟨holds, fun _ => ends⟩

theorem obeys_tune (asked : Transponder) :
    (tune asked).Obeys (turns .command) (fun turn _ => turn.Closed) { subject := some asked } := by
  have skips : (sameTransponder asked).Obeys (turns .command)
      (fun turn _ => turn = { subject := some asked }) { subject := some asked } := by
    refine obeys_op rfl fun cached => ?_
    refine .ite (fun _ => rfl) fun _ => ?_
    refine (aloof_op id).then fun tuned => ?_
    refine .ite (fun _ => rfl) fun _ => ?_
    exact (aloof_op id).then fun _ => (aloof_op id).then fun _ => rfl
  refine .bind (skips.mono fun turn skip same => ?_)
  subst same
  refine .ite (fun _ => (aloof_op id).then fun _ => rfl) fun _ => ?_
  refine obeys_op ⟨rfl, nofun⟩ fun _ => ?_
  refine .bind ((obeys_daemonTune ⟨rfl, rfl⟩).mono fun turn rc holds => ?_)
  exact .bind (obeys_releaseTune holds rfl)

theorem obeys_monitorRound :
    monitorRound.Obeys (turns .monitor) (fun turn _ => turn.Closed) {} := by
  refine (aloof_op id).then fun quit => ?_
  refine .ite (fun _ => rfl) fun _ => ?_
  refine (plain_sleep 1000).aloof.then fun _ => ?_
  refine obeys_op trivial fun freqKhz => ?_
  refine .ite (fun _ => rfl) fun tuned => ?_
  refine (aloof_op id).then fun quit => ?_
  refine .ite (fun _ => rfl) fun _ => ?_
  refine plain_streamSilent.aloof.then fun silent => ?_
  refine .ite (fun _ => ?_) fun _ => rfl
  have saw : (freqKhz != 0) = true := bne_iff_ne.2 tuned
  refine obeys_op ⟨rfl, saw⟩ fun _ => ?_
  have reacquires : ∀ {turn : Turn}, turn.holds = true → turn.sawFreq = true →
      reacquire.Obeys (turns .monitor) (fun turn _ => turn.holds = true) turn := by
    intro turn holds saw
    refine (aloof_op id).then fun _ => (aloof_op id).then fun _ => ?_
    refine obeys_op ⟨holds, saw⟩ fun cached => ?_
    have busy : (turn.write ⟨.getTransponder, cached⟩).Busy cached := by
      rw [Turn.write, if_pos holds]
      exact ⟨holds, rfl⟩
    exact .bind ((obeys_daemonTune busy).mono fun _ _ holds => holds)
  have checks : ∀ {turn : Turn}, turn.holds = true → turn.sawFreq = true →
      checkCarrier.Obeys (turns .monitor) (fun turn _ => turn.holds = true) turn := by
    intro turn holds saw
    refine plain_askDemod.aloof.then fun asked => ?_
    rcases asked with _ | status
    · refine (aloof_op id).then fun tuned => ?_
      exact .ite (fun _ => (aloof_op id).obeys fun _ => holds) fun _ => reacquires holds saw
    · exact .ite (fun _ => (aloof_op id).obeys fun _ => holds) fun _ => reacquires holds saw
  refine .bind ((checks rfl saw).mono fun turn _ holds => ?_)
  exact .bind (obeys_releaseTune holds rfl)

/-- Every call obeys, from the ledger that it begins with. -/
theorem obeys_body (thread : Thread) (command : engine.Command thread)
    (locals : engine.Locals thread) (program : Code (engine.Locals thread))
    (body : engine.body thread command locals = some program) :
    program.Obeys (turns thread) (fun turn _ => turn.Closed) (Turn.begins thread command) := by
  cases thread with
  | command =>
      obtain rfl := Option.some.inj body
      cases command with
      | tune asked => exact .bind ((obeys_tune asked).mono fun _ _ closed => closed)
      | setChannel channel => exact (aloof_op id).obeys fun _ => rfl
      | lnbOff => exact aloof_lnbPowerDown.obeys fun _ => rfl
      | close => exact aloof_close.obeys fun _ => rfl
  | monitor =>
      cases locals with
      | false => exact nomatch body
      | true =>
          obtain rfl := Option.some.inj body
          exact obeys_monitorRound

/-! ## What was asked for last -/

/-- The threads with their ledgers, what the last tune to take the lock asks for, and the
status reported since. -/
structure Watch where
  config : engine.Config
  turns : Thread → Turn
  last : Option Transponder
  reported : List SignalStatus

def Watch.opened (clock : UInt32) (genericI2c : Bool) : Watch :=
  ⟨Engine.opened clock genericI2c, fun _ => {}, none, []⟩

def lastAfter (turn : Turn) (last : Option Transponder) : engine.Event → Option Transponder
  | .perform .command ⟨.lockTune, _⟩ => turn.subject
  | _ => last

def reportedAfter (reported : List SignalStatus) : engine.Event → List SignalStatus
  | .perform .command ⟨.lockTune, _⟩ => []
  | .perform _ ⟨.setStatus status, _⟩ => reported ++ [status]
  | _ => reported

inductive Watch.Step : Watch → engine.Event → Watch → Prop where
  | intro {watch : Watch} {event : engine.Event} {config : engine.Config} :
      engine.Step watch.config event config →
      Step watch event
        { config
          turns := event.enter Engine.turns Turn.begins watch.turns
          last := lastAfter (watch.turns .command) watch.last event
          reported := reportedAfter watch.reported event }

/-- What is remembered is what was asked for last. -/
def Watch.Remembers (watch : Watch) : Prop :=
  ∀ asked, watch.last = some asked → asked.Found watch.reported watch.config.shared.transponder

/-- A tune that gives the lock back has got as far as leaving its transponder behind, or
asked for the one that is remembered anyway. -/
def Commits (moved : Moved Watch engine.Event) : Prop :=
  moved.event = .perform .command ⟨.unlockTune, ()⟩ →
    (moved.before.turns .command).stored = true ∨ moved.before.Remembers

/-- When the monitor looks up what to call `daemon_tune` with, it gets what was asked for
last. -/
def Retries (moved : Moved Watch engine.Event) : Prop :=
  ∀ cached, moved.event = .perform .monitor ⟨.getTransponder, cached⟩ →
    ∃ asked, moved.before.last = some asked ∧ asked.Found moved.before.reported cached

theorem Transponder.Found.mono {asked kept : Transponder} {reported more : List SignalStatus}
    (found : asked.Found reported kept) (grows : reported ⊆ more) : asked.Found more kept :=
  found.imp_right fun ⟨blind, status, member, rest⟩ => ⟨blind, status, grows member, rest⟩

/-- What a retry finds is found for what was asked. -/
theorem Transponder.Found.trans {asked cached kept : Transponder} {reported : List SignalStatus}
    (found : asked.Found reported cached) (again : cached.Found reported kept) :
    asked.Found reported kept := by
  rcases found with rfl | ⟨blind, status, member, locked, complete, rfl⟩
  · exact again
  · rcases again with rfl | ⟨_, other, there, rest⟩
    · exact .inr ⟨blind, status, member, locked, complete, rfl⟩
    · exact .inr ⟨blind, other, there, rest⟩

/-- The turns of the two threads, what is remembered and the lock. -/
structure Accounted (command monitor : Turn) (kept : Transponder) (locked : Bool)
    (last : Option Transponder) (reported : List SignalStatus) : Prop where
  locks : command.holds = true ∨ monitor.holds = true → locked = true
  alone : command.holds = true → monitor.holds = false
  tuning : command.holds = true → ∃ asked, command.subject = some asked ∧ last = some asked ∧
    command.reported ⊆ reported
  retrying : monitor.holds = true → monitor.reported ⊆ reported ∧
    ∀ cached, monitor.subject = some cached →
      ∃ asked, last = some asked ∧ asked.Found reported cached
  waiting : monitor.holds = false → monitor.subject = none
  saw : monitor.sawFreq = true → last ≠ none
  first : last = none → kept.freqKhz = 0
  remembers : (command.holds = true → command.stored = true) →
    ∀ asked, last = some asked → asked.Found reported kept

/-! ### The variables under the lock -/

/-- The transponder that is remembered once an operation is done. -/
def Op.leaves (kept : Transponder) : Op → Transponder
  | .setTransponder transponder => transponder
  | _ => kept

/-- Whether the lock is taken then. -/
def Op.locks (locked : Bool) : Op → Bool
  | .lockTune => true
  | .unlockTune => false
  | _ => locked

/-- What an operation of a ledger is answered. -/
def Op.Answers (kept : Transponder) (locked : Bool) :
    (operation : Op) → operation.Answer → Prop
  | .lockTune, _ => locked = false
  | .getFreqKhz, freqKhz => freqKhz = kept.freqKhz
  | .getTransponder, cached => cached = kept
  | _, _ => True

theorem exec_protected {operation : Op} {input : Input} {state next : State}
    {answer : operation.Answer}
    (performed : machine.exec operation input state = some (answer, next)) :
    next.transponder = operation.leaves state.transponder ∧
      next.tuneLocked = operation.locks state.tuneLocked ∧
      operation.Answers state.transponder state.tuneLocked answer := by
  have kept := State.passages_keep State.transponder
    (fun _ passage => by cases passage <;> rfl) state input.passages
  have locked := State.passages_keep State.tuneLocked
    (fun _ passage => by cases passage <;> rfl) state input.passages
  simp only [machine] at performed
  rw [← kept, ← locked]
  generalize input.passages.foldl State.pass state = passed at performed
  cases operation with
  | lockTune =>
      simp only [effect, Option.ite_none_left_eq_some] at performed
      obtain ⟨free, same⟩ := performed
      cases same
      exact ⟨rfl, rfl, Bool.eq_false_iff.2 free⟩
  | sleep =>
      simp only [effect, Option.ite_none_right_eq_some] at performed
      cases performed.2
      exact ⟨rfl, rfl, trivial⟩
  | paceWrite =>
      simp only [effect, State.paceWrite] at performed
      split at performed <;> (cases performed; exact ⟨rfl, rfl, trivial⟩)
  | spin => cases performed
  | getFreqKhz | getTransponder => cases performed; exact ⟨rfl, rfl, rfl⟩
  | _ => cases performed; exact ⟨rfl, rfl, trivial⟩

namespace Accounted

variable {command monitor : Turn} {kept : Transponder} {locked : Bool}
  {last : Option Transponder} {reported : List SignalStatus}

/-- While the lock is free nobody holds it. -/
theorem free (accounted : Accounted command monitor kept false last reported) :
    command.holds = false ∧ monitor.holds = false :=
  ⟨Bool.eq_false_iff.2 fun holds => Bool.false_ne_true (accounted.locks (.inl holds)),
    Bool.eq_false_iff.2 fun holds => Bool.false_ne_true (accounted.locks (.inr holds))⟩

/-- What the monitor looks up, once it saw a frequency and holds the lock. -/
theorem looks_up (accounted : Accounted command monitor kept locked last reported)
    (holds : monitor.holds = true) (sawFreq : monitor.sawFreq = true) :
    ∃ asked, last = some asked ∧ asked.Found reported kept := by
  have other : command.holds = false := Bool.eq_false_iff.2 fun both =>
    Bool.false_ne_true ((accounted.alone both).symm.trans holds)
  obtain ⟨asked, same⟩ := Option.ne_none_iff_exists'.1 (accounted.saw sawFreq)
  exact ⟨asked, same, accounted.remembers (fun both => nomatch other.symm.trans both) asked same⟩

/-- A status that is reported takes nothing away. -/
theorem hears (accounted : Accounted command monitor kept locked last reported)
    (status : SignalStatus) :
    Accounted command monitor kept locked last (reported ++ [status]) where
  locks := accounted.locks
  alone := accounted.alone
  tuning holds := by
    obtain ⟨asked, subject, same, known⟩ := accounted.tuning holds
    exact ⟨asked, subject, same, List.subset_append_of_subset_left _ known⟩
  retrying holds := by
    obtain ⟨known, retries⟩ := accounted.retrying holds
    refine ⟨List.subset_append_of_subset_left _ known, fun cached subject => ?_⟩
    obtain ⟨asked, same, found⟩ := retries cached subject
    exact ⟨asked, same, found.mono (List.subset_append_left _ _)⟩
  waiting := accounted.waiting
  saw := accounted.saw
  first := accounted.first
  remembers stored asked same :=
    (accounted.remembers stored asked same).mono (List.subset_append_left _ _)

/-- An operation of the command thread. -/
theorem command_performs (accounted : Accounted command monitor kept locked last reported)
    {operation : Op} {answer : operation.Answer} (allowed : command.Allows .command operation)
    (answered : operation.Answers kept locked answer)
    (commits : operation = .unlockTune → command.stored = true ∨
      ∀ asked, last = some asked → asked.Found reported kept) :
    Accounted (command.write ⟨operation, answer⟩) monitor (operation.leaves kept)
      (operation.locks locked) (lastAfter command last (.perform .command ⟨operation, answer⟩))
      (reportedAfter reported (.perform .command ⟨operation, answer⟩)) := by
  cases operation with
  | lockTune =>
      obtain rfl : locked = false := answered
      obtain ⟨free, other⟩ := accounted.free
      obtain ⟨asked, subject⟩ := Option.ne_none_iff_exists'.1 allowed.2
      exact {
        locks := fun _ => rfl
        alone := fun _ => other
        tuning := fun _ => ⟨asked, subject, subject, fun _ => id⟩
        retrying := fun holds => nomatch other.symm.trans holds
        waiting := accounted.waiting
        saw := fun _ => allowed.2
        first := fun nothing => (allowed.2 nothing).elim
        remembers := fun stored => nomatch stored rfl }
  | unlockTune =>
      have other := accounted.alone allowed
      exact {
        locks := fun holds => by
          rcases holds with holds | holds
          · exact nomatch holds
          · exact nomatch other.symm.trans holds
        alone := nofun
        tuning := nofun
        retrying := fun holds => nomatch other.symm.trans holds
        waiting := accounted.waiting
        saw := accounted.saw
        first := accounted.first
        remembers := fun _ =>
          (commits rfl).elim (fun stored => accounted.remembers fun _ => stored) id }
  | getTransponder =>
      have free : command.holds = false := allowed
      rw [Turn.write, if_neg (Bool.eq_false_iff.1 free)]
      exact accounted
  | getFreqKhz => exact { accounted with }
  | setStatus status =>
      exact { accounted.hears status with
        tuning := fun holds => by
          obtain ⟨asked, subject, same, known⟩ := (accounted.hears status).tuning holds
          exact ⟨asked, subject, same,
            List.append_subset.2 ⟨known, List.subset_append_right _ _⟩⟩ }
  | setTransponder transponder =>
      obtain ⟨holds, asked, subject, found⟩ := allowed
      obtain ⟨_, same, latest, known⟩ := accounted.tuning holds
      obtain rfl := Option.some.inj (subject.symm.trans same)
      exact {
        locks := accounted.locks
        alone := accounted.alone
        tuning := accounted.tuning
        retrying := accounted.retrying
        waiting := accounted.waiting
        saw := accounted.saw
        first := fun nothing => nomatch nothing.symm.trans latest
        remembers := fun _ other asks => by
          obtain rfl := Option.some.inj (latest.symm.trans asks)
          exact found.mono known }
  | _ => exact accounted

/-- An operation of the monitor; when it looks up what to tune to, it gets what was asked
for last. -/
theorem monitor_performs (accounted : Accounted command monitor kept locked last reported)
    {operation : Op} {answer : operation.Answer} (allowed : monitor.Allows .monitor operation)
    (answered : operation.Answers kept locked answer) :
    Accounted command (monitor.write ⟨operation, answer⟩) (operation.leaves kept)
      (operation.locks locked) last
      (reportedAfter reported (.perform .monitor ⟨operation, answer⟩)) := by
  cases operation with
  | lockTune =>
      obtain rfl : locked = false := answered
      obtain ⟨other, free⟩ := accounted.free
      exact {
        locks := fun _ => rfl
        alone := fun holds => nomatch other.symm.trans holds
        tuning := accounted.tuning
        retrying := fun _ => ⟨List.nil_subset _, fun cached subject =>
          nomatch (accounted.waiting free).symm.trans subject⟩
        waiting := nofun
        saw := accounted.saw
        first := accounted.first
        remembers := accounted.remembers }
  | unlockTune =>
      have other : command.holds = false := Bool.eq_false_iff.2 fun holds =>
        Bool.false_ne_true ((accounted.alone holds).symm.trans allowed)
      exact {
        locks := fun holds => by
          rcases holds with holds | holds
          · exact nomatch other.symm.trans holds
          · exact nomatch holds
        alone := fun _ => rfl
        tuning := accounted.tuning
        retrying := nofun
        waiting := fun _ => rfl
        saw := accounted.saw
        first := accounted.first
        remembers := accounted.remembers }
  | getTransponder =>
      obtain rfl : answer = kept := answered
      obtain ⟨holds, sawFreq⟩ := allowed
      rw [Turn.write, if_pos holds]
      exact { accounted with
        retrying := fun _ => ⟨(accounted.retrying holds).1, fun cached subject =>
          Option.some.inj subject ▸ accounted.looks_up holds sawFreq⟩
        waiting := fun free => nomatch free.symm.trans holds }
  | getFreqKhz =>
      obtain rfl : answer = kept.freqKhz := answered
      exact { accounted with
        saw := fun sees nothing => bne_iff_ne.1 sees (accounted.first nothing) }
  | setStatus status =>
      exact { accounted.hears status with
        retrying := fun holds => by
          obtain ⟨known, retries⟩ := (accounted.hears status).retrying holds
          exact ⟨List.append_subset.2 ⟨known, List.subset_append_right _ _⟩, retries⟩ }
  | setTransponder transponder =>
      obtain ⟨holds, cached, subject, again⟩ := allowed
      obtain ⟨known, retries⟩ := accounted.retrying holds
      obtain ⟨asked, latest, found⟩ := retries cached subject
      exact { accounted with
        first := fun nothing => nomatch nothing.symm.trans latest
        remembers := fun _ other asks => by
          obtain rfl := Option.some.inj (latest.symm.trans asks)
          exact found.trans (again.mono known) }
  | _ => exact accounted

/-- The command thread begins a call. -/
theorem command_begins (accounted : Accounted command monitor kept locked last reported)
    (idle : command.holds = false) {begun : Turn} (free : begun.holds = false) :
    Accounted begun monitor kept locked last reported where
  locks holds := by
    rcases holds with holds | holds
    · exact nomatch free.symm.trans holds
    · exact accounted.locks (.inr holds)
  alone holds := nomatch free.symm.trans holds
  tuning holds := nomatch free.symm.trans holds
  retrying := accounted.retrying
  waiting := accounted.waiting
  saw := accounted.saw
  first := accounted.first
  remembers _ := accounted.remembers fun holds => nomatch idle.symm.trans holds

/-- The monitor begins a round. -/
theorem monitor_begins (accounted : Accounted command monitor kept locked last reported) :
    Accounted command {} kept locked last reported where
  locks holds := by
    rcases holds with holds | holds
    · exact accounted.locks (.inl holds)
    · exact nomatch holds
  alone _ := rfl
  tuning := accounted.tuning
  retrying := nofun
  waiting _ := rfl
  saw := nofun
  first := accounted.first
  remembers := accounted.remembers

end Accounted

/-! ### Every run -/

/-- The turns are taken as they should be. -/
structure Watch.Accounted (watch : Watch) : Prop where
  obeys : ∀ thread, (watch.config.phase thread).Obeys (Engine.turns thread) Turn.Closed
    (watch.turns thread)
  accounted : Engine.Accounted (watch.turns .command) (watch.turns .monitor)
    watch.config.shared.transponder watch.config.shared.tuneLocked watch.last watch.reported

theorem Watch.accounted_opened (clock : UInt32) (genericI2c : Bool) :
    (Watch.opened clock genericI2c).Accounted where
  obeys thread := by cases thread <;> rfl
  accounted :=
    { locks := nofun
      alone := nofun
      tuning := nofun
      retrying := nofun
      waiting := fun _ => rfl
      saw := nofun
      first := fun _ => rfl
      remembers := nofun }

theorem Watch.Accounted.step {watch next : Watch} {event : engine.Event}
    (accounted : watch.Accounted) (step : watch.Step event next)
    (commits : Commits ⟨watch, event, next⟩) :
    next.Accounted ∧ Retries ⟨watch, event, next⟩ := by
  obtain ⟨moved⟩ := step
  obtain ⟨obeys, allowed⟩ := moved.obeys accounted.obeys obeys_body
  have before := accounted.accounted
  cases moved with
  | @start mover command locals program idle body =>
      refine ⟨⟨obeys, ?_⟩, nofun⟩
      cases mover with
      | command =>
          have closed := accounted.obeys .command
          rw [idle] at closed
          have free : (Turn.begins .command command).holds = false := by cases command <;> rfl
          exact before.command_begins closed free
      | monitor => exact before.monitor_begins
  | @perform mover command operation rest input answer shared here performed =>
      obtain ⟨leaves, locks, answered⟩ := exec_protected performed
      have may := allowed mover ⟨operation, answer⟩ rfl
      refine ⟨⟨obeys, ?_⟩, ?_⟩
      · cases mover with
        | command =>
            have after := before.command_performs may answered fun gives => by
              subst gives
              exact commits rfl
            rw [← leaves, ← locks] at after
            exact after
        | monitor =>
            have after := before.monitor_performs may answered
            rw [← leaves, ← locks] at after
            exact after
      · intro cached looks
        cases looks
        exact (answered : cached = _) ▸ before.looks_up may.1 may.2
  | @finish mover command locals here => exact ⟨⟨obeys, before⟩, nofun⟩

/-- **The monitor retries what was asked for last.** In every interleaving in which every
tune that takes the lock gets as far as leaving its transponder behind, or asked for what
is remembered anyway, the monitor calls `daemon_tune` with what the last of these tunes
asked for, its symbol rate found by a blind search at most. -/
theorem monitor_retries_last_tune {clock : UInt32} {genericI2c : Bool} {final : Watch}
    {moves : List (Moved Watch engine.Event)}
    (walk : Walk Watch.Step (.opened clock genericI2c) moves final)
    (commits : ∀ moved ∈ moves, Commits moved) : ∀ moved ∈ moves, Retries moved :=
  walk.wanted_of_allowed Watch.Accounted Commits Retries
    (fun _ step commits accounted => accounted.step step commits) (Watch.accounted_opened _ _)
    commits

/-! ### Two tunes -/

/-- The ledgers beside the steps of an interleaving. -/
def Watch.along (watch : Watch) :
    List (Moved engine.Config engine.Event) → List (Moved Watch engine.Event) × Watch
  | [] => ([], watch)
  | moved :: moves =>
      let next : Watch :=
        { config := moved.after
          turns := moved.event.enter Engine.turns Turn.begins watch.turns
          last := lastAfter (watch.turns .command) watch.last moved.event
          reported := reportedAfter watch.reported moved.event }
      let rest := next.along moves
      (⟨watch, moved.event, next⟩ :: rest.1, rest.2)

theorem Watch.walk_along {watch : Watch} {config final : engine.Config}
    {moves : List (Moved engine.Config engine.Event)} (walk : Walk engine.Step config moves final)
    (same : watch.config = config) :
    Walk Watch.Step watch (watch.along moves).1 (watch.along moves).2 := by
  induction walk generalizing watch with
  | nil => exact .nil watch
  | cons step _ ih =>
      subst same
      exact .cons (.intro step) (ih rfl)

/-- The tuner refuses every message. -/
def tunerRefused : Op → Input :=
  environment (fun
    | .tunerWrite _ _ => true
    | _ => false) lockedData

/-- Every message goes through, there is no lock, and pauses take nine seconds longer. -/
def lostReceiver : Op → Input
  | .sleep ms => { passages := [.time (ms + 9000)] }
  | _ => {}

/-- A tune without a symbol rate, which finds one, and a monitor round after the signal
went away, up to where it calls `daemon_tune`. -/
def blindAndRetry : List engine.Move :=
  .start .command (Call.tune { someTransponder with srKsps := 0 }) ::
    performing .command 112 lockedReceiver ++
      .finish .command :: .start .monitor () :: performing .monitor 22 lostReceiver

/-- A tune that locks, a tune to another transponder that fails, and a monitor round. -/
def failAndRetry : List engine.Move :=
  .start .command (Call.tune someTransponder) :: performing .command 112 lockedReceiver ++
    .finish .command :: .start .command (Call.tune { someTransponder with freqKhz := 1500000 }) ::
      performing .command 26 tunerRefused ++
        .finish .command :: .start .monitor () :: performing .monitor 13 lostReceiver

/-- The steps of a schedule, with the ledgers. -/
def watched (schedule : List engine.Move) : List (Moved Watch engine.Event) :=
  ((Watch.opened 0 false).along ((opened 0 false).track schedule).1).1

theorem walk_watched (schedule : List engine.Move) :
    ∃ final, Walk Watch.Step (.opened 0 false) (watched schedule) final :=
  ⟨_, Watch.walk_along ((opened 0 false).walk_track schedule) rfl⟩

/-- The monitor looks up a transponder that the test holds of, beside what was asked for
last. -/
def looksUp (test : Transponder → Transponder → Bool) (moved : Moved Watch engine.Event) : Bool :=
  match moved.event, moved.before.last with
  | .perform .monitor ⟨.getTransponder, cached⟩, some asked => test asked cached
  | _, _ => false

/-- Whether a tune that gives the lock back left its transponder behind. -/
def storesFirst (moved : Moved Watch engine.Event) : Bool :=
  match moved.event with
  | .perform .command ⟨.unlockTune, _⟩ => (moved.before.turns .command).stored
  | _ => true

theorem commits_of_stores {moved : Moved Watch engine.Event} (stores : storesFirst moved = true) :
    Commits moved := by
  intro gives
  rw [storesFirst, gives] at stores
  exact .inl stores

theorem monitor_retries_last_tune_blind :
    (watched blindAndRetry).any (looksUp fun asked cached =>
        asked.srKsps == 0 && cached.srKsps == 27500) = true ∧
      ∀ moved ∈ watched blindAndRetry, Retries moved := by
  have stores : (watched blindAndRetry).all storesFirst = true := by decide +kernel
  obtain ⟨final, walk⟩ := walk_watched blindAndRetry
  exact ⟨by decide +kernel, monitor_retries_last_tune walk fun moved member =>
    commits_of_stores (List.all_eq_true.1 stores moved member)⟩

/-- After the failed tune the monitor sends the dish back to the transponder before. -/
theorem monitor_retries_earlier_tune :
    ∃ final, Walk Watch.Step (.opened 0 false) (watched failAndRetry) final ∧
      ∃ moved ∈ watched failAndRetry, ¬ Retries moved := by
  obtain ⟨final, walk⟩ := walk_watched failAndRetry
  have stale : (watched failAndRetry).any (looksUp fun asked cached =>
      !asked.blind && cached != asked) = true := by decide +kernel
  obtain ⟨moved, member, looks⟩ := List.any_eq_true.1 stale
  refine ⟨final, walk, moved, member, fun retries => ?_⟩
  unfold looksUp at looks
  split at looks
  · rename_i cached asked event last
    simp only [Bool.and_eq_true, Bool.not_eq_true', bne_iff_ne] at looks
    obtain ⟨other, same, found⟩ := retries cached event
    obtain rfl := Option.some.inj (last.symm.trans same)
    rcases found with same | ⟨blind, _⟩
    · exact looks.2 same
    · exact nomatch looks.1.symm.trans blind
  · exact nomatch looks

end Engine
