import UsbDvbs2.Platform.TimedWait

/-! # A thread and its record

`dtv_thread` where threads are POSIX threads. `pthread_join` knows no limit, so a thread marks in
its record that it is done, and a join waits for the mark first. Two know the record, the thread
and whoever started it: the starter joins until that succeeds or gives the thread up, and the one
who needs the record last has to free it.
-/

namespace Platform

open Concurrency

/-- What became of the handle of the thread. -/
inductive Handle where
  | attached
  | joined
  | detached
  deriving DecidableEq

/-- Where `thread_entry` stands. -/
inductive Runner where
  | entering
  | running
  | locking
  | marking
  | unlocking (detached : Bool)
  | leaving (detached : Bool)
  | ended
  deriving DecidableEq

/-- Where the starter stands: outside, in `dtv_thread_join`, in `dtv_thread_detach`, or through
with the thread, whose record it has released or not. -/
inductive Starter where
  | holding
  | joining (wait : Wait)
  | awaiting
  | detaching
  | detachMarking
  | detachUnlocking (done : Bool)
  | releasing
  | through (released : Bool)
  deriving DecidableEq

/-- `dtv_thread` and its two parties; `frees` counts the calls of `thread_free`. -/
structure ThreadRecord where
  done : Bool
  detached : Bool
  handle : Handle
  frees : Nat
  runner : Runner
  starter : Starter

def dtvThreadStart (memory created : Bool) : Option ThreadRecord :=
  if memory ∧ created then
    some {
      done := false
      detached := false
      handle := .attached
      frees := 0
      runner := .entering
      starter := .holding }
  else none

def Runner.holds : Runner → Bool
  | .marking | .unlocking _ => true
  | _ => false

def Starter.holds : Starter → Bool
  | .joining wait => wait.holds
  | .detachMarking | .detachUnlocking _ => true
  | _ => false

def Starter.wake : Starter → Starter
  | .joining wait => .joining wait.wake
  | starter => starter

inductive ThreadCall where
  | join (milliseconds : UInt32)
  | detach

inductive RecordMove where
  | runner
  | call (call : ThreadCall) (now : UInt64)
  | starter (now : UInt64)
  | wake

namespace ThreadRecord

/-- `thread_entry`. -/
def runnerNext (s : ThreadRecord) : Option ThreadRecord :=
  match s.runner with
  | .entering => some { s with runner := .running }
  | .running => some { s with runner := .locking }
  | .locking => if s.starter.holds then none else some { s with runner := .marking }
  | .marking => some { s with
      done := true
      starter := s.starter.wake
      runner := .unlocking s.detached }
  | .unlocking detached => some { s with runner := .leaving detached }
  | .leaving detached => some { s with frees := s.frees + detached.toNat, runner := .ended }
  | .ended => none

/-- `dtv_thread_join` and `dtv_thread_detach` behind their beginning. A join that leaves its loop
without the mark returns 1, and the starter still has the thread. -/
def starterNext (s : ThreadRecord) (now : UInt64) : Option ThreadRecord :=
  match s.starter with
  | .joining (.leaving ..) => some { s with starter := if s.done then .awaiting else .holding }
  | .joining wait =>
      (wait.next (!s.runner.holds) s.done now).map fun later => { s with starter := .joining later }
  | .awaiting =>
      if s.runner = .ended then some { s with handle := .joined, starter := .releasing } else none
  | .detaching => if s.runner.holds then none else some { s with starter := .detachMarking }
  | .detachMarking => some { s with detached := true, starter := .detachUnlocking s.done }
  | .detachUnlocking done =>
      some { s with starter := if done then .releasing else .through false }
  | .releasing => some { s with frees := s.frees + 1, starter := .through true }
  | .holding | .through _ => none

def callNext (s : ThreadRecord) (call : ThreadCall) (now : UInt64) : Option ThreadRecord :=
  if s.starter = .holding then
    match call with
    | .join milliseconds =>
        some { s with starter := .joining (.locking (.from now milliseconds)) }
    | .detach => some { s with handle := .detached, starter := .detaching }
  else none

def next (s : ThreadRecord) : RecordMove → Option ThreadRecord
  | .runner => s.runnerNext
  | .call call now => s.callNext call now
  | .starter now => s.starterNext now
  | .wake => some { s with starter := s.starter.wake }

def Step (before : ThreadRecord) (move : RecordMove) (after : ThreadRecord) : Prop :=
  before.next move = some after

/-- Where the thread goes when nothing else changes. -/
inductive Proceeds (s : ThreadRecord) : Runner → Runner → Prop where
  | enters : s.Proceeds .entering .running
  | returns : s.Proceeds .running .locking
  | locks : s.starter.holds = false → s.Proceeds .locking .marking
  | unlocks (detached : Bool) : s.Proceeds (.unlocking detached) (.leaving detached)

/-- A move of the thread. -/
inductive RunnerMoves (s : ThreadRecord) : ThreadRecord → Prop where
  | proceeds (runner : Runner) : s.Proceeds s.runner runner → s.RunnerMoves { s with runner }
  | marks : s.runner = .marking → s.RunnerMoves { s with
      done := true
      starter := s.starter.wake
      runner := .unlocking s.detached }
  | leaves (detached : Bool) : s.runner = .leaving detached →
      s.RunnerMoves { s with frees := s.frees + detached.toNat, runner := .ended }

/-- A move of the starter behind the beginning of a call. -/
inductive StarterMoves (s : ThreadRecord) (now : UInt64) : ThreadRecord → Prop where
  | waits (wait later : Wait) : s.starter = .joining wait →
      wait.Turns (!s.runner.holds) s.done now later →
        s.StarterMoves now { s with starter := .joining later }
  | returns (limit : Limit) (late : Option UInt64) : s.starter = .joining (.leaving limit late) →
      s.StarterMoves now { s with starter := if s.done then .awaiting else .holding }
  | joins : s.starter = .awaiting → s.runner = .ended →
      s.StarterMoves now { s with handle := .joined, starter := .releasing }
  | locks : s.starter = .detaching → s.runner.holds = false →
      s.StarterMoves now { s with starter := .detachMarking }
  | marks : s.starter = .detachMarking →
      s.StarterMoves now { s with detached := true, starter := .detachUnlocking s.done }
  | unlocks (done : Bool) : s.starter = .detachUnlocking done →
      s.StarterMoves now { s with starter := if done then .releasing else .through false }
  | releases : s.starter = .releasing →
      s.StarterMoves now { s with frees := s.frees + 1, starter := .through true }

section Moves

variable {s after : ThreadRecord} {now : UInt64}

theorem runnerNext_iff : s.runnerNext = some after ↔ s.RunnerMoves after := by
  constructor
  · intro moved
    cases at' : s.runner with
    | entering =>
        simp only [runnerNext, at'] at moved
        exact Option.some.inj moved ▸ .proceeds _ (at' ▸ .enters)
    | running =>
        simp only [runnerNext, at'] at moved
        exact Option.some.inj moved ▸ .proceeds _ (at' ▸ .returns)
    | locking =>
        simp only [runnerNext, at'] at moved
        split at moved
        · cases moved
        · rename_i free
          exact Option.some.inj moved ▸
            .proceeds _ (at' ▸ .locks (Bool.eq_false_iff.mpr free))
    | marking =>
        simp only [runnerNext, at'] at moved
        exact Option.some.inj moved ▸ .marks at'
    | unlocking detached =>
        simp only [runnerNext, at'] at moved
        exact Option.some.inj moved ▸ .proceeds _ (at' ▸ .unlocks detached)
    | leaving detached =>
        simp only [runnerNext, at'] at moved
        exact Option.some.inj moved ▸ .leaves detached at'
    | ended =>
        simp only [runnerNext, at'] at moved
        cases moved
  · intro moves
    cases moves with
    | proceeds runner proceeds =>
        generalize at' : s.runner = before at proceeds
        cases proceeds with
        | enters | returns | unlocks => simp only [runnerNext, at']
        | locks free =>
            simp only [runnerNext, at', free]
            rfl
    | marks at' | leaves _ at' => simp only [runnerNext, at']

theorem starterNext_iff : s.starterNext now = some after ↔ s.StarterMoves now after := by
  constructor
  · intro moved
    cases at' : s.starter with
    | holding | through =>
        simp only [starterNext, at'] at moved
        cases moved
    | joining wait =>
        cases wait with
        | leaving limit late =>
            simp only [starterNext, at'] at moved
            exact Option.some.inj moved ▸ .returns limit late at'
        | _ =>
            simp only [starterNext, at'] at moved
            obtain ⟨later, next, rfl⟩ := Option.map_eq_some_iff.mp moved
            exact .waits _ later at' (Wait.next_iff.mp next)
    | awaiting =>
        simp only [starterNext, at'] at moved
        obtain ⟨ended, same⟩ := Option.ite_none_right_eq_some.mp moved
        exact Option.some.inj same ▸ .joins at' ended
    | detaching =>
        simp only [starterNext, at'] at moved
        split at moved
        · cases moved
        · rename_i free
          exact Option.some.inj moved ▸ .locks at' (Bool.eq_false_iff.mpr free)
    | detachMarking =>
        simp only [starterNext, at'] at moved
        exact Option.some.inj moved ▸ .marks at'
    | detachUnlocking done =>
        simp only [starterNext, at'] at moved
        exact Option.some.inj moved ▸ .unlocks done at'
    | releasing =>
        simp only [starterNext, at'] at moved
        exact Option.some.inj moved ▸ .releases at'
  · intro moves
    cases moves with
    | waits wait later at' turns =>
        cases wait with
        | leaving => exact (turns.inside rfl).elim
        | _ =>
            simp only [starterNext, at']
            exact Option.map_eq_some_iff.mpr ⟨later, Wait.next_iff.mpr turns, rfl⟩
    | returns _ _ at' | marks at' | unlocks _ at' | releases at' => simp only [starterNext, at']
    | joins at' ended => simp only [starterNext, at', if_pos ended]
    | locks at' free =>
        simp only [starterNext, at', free]
        rfl

end Moves

end ThreadRecord

/-! ## Who needs the record -/

/-- The record is used now or later. -/
def Runner.needs : Runner → Bool
  | .leaving false | .ended => false
  | _ => true

def Starter.needs : Starter → Bool
  | .through _ => false
  | _ => true

def Runner.isPast : Runner → Bool
  | .unlocking _ | .leaving _ | .ended => true
  | _ => false

/-- The thread was detached when it looked. -/
def Runner.tells : Runner → Bool
  | .unlocking detached | .leaving detached => detached
  | _ => false

/-- The thread was not detached when it looked. -/
def Runner.isQuiet : Runner → Bool
  | .unlocking detached | .leaving detached => !detached
  | _ => false

/-- What a thread frees that frees its record itself. -/
def Runner.freed : Runner → Nat
  | .ended => 1
  | _ => 0

theorem Runner.freed_le (runner : Runner) : runner.freed ≤ 1 := by
  cases runner with
  | ended => exact Nat.le_refl 1
  | _ => exact Nat.zero_le 1

namespace ThreadRecord

/-- What holds where the starter stands. -/
def Place (s : ThreadRecord) : Starter → Prop
  | .holding => s.handle = .attached ∧ s.detached = false ∧ s.frees = 0
  | .joining wait =>
      s.handle = .attached ∧ s.detached = false ∧ s.frees = 0 ∧ wait.Fits s.done
  | .awaiting =>
      s.handle = .attached ∧ s.detached = false ∧ s.frees = 0 ∧ s.runner.needs = false
  | .detaching | .detachMarking => s.handle = .detached ∧ s.detached = false ∧ s.frees = 0
  | .detachUnlocking done => s.handle = .detached ∧ s.detached = true ∧ s.frees = 0 ∧
      done = s.done ∧ (done = true → s.runner.needs = false)
  | .releasing => s.handle ≠ .attached ∧ s.frees = 0 ∧ s.runner.needs = false
  | .through true => s.handle ≠ .attached ∧ s.frees = 1 ∧ s.runner.needs = false
  | .through false =>
      s.handle ≠ .attached ∧ s.detached = true ∧ s.frees = s.runner.freed ∧
        s.runner.isQuiet = false

structure Kept (s : ThreadRecord) : Prop where
  past : s.done = s.runner.isPast
  alone : s.runner.holds = true → s.starter.holds = false
  tells : s.runner.tells = true → s.detached = true
  joined : s.handle = .joined → s.runner = .ended
  place : s.Place s.starter

section Kept

variable {s after : ThreadRecord}

/-- A thread that proceeds is neither past its mark nor at its end before it was. -/
theorem Proceeds.same {runner later : Runner} (proceeds : s.Proceeds runner later) :
    later.isPast = runner.isPast ∧ runner.needs = true ∧ runner ≠ .ended ∧
      later.isQuiet = runner.isQuiet ∧ later.freed = runner.freed := by
  cases proceeds <;> exact ⟨rfl, rfl, Runner.noConfusion, rfl, rfl⟩

theorem Kept.proceeds (kept : s.Kept) {runner : Runner} (proceeds : s.Proceeds s.runner runner) :
    Kept { s with runner } := by
  obtain ⟨past, needs, going, quiet, freed⟩ := proceeds.same
  have place := kept.place
  refine ⟨kept.past.trans past.symm, fun holds => ?_, fun tells => kept.tells ?_,
    fun handle => (going (kept.joined handle)).elim, ?_⟩
  · generalize s.runner = before at proceeds
    cases proceeds with
    | locks free => exact free
    | enters | returns | unlocks => cases holds
  · generalize s.runner = before at proceeds
    cases proceeds with
    | unlocks => exact tells
    | enters | returns | locks => cases tells
  · show Place { s with runner } s.starter
    cases at' : s.starter with
    | holding | joining | detaching | detachMarking =>
        rw [at'] at place
        exact place
    | awaiting =>
        rw [at'] at place
        cases needs.symm.trans place.2.2.2
    | detachUnlocking done =>
        rw [at'] at place
        obtain ⟨handle, detached, frees, same, without⟩ := place
        exact ⟨handle, detached, frees, same, fun set => by cases needs.symm.trans (without set)⟩
    | releasing =>
        rw [at'] at place
        cases needs.symm.trans place.2.2
    | through released =>
        rw [at'] at place
        cases released with
        | true => cases needs.symm.trans place.2.2
        | false =>
            obtain ⟨handle, detached, frees, loud⟩ := place
            exact ⟨handle, detached, frees.trans freed.symm, quiet.trans loud⟩

theorem Kept.mark (kept : s.Kept) (at' : s.runner = .marking) : Kept { s with
    done := true
    starter := s.starter.wake
    runner := .unlocking s.detached } := by
  have without := kept.alone (by rw [at']; rfl)
  have needs : s.runner.needs = true := by rw [at']; rfl
  have place := kept.place
  refine ⟨rfl, fun _ => ?_, id, fun handle => ?_, ?_⟩
  · cases starter : s.starter with
    | joining wait =>
        rw [starter] at without
        exact Wait.holds_wake.trans without
    | _ =>
        rw [starter] at without
        exact without
  · cases at'.symm.trans (kept.joined handle)
  · cases starter : s.starter with
    | holding | detaching =>
        rw [starter] at place
        exact place
    | joining wait =>
        rw [starter] at place without
        exact ⟨place.1, place.2.1, place.2.2.1, Wait.fits_changed without⟩
    | awaiting =>
        rw [starter] at place
        cases needs.symm.trans place.2.2.2
    | detachMarking | detachUnlocking =>
        rw [starter] at without
        cases without
    | releasing =>
        rw [starter] at place
        cases needs.symm.trans place.2.2
    | through released =>
        rw [starter] at place
        cases released with
        | true => cases needs.symm.trans place.2.2
        | false =>
            obtain ⟨handle, detached, frees, -⟩ := place
            rw [at'] at frees
            refine ⟨handle, detached, frees, ?_⟩
            change (!s.detached) = false
            rw [detached]
            rfl

/-- A thread that was not detached when it looked leaves the record to the starter. -/
theorem Kept.leave_quiet (kept : s.Kept) (at' : s.runner = .leaving false) :
    Place { s with runner := .ended } s.starter := by
  have place := kept.place
  cases starter : s.starter with
  | holding | joining | detaching | detachMarking =>
      rw [starter] at place
      exact place
  | awaiting =>
      rw [starter] at place
      exact ⟨place.1, place.2.1, place.2.2.1, rfl⟩
  | detachUnlocking done =>
      rw [starter] at place
      obtain ⟨handle, told, frees, same, -⟩ := place
      exact ⟨handle, told, frees, same, fun _ => rfl⟩
  | releasing =>
      rw [starter] at place
      exact ⟨place.1, place.2.1, rfl⟩
  | through released =>
      rw [starter] at place
      cases released with
      | true => exact ⟨place.1, place.2.1, rfl⟩
      | false =>
          have loud := place.2.2.2
          rw [at'] at loud
          cases loud

/-- One that was detached finds the starter through, and frees the record. -/
theorem Kept.leave_detached (kept : s.Kept) (at' : s.runner = .leaving true) :
    Place { s with frees := s.frees + 1, runner := .ended } s.starter := by
  have told := kept.tells (by rw [at']; rfl)
  have needs : s.runner.needs = true := by rw [at']; rfl
  have done : s.done = true := by rw [kept.past, at']; rfl
  have place := kept.place
  cases starter : s.starter with
  | holding | joining | awaiting | detaching | detachMarking =>
      rw [starter] at place
      cases told.symm.trans place.2.1
  | detachUnlocking =>
      rw [starter] at place
      obtain ⟨-, -, -, same, without⟩ := place
      cases needs.symm.trans (without (same.trans done))
  | releasing =>
      rw [starter] at place
      cases needs.symm.trans place.2.2
  | through released =>
      rw [starter] at place
      cases released with
      | true => cases needs.symm.trans place.2.2
      | false =>
          obtain ⟨handle, told, frees, -⟩ := place
          rw [at'] at frees
          exact ⟨handle, told, congrArg (· + 1) frees, rfl⟩

theorem Kept.leave (kept : s.Kept) {detached : Bool} (at' : s.runner = .leaving detached) :
    Kept { s with frees := s.frees + detached.toNat, runner := .ended } := by
  refine ⟨?_, fun absurd => (by cases absurd), fun absurd => (by cases absurd), fun _ => rfl, ?_⟩
  · have past := kept.past
    rw [at'] at past
    exact past
  · cases detached with
    | false => exact kept.leave_quiet at'
    | true => exact kept.leave_detached at'

theorem Kept.runnerMoves (kept : s.Kept) (moves : s.RunnerMoves after) : after.Kept := by
  cases moves with
  | proceeds _ proceeds => exact kept.proceeds proceeds
  | marks at' => exact kept.mark at'
  | leaves _ at' => exact kept.leave at'

/-- Whoever finds the mark, and has not detached the thread, is alone with the record. -/
theorem Kept.silent (kept : s.Kept) (done : s.done = true) (holds : s.starter.holds = true)
    (attached : s.detached = false) : s.runner.needs = false := by
  have past := kept.past.symm.trans done
  cases at' : s.runner with
  | entering | running | locking | marking =>
      rw [at'] at past
      cases past
  | unlocking =>
      have without := kept.alone (by rw [at']; rfl)
      cases without.symm.trans holds
  | leaving detached =>
      cases detached with
      | true => cases attached.symm.trans (kept.tells (by rw [at']; rfl))
      | false => rfl
  | ended => rfl

theorem Kept.unheld (kept : s.Kept) (holds : s.starter.holds = true) : s.runner.holds = false := by
  cases both : s.runner.holds with
  | false => rfl
  | true => cases holds.symm.trans (kept.alone both)

/-- The starter goes on, and leaves the record alone. -/
theorem Kept.follow (kept : s.Kept) {starter : Starter}
    (alone : s.runner.holds = true → starter.holds = false) (place : s.Place starter) :
    Kept { s with starter } where
  past := kept.past
  alone := alone
  tells := kept.tells
  joined := kept.joined
  place := by
    cases starter with
    | through released => cases released <;> exact place
    | _ => exact place

/-- What the thread has done when it is not past its mark. -/
theorem Kept.before (kept : s.Kept) (undone : s.done = false) :
    s.runner.freed = 0 ∧ s.runner.isQuiet = false := by
  have past := kept.past.symm.trans undone
  cases at' : s.runner with
  | entering | running | locking | marking => exact ⟨rfl, rfl⟩
  | unlocking | leaving | ended =>
      rw [at'] at past
      cases past

theorem Kept.wait (kept : s.Kept) {wait later : Wait} {now : UInt64}
    (at' : s.starter = .joining wait) (turns : wait.Turns (!s.runner.holds) s.done now later) :
    Kept { s with starter := .joining later } := by
  have place := kept.place
  rw [at'] at place
  refine kept.follow (fun held => ?_)
    ⟨place.1, place.2.1, place.2.2.1, turns.fits fun _ => place.2.2.2⟩
  rcases turns.holds with holds | ⟨free, -⟩
  · have without := kept.alone held
    rw [at'] at without
    cases without.symm.trans holds
  · rw [held] at free
    cases free

theorem Kept.starterMoves {now : UInt64} (kept : s.Kept) (moves : s.StarterMoves now after) :
    after.Kept := by
  have place := kept.place
  cases moves with
  | waits _ _ at' turns => exact kept.wait at' turns
  | returns limit late at' =>
      rw [at'] at place
      refine kept.follow (fun _ => by split <;> rfl) ?_
      split
      · rename_i done
        exact ⟨place.1, place.2.1, place.2.2.1, kept.silent done (by rw [at']; rfl) place.2.1⟩
      · exact ⟨place.1, place.2.1, place.2.2.1⟩
  | joins at' ended =>
      rw [at'] at place
      exact ⟨kept.past, fun _ => rfl, kept.tells, fun _ => ended,
        ⟨Handle.noConfusion, place.2.2.1, place.2.2.2⟩⟩
  | locks at' free =>
      rw [at'] at place
      exact kept.follow (fun held => by cases free.symm.trans held) place
  | marks at' =>
      rw [at'] at place
      have holds : s.starter.holds = true := by rw [at']; rfl
      refine ⟨kept.past, fun held => ?_, fun _ => rfl, kept.joined, ?_⟩
      · cases (kept.unheld holds).symm.trans held
      · exact ⟨place.1, rfl, place.2.2, rfl, fun done => kept.silent done holds place.2.1⟩
  | unlocks done at' =>
      rw [at'] at place
      obtain ⟨handle, detached, frees, same, without⟩ := place
      have told : s.handle ≠ .attached := by
        rw [handle]
        exact Handle.noConfusion
      cases done with
      | true => exact kept.follow (fun _ => rfl) ⟨told, frees, without rfl⟩
      | false =>
          obtain ⟨freed, loud⟩ := kept.before same.symm
          exact kept.follow (fun _ => rfl) ⟨told, detached, frees.trans freed.symm, loud⟩
  | releases at' =>
      rw [at'] at place
      exact ⟨kept.past, fun _ => rfl, kept.tells, kept.joined,
        ⟨place.1, congrArg (· + 1) place.2.1, place.2.2⟩⟩

theorem Kept.callNext {call : ThreadCall} {now : UInt64} (kept : s.Kept)
    (moved : s.callNext call now = some after) : after.Kept := by
  have place := kept.place
  simp only [ThreadRecord.callNext] at moved
  split at moved
  · rename_i at'
    rw [at'] at place
    cases call with
    | join milliseconds =>
        cases moved
        exact kept.follow (fun _ => rfl) ⟨place.1, place.2.1, place.2.2, trivial⟩
    | detach =>
        cases moved
        exact ⟨kept.past, fun _ => rfl, kept.tells, fun absurd => (by cases absurd),
          ⟨rfl, place.2⟩⟩
  · cases moved

theorem Kept.wake (kept : s.Kept) : Kept { s with starter := s.starter.wake } := by
  have place := kept.place
  cases at' : s.starter with
  | joining wait =>
      rw [at'] at place
      refine kept.follow (fun held => ?_)
        ⟨place.1, place.2.1, place.2.2.1, Wait.fits_wake place.2.2.2⟩
      have without := kept.alone held
      rw [at'] at without
      exact Wait.holds_wake.trans without
  | _ =>
      have same : s.starter.wake = s.starter := by
        rw [at']
        rfl
      rw [← at', same]
      exact kept

theorem Kept.next {move : RecordMove} (kept : s.Kept) (moved : Step s move after) :
    after.Kept := by
  cases move with
  | runner => exact kept.runnerMoves (runnerNext_iff.mp moved)
  | call call now => exact kept.callNext moved
  | starter now => exact kept.starterMoves (starterNext_iff.mp moved)
  | wake =>
      cases moved
      exact kept.wake

theorem dtvThreadStart_kept {memory created : Bool} {started : ThreadRecord}
    (starts : dtvThreadStart memory created = some started) : started.Kept := by
  rw [dtvThreadStart] at starts
  split at starts
  · cases starts
    exact ⟨rfl, fun _ => rfl, fun absurd => (by cases absurd), fun absurd => (by cases absurd),
      ⟨rfl, rfl, rfl⟩⟩
  · cases starts

end Kept

/-! ## Freed once, and in time -/

structure Sound (s : ThreadRecord) : Prop where
  once : s.frees ≤ 1
  /-- Nobody uses what is freed, -/
  unused : s.frees ≠ 0 → s.runner.needs = false ∧ s.starter.needs = false
  /-- and nothing is left when both are through. -/
  freed : s.runner = .ended → s.starter.needs = false → s.frees = 1
  /-- One at a time has the lock. -/
  alone : s.runner.holds = false ∨ s.starter.holds = false
  /-- The handle is given back as well, after the end of the thread when it was joined. -/
  handle : s.starter.needs = false → s.handle ≠ .attached
  joined : s.handle = .joined → s.runner = .ended

variable {s after : ThreadRecord}

theorem Kept.sound (kept : s.Kept) : s.Sound := by
  have place := kept.place
  have alone : s.runner.holds = false ∨ s.starter.holds = false := by
    cases held : s.runner.holds with
    | false => exact .inl rfl
    | true => exact .inr (kept.alone held)
  have unfreed : s.frees = 0 → s.starter.needs = true → s.Sound := fun none needs =>
    ⟨by omega, fun some => (some none).elim, fun _ absurd => (by cases needs.symm.trans absurd),
      alone, fun absurd => (by cases needs.symm.trans absurd), kept.joined⟩
  cases at' : s.starter with
  | holding | detaching | detachMarking =>
      rw [at'] at place
      exact unfreed place.2.2 (by rw [at']; rfl)
  | joining | awaiting | detachUnlocking =>
      rw [at'] at place
      exact unfreed place.2.2.1 (by rw [at']; rfl)
  | releasing =>
      rw [at'] at place
      exact unfreed place.2.1 (by rw [at']; rfl)
  | through released =>
      rw [at'] at place
      have apart : s.starter.needs = false := by
        rw [at']
        rfl
      cases released with
      | true =>
          obtain ⟨handle, frees, silent⟩ := place
          exact ⟨Nat.le_of_eq frees, fun _ => ⟨silent, apart⟩, fun _ _ => frees, alone,
            fun _ => handle, kept.joined⟩
      | false =>
          obtain ⟨handle, -, frees, -⟩ := place
          refine ⟨?_, fun some => ⟨?_, apart⟩, fun ended _ => ?_, alone, fun _ => handle,
            kept.joined⟩
          · rw [frees]
            exact s.runner.freed_le
          · rw [frees] at some
            cases runner : s.runner with
            | ended => rfl
            | _ =>
                rw [runner] at some
                exact (some rfl).elim
          · rw [frees, ended]
            rfl

/-- A join that leaves its loop because its time is over. -/
def Late (s : ThreadRecord) : Prop :=
  ∃ limit now, s.starter = .joining (.leaving limit (some now)) ∧ limit.Over now

theorem RunnerMoves.starter (moves : s.RunnerMoves after) :
    after.starter = s.starter ∨ after.starter = s.starter.wake := by
  cases moves with
  | proceeds | leaves => exact .inl rfl
  | marks => exact .inr rfl

theorem wake_holding {starter : Starter} (wakes : starter.wake = .holding) :
    starter = .holding := by
  cases starter with
  | joining => cases wakes
  | _ => exact wakes

theorem Kept.late_starter {now : UInt64} (kept : s.Kept) (moves : s.StarterMoves now after)
    (back : after.starter = .holding) : s.Late := by
  have place := kept.place
  cases moves with
  | returns limit late at' =>
      rw [at'] at place
      have fits := place.2.2.2
      cases late with
      | none =>
          have done : s.done = true := fits
          rw [done] at back
          cases back
      | some now => exact ⟨limit, now, at', fits.2⟩
  | unlocks done => cases done <;> cases back
  | waits | joins | locks | marks | releases => cases back

/-- The starter is back with the thread, when its join has returned 1. -/
theorem Kept.late {move : RecordMove} (kept : s.Kept) (moved : Step s move after)
    (away : s.starter ≠ .holding) (back : after.starter = .holding) : s.Late := by
  cases move with
  | runner =>
      rcases (runnerNext_iff.mp moved).starter with same | woken
      · exact (away (same.symm.trans back)).elim
      · exact (away (wake_holding (woken.symm.trans back))).elim
  | call =>
      simp only [Step, ThreadRecord.next, ThreadRecord.callNext] at moved
      rw [if_neg away] at moved
      cases moved
  | wake =>
      cases moved
      exact (away (wake_holding back)).elim
  | starter now => exact kept.late_starter (starterNext_iff.mp moved) back

/-- Whatever the two do, in whatever order, and however often the starter is woken: the record of
a thread is freed at most once, by the one who needs it last; when both are through it is freed
and the handle given back; and a join gives up only when its time is over. -/
theorem record_freed_once {memory created : Bool} {started final : ThreadRecord}
    {moves : List (Moved ThreadRecord RecordMove)}
    (starts : dtvThreadStart memory created = some started) (walk : Walk Step started moves final) :
    ∀ moved ∈ moves, moved.after.Sound ∧
      (moved.before.starter ≠ .holding → moved.after.starter = .holding → moved.before.Late) := by
  refine walk.wanted_of_allowed Kept (fun _ => True) _ ?_ (dtvThreadStart_kept starts)
    fun _ _ => trivial
  intro moved step _ kept
  have next := kept.next step
  exact ⟨next, next.sound, kept.late step⟩

def startedRecord : ThreadRecord where
  done := false
  detached := false
  handle := .attached
  frees := 0
  runner := .entering
  starter := .holding

/-- A join over 200 ms gives up, the thread is detached, and ends later. -/
def givenUp : List RecordMove :=
  [.runner, .call (.join 200) 0, .starter 0, .starter 0, .starter 0, .wake, .starter 150,
    .starter 150, .starter 210, .starter 210, .call .detach 220] ++
    .replicate 3 (.starter 220) ++ .replicate 5 .runner

theorem record_freed_once_givenUp : ∃ final moves, dtvThreadStart true true = some startedRecord ∧
    Walk Step startedRecord moves final ∧ moves.map Moved.event = givenUp ∧
      (∀ moved ∈ moves, moved.after.Sound) ∧ final.starter = .through false ∧ final.frees = 1 := by
  have walk := walk_follow ThreadRecord.next startedRecord givenUp
  have sound := @record_freed_once true true startedRecord _ _ rfl walk
  exact ⟨_, _, rfl, walk, rfl, fun moved member => (sound moved member).1, rfl, rfl⟩

end ThreadRecord

/-! ## Nobody waits in vain -/

/-- The moves of the two, without calls and without being woken for nothing. -/
def RecordMove.isOwn : RecordMove → Bool
  | .runner | .starter _ => true
  | .call .. | .wake => false

/-- The function of the thread has returned. -/
def Runner.isBack : Runner → Bool
  | .entering | .running => false
  | _ => true

def Runner.rest : Runner → Nat
  | .entering => 6
  | .running => 5
  | .locking => 4
  | .marking => 3
  | .unlocking _ => 2
  | .leaving _ => 1
  | .ended => 0

def Starter.rest : Starter → Nat
  | .joining wait => wait.rest + 4
  | .awaiting => 3
  | .detaching => 5
  | .detachMarking => 4
  | .detachUnlocking _ => 3
  | .releasing => 2
  | .holding | .through _ => 0

/-- The starter has not given up, and cannot any more without a call. -/
def Starter.isFirm : Starter → Bool
  | .holding => false
  | .joining wait => wait.limit.milliseconds = waitForever
  | _ => true

theorem Starter.rest_wake (starter : Starter) : starter.wake.rest ≤ starter.rest + 3 := by
  cases starter with
  | joining wait =>
      have less := @Wait.rest_wake wait
      simp only [Starter.wake, Starter.rest]
      omega
  | _ => exact Nat.le_add_right _ 3

theorem Starter.isFirm_wake (starter : Starter) : starter.wake.isFirm = starter.isFirm := by
  cases starter with
  | joining wait => cases wait <;> rfl
  | _ => rfl

namespace ThreadRecord

/-- How far the two are from their ends. -/
def distance (s : ThreadRecord) : Nat := 4 * s.runner.rest + s.starter.rest

/-- The thread has ended, and its starter has the record again or nobody has it. -/
def Over (s : ThreadRecord) : Prop :=
  s.runner = .ended ∧ (s.starter = .holding ∨ s.starter.needs = false)

section Ends

variable {s : ThreadRecord}

/-- The starter is nearer to its end, and as firm. -/
def Nearer (s after : ThreadRecord) : Prop :=
  after.runner = s.runner ∧ after.starter.rest < s.starter.rest ∧
    (s.starter.isFirm = true → after.starter.isFirm = true)

theorem Kept.return_goes (kept : s.Kept) {limit : Limit} {late : Option UInt64}
    (at' : s.starter = .joining (.leaving limit late)) :
    s.Nearer { s with starter := if s.done then .awaiting else .holding } := by
  have place := kept.place
  rw [at'] at place
  refine ⟨rfl, ?_, fun firm => ?_⟩ <;> simp only [at'] at *
  · split
    · exact Nat.lt_succ_self 3
    · exact Nat.succ_pos 3
  · split
    · rfl
    · rename_i undone
      have fits := place.2.2.2
      cases late with
      | none => exact (undone fits).elim
      | some now => exact (fits.2.1 (of_decide_eq_true firm)).elim

theorem Kept.join_goes (kept : s.Kept) {wait : Wait} (at' : s.starter = .joining wait)
    (inside : ∀ limit late, wait ≠ .leaving limit late)
    (free : wait.holds = true ∨ s.runner = .ended) :
    ∃ after, s.StarterMoves 0 after ∧ s.Nearer after := by
  have place := kept.place
  rw [at'] at place
  have awake : wait.isAsleep = false := by
    cases wait with
    | asleep limit =>
        have ended := free.resolve_left Bool.false_ne_true
        have done : s.done = false := place.2.2.2
        rw [kept.past, ended] at done
        cases done
    | _ => rfl
  have room : (!s.runner.holds) = true ∨ wait.holds = true := by
    rcases free with holds | ended
    · exact .inr holds
    · rw [ended]
      exact .inl rfl
  obtain ⟨later, turns⟩ := @Wait.exists_turns _ s.done 0 wait awake inside room
  refine ⟨_, .waits wait later at' turns, rfl, ?_, fun firm => ?_⟩ <;> rw [at'] at *
  · exact Nat.add_lt_add_right turns.rest 4
  · change decide (later.limit.milliseconds = waitForever) = true
    rw [turns.limit]
    exact firm

theorem Kept.starter_goes (kept : s.Kept) (away : s.starter ≠ .holding)
    (needs : s.starter.needs = true) (free : s.starter.holds = true ∨ s.runner = .ended) :
    ∃ after, s.StarterMoves 0 after ∧ s.Nearer after := by
  cases at' : s.starter with
  | holding => exact (away at').elim
  | through =>
      rw [at'] at needs
      cases needs
  | joining wait =>
      rw [at'] at free
      by_cases leaves : ∃ limit late, wait = .leaving limit late
      · obtain ⟨limit, late, rfl⟩ := leaves
        exact ⟨_, .returns limit late at', kept.return_goes at'⟩
      · exact kept.join_goes at' (fun limit late same => leaves ⟨limit, late, same⟩) free
  | awaiting =>
      rw [at'] at free
      have ended : s.runner = .ended := free.resolve_left Bool.false_ne_true
      refine ⟨_, .joins at' ended, rfl, ?_, fun _ => rfl⟩
      rw [at']
      exact Nat.lt_succ_self 2
  | detaching =>
      rw [at'] at free
      have ended : s.runner = .ended := free.resolve_left Bool.false_ne_true
      refine ⟨_, .locks at' (by rw [ended]; rfl), rfl, ?_, fun _ => rfl⟩
      rw [at']
      exact Nat.lt_succ_self 4
  | detachMarking =>
      refine ⟨_, .marks at', rfl, ?_, fun _ => rfl⟩
      rw [at']
      exact Nat.lt_succ_self 3
  | detachUnlocking done =>
      refine ⟨_, .unlocks done at', rfl, ?_, fun _ => by cases done <;> rfl⟩
      rw [at']
      cases done with
      | true => exact Nat.lt_succ_self 2
      | false => exact Nat.succ_pos 2
  | releasing =>
      refine ⟨_, .releases at', rfl, ?_, fun _ => rfl⟩
      rw [at']
      exact Nat.zero_lt_two

theorem runner_goes (back : s.runner.isBack = true) (going : s.runner ≠ .ended)
    (free : s.runner = .locking → s.starter.holds = false) :
    ∃ after, s.RunnerMoves after ∧ after.runner.isBack = true ∧
      after.distance < s.distance ∧ after.starter.isFirm = s.starter.isFirm := by
  cases at' : s.runner with
  | entering | running =>
      rw [at'] at back
      cases back
  | locking =>
      refine ⟨_, .proceeds .marking (at' ▸ .locks (free at')), rfl, ?_, rfl⟩
      simp only [distance, at', Runner.rest]
      omega
  | marking =>
      refine ⟨_, .marks at', rfl, ?_, s.starter.isFirm_wake⟩
      have less := s.starter.rest_wake
      simp only [distance, at', Runner.rest]
      omega
  | unlocking detached =>
      refine ⟨_, .proceeds (.leaving detached) (at' ▸ .unlocks detached), rfl, ?_, rfl⟩
      simp only [distance, at', Runner.rest]
      omega
  | leaving detached =>
      refine ⟨_, .leaves detached at', rfl, ?_, rfl⟩
      simp only [distance, at', Runner.rest]
      omega
  | ended => exact (going at').elim

/-- One of the two can always go on. -/
theorem Kept.nearer (kept : s.Kept) (back : s.runner.isBack = true) (going : ¬ s.Over) :
    ∃ move after, move.isOwn = true ∧ Step s move after ∧ after.runner.isBack = true ∧
      after.distance < s.distance ∧
        (s.starter.isFirm = true → after.starter.isFirm = true) := by
  by_cases turn : s.starter.holds = true ∨ s.runner = .ended
  · have needs : s.starter ≠ .holding ∧ s.starter.needs = true := by
      rcases turn with holds | ended
      · cases at' : s.starter with
        | holding | through =>
            rw [at'] at holds
            cases holds
        | _ => exact ⟨Starter.noConfusion, rfl⟩
      · constructor
        · exact fun at' => going ⟨ended, .inl at'⟩
        · exact Bool.of_not_eq_false fun gone => going ⟨ended, .inr gone⟩
    obtain ⟨after, moves, same, less, firm⟩ := kept.starter_goes needs.1 needs.2 turn
    refine ⟨.starter 0, after, rfl, starterNext_iff.mpr moves, same ▸ back, ?_, firm⟩
    rw [distance, distance, same]
    exact Nat.add_lt_add_left less _
  · obtain ⟨without, there⟩ := not_or.mp turn
    obtain ⟨after, moves, back, less, firm⟩ :=
      runner_goes back there fun _ => Bool.eq_false_iff.mpr without
    exact ⟨.runner, after, rfl, runnerNext_iff.mpr moves, back, less,
      fun still => firm.trans still⟩

/-- When the function of a thread has returned, the thread and its starter need nobody else, and
nobody to wake them, to come to an end: the thread ends, and its record is freed unless the
starter is back with it. A starter that joins without a limit, or has detached the thread, is
not. -/
theorem record_comes_to_end {memory created : Bool} {started : ThreadRecord}
    {moves : List (Moved ThreadRecord RecordMove)}
    (starts : dtvThreadStart memory created = some started) (walk : Walk Step started moves s)
    (back : s.runner.isBack = true) :
    ∃ later final, Walk Step s later final ∧ (∀ moved ∈ later, moved.event.isOwn = true) ∧
      final.runner = .ended ∧ (final.starter = .holding ∨ final.frees = 1) ∧
        (s.starter.isFirm = true → final.frees = 1) := by
  have kept := walk.invariant Kept (fun _ => True) (fun _ moved _ kept => kept.next moved)
    (dtvThreadStart_kept starts) fun _ _ => trivial
  have nearer : ∀ state : ThreadRecord, (state.Kept ∧ state.runner.isBack = true ∧
      (s.starter.isFirm = true → state.starter.isFirm = true)) → ¬ state.Over →
        ∃ move after, RecordMove.isOwn move = true ∧ Step state move after ∧
          (after.Kept ∧ after.runner.isBack = true ∧
            (s.starter.isFirm = true → after.starter.isFirm = true)) ∧
              after.distance < state.distance := by
    rintro state ⟨kept, back, firm⟩ going
    obtain ⟨move, after, own, moved, still, less, firmer⟩ := kept.nearer back going
    exact ⟨move, after, own, moved, ⟨kept.next moved, still, fun was => firmer (firm was)⟩, less⟩
  obtain ⟨later, final, rest, own, ⟨keeps, -, firm⟩, ended, gone⟩ :=
    Walk.exists_of_measure _ Over (fun move => RecordMove.isOwn move = true) distance nearer
      ⟨kept, back, id⟩
  refine ⟨later, final, rest, own, ended, ?_, fun was => ?_⟩
  · rcases gone with holding | gone
    · exact .inl holding
    · exact .inr (keeps.sound.freed ended gone)
  · rcases gone with holding | gone
    · have still := firm was
      rw [holding] at still
      cases still
    · exact keeps.sound.freed ended gone

/-- A starter sleeps in a join without a limit when the function of the thread returns. -/
def sleeper : List RecordMove :=
  [.runner, .call (.join waitForever) 0, .starter 0, .starter 0, .starter 0, .runner]

theorem record_comes_to_end_sleeper : ∃ s moves,
    Walk Step startedRecord moves s ∧ moves.map Moved.event = sleeper ∧ s.starter.holds = false ∧
      ∃ later final, Walk Step s later final ∧ (∀ moved ∈ later, moved.event.isOwn = true) ∧
        final.frees = 1 := by
  have walk := walk_follow ThreadRecord.next startedRecord sleeper
  obtain ⟨later, final, rest, own, -, -, freed⟩ :=
    @record_comes_to_end _ true true startedRecord _ rfl walk rfl
  exact ⟨_, _, walk, rfl, rfl, later, final, rest, own, freed rfl⟩

end Ends

end ThreadRecord
end Platform
