import Mathlib.Data.Fintype.Basic
import UsbDvbs2.Platform.TimedWait

/-! # An event that resets itself

`dtv_event` where it is built from a mutex and a condition variable. Any number of threads set the
event and wait for it; a wait that finds it set takes it, so that a set wakes one wait. A signal
wakes one of those asleep, but who comes first may be another.
-/

namespace Platform

open Concurrency

/-- Where a thread stands: outside, in `dtv_event_set`, or in `dtv_event_wait`. -/
inductive Stage where
  | outside
  | locking
  | marking
  | unlocking
  | waiting (wait : Wait)
  deriving DecidableEq

namespace Stage

def holds : Stage → Bool
  | .marking | .unlocking => true
  | .waiting wait => wait.holds
  | .outside | .locking => false

def isAsleep : Stage → Bool
  | .waiting wait => wait.isAsleep
  | _ => false

def wake : Stage → Stage
  | .waiting wait => .waiting wait.wake
  | stage => stage

def looks : Stage → Bool
  | .waiting wait => wait.looks
  | _ => false

/-- A wait is about to return. -/
def isLeaving : Stage → Bool
  | .waiting (.leaving ..) => true
  | _ => false

/-- How many moves are left until the lock is given back. -/
def rest : Stage → Nat
  | .marking => 2
  | .unlocking => 1
  | .waiting wait => wait.rest + 1
  | .outside | .locking => 0

theorem holds_wake (stage : Stage) : stage.wake.holds = stage.holds := by
  cases stage with
  | waiting wait => exact Wait.holds_wake
  | _ => rfl

theorem looks_wake {stage : Stage} (asleep : stage.isAsleep = true) :
    stage.wake.looks = true := by
  cases stage with
  | waiting wait => exact Wait.looks_wake asleep
  | _ => cases asleep

theorem wake_of_awake {stage : Stage} (awake : stage.isAsleep = false) : stage.wake = stage := by
  cases stage with
  | waiting wait =>
      cases wait with
      | asleep => cases awake
      | _ => rfl
  | _ => rfl

theorem holds_of_asleep {stage : Stage} (asleep : stage.isAsleep = true) :
    stage.holds = false := by
  cases stage with
  | waiting wait =>
      cases wait with
      | asleep => rfl
      | _ => cases asleep
  | _ => cases asleep

theorem isAsleep_wake (stage : Stage) : stage.wake.isAsleep = false := by
  cases stage with
  | waiting wait => exact Wait.isAsleep_wake
  | _ => rfl

end Stage

/-- `dtv_event`, with the threads that know it. -/
structure DtvEvent (ι : Type) where
  set : Bool
  holder : Option ι
  stage : ι → Stage

inductive EventCall where
  | set
  | wait (milliseconds : UInt32)

/-- A thread calls, goes on, or is woken for nothing; a signal wakes `wakes`. -/
inductive EventMove (ι : Type) where
  | call (who : ι) (call : EventCall) (now : UInt64)
  | go (who : ι) (now : UInt64) (wakes : Option ι)
  | wake (who : ι)

variable {ι : Type}

def dtvEventCreate : DtvEvent ι where
  set := false
  holder := none
  stage _ := .outside

namespace DtvEvent

variable [DecidableEq ι]

def moveTo (s : DtvEvent ι) (who : ι) (stage : Stage) : ι → Stage :=
  Function.update s.stage who stage

/-- `dtv_cond_signal` may wake this one, or finds nobody asleep. -/
def MayWake (s : DtvEvent ι) : Option ι → Prop
  | some other => (s.stage other).isAsleep = true
  | none => ∀ other, (s.stage other).isAsleep = false

instance [Fintype ι] (s : DtvEvent ι) (wakes : Option ι) : Decidable (s.MayWake wakes) :=
  match wakes with
  | some _ => inferInstanceAs (Decidable (_ = true))
  | none => inferInstanceAs (Decidable (∀ _, _))

def signal (s : DtvEvent ι) : Option ι → DtvEvent ι
  | some other => { s with stage := s.moveTo other (s.stage other).wake }
  | none => s

section Threads

variable [Fintype ι]

/-- What a thread does next. A wait returns the flag that it finds when it leaves, and takes it. -/
def goNext (s : DtvEvent ι) (who : ι) (now : UInt64) (wakes : Option ι) : Option (DtvEvent ι) :=
  match s.stage who with
  | .outside => none
  | .locking =>
      if s.holder = none then some { s with holder := some who, stage := s.moveTo who .marking }
      else none
  | .marking =>
      if s.MayWake wakes then
        some { s.signal wakes with set := true, stage := (s.signal wakes).moveTo who .unlocking }
      else none
  | .unlocking => some { s with holder := none, stage := s.moveTo who .outside }
  | .waiting (.leaving ..) =>
      some { s with set := false, holder := none, stage := s.moveTo who .outside }
  | .waiting wait =>
      (wait.next (s.holder = none) s.set now).map fun later => { s with
        holder := if later.holds then some who else none
        stage := s.moveTo who (.waiting later) }

def callNext (s : DtvEvent ι) (who : ι) (call : EventCall) (now : UInt64) :
    Option (DtvEvent ι) :=
  if s.stage who = .outside then
    match call with
    | .set => some { s with stage := s.moveTo who .locking }
    | .wait milliseconds =>
        some { s with stage := s.moveTo who (.waiting (.locking (.from now milliseconds))) }
  else none

def next (s : DtvEvent ι) : EventMove ι → Option (DtvEvent ι)
  | .call who call now => s.callNext who call now
  | .go who now wakes => s.goNext who now wakes
  | .wake who => some { s with stage := s.moveTo who (s.stage who).wake }

def Step (before : DtvEvent ι) (move : EventMove ι) (after : DtvEvent ι) : Prop :=
  before.next move = some after

end Threads

/-- What a move of one thread can be. -/
inductive Goes (s : DtvEvent ι) (who : ι) : DtvEvent ι → Prop where
  | locks : s.stage who = .locking → s.holder = none →
      s.Goes who { s with holder := some who, stage := s.moveTo who .marking }
  | marks (wakes : Option ι) : s.stage who = .marking → s.MayWake wakes → s.Goes who
      { s.signal wakes with set := true, stage := (s.signal wakes).moveTo who .unlocking }
  | unlocks : s.stage who = .unlocking →
      s.Goes who { s with holder := none, stage := s.moveTo who .outside }
  | leaves (limit : Limit) (late : Option UInt64) : s.stage who = .waiting (.leaving limit late) →
      s.Goes who { s with set := false, holder := none, stage := s.moveTo who .outside }
  | waits (wait later : Wait) (now : UInt64) : s.stage who = .waiting wait →
      wait.next (s.holder = none) s.set now = some later → s.Goes who { s with
        holder := if later.holds then some who else none
        stage := s.moveTo who (.waiting later) }

section Moves

variable {s after : DtvEvent ι} {who : ι}

theorem goNext_goes [Fintype ι] {now : UInt64} {wakes : Option ι}
    (moved : s.goNext who now wakes = some after) : s.Goes who after := by
  cases at' : s.stage who with
  | outside =>
      simp only [goNext, at'] at moved
      cases moved
  | locking =>
      simp only [goNext, at'] at moved
      split at moved
      · exact Option.some.inj moved ▸ .locks at' (by assumption)
      · cases moved
  | marking =>
      simp only [goNext, at'] at moved
      split at moved
      · exact Option.some.inj moved ▸ .marks wakes at' (by assumption)
      · cases moved
  | unlocking =>
      simp only [goNext, at'] at moved
      exact Option.some.inj moved ▸ .unlocks at'
  | waiting wait =>
      cases wait with
      | leaving limit late =>
          simp only [goNext, at'] at moved
          exact Option.some.inj moved ▸ .leaves limit late at'
      | _ =>
          simp only [goNext, at'] at moved
          obtain ⟨later, next, rfl⟩ := Option.map_eq_some_iff.mp moved
          exact .waits _ later now at' next

theorem moveTo_self (stage : Stage) : s.moveTo who stage who = stage :=
  Function.update_self ..

theorem moveTo_other {other : ι} (apart : other ≠ who) (stage : Stage) :
    s.moveTo who stage other = s.stage other :=
  Function.update_of_ne apart ..

theorem signal_holder (wakes : Option ι) : (s.signal wakes).holder = s.holder := by
  cases wakes <;> rfl

theorem signal_stage (wakes : Option ι) (other : ι) :
    (s.signal wakes).stage other = s.stage other ∨
      (s.signal wakes).stage other = (s.stage other).wake := by
  cases wakes with
  | none => exact .inl rfl
  | some woken =>
      by_cases same : other = woken
      · subst same
        exact .inr (moveTo_self _)
      · exact .inl (moveTo_other same _)

end Moves

/-! ## No set is lost on those asleep -/

structure Kept (s : DtvEvent ι) : Prop where
  lock : ∀ who, (s.stage who).holds = true ↔ s.holder = some who
  fits : ∀ who wait, s.stage who = .waiting wait → wait.holds = true → wait.Fits s.set
  noticed : s.set = true → (∃ who, (s.stage who).isAsleep = true) →
    ∃ who, (s.stage who).looks = true

section Kept

variable {s after : DtvEvent ι} {who : ι}

omit [DecidableEq ι] in
theorem dtvEventCreate_kept : (dtvEventCreate : DtvEvent ι).Kept where
  lock _ := ⟨fun absurd => (by cases absurd), fun absurd => by cases absurd⟩
  fits _ _ absurd := by cases absurd
  noticed absurd := by cases absurd

/-- A thread moves that has the lock or finds it free. Nobody else then looks at the flag. -/
theorem kept_moveTo (stage : Stage) (set : Bool)
    (lock : ∀ who, (s.stage who).holds = true ↔ s.holder = some who)
    (room : s.holder = none ∨ s.holder = some who)
    (fits : ∀ wait, stage = .waiting wait → wait.holds = true → wait.Fits set)
    (noticed : set = true → (∃ other, (s.moveTo who stage other).isAsleep = true) →
      ∃ other, (s.moveTo who stage other).looks = true) :
    Kept {
      set
      holder := if stage.holds then some who else none
      stage := s.moveTo who stage } := by
  have others : ∀ other, other ≠ who → (s.stage other).holds = false := by
    intro other apart
    refine Bool.eq_false_iff.mpr fun holds => ?_
    have held := (lock other).mp holds
    rcases room with free | mine
    · cases free.symm.trans held
    · exact apart (Option.some.inj (held.symm.trans mine))
  refine ⟨fun other => ?_, fun other wait there holds => ?_, noticed⟩
  · by_cases same : other = who
    · subst same
      simp only [moveTo_self]
      cases stage.holds <;> simp
    · simp only [moveTo_other same, others other same, Bool.false_eq_true, false_iff]
      split
      · exact fun named => same (Option.some.inj named).symm
      · exact fun named => by cases named
  · change s.moveTo who stage other = _ at there
    by_cases same : other = who
    · subst same
      rw [moveTo_self] at there
      exact fits wait there holds
    · rw [moveTo_other same] at there
      have without := others other same
      rw [there] at without
      cases without.symm.trans holds

/-- A thread moves that neither has the lock nor takes it. -/
theorem Kept.without (kept : s.Kept) {stage : Stage} (before : (s.stage who).holds = false)
    (later : stage.holds = false)
    (noticed : s.set = true → (∃ other, (s.moveTo who stage other).isAsleep = true) →
      ∃ other, (s.moveTo who stage other).looks = true) :
    Kept { s with stage := s.moveTo who stage } := by
  refine ⟨fun other => ?_, fun other wait there holds => ?_, noticed⟩
  · by_cases same : other = who
    · subst same
      simp only [moveTo_self, later, ← kept.lock other, before]
    · simp only [moveTo_other same]
      exact kept.lock other
  · change s.moveTo who stage other = _ at there
    by_cases same : other = who
    · subst same
      rw [moveTo_self] at there
      rw [there] at later
      cases later.symm.trans holds
    · rw [moveTo_other same] at there
      exact kept.fits other wait there holds

/-- Who was about to look at the flag still is. -/
theorem Kept.still (kept : s.Kept) {stage : Stage} (set : s.set = true)
    (awake : stage.isAsleep = false) (looks : (s.stage who).looks = true → stage.looks = true) :
    (∃ other, (s.moveTo who stage other).isAsleep = true) →
      ∃ other, (s.moveTo who stage other).looks = true := by
  rintro ⟨sleeper, asleep⟩
  have apart : sleeper ≠ who := by
    rintro rfl
    rw [moveTo_self] at asleep
    cases awake.symm.trans asleep
  rw [moveTo_other apart] at asleep
  obtain ⟨looker, looking⟩ := kept.noticed set ⟨sleeper, asleep⟩
  refine ⟨looker, ?_⟩
  by_cases same : looker = who
  · subst same
    rw [moveTo_self]
    exact looks looking
  · rw [moveTo_other same]
    exact looking

theorem Kept.signal_lock (kept : s.Kept) (wakes : Option ι) (other : ι) :
    ((s.signal wakes).stage other).holds = true ↔ (s.signal wakes).holder = some other := by
  rw [signal_holder, ← kept.lock other]
  rcases s.signal_stage wakes other with same | woken
  · rw [same]
  · rw [woken, Stage.holds_wake]

/-- With the mark set, the signal leaves nobody asleep or wakes somebody to look at it. -/
theorem Kept.marks (kept : s.Kept) (at' : s.stage who = .marking) {wakes : Option ι}
    (may : s.MayWake wakes) : Kept { s.signal wakes with
      set := true
      stage := (s.signal wakes).moveTo who .unlocking } := by
  have held : (s.signal wakes).holder = some who :=
    (signal_holder wakes).trans ((kept.lock who).mp (by rw [at']; rfl))
  show Kept { set := true, holder := (s.signal wakes).holder, stage := _ }
  rw [held]
  refine kept_moveTo .unlocking true (kept.signal_lock wakes) (.inr held)
    (fun _ absurd => by cases absurd) ?_
  rintro - ⟨sleeper, asleep⟩
  have apart : sleeper ≠ who := by
    rintro rfl
    rw [moveTo_self] at asleep
    cases asleep
  rw [moveTo_other apart] at asleep
  cases wakes with
  | none => cases (may sleeper).symm.trans asleep
  | some woken =>
      have other : woken ≠ who := by
        rintro rfl
        have asleep : (s.stage woken).isAsleep = true := may
        rw [at'] at asleep
        cases asleep
      refine ⟨woken, ?_⟩
      rw [moveTo_other other]
      change (s.moveTo woken (s.stage woken).wake woken).looks = true
      rw [moveTo_self]
      exact Stage.looks_wake may

theorem Kept.waits (kept : s.Kept) {wait later : Wait} {now : UInt64}
    (at' : s.stage who = .waiting wait)
    (turns : Wait.Turns (s.holder = none) s.set now wait later) : Kept { s with
      holder := if later.holds then some who else none
      stage := s.moveTo who (.waiting later) } := by
  have fits := kept.fits who wait at'
  refine kept_moveTo (.waiting later) s.set kept.lock ?_ (fun other there _ => ?_)
    fun set _ => ⟨who, ?_⟩
  · rcases turns.holds with holds | ⟨free, -⟩
    · exact .inr ((kept.lock who).mp (by rw [at']; exact holds))
    · exact .inl (of_decide_eq_true free)
  · cases there
    exact turns.fits fits
  · rw [moveTo_self]
    rw [set] at fits turns
    exact turns.looks fits

theorem Kept.goes (kept : s.Kept) (goes : s.Goes who after) : after.Kept := by
  cases goes with
  | locks at' free =>
      refine kept_moveTo .marking s.set kept.lock (.inl free) (fun _ absurd => by cases absurd)
        fun set => kept.still set rfl fun looks => ?_
      rw [at'] at looks
      cases looks
  | marks wakes at' may => exact kept.marks at' may
  | unlocks at' =>
      have held := (kept.lock who).mp (by rw [at']; rfl)
      refine kept_moveTo .outside s.set kept.lock (.inr held) (fun _ absurd => by cases absurd)
        fun set => kept.still set rfl fun looks => ?_
      rw [at'] at looks
      cases looks
  | leaves limit late at' =>
      have held := (kept.lock who).mp (by rw [at']; rfl)
      exact kept_moveTo .outside false kept.lock (.inr held) (fun _ absurd => by cases absurd)
        fun absurd => by cases absurd
  | waits wait later now at' next => exact kept.waits at' (Wait.next_iff.mp next)

theorem Kept.callNext [Fintype ι] {call : EventCall} {now : UInt64} (kept : s.Kept)
    (moved : s.callNext who call now = some after) : after.Kept := by
  simp only [DtvEvent.callNext] at moved
  split at moved
  · rename_i at'
    have before : (s.stage who).holds = false := by rw [at']; rfl
    have looks : ∀ stage : Stage, (s.stage who).looks = true → stage.looks = true := by
      intro stage looks
      rw [at'] at looks
      cases looks
    cases call with
    | set =>
        cases moved
        exact kept.without before rfl fun set => kept.still set rfl (looks _)
    | wait milliseconds =>
        cases moved
        exact kept.without before rfl fun set => kept.still set rfl (looks _)
  · cases moved

theorem Kept.wake (kept : s.Kept) : Kept { s with stage := s.moveTo who (s.stage who).wake } := by
  cases asleep : (s.stage who).isAsleep with
  | true =>
      refine kept.without (Stage.holds_of_asleep asleep)
        ((Stage.holds_wake _).trans (Stage.holds_of_asleep asleep)) fun _ _ => ⟨who, ?_⟩
      rw [moveTo_self]
      exact Stage.looks_wake asleep
  | false =>
      rw [Stage.wake_of_awake asleep, DtvEvent.moveTo, Function.update_eq_self]
      exact kept

theorem Kept.next [Fintype ι] {move : EventMove ι} (kept : s.Kept) (moved : Step s move after) :
    after.Kept := by
  cases move with
  | call who call now => exact kept.callNext moved
  | go who now wakes => exact kept.goes (goNext_goes moved)
  | wake who =>
      cases moved
      exact kept.wake

end Kept

/-! ## One wait for one set -/

/-- A set that finds the event not set. -/
def sets (moved : Moved (DtvEvent ι) (EventMove ι)) : Bool :=
  match moved.event with
  | .go who .. => moved.before.stage who = .marking && !moved.before.set
  | _ => false

/-- A wait that returns 1. -/
def takes (moved : Moved (DtvEvent ι) (EventMove ι)) : Bool :=
  match moved.event with
  | .go who .. => (moved.before.stage who).isLeaving && moved.before.set
  | _ => false

/-- A wait that returns 0. -/
def GivesUp (moved : Moved (DtvEvent ι) (EventMove ι)) (who : ι) : Prop :=
  (∃ now wakes, moved.event = .go who now wakes) ∧
    (moved.before.stage who).isLeaving = true ∧ moved.before.set = false

/-- A wait that leaves its loop because its time is over. -/
def Late (s : DtvEvent ι) (who : ι) : Prop :=
  ∃ limit now, s.stage who = .waiting (.leaving limit (some now)) ∧ limit.Over now

section Account

variable {s after : DtvEvent ι} {who : ι}

theorem Goes.account (goes : s.Goes who after) {now : UInt64} {wakes : Option ι} :
    s.set.toNat + (sets ⟨s, .go who now wakes, after⟩).toNat =
      after.set.toNat + (takes ⟨s, .go who now wakes, after⟩).toNat := by
  cases goes with
  | locks at' | unlocks at' =>
      simp only [sets, takes, at']
      rfl
  | marks _ at' =>
      simp only [sets, takes, at']
      cases s.set <;> rfl
  | leaves limit late at' =>
      simp only [sets, takes, at']
      cases s.set <;> rfl
  | waits wait later _ at' next =>
      simp only [sets, takes, at']
      cases Wait.next_iff.mp next <;> rfl

theorem Step.account [Fintype ι] (moved : Moved (DtvEvent ι) (EventMove ι))
    (step : Step moved.before moved.event moved.after) :
    moved.before.set.toNat + (sets moved).toNat = moved.after.set.toNat + (takes moved).toNat := by
  obtain ⟨before, move, after⟩ := moved
  cases move with
  | call who call now =>
      simp only [Step, DtvEvent.next, DtvEvent.callNext] at step
      split at step
      · cases call with
        | set =>
            cases step
            rfl
        | wait =>
            cases step
            rfl
      · cases step
  | go who now wakes => exact (goNext_goes step).account
  | wake who =>
      simp only [Step, DtvEvent.next] at step
      cases step
      rfl

omit [DecidableEq ι] in
theorem Kept.late (kept : s.Kept) (leaves : (s.stage who).isLeaving = true)
    (unset : s.set = false) : s.Late who := by
  cases at' : s.stage who with
  | waiting wait =>
      cases wait with
      | leaving limit late =>
          have fits := kept.fits who _ at' rfl
          cases late with
          | none => cases unset.symm.trans fits
          | some now => exact ⟨limit, now, at', fits.2⟩
      | _ =>
          rw [at'] at leaves
          cases leaves
  | _ =>
      rw [at'] at leaves
      cases leaves

/-- In every run of any number of threads: the sets that find the event not set are as many as
the waits that return 1, and one more while the event is set; a wait returns 0 only when its time
is over; and while the event is set, nobody sleeps in a wait but somebody is about to look at
it. -/
theorem event_accounts [Fintype ι] {final : DtvEvent ι}
    {moves : List (Moved (DtvEvent ι) (EventMove ι))}
    (walk : Walk Step dtvEventCreate moves final) :
    moves.countP sets = moves.countP takes + final.set.toNat ∧
      (∀ moved ∈ moves, ∀ who, GivesUp moved who → moved.before.Late who) ∧
        (final.set = true → (∃ who, (final.stage who).isAsleep = true) →
          ∃ who, (final.stage who).looks = true) := by
  refine ⟨?_, ?_, ?_⟩
  · have balance := walk.balance (fun s => s.set.toNat) sets takes Step.account
    have none : (dtvEventCreate : DtvEvent ι).set.toNat = 0 := rfl
    omega
  · refine walk.wanted_of_allowed Kept (fun _ => True) _ ?_ dtvEventCreate_kept fun _ _ => trivial
    intro moved step _ kept
    exact ⟨kept.next step, fun who gives => kept.late gives.2.1 gives.2.2⟩
  · exact (walk.invariant Kept (fun _ => True) (fun _ step _ kept => kept.next step)
      dtvEventCreate_kept fun _ _ => trivial).noticed

/-- One of two threads sleeps in a wait without a limit, and the other sets the event. -/
def setAsleep : List (EventMove Bool) :=
  .call true (.wait waitForever) 0 :: .replicate 3 (.go true 0 none) ++
    [.call false .set 0, .go false 0 none, .go false 0 (some true), .go false 0 none]

/-- The sleeper takes the event. -/
def taking : List (EventMove Bool) := .replicate 3 (.go true 0 none)

theorem event_accounts_taking : ∃ (final : DtvEvent Bool) (moves : List _),
    Walk Step dtvEventCreate moves final ∧ moves.map Moved.event = setAsleep ++ taking ∧
      moves.countP takes = 1 ∧ moves.countP sets = moves.countP takes + final.set.toNat := by
  have walk := walk_follow DtvEvent.next (dtvEventCreate : DtvEvent Bool) (setAsleep ++ taking)
  exact ⟨_, _, walk, rfl, rfl, (event_accounts walk).1⟩

end Account

/-! ## A set event is taken -/

/-- How far a wait is from taking the event, with what the holder of the lock has to do before. -/
def distance (who : ι) (s : DtvEvent ι) : Nat :=
  (match s.holder with
    | some other => if other = who then 0 else 4 * (s.stage other).rest
    | none => 0) + (s.stage who).rest

/-- The event is taken, or this one is in a wait and awake. -/
def Awaits (who : ι) (s : DtvEvent ι) : Prop :=
  s.Kept ∧ (s.set = true → ∃ wait, s.stage who = .waiting wait ∧ wait.isAsleep = false)

section Taken

variable {s : DtvEvent ι} {who : ι}

omit [DecidableEq ι] in
theorem exists_mayWake (s : DtvEvent ι) : ∃ wakes, s.MayWake wakes := by
  by_cases sleeper : ∃ other, (s.stage other).isAsleep = true
  · obtain ⟨other, asleep⟩ := sleeper
    exact ⟨some other, asleep⟩
  · exact ⟨none, fun other => Bool.eq_false_iff.mpr fun asleep => sleeper ⟨other, asleep⟩⟩

theorem awake_signal {wakes : Option ι} (may : s.MayWake wakes)
    (awake : (s.stage who).isAsleep = false) : (s.signal wakes).stage who = s.stage who := by
  cases wakes with
  | none => rfl
  | some woken =>
      refine moveTo_other ?_ _
      rintro rfl
      cases awake.symm.trans may

theorem distance_held {other : ι} (held : s.holder = some other) (apart : other ≠ who) :
    s.distance who = 4 * (s.stage other).rest + (s.stage who).rest := by
  simp only [distance, held, if_neg apart]

theorem distance_free {stage : Stage} (free : s.holder = none ∨ s.holder = some who)
    (there : s.stage who = stage) : s.distance who = stage.rest := by
  rcases free with none | mine
  · simp only [distance, none, Nat.zero_add, there]
  · simp only [distance, mine, if_true, Nat.zero_add, there]

theorem distance_released {after : DtvEvent ι} {other : ι} (held : s.holder = some other)
    (apart : other ≠ who) (free : after.holder = none) (same : after.stage who = s.stage who)
    (left : 0 < (s.stage other).rest) : after.distance who < s.distance who := by
  rw [distance_held held apart, distance_free (.inl free) same]
  omega

theorem distance_nearer {after : DtvEvent ι} {other : ι} (held : s.holder = some other)
    (apart : other ≠ who) (still : after.holder = some other)
    (same : after.stage who = s.stage who)
    (less : (after.stage other).rest < (s.stage other).rest) :
    after.distance who < s.distance who := by
  rw [distance_held held apart, distance_held still apart, same]
  omega

/-- While the event is set, whoever has the lock is nearer to giving it back with every move. -/
theorem Kept.holder_goes [Fintype ι] (kept : s.Kept) (set : s.set = true) {other : ι}
    (held : s.holder = some other) (apart : other ≠ who)
    (awake : (s.stage who).isAsleep = false) :
    ∃ wakes after, s.goNext other 0 wakes = some after ∧ after.stage who = s.stage who ∧
      after.distance who < s.distance who := by
  have holds := (kept.lock other).mpr held
  have unmoved : ∀ stage, s.moveTo other stage who = s.stage who := fun stage =>
    moveTo_other (Ne.symm apart) stage
  cases at' : s.stage other with
  | outside | locking =>
      rw [at'] at holds
      cases holds
  | marking =>
      obtain ⟨wakes, may⟩ := s.exists_mayWake
      have same : (s.signal wakes).moveTo other .unlocking who = s.stage who :=
        (moveTo_other (Ne.symm apart) _).trans (awake_signal may awake)
      refine ⟨wakes, { s.signal wakes with
        set := true
        stage := (s.signal wakes).moveTo other .unlocking }, ?_, same,
        distance_nearer held apart ((signal_holder wakes).trans held) same ?_⟩
      · simp only [goNext, at']
        exact if_pos may
      · simp only [moveTo_self, at']
        exact Nat.one_lt_two
  | unlocking =>
      refine ⟨none, { s with holder := none, stage := s.moveTo other .outside }, ?_, unmoved _,
        distance_released held apart rfl (unmoved _) (by rw [at']; exact Nat.zero_lt_one)⟩
      simp only [goNext, at']
  | waiting wait =>
      cases wait with
      | locking | asleep | woken =>
          rw [at'] at holds
          cases holds
      | checking limit =>
          refine ⟨none, { s with
            holder := some other
            stage := s.moveTo other (.waiting (.leaving limit none)) }, ?_, unmoved _,
            distance_nearer held apart rfl (unmoved _) ?_⟩
          · simp only [goNext, at', Wait.next, set]
            rfl
          · simp only [moveTo_self, at', Stage.rest, Wait.rest]
            omega
      | timing limit => cases set.symm.trans (kept.fits other _ at' rfl)
      | leaving limit late =>
          refine ⟨none, { s with set := false, holder := none, stage := s.moveTo other .outside },
            ?_, unmoved _,
            distance_released held apart rfl (unmoved _) (by rw [at']; exact Nat.zero_lt_one)⟩
          simp only [goNext, at']

/-- With the lock free or its own, a wait that is awake goes on to take a set event. -/
theorem Kept.waiter_goes [Fintype ι] (kept : s.Kept) (set : s.set = true)
    (free : s.holder = none ∨ s.holder = some who) {wait : Wait}
    (at' : s.stage who = .waiting wait) (awake : wait.isAsleep = false) :
    ∃ after, s.goNext who 0 none = some after ∧ after.distance who < s.distance who ∧
      (after.set = true →
        ∃ later, after.stage who = .waiting later ∧ later.isAsleep = false) := by
  have near := distance_free free at'
  have fits := kept.fits who wait at'
  rw [set] at fits
  by_cases leaves : ∃ limit late, wait = .leaving limit late
  · obtain ⟨limit, late, rfl⟩ := leaves
    refine ⟨{ s with set := false, holder := none, stage := s.moveTo who .outside }, ?_, ?_,
      fun absurd => by cases absurd⟩
    · simp only [goNext, at']
    · rw [near, distance_free (.inl rfl) (moveTo_self _)]
      exact Nat.zero_lt_one
  · have inside : ∀ limit late, wait ≠ .leaving limit late := fun limit late same =>
      leaves ⟨limit, late, same⟩
    have room : decide (s.holder = none) = true ∨ wait.holds = true := by
      rcases free with none | mine
      · exact .inl (decide_eq_true none)
      · refine .inr ?_
        have holds := (kept.lock who).mpr mine
        rw [at'] at holds
        exact holds
    obtain ⟨later, turns⟩ := @Wait.exists_turns _ s.set 0 wait awake inside room
    have looks : later.looks = true := by
      rw [set] at turns
      exact turns.looks fits
    refine ⟨{ s with
      holder := if later.holds then some who else none
      stage := s.moveTo who (.waiting later) }, ?_, ?_, fun _ =>
        ⟨later, moveTo_self _, Wait.awake_of_looks looks⟩⟩
    · cases wait with
      | leaving limit late => exact (inside limit late rfl).elim
      | _ =>
          simp only [goNext, at']
          exact Option.map_eq_some_iff.mpr ⟨later, Wait.next_iff.mpr turns, rfl⟩
    · have mine : (if later.holds then some who else none) = none ∨
          (if later.holds then some who else none) = some who := by
        split
        · exact .inr rfl
        · exact .inl rfl
      rw [near, distance_free mine (moveTo_self _)]
      exact Nat.add_lt_add_right turns.rest 1

theorem Awaits.nearer [Fintype ι] (awaits : s.Awaits who) (set : s.set = true) :
    ∃ other wakes after, s.goNext other 0 wakes = some after ∧ after.Awaits who ∧
      after.distance who < s.distance who := by
  obtain ⟨kept, there⟩ := awaits
  obtain ⟨wait, at', awake⟩ := there set
  by_cases free : s.holder = none ∨ s.holder = some who
  · obtain ⟨after, moved, less, still⟩ := kept.waiter_goes set free at' awake
    exact ⟨who, none, after, moved, ⟨kept.goes (goNext_goes moved), still⟩, less⟩
  · obtain ⟨unfree, other'⟩ := not_or.mp free
    obtain ⟨other, held⟩ := Option.ne_none_iff_exists'.mp unfree
    have apart : other ≠ who := by
      rintro rfl
      exact other' held
    have up : (s.stage who).isAsleep = false := by
      rw [at']
      exact awake
    obtain ⟨wakes, after, moved, same, less⟩ := kept.holder_goes set held apart up
    exact ⟨other, wakes, after, moved,
      ⟨kept.goes (goNext_goes moved), fun _ => ⟨wait, same.trans at', awake⟩⟩, less⟩

omit [DecidableEq ι] in
/-- Somebody who is in a wait and awake, when the event is set and somebody waits. -/
theorem Kept.exists_awaits (kept : s.Kept) (waits : ∃ who wait, s.stage who = .waiting wait) :
    ∃ who, s.Awaits who := by
  obtain ⟨who, wait, at'⟩ := waits
  by_cases need : s.set = true ∧ wait.isAsleep = true
  · obtain ⟨looker, looks⟩ := kept.noticed need.1 ⟨who, by rw [at']; exact need.2⟩
    refine ⟨looker, kept, fun _ => ?_⟩
    cases there : s.stage looker with
    | waiting wait =>
        rw [there] at looks
        exact ⟨wait, rfl, Wait.awake_of_looks looks⟩
    | _ =>
        rw [there] at looks
        cases looks
  · exact ⟨who, kept, fun set => ⟨wait, at', Bool.eq_false_iff.mpr fun asleep =>
      need ⟨set, asleep⟩⟩⟩

/-- When the event is set and a thread is in a wait, the threads alone, without another call and
with nobody woken but by a signal, come to a wait that returns 1. -/
theorem set_event_taken [Fintype ι] {moves : List (Moved (DtvEvent ι) (EventMove ι))}
    (walk : Walk Step dtvEventCreate moves s) (set : s.set = true)
    (waits : ∃ who wait, s.stage who = .waiting wait) :
    ∃ later final, Walk Step s later final ∧
      (∀ moved ∈ later, ∃ who wakes, moved.event = .go who 0 wakes) ∧
        ∃ moved ∈ later, takes moved = true := by
  have kept := walk.invariant Kept (fun _ => True) (fun _ step _ kept => kept.next step)
    dtvEventCreate_kept fun _ _ => trivial
  obtain ⟨who, awaits⟩ := kept.exists_awaits waits
  have nearer : ∀ state : DtvEvent ι, state.Awaits who → ¬ state.set = false →
      ∃ move after, (∃ who wakes, move = EventMove.go who 0 wakes) ∧ Step state move after ∧
        after.Awaits who ∧ after.distance who < state.distance who := by
    intro state awaits going
    obtain ⟨other, wakes, after, moved, still, less⟩ :=
      awaits.nearer (Bool.of_not_eq_false going)
    exact ⟨.go other 0 wakes, after, ⟨other, wakes, rfl⟩, moved, still, less⟩
  obtain ⟨later, final, rest, all, -, taken⟩ :=
    Walk.exists_of_measure (Awaits who) (fun state => state.set = false) _ (distance who) nearer
      awaits
  refine ⟨later, final, rest, all, List.countP_pos_iff.mp ?_⟩
  have balance := rest.balance (fun s => s.set.toNat) sets takes Step.account
  simp only [set, taken, Bool.toNat_true, Bool.toNat_false] at balance
  omega

theorem set_event_taken_setAsleep : ∃ (s : DtvEvent Bool) (moves : List _),
    Walk Step dtvEventCreate moves s ∧ moves.map Moved.event = setAsleep ∧
      ∃ later final, Walk Step s later final ∧ ∃ moved ∈ later, takes moved = true := by
  have walk := walk_follow DtvEvent.next (dtvEventCreate : DtvEvent Bool) setAsleep
  obtain ⟨later, final, rest, -, taken⟩ := set_event_taken walk rfl ⟨true, _, rfl⟩
  exact ⟨_, _, walk, rfl, later, final, rest, taken⟩

end Taken

end DtvEvent
end Platform
