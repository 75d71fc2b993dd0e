import UsbDvbs2.Concurrency.Walk

/-! # Waiting for a flag, with a limit

The loop that `dtv_event_wait` and `dtv_thread_join` have in common: under a lock, wait on a
condition variable until a flag is set or the time is over. Waiting gives the lock back; whoever
is woken, for whatever reason, takes it again and looks at the flag first.
-/

namespace Platform

def waitForever : UInt32 := 0xffffffff

/-- The limit of a wait: what was asked for, and the time it is over. -/
structure Limit where
  milliseconds : UInt32
  deadline : UInt64
  deriving DecidableEq

def Limit.from (tick : UInt64) (milliseconds : UInt32) : Limit :=
  ⟨milliseconds, tick + milliseconds.toUInt64⟩

/-- The time is over. -/
def Limit.Over (limit : Limit) (now : UInt64) : Prop :=
  limit.milliseconds ≠ waitForever ∧ limit.deadline ≤ now

instance (limit : Limit) (now : UInt64) : Decidable (limit.Over now) :=
  inferInstanceAs (Decidable (_ ∧ _))

/-- Where a wait stands. What leaves the loop late keeps what the clock said. -/
inductive Wait where
  | locking (limit : Limit)
  | checking (limit : Limit)
  | timing (limit : Limit)
  | asleep (limit : Limit)
  | woken (limit : Limit)
  | leaving (limit : Limit) (late : Option UInt64)
  deriving DecidableEq

namespace Wait

/-- The lock is held. -/
def holds : Wait → Bool
  | .checking _ | .timing _ | .leaving .. => true
  | .locking _ | .asleep _ | .woken _ => false

def isAsleep : Wait → Bool
  | .asleep _ => true
  | _ => false

/-- The flag is looked at before anything else happens. -/
def looks : Wait → Bool
  | .woken _ | .checking _ | .leaving .. => true
  | .locking _ | .timing _ | .asleep _ => false

/-- A turn of the loop; `free` says whether the lock can be had. -/
def next (free flag : Bool) (now : UInt64) : Wait → Option Wait
  | .locking limit | .woken limit => if free then some (.checking limit) else none
  | .checking limit => some (if flag then .leaving limit none else .timing limit)
  | .timing limit =>
      some (if limit.Over now then .leaving limit (some now) else .asleep limit)
  | .asleep _ | .leaving .. => none

/-- The condition variable is signalled, a limit is over, or the system wakes the thread. -/
def wake : Wait → Wait
  | .asleep limit => .woken limit
  | wait => wait

/-- What holds of a wait that stands somewhere, by what the flag is. -/
def Fits (flag : Bool) : Wait → Prop
  | .timing _ | .asleep _ => flag = false
  | .leaving _ none => flag = true
  | .leaving limit (some now) => flag = false ∧ limit.Over now
  | _ => True

def limit : Wait → Limit
  | .locking limit | .checking limit | .timing limit | .asleep limit | .woken limit
  | .leaving limit _ => limit

/-- How many turns are left until the loop is left, when the flag is set. -/
def rest : Wait → Nat
  | .locking _ | .woken _ => 3
  | .checking _ => 2
  | .timing _ => 1
  | .asleep _ | .leaving .. => 0

/-- What a turn can be. -/
inductive Turns (free flag : Bool) (now : UInt64) : Wait → Wait → Prop where
  | locks (limit : Limit) : free = true → Turns free flag now (.locking limit) (.checking limit)
  | relocks (limit : Limit) : free = true → Turns free flag now (.woken limit) (.checking limit)
  | finds (limit : Limit) :
      flag = true → Turns free flag now (.checking limit) (.leaving limit none)
  | misses (limit : Limit) : flag = false → Turns free flag now (.checking limit) (.timing limit)
  | late (limit : Limit) :
      limit.Over now → Turns free flag now (.timing limit) (.leaving limit (some now))
  | sleeps (limit : Limit) :
      ¬ limit.Over now → Turns free flag now (.timing limit) (.asleep limit)

section Turn

variable {free flag : Bool} {now : UInt64} {wait later : Wait}

theorem next_iff : wait.next free flag now = some later ↔ Turns free flag now wait later := by
  constructor
  · intro moved
    cases wait with
    | locking limit =>
        obtain ⟨room, same⟩ := Option.ite_none_right_eq_some.mp moved
        exact Option.some.inj same ▸ .locks limit room
    | woken limit =>
        obtain ⟨room, same⟩ := Option.ite_none_right_eq_some.mp moved
        exact Option.some.inj same ▸ .relocks limit room
    | checking limit =>
        cases moved
        cases flag with
        | true => exact .finds limit rfl
        | false => exact .misses limit rfl
    | timing limit =>
        simp only [next] at moved
        split at moved
        · exact Option.some.inj moved ▸ .late limit (by assumption)
        · exact Option.some.inj moved ▸ .sleeps limit (by assumption)
    | asleep | leaving => cases moved
  · intro turns
    cases turns with
    | locks _ room | relocks _ room => exact if_pos room
    | finds _ set | misses _ set => rw [next, set]; rfl
    | late _ expired => exact congrArg some (if_pos expired)
    | sleeps _ going => exact congrArg some (if_neg going)

/-- The lock is taken only when it is free. -/
theorem Turns.holds (turns : Turns free flag now wait later) :
    wait.holds = true ∨ free = true ∧ later.holds = true := by
  cases turns with
  | locks _ room | relocks _ room => exact .inr ⟨room, rfl⟩
  | finds | misses | late | sleeps => exact .inl rfl

theorem Turns.fits (turns : Turns free flag now wait later)
    (fits : wait.holds = true → wait.Fits flag) : later.Fits flag := by
  cases turns with
  | locks | relocks => trivial
  | finds _ set | misses _ set => exact set
  | late _ expired => exact ⟨fits rfl, expired⟩
  | sleeps => exact fits rfl

/-- While the flag is set, whoever goes on is about to find it. -/
theorem Turns.looks (turns : Turns free true now wait later)
    (fits : wait.holds = true → wait.Fits true) : later.looks = true := by
  cases turns with
  | locks | relocks | finds => rfl
  | misses _ unset => cases unset
  | late | sleeps => cases fits rfl

theorem Turns.rest (turns : Turns free flag now wait later) : later.rest < wait.rest := by
  cases turns with
  | locks | relocks => exact Nat.lt_succ_self 2
  | finds => exact Nat.zero_lt_two
  | misses => exact Nat.one_lt_two
  | late | sleeps => exact Nat.zero_lt_one

theorem Turns.limit (turns : Turns free flag now wait later) : later.limit = wait.limit := by
  cases turns <;> rfl

theorem Turns.inside (turns : Turns free flag now wait later) {limit : Limit}
    {late : Option UInt64} : wait ≠ .leaving limit late := by
  cases turns <;> exact Wait.noConfusion

/-- A wait that is not asleep, and finds the lock free when it needs it, goes on. -/
theorem exists_turns (awake : wait.isAsleep = false)
    (inside : ∀ limit late, wait ≠ .leaving limit late) (room : free = true ∨ wait.holds = true) :
    ∃ later, Turns free flag now wait later := by
  cases wait with
  | locking limit => exact ⟨_, .locks limit (room.resolve_right Bool.false_ne_true)⟩
  | woken limit => exact ⟨_, .relocks limit (room.resolve_right Bool.false_ne_true)⟩
  | checking | timing => exact ⟨_, next_iff.mp rfl⟩
  | asleep => cases awake
  | leaving limit late => exact (inside limit late rfl).elim

theorem awake_of_looks (looks : wait.looks = true) : wait.isAsleep = false := by
  cases wait with
  | asleep => cases looks
  | _ => rfl

theorem looks_wake (asleep : wait.isAsleep = true) : wait.wake.looks = true := by
  cases wait with
  | asleep => rfl
  | _ => cases asleep

theorem rest_wake : wait.wake.rest ≤ wait.rest + 3 := by
  cases wait with
  | asleep => exact Nat.le_refl 3
  | _ => exact Nat.le_add_right _ 3

theorem holds_wake : wait.wake.holds = wait.holds := by cases wait <;> rfl

theorem isAsleep_wake : wait.wake.isAsleep = false := by cases wait <;> rfl

theorem fits_wake (fits : wait.Fits flag) : wait.wake.Fits flag := by
  cases wait with
  | asleep => trivial
  | _ => exact fits

/-- Whoever has to take the lock looks at the flag again. -/
theorem fits_changed (without : wait.holds = false) : wait.wake.Fits flag := by
  cases wait with
  | locking | asleep | woken => trivial
  | checking | timing | leaving => cases without

end Turn

end Wait
end Platform
