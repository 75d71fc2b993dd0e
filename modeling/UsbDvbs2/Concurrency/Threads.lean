import Mathlib.Logic.Function.Basic
import UsbDvbs2.Concurrency.Execution

/-! # Interleaved threads

Every thread of a `ThreadSystem` runs one command after another; a command is a
program, and the operations of the threads interleave one at a time on the
shared state. A thread carries its own locals from one command to the next.
What the environment does meanwhile is part of each operation's input.
`ThreadSystem.Run` is the relation of all finite interleavings, labelled with
what happened.
-/

namespace Concurrency

/-- Threads indexed by `ι`, their commands and the machine they share. -/
structure ThreadSystem (S : Signature) (σ ε ι : Type) where
  machine : Machine S σ ε
  Command : ι → Type
  Locals : ι → Type
  /-- The program of a command, or none when the thread may not start it. -/
  body : (thread : ι) → Command thread → Locals thread → Option (Program S (Locals thread))

namespace ThreadSystem

variable {S : Signature} {σ ε ι : Type} [DecidableEq ι] (sys : ThreadSystem S σ ε ι)

/-- A thread is between commands, or has a rest of a command still to run. -/
inductive Phase (thread : ι) : Type where
  | idle (locals : sys.Locals thread)
  | running (command : sys.Command thread) (rest : Program S (sys.Locals thread))

structure Config where
  shared : σ
  phase : (thread : ι) → sys.Phase thread

inductive Event : Type where
  | start (thread : ι) (command : sys.Command thread)
  | perform (thread : ι) (performed : Performed S)
  | finish (thread : ι) (command : sys.Command thread)

variable {sys}

/-- The configuration after one thread has moved on. -/
def Config.advance (config : sys.Config) (thread : ι) (shared : σ) (phase : sys.Phase thread) :
    sys.Config :=
  ⟨shared, Function.update config.phase thread phase⟩

@[simp] theorem Config.advance_phase_self (config : sys.Config) (thread : ι) (shared : σ)
    (phase : sys.Phase thread) : (config.advance thread shared phase).phase thread = phase :=
  Function.update_self ..

theorem Config.advance_phase_other (config : sys.Config) {thread other : ι} (shared : σ)
    (phase : sys.Phase thread) (different : other ≠ thread) :
    (config.advance thread shared phase).phase other = config.phase other :=
  Function.update_of_ne different ..

variable (sys)

/-- One labelled step of one thread. -/
inductive Step : sys.Config → sys.Event → sys.Config → Prop where
  | start {config : sys.Config} {thread : ι} {command : sys.Command thread}
      {locals : sys.Locals thread} {program : Program S (sys.Locals thread)} :
      config.phase thread = .idle locals → sys.body thread command locals = some program →
      Step config (.start thread command)
        (config.advance thread config.shared (.running command program))
  | perform {config : sys.Config} {thread : ι} {command : sys.Command thread}
      {operation : S.Op} {next : S.Answer operation → Program S (sys.Locals thread)}
      {input : ε} {answer : S.Answer operation} {shared : σ} :
      config.phase thread = .running command (.step operation next) →
      sys.machine.exec operation input config.shared = some (answer, shared) →
      Step config (.perform thread ⟨operation, answer⟩)
        (config.advance thread shared (.running command (next answer)))
  | finish {config : sys.Config} {thread : ι} {command : sys.Command thread}
      {locals : sys.Locals thread} :
      config.phase thread = .running command (.done locals) →
      Step config (.finish thread command) (config.advance thread config.shared (.idle locals))

/-- A finite interleaving with its events in order. -/
inductive Run : sys.Config → List sys.Event → sys.Config → Prop where
  | nil (config : sys.Config) : Run config [] config
  | cons {config middle final : sys.Config} {event : sys.Event} {events : List sys.Event} :
      sys.Step config event middle → Run middle events final → Run config (event :: events) final

variable {sys}

theorem Run.append {config middle final : sys.Config} {first second : List sys.Event}
    (left : sys.Run config first middle) (right : sys.Run middle second final) :
    sys.Run config (first ++ second) final := by
  induction left with
  | nil => exact right
  | cons step _ ih => exact .cons step (ih right)

theorem Run.single {config final : sys.Config} {event : sys.Event}
    (step : sys.Step config event final) : sys.Run config [event] final :=
  .cons step (.nil final)

theorem Run.split {config final : sys.Config} {first second : List sys.Event}
    (run : sys.Run config (first ++ second) final) :
    ∃ middle, sys.Run config first middle ∧ sys.Run middle second final := by
  induction first generalizing config with
  | nil => exact ⟨config, .nil config, run⟩
  | cons event first ih =>
      cases run with
      | cons step rest =>
          obtain ⟨middle, left, right⟩ := ih rest
          exact ⟨middle, .cons step left, right⟩

/-- A run that ends with a thread finishing leaves that thread idle. -/
theorem Run.idle_of_finish {config final : sys.Config} {events : List sys.Event} {thread : ι}
    {command : sys.Command thread}
    (run : sys.Run config (events ++ [.finish thread command]) final) :
    ∃ locals, final.phase thread = .idle locals := by
  obtain ⟨middle, _, last⟩ := run.split
  cases last with
  | cons step rest =>
      cases rest
      cases step
      exact ⟨_, Config.advance_phase_self ..⟩

/-- A property kept by every admissible step holds at the end of every run of
admissible events. -/
theorem Run.invariant (good : sys.Config → Prop) (admissible : sys.Event → Prop)
    (keeps : ∀ config event next, good config → admissible event → sys.Step config event next →
      good next)
    {config final : sys.Config} {events : List sys.Event} (run : sys.Run config events final)
    (allowed : ∀ event ∈ events, admissible event) (valid : good config) : good final := by
  induction run with
  | nil => exact valid
  | cons step _ ih =>
      exact ih (fun event member => allowed event (List.mem_cons_of_mem _ member))
        (keeps _ _ _ valid (allowed _ List.mem_cons_self) step)

/-- If every admissible step from a good configuration keeps the property and
has a harmless event, no event of an admissible run is harmful. -/
theorem Run.events_of_invariant (good : sys.Config → Prop)
    (admissible harmless : sys.Event → Prop)
    (keeps : ∀ config event next, good config → admissible event → sys.Step config event next →
      good next ∧ harmless event)
    {config final : sys.Config} {events : List sys.Event} (run : sys.Run config events final)
    (allowed : ∀ event ∈ events, admissible event) (valid : good config) :
    ∀ event ∈ events, harmless event := by
  induction run with
  | nil => exact fun _ member => (List.not_mem_nil member).elim
  | cons step _ ih =>
      have kept := keeps _ _ _ valid (allowed _ List.mem_cons_self) step
      intro event member
      rcases List.mem_cons.mp member with rfl | later
      · exact kept.2
      · exact ih (fun other inside => allowed other (List.mem_cons_of_mem _ inside)) kept.1
          event later

/-- What a step does to the shared state: nothing, or one operation. -/
theorem Step.shared_cases {config next : sys.Config} {event : sys.Event}
    (step : sys.Step config event next) :
    (next.shared = config.shared ∧ ∀ thread performed, event ≠ .perform thread performed) ∨
    ∃ thread operation input answer, event = .perform thread ⟨operation, answer⟩ ∧
      sys.machine.exec operation input config.shared = some (answer, next.shared) := by
  cases step with
  | start => exact .inl ⟨rfl, fun _ _ => nofun⟩
  | perform _ performed => exact .inr ⟨_, _, _, _, rfl, performed⟩
  | finish => exact .inl ⟨rfl, fun _ _ => nofun⟩

omit [DecidableEq ι] in
/-- An event that performs one operation performs a bad one if that one is bad. -/
theorem Event.performs_iff {event : sys.Event} {thread : ι} {operation : S.Op}
    {answer : S.Answer operation} (shown : event = .perform thread ⟨operation, answer⟩)
    (bad : S.Op → Prop) :
    (∃ party performed, event = .perform party performed ∧ bad performed.1) ↔ bad operation := by
  constructor
  · intro ⟨party, performed, same, isBad⟩
    cases shown.symm.trans same
    exact isBad
  · exact fun isBad => ⟨thread, ⟨operation, answer⟩, shown, isBad⟩

/-! ## What the rest of a thread can still do -/

/-- No path through the rest of the thread's command, along admissible answers,
performs a bad operation. -/
def Config.Avoids (config : sys.Config) (thread : ι) (bad : S.Op → Prop)
    (may : (operation : S.Op) → S.Answer operation → Prop) : Prop :=
  ∀ command rest, config.phase thread = .running command rest → rest.Avoids bad may

omit [DecidableEq ι] in
theorem Config.Avoids.of_idle {config : sys.Config} {thread : ι} {bad : S.Op → Prop}
    {may : (operation : S.Op) → S.Answer operation → Prop} {locals : sys.Locals thread}
    (idle : config.phase thread = .idle locals) : config.Avoids thread bad may := by
  intro command rest running
  rw [idle] at running
  cases running

theorem Config.Avoids.advance_other {config : sys.Config} {thread other : ι} {bad : S.Op → Prop}
    {may : (operation : S.Op) → S.Answer operation → Prop} (avoids : config.Avoids thread bad may)
    (different : thread ≠ other) (shared : σ) (phase : sys.Phase other) :
    (config.advance other shared phase).Avoids thread bad may := by
  intro command rest running
  rw [Config.advance_phase_other _ _ _ different] at running
  exact avoids command rest running

theorem Config.Avoids.advance_running {config : sys.Config} {thread : ι} {bad : S.Op → Prop}
    {may : (operation : S.Op) → S.Answer operation → Prop} {command : sys.Command thread}
    {rest : Program S (sys.Locals thread)} (path : rest.Avoids bad may) (shared : σ) :
    (config.advance thread shared (.running command rest)).Avoids thread bad may := by
  intro other later running
  rw [Config.advance_phase_self] at running
  cases running
  exact path

/-- One step keeps avoidance, as long as the thread only starts avoiding
commands and only receives admissible answers; the step itself is not bad. -/
theorem Step.avoids {bad : S.Op → Prop} {may : (operation : S.Op) → S.Answer operation → Prop}
    {config next : sys.Config} {event : sys.Event} {thread : ι}
    (step : sys.Step config event next) (avoids : config.Avoids thread bad may)
    (starts : ∀ command locals program, event = .start thread command →
      sys.body thread command locals = some program → program.Avoids bad may)
    (answers : ∀ performed, event = .perform thread performed → may performed.1 performed.2) :
    next.Avoids thread bad may ∧
      ∀ performed, event = .perform thread performed → ¬ bad performed.1 := by
  cases step with
  | @start mover command locals program idle body =>
      refine ⟨?_, fun _ impossible => nomatch impossible⟩
      by_cases same : thread = mover
      · subst same
        exact .advance_running (starts command locals program rfl body) _
      · exact avoids.advance_other same _ _
  | @perform mover command operation rest input answer shared here performed =>
      by_cases same : thread = mover
      · subst same
        have path := avoids command _ here
        refine ⟨.advance_running (path.2 answer (answers ⟨operation, answer⟩ rfl)) _, ?_⟩
        intro event equal
        cases equal
        exact path.1
      · refine ⟨avoids.advance_other same _ _, fun event equal => ?_⟩
        cases equal
        exact (same rfl).elim
  | @finish mover command locals here =>
      refine ⟨?_, fun _ impossible => nomatch impossible⟩
      by_cases same : thread = mover
      · subst same
        exact .of_idle (Config.advance_phase_self ..)
      · exact avoids.advance_other same _ _

/-! ## Computing an interleaving -/

variable (sys)

/-- A move of a schedule: start a command, perform some operations of one
thread in a given environment, or finish a command. -/
inductive Move : Type where
  | start (thread : ι) (command : sys.Command thread)
  | perform (thread : ι) (count : Nat) (environment : S.Op → ε)
  | finish (thread : ι)

variable {sys}

/-- Perform operations of one thread until `count` are done, the command is
over or the thread is stuck. -/
def Config.performs (config : sys.Config) (thread : ι) (environment : S.Op → ε) :
    Nat → List sys.Event × sys.Config
  | 0 => ([], config)
  | count + 1 =>
      match config.phase thread with
      | .running command (.step operation rest) =>
          match sys.machine.exec operation (environment operation) config.shared with
          | none => ([], config)
          | some (answer, shared) =>
              let later := Config.performs
                (config.advance thread shared (.running command (rest answer))) thread environment
                count
              (.perform thread ⟨operation, answer⟩ :: later.1, later.2)
      | _ => ([], config)

/-- The events of a move; an impossible move does nothing. -/
def Config.play (config : sys.Config) : sys.Move → List sys.Event × sys.Config
  | .start thread command =>
      match config.phase thread with
      | .running _ _ => ([], config)
      | .idle locals =>
          match sys.body thread command locals with
          | none => ([], config)
          | some program => ([.start thread command],
              config.advance thread config.shared (.running command program))
  | .perform thread count environment => config.performs thread environment count
  | .finish thread =>
      match config.phase thread with
      | .running command (.done locals) => ([.finish thread command],
          config.advance thread config.shared (.idle locals))
      | _ => ([], config)

/-- Follow a schedule. -/
def Config.follow (config : sys.Config) : List sys.Move → List sys.Event × sys.Config
  | [] => ([], config)
  | move :: moves =>
      let first := config.play move
      let later := Config.follow first.2 moves
      (first.1 ++ later.1, later.2)

theorem Config.run_performs (config : sys.Config) (thread : ι) (environment : S.Op → ε)
    (count : Nat) :
    sys.Run config (config.performs thread environment count).1
      (config.performs thread environment count).2 := by
  induction count generalizing config with
  | zero => exact .nil config
  | succ count ih =>
      rw [performs]
      split
      · rename_i command operation rest here
        split
        · exact .nil config
        · rename_i answer shared performed
          exact .cons (.perform here performed) (ih _)
      · exact .nil config

theorem Config.run_play (config : sys.Config) (move : sys.Move) :
    sys.Run config (config.play move).1 (config.play move).2 := by
  cases move with
  | start thread command =>
      rw [play]
      split
      · exact .nil config
      · rename_i locals idle
        split
        · exact .nil config
        · rename_i program body
          exact .single (.start idle body)
  | perform thread count environment => exact config.run_performs thread environment count
  | finish thread =>
      rw [play]
      split
      · rename_i command locals here
        exact .single (.finish here)
      · exact .nil config

/-- Every schedule produces a run. -/
theorem Config.run_follow (config : sys.Config) (moves : List sys.Move) :
    sys.Run config (config.follow moves).1 (config.follow moves).2 := by
  induction moves generalizing config with
  | nil => exact .nil config
  | cons move moves ih => exact (config.run_play move).append (ih _)

end ThreadSystem
end Concurrency
