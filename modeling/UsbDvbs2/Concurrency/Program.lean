import Mathlib.Init

/-! # Programs over atomic operations

A program is a finite tree of atomic operations, each followed by one subtree
for every answer it can receive. The operations are first order, so what a
program can still do is read off the tree: `Program.Avoids` says that no path
whose answers are all admissible performs an unwanted operation. What the
operations do to a state is left to a machine
(`Concurrency.Machine`).
-/

namespace Concurrency

/-- Atomic operations, each with the type of its answers. -/
structure Signature where
  Op : Type
  Answer : Op → Type

/-- One performed operation together with the answer it received. -/
abbrev Performed (S : Signature) : Type := (operation : S.Op) × S.Answer operation

/-- A terminating program: it is done, or performs an operation and continues
with the answer. -/
inductive Program (S : Signature) (α : Type) : Type where
  | done (value : α)
  | step (operation : S.Op) (next : S.Answer operation → Program S α)

namespace Program

variable {S : Signature} {α β γ : Type}

/-- Sequential composition. -/
def bind : Program S α → (α → Program S β) → Program S β
  | .done value, rest => rest value
  | .step operation next, rest => .step operation fun answer => (next answer).bind rest

instance : Monad (Program S) where
  pure := .done
  bind := bind

/-- The program performing a single operation. -/
def perform (operation : S.Op) : Program S (S.Answer operation) :=
  .step operation .done

/-- Run a program only when the condition holds. -/
def when (condition : Bool) (program : Program S Unit) : Program S Unit :=
  if condition then program else .done ()

/-- Continue only when the first program answers zero; its code otherwise. -/
def ifZero (program rest : Program S Int) : Program S Int :=
  program >>= fun rc => if rc ≠ 0 then .done rc else rest

/-- Continue with a value that was read; the failure code otherwise. -/
def ifRead (program : Program S (Except Int α)) (rest : α → Program S Int) : Program S Int :=
  program >>= fun
    | .ok value => rest value
    | .error rc => .done rc

/-- Run the programs in order until one fails, and answer its code; zero when
all of them succeed. -/
def untilFailure : List (Program S Int) → Program S Int
  | [] => .done 0
  | program :: rest => program.ifZero (untilFailure rest)

@[simp] theorem done_bind (value : α) (rest : α → Program S β) :
    (Program.done value >>= rest) = rest value := rfl

@[simp] theorem step_bind (operation : S.Op) (next : S.Answer operation → Program S α)
    (rest : α → Program S β) :
    (Program.step operation next >>= rest) =
      .step operation fun answer => next answer >>= rest := rfl

theorem bind_done (program : Program S α) : (program >>= Program.done) = program := by
  induction program with
  | done value => rfl
  | step operation next ih =>
      rw [step_bind]
      exact congrArg (Program.step operation) (funext ih)

theorem ifZero_done_zero (program : Program S Int) : program.ifZero (.done 0) = program := by
  have answers : ∀ rc : Int, (if rc ≠ 0 then Program.done rc else Program.done 0) =
      (Program.done rc : Program S Int) := by
    intro rc
    split
    · rfl
    · rename_i zero
      rw [Decidable.not_not.mp zero]
  simp only [ifZero, answers]
  exact bind_done program

@[simp] theorem untilFailure_singleton (program : Program S Int) :
    untilFailure [program] = program := ifZero_done_zero program

@[simp] theorem untilFailure_cons_cons (first second : Program S Int)
    (rest : List (Program S Int)) :
    untilFailure (first :: second :: rest) = first.ifZero (untilFailure (second :: rest)) := rfl

/-! ## Operations a program cannot reach -/

variable (bad : S.Op → Prop) (may : (operation : S.Op) → S.Answer operation → Prop)

/-- No path of the program along admissible answers performs a bad operation. -/
def Avoids : Program S α → Prop
  | .done _ => True
  | .step operation next => ¬ bad operation ∧ ∀ answer, may operation answer → (next answer).Avoids

variable {bad may}

@[simp] theorem avoids_done (value : α) : (Program.done value : Program S α).Avoids bad may :=
  trivial

@[simp] theorem avoids_step (operation : S.Op) (next : S.Answer operation → Program S α) :
    (Program.step operation next).Avoids bad may ↔
      ¬ bad operation ∧ ∀ answer, may operation answer → (next answer).Avoids bad may := Iff.rfl

@[simp] theorem avoids_perform (operation : S.Op) :
    (perform operation).Avoids bad may ↔ ¬ bad operation := by
  simp only [perform, avoids_step, avoids_done, implies_true, and_true]

theorem Avoids.bind {program : Program S α} {rest : α → Program S β}
    (first : program.Avoids bad may) (later : ∀ value, (rest value).Avoids bad may) :
    (program >>= rest).Avoids bad may := by
  induction program with
  | done value => exact later value
  | step operation next ih =>
      exact ⟨first.1, fun answer admissible => ih answer (first.2 answer admissible)⟩

theorem Avoids.ite {condition : Prop} [Decidable condition] {left right : Program S α}
    (yes : condition → left.Avoids bad may) (no : ¬ condition → right.Avoids bad may) :
    (if condition then left else right).Avoids bad may := by
  split
  · exact yes ‹_›
  · exact no ‹_›

theorem Avoids.when {condition : Bool} {program : Program S Unit}
    (yes : condition = true → program.Avoids bad may) :
    (Program.when condition program).Avoids bad may := by
  cases condition with
  | true => exact yes rfl
  | false => exact avoids_done ()

theorem Avoids.ifZero {program rest : Program S Int} (first : program.Avoids bad may)
    (later : rest.Avoids bad may) : (program.ifZero rest).Avoids bad may :=
  first.bind fun rc => .ite (fun _ => avoids_done rc) fun _ => later

theorem Avoids.ifRead {program : Program S (Except Int α)} {rest : α → Program S Int}
    (first : program.Avoids bad may) (later : ∀ value, (rest value).Avoids bad may) :
    (program.ifRead rest).Avoids bad may := by
  apply first.bind
  intro answer
  cases answer with
  | ok value => exact later value
  | error rc => exact avoids_done rc

theorem Avoids.untilFailure {programs : List (Program S Int)}
    (each : ∀ program ∈ programs, program.Avoids bad may) :
    (Program.untilFailure programs).Avoids bad may := by
  induction programs with
  | nil => exact avoids_done 0
  | cons program rest ih =>
      exact (each program List.mem_cons_self).ifZero
        (ih fun other member => each other (List.mem_cons_of_mem _ member))

/-- Fewer admissible answers and fewer bad operations keep avoidance. -/
theorem Avoids.mono {worse : S.Op → Prop} {fewer : (operation : S.Op) → S.Answer operation → Prop}
    {program : Program S α} (avoids : program.Avoids worse may)
    (implies : ∀ operation, bad operation → worse operation)
    (restricts : ∀ operation answer, fewer operation answer → may operation answer) :
    program.Avoids bad fewer := by
  induction program with
  | done value => trivial
  | step operation next ih =>
      exact ⟨fun isBad => avoids.1 (implies operation isBad), fun answer admissible =>
        ih answer (avoids.2 answer (restricts operation answer admissible))⟩

end Program
end Concurrency
