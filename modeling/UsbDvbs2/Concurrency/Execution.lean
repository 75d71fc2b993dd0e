import UsbDvbs2.Concurrency.Program

/-! # Running a program on a machine

A machine says what each operation does to a state; the environment's
contribution (a device answer, a return code) is an input of the operation, so
that executing is computable. `Machine.Executes` is the uninterrupted execution
of a whole program together with its trace of performed operations.
-/

namespace Concurrency

variable {S : Signature} {σ ε α β : Type}

/-- The effect of every operation; `none` where the operation cannot proceed. -/
structure Machine (S : Signature) (σ ε : Type) where
  exec : (operation : S.Op) → ε → σ → Option (S.Answer operation × σ)

namespace Machine

variable (M : Machine S σ ε)

/-- Uninterrupted execution of a program, with the operations it performed. -/
inductive Executes : σ → Program S α → List (Performed S) → α → σ → Prop where
  | done (state : σ) (value : α) : Executes state (.done value) [] value state
  | step {state middle final : σ} {operation : S.Op} {next : S.Answer operation → Program S α}
      {input : ε} {answer : S.Answer operation} {trace : List (Performed S)} {value : α} :
      M.exec operation input state = some (answer, middle) →
      Executes middle (next answer) trace value final →
      Executes state (.step operation next) (⟨operation, answer⟩ :: trace) value final

variable {M}

@[simp] theorem executes_done {state final : σ} {value result : α} {trace : List (Performed S)} :
    M.Executes state (.done value) trace result final ↔
      trace = [] ∧ result = value ∧ final = state := by
  constructor
  · intro run
    cases run
    exact ⟨rfl, rfl, rfl⟩
  · intro ended
    rcases ended with ⟨rfl, rfl, rfl⟩
    exact .done _ _

theorem executes_step {state final : σ} {operation : S.Op}
    {next : S.Answer operation → Program S α} {value : α} {trace : List (Performed S)} :
    M.Executes state (.step operation next) trace value final ↔
      ∃ input answer middle rest, M.exec operation input state = some (answer, middle) ∧
        M.Executes middle (next answer) rest value final ∧
          trace = ⟨operation, answer⟩ :: rest := by
  constructor
  · intro run
    cases run with
    | step performed rest => exact ⟨_, _, _, _, performed, rest, rfl⟩
  · intro parts
    rcases parts with ⟨input, answer, middle, rest, performed, run, rfl⟩
    exact .step performed run

/-- Executing a sequence is executing its parts one after the other. -/
theorem executes_bind {state final : σ} {program : Program S α} {rest : α → Program S β}
    {value : β} {trace : List (Performed S)} :
    M.Executes state (program >>= rest) trace value final ↔
      ∃ first result middle second, M.Executes state program first result middle ∧
        M.Executes middle (rest result) second value final ∧ trace = first ++ second := by
  induction program generalizing state trace with
  | done result =>
      rw [Program.done_bind]
      constructor
      · intro run
        exact ⟨[], result, state, trace, .done _ _, run, rfl⟩
      · intro parts
        rcases parts with ⟨first, _, _, second, run, later, rfl⟩
        obtain ⟨rfl, rfl, rfl⟩ := executes_done.mp run
        exact later
  | step operation next ih =>
      rw [Program.step_bind, executes_step]
      constructor
      · intro parts
        rcases parts with ⟨input, answer, middle, tail, performed, run, rfl⟩
        obtain ⟨first, result, later, second, firstRun, secondRun, rfl⟩ := (ih answer).mp run
        exact ⟨_, result, later, second, .step performed firstRun, secondRun, rfl⟩
      · intro parts
        rcases parts with ⟨_, result, middle, second, run, later, rfl⟩
        cases run with
        | step performed firstRun =>
            exact ⟨_, _, _, _, performed, (ih _).mpr ⟨_, result, middle, second, firstRun, later,
              rfl⟩, rfl⟩

theorem Executes.bind {state middle final : σ} {program : Program S α} {rest : α → Program S β}
    {first second : List (Performed S)} {result : α} {value : β}
    (run : M.Executes state program first result middle)
    (later : M.Executes middle (rest result) second value final) :
    M.Executes state (program >>= rest) (first ++ second) value final :=
  executes_bind.mpr ⟨first, result, middle, second, run, later, rfl⟩

/-- A guarded sequence stops with the first program's failure, or goes on. -/
theorem executes_ifZero {state final : σ} {program rest : Program S Int} {value : Int}
    {trace : List (Performed S)} :
    M.Executes state (program.ifZero rest) trace value final ↔
      (value ≠ 0 ∧ M.Executes state program trace value final) ∨
      ∃ first middle second, M.Executes state program first 0 middle ∧
        M.Executes middle rest second value final ∧ trace = first ++ second := by
  rw [Program.ifZero, executes_bind]
  constructor
  · intro parts
    rcases parts with ⟨first, rc, middle, second, run, later, rfl⟩
    by_cases failed : rc ≠ 0
    · rw [if_pos failed, executes_done] at later
      obtain ⟨rfl, rfl, rfl⟩ := later
      exact .inl ⟨failed, by rwa [List.append_nil]⟩
    · rw [if_neg failed] at later
      rw [Decidable.not_not.mp failed] at run
      exact .inr ⟨first, middle, second, run, later, rfl⟩
  · intro parts
    rcases parts with ⟨failed, run⟩ | ⟨first, middle, second, run, later, rfl⟩
    · refine ⟨trace, value, final, [], run, ?_, (List.append_nil _).symm⟩
      rw [if_pos failed]
      exact .done _ _
    · refine ⟨first, 0, middle, second, run, ?_, rfl⟩
      rwa [if_neg (fun absurd => absurd rfl)]

theorem executes_perform {state final : σ} {operation : S.Op} {answer : S.Answer operation}
    {trace : List (Performed S)} :
    M.Executes state (Program.perform operation) trace answer final ↔
      (∃ input, M.exec operation input state = some (answer, final)) ∧
        trace = [⟨operation, answer⟩] := by
  rw [Program.perform, executes_step]
  constructor
  · intro parts
    rcases parts with ⟨input, reply, middle, rest, performed, done, rfl⟩
    obtain ⟨rfl, rfl, rfl⟩ := executes_done.mp done
    exact ⟨⟨input, performed⟩, rfl⟩
  · intro parts
    rcases parts with ⟨⟨input, performed⟩, rfl⟩
    exact ⟨input, answer, final, [], performed, .done _ _, rfl⟩

/-- A program whose operations all preserve a property preserves it. -/
theorem Executes.preserves {bad : S.Op → Prop} (good : σ → Prop)
    (keeps : ∀ operation input state answer next, ¬ bad operation →
      M.exec operation input state = some (answer, next) → good state → good next)
    {state final : σ} {program : Program S α} {trace : List (Performed S)} {value : α}
    (avoids : program.Avoids bad fun _ _ => True)
    (run : M.Executes state program trace value final) (valid : good state) : good final := by
  induction run with
  | done => exact valid
  | step performed _ ih =>
      exact ih (avoids.2 _ trivial) (keeps _ _ _ _ _ avoids.1 performed valid)

/-- A program that avoids every operation changing a quantity leaves it unchanged. -/
theorem Executes.unchanged {bad : S.Op → Prop} {quantity : σ → β}
    (keeps : ∀ operation input state answer next, ¬ bad operation →
      M.exec operation input state = some (answer, next) → quantity next = quantity state)
    {state final : σ} {program : Program S α} {trace : List (Performed S)} {value : α}
    (avoids : program.Avoids bad fun _ _ => True)
    (run : M.Executes state program trace value final) : quantity final = quantity state :=
  run.preserves (fun current => quantity current = quantity state)
    (fun operation input current answer next fine performed same =>
      (keeps operation input current answer next fine performed).trans same) avoids rfl

/-- A program that avoids an operation never shows it in its trace. -/
theorem Executes.trace_avoids {bad : S.Op → Prop} {state final : σ} {program : Program S α}
    {trace : List (Performed S)} {value : α} (avoids : program.Avoids bad fun _ _ => True)
    (run : M.Executes state program trace value final) :
    ∀ performed ∈ trace, ¬ bad performed.1 := by
  induction run with
  | done => exact fun _ member => (List.not_mem_nil member).elim
  | step performed _ ih =>
      intro event member
      rcases List.mem_cons.mp member with rfl | later
      · exact avoids.1
      · exact ih (avoids.2 _ trivial) event later

/-! ## Calls one after another -/

/-- A completed call with the states around it. -/
structure Completed (S : Signature) (σ κ α : Type) where
  call : κ
  before : σ
  trace : List (Performed S)
  value : α
  after : σ

variable {κ : Type}

variable (M) in
/-- Calls completed one after another, in order. -/
inductive History (code : κ → Program S α) : σ → List (Completed S σ κ α) → σ → Prop where
  | nil (state : σ) : History code state [] state
  | cons {state middle final : σ} {call : κ} {trace : List (Performed S)} {value : α}
      {calls : List (Completed S σ κ α)} :
      M.Executes state (code call) trace value middle → History code middle calls final →
      History code state (⟨call, state, trace, value, middle⟩ :: calls) final

/-- A property kept by every admissible call holds after every call of an
admissible history. -/
theorem History.invariant {code : κ → Program S α} (good : σ → Prop)
    {admissible : Completed S σ κ α → Prop}
    (keeps : ∀ done, admissible done →
      M.Executes done.before (code done.call) done.trace done.value done.after →
      good done.before → good done.after)
    {initial final : σ} {calls : List (Completed S σ κ α)}
    (history : M.History code initial calls final)
    (allowed : ∀ done ∈ calls, admissible done) (valid : good initial) : good final := by
  induction history with
  | nil => exact valid
  | cons run _ ih =>
      exact ih (fun done member => allowed done (List.mem_cons_of_mem _ member))
        (keeps ⟨_, _, _, _, _⟩ (allowed _ List.mem_cons_self) run valid)

/-- If a good state stays good exactly in the calls without a fault, all states
of a history are good exactly when none of its calls has a fault. -/
theorem History.good_iff {code : κ → Program S α} (good : σ → Prop)
    {fault : Completed S σ κ α → Prop}
    (exact_keeps : ∀ done,
      M.Executes done.before (code done.call) done.trace done.value done.after →
      good done.before → (good done.after ↔ ¬ fault done))
    {initial final : σ} {calls : List (Completed S σ κ α)}
    (history : M.History code initial calls final) (valid : good initial) :
    (∀ done ∈ calls, good done.after) ↔ ∀ done ∈ calls, ¬ fault done := by
  induction history with
  | nil => simp only [List.not_mem_nil, false_imp_iff, implies_true]
  | cons run _ ih =>
      have here := exact_keeps ⟨_, _, _, _, _⟩ run valid
      rw [List.forall_mem_cons, List.forall_mem_cons, here]
      constructor
      · exact fun all => ⟨all.1, (ih (here.mpr all.1)).mp all.2⟩
      · exact fun all => ⟨all.1, (ih (here.mpr all.1)).mpr all.2⟩

/-! ## Computing an execution -/

variable (M)

/-- Execute a program in an environment that treats an operation the same way
every time. -/
def respond (environment : S.Op → ε) : Program S α → σ → Option (List (Performed S) × α × σ)
  | .done value, state => some ([], value, state)
  | .step operation next, state =>
      (M.exec operation (environment operation) state).bind fun reply =>
        (respond environment (next reply.1) reply.2).map fun outcome =>
          (⟨operation, reply.1⟩ :: outcome.1, outcome.2)

variable {M}

theorem executes_of_respond {environment : S.Op → ε} {program : Program S α} {state final : σ}
    {trace : List (Performed S)} {value : α}
    (computed : M.respond environment program state = some (trace, value, final)) :
    M.Executes state program trace value final := by
  induction program generalizing state trace with
  | done result =>
      simp only [respond, Option.some.injEq, Prod.mk.injEq] at computed
      obtain ⟨rfl, rfl, rfl⟩ := computed
      exact .done _ _
  | step operation next ih =>
      simp only [respond, Option.bind_eq_some_iff, Option.map_eq_some_iff] at computed
      obtain ⟨⟨answer, middle⟩, performed, ⟨tail, result⟩, later, shape⟩ := computed
      simp only [Prod.mk.injEq] at shape
      obtain ⟨rfl, rfl⟩ := shape
      exact .step performed (ih answer later)

/-- A check of a computed execution is a fact about some execution. -/
theorem exists_executes_of_respond (environment : S.Op → ε) {program : Program S α} {state : σ}
    (check : List (Performed S) → α → σ → Bool)
    (checked : (M.respond environment program state).any
      (fun outcome => check outcome.1 outcome.2.1 outcome.2.2) = true) :
    ∃ trace value final, M.Executes state program trace value final ∧
      check trace value final = true := by
  cases computed : M.respond environment program state with
  | none => rw [computed] at checked; cases checked
  | some outcome =>
      rw [computed] at checked
      exact ⟨_, _, _, executes_of_respond computed, checked⟩

variable (M) in
/-- Execute calls one after another in one environment. -/
def respondAll (environment : S.Op → ε) (code : κ → Program S α) :
    List κ → σ → Option (List (Completed S σ κ α) × σ)
  | [], state => some ([], state)
  | call :: calls, state =>
      (M.respond environment (code call) state).bind fun outcome =>
        (respondAll environment code calls outcome.2.2).map fun later =>
          (⟨call, state, outcome.1, outcome.2.1, outcome.2.2⟩ :: later.1, later.2)

theorem history_of_respondAll {environment : S.Op → ε} {code : κ → Program S α} {names : List κ}
    {state final : σ} {calls : List (Completed S σ κ α)}
    (computed : M.respondAll environment code names state = some (calls, final)) :
    M.History code state calls final := by
  induction names generalizing state calls with
  | nil =>
      simp only [respondAll, Option.some.injEq, Prod.mk.injEq] at computed
      obtain ⟨rfl, rfl⟩ := computed
      exact .nil _
  | cons call names ih =>
      simp only [respondAll, Option.bind_eq_some_iff, Option.map_eq_some_iff] at computed
      obtain ⟨⟨trace, value, middle⟩, ran, ⟨rest, last⟩, later, shape⟩ := computed
      simp only [Prod.mk.injEq] at shape
      obtain ⟨rfl, rfl⟩ := shape
      exact .cons (executes_of_respond ran) (ih later)

/-- A check of a computed history is a fact about some history. -/
theorem exists_history_of_respondAll (environment : S.Op → ε) {code : κ → Program S α}
    (names : List κ) {state : σ} (check : List (Completed S σ κ α) → σ → Bool)
    (checked : (M.respondAll environment code names state).any
      (fun outcome => check outcome.1 outcome.2) = true) :
    ∃ calls final, M.History code state calls final ∧ check calls final = true := by
  cases computed : M.respondAll environment code names state with
  | none => rw [computed] at checked; cases checked
  | some outcome =>
      rw [computed] at checked
      exact ⟨_, _, history_of_respondAll computed, checked⟩

end Machine
end Concurrency
