import UsbDvbs2.Concurrency.Program

/-! # Programs under arbitrary answers

An environment answers every operation, knowing what was performed before, and a
program under it is a run with an end, since programs are finite trees. A watcher
follows a run: `Program.Ensures` says that all operations are allowed and that a
condition holds at the end, whatever the answers are. It is computed along the
program, so that it passes through sequences, guards and translations.
-/

namespace Concurrency

variable {S T : Signature} {σ α β : Type}

/-- Answers for every operation, given what was performed before. -/
abbrev Environment (S : Signature) : Type :=
  List (Performed S) → (operation : S.Op) → S.Answer operation

/-- What a watcher makes of every performed operation, and which ones it allows. -/
structure Watch (S : Signature) (σ : Type) where
  see : σ → Performed S → σ
  Allows : σ → S.Op → Prop

/-- Every operation of a run is allowed in its place. -/
def Watch.Followed (watch : Watch S σ) : σ → List (Performed S) → Prop
  | _, [] => True
  | seen, performed :: later =>
      watch.Allows seen performed.1 ∧ watch.Followed (watch.see seen performed) later

namespace Program

/-- The run of a program after what was performed before: what it performs, and the value in
the end. -/
def run (environment : Environment S) :
    Program S α → List (Performed S) → List (Performed S) × α
  | .done value, _ => ([], value)
  | .step operation next, past =>
      let performed : Performed S := ⟨operation, environment past operation⟩
      let later := run environment (next performed.2) (past ++ [performed])
      (performed :: later.1, later.2)

/-- Perform every operation of a program by a program over other operations. -/
def carried (onto : (operation : S.Op) → Program T (S.Answer operation)) :
    Program S α → Program T α
  | .done value => .done value
  | .step operation next => onto operation >>= fun answer => (next answer).carried onto

theorem bind_bind {γ : Type} (program : Program S α) (rest : α → Program S β)
    (later : β → Program S γ) :
    ((program >>= rest) >>= later) = program >>= fun value => rest value >>= later := by
  induction program with
  | done value => rfl
  | step operation next ih => exact congrArg (Program.step operation) (funext ih)

section Carried

variable (onto : (operation : S.Op) → Program T (S.Answer operation))

theorem carried_bind (program : Program S α) (rest : α → Program S β) :
    (program >>= rest).carried onto =
      program.carried onto >>= fun value => (rest value).carried onto := by
  induction program with
  | done value => rfl
  | step operation next ih =>
      rw [step_bind, carried, carried, bind_bind]
      exact congrArg _ (funext ih)

theorem carried_perform (operation : S.Op) : (perform operation).carried onto = onto operation :=
  bind_done (onto operation)

theorem carried_ifZero (program rest : Program S Int) :
    (program.ifZero rest).carried onto = (program.carried onto).ifZero (rest.carried onto) := by
  rw [ifZero, ifZero, carried_bind]
  refine congrArg _ (funext fun rc => ?_)
  split
  · rfl
  · rfl

end Carried

section Ensures

variable (watch : Watch S σ)

/-- Whatever the answers are, every operation is allowed and the condition holds in the end. -/
def Ensures (post : α → σ → Prop) : Program S α → σ → Prop
  | .done value, seen => post value seen
  | .step operation next, seen => watch.Allows seen operation ∧
      ∀ answer, Ensures post (next answer) (watch.see seen ⟨operation, answer⟩)

variable {watch} {post other : α → σ → Prop} {program : Program S α} {seen : σ}

@[simp] theorem ensures_done {value : α} :
    (Program.done value : Program S α).Ensures watch post seen ↔ post value seen := Iff.rfl

@[simp] theorem ensures_pure {value : α} :
    (pure value : Program S α).Ensures watch post seen ↔ post value seen := Iff.rfl

theorem ensures_perform_bind {operation : S.Op} {rest : S.Answer operation → Program S β}
    {post : β → σ → Prop} : (perform operation >>= rest).Ensures watch post seen ↔
      watch.Allows seen operation ∧
        ∀ answer, (rest answer).Ensures watch post (watch.see seen ⟨operation, answer⟩) := Iff.rfl

theorem ensures_bind {rest : α → Program S β} {post : β → σ → Prop} :
    (program >>= rest).Ensures watch post seen ↔
      program.Ensures watch (fun value => (rest value).Ensures watch post) seen := by
  induction program generalizing seen with
  | done value => exact Iff.rfl
  | step operation next ih => exact and_congr_right fun _ => forall_congr' fun answer => ih answer

theorem Ensures.mono (ensures : program.Ensures watch post seen)
    (weaker : ∀ value after, post value after → other value after) :
    program.Ensures watch other seen := by
  induction program generalizing seen with
  | done value => exact weaker value seen ensures
  | step operation next ih =>
      exact ⟨ensures.1, fun answer => ih answer (ensures.2 answer)⟩

theorem Ensures.bind {rest : α → Program S β} {post : β → σ → Prop} {middle : α → σ → Prop}
    (first : program.Ensures watch middle seen)
    (later : ∀ value after, middle value after → (rest value).Ensures watch post after) :
    (program >>= rest).Ensures watch post seen :=
  ensures_bind.2 (first.mono later)

theorem ensures_ifZero {program rest : Program S Int} {post : Int → σ → Prop} :
    (program.ifZero rest).Ensures watch post seen ↔ program.Ensures watch (fun rc after =>
      if rc ≠ 0 then post rc after else rest.Ensures watch post after) seen := by
  rw [ifZero, ensures_bind]
  have same : (fun rc : Int => (if rc ≠ 0 then Program.done rc else rest).Ensures watch post) =
      fun rc after => if rc ≠ 0 then post rc after else rest.Ensures watch post after := by
    funext rc after
    split
    · rfl
    · rfl
  rw [same]

/-- Operations that are allowed and that the watcher does not mind leave the condition as it
is. -/
theorem Ensures.carried {watch : Watch T σ} {seen : σ} {post : α → σ → Prop}
    {program : Program S α} {onto : (operation : S.Op) → Program T (S.Answer operation)}
    {bad : S.Op → Prop} (avoids : program.Avoids bad fun _ _ => True)
    (calm : ∀ operation, ¬ bad operation →
      (onto operation).Ensures watch (fun _ after => after = seen) seen)
    (always : ∀ value, post value seen) : (program.carried onto).Ensures watch post seen := by
  induction program with
  | done value => exact always value
  | step operation next ih =>
      apply (calm operation avoids.1).bind
      rintro answer _ rfl
      exact ih answer (avoids.2 answer trivial)

theorem ensures_ifRead {program : Program S (Except Int α)} {rest : α → Program S Int}
    {post : Int → σ → Prop} : (program.ifRead rest).Ensures watch post seen ↔
      program.Ensures watch (fun answer after =>
        match answer with
        | .ok value => (rest value).Ensures watch post after
        | .error rc => post rc after) seen := by
  rw [ifRead, ensures_bind]
  have same : (fun answer : Except Int α => Ensures watch post (match answer with
      | .ok value => rest value
      | .error rc => .done rc)) = fun answer after =>
        match answer with
        | .ok value => (rest value).Ensures watch post after
        | .error rc => post rc after := by
    funext answer after
    cases answer with
    | ok value => rfl
    | error rc => rfl
  exact iff_of_eq (congrArg (fun post => Ensures watch post program seen) same)

theorem ensures_congr (same : ∀ value after, post value after ↔ other value after) :
    program.Ensures watch post seen ↔ program.Ensures watch other seen :=
  ⟨fun ensures => ensures.mono fun value after => (same value after).1,
    fun ensures => ensures.mono fun value after => (same value after).2⟩

/-- What is ensured holds of every run, and every operation of it was allowed. -/
theorem Ensures.run (environment : Environment S) (past : List (Performed S))
    (ensures : program.Ensures watch post seen) :
    watch.Followed seen (program.run environment past).1 ∧
      post (program.run environment past).2
        ((program.run environment past).1.foldl watch.see seen) := by
  induction program generalizing seen past with
  | done value => exact ⟨trivial, ensures⟩
  | step operation next ih =>
      obtain ⟨followed, final⟩ := ih _ (past ++ [_]) (ensures.2 (environment past operation))
      exact ⟨⟨ensures.1, followed⟩, final⟩

/-- A run depends on what is answered after it began. -/
theorem run_congr {environment same : Environment S} (program : Program S α)
    {past : List (Performed S)} (agree : ∀ history : List (Performed S),
      past.length ≤ history.length → environment history = same history) :
    program.run environment past = program.run same past := by
  induction program generalizing past with
  | done value => rfl
  | step operation next ih =>
      have here : environment past operation = same past operation :=
        congrFun (agree past (Nat.le_refl _)) operation
      have later := @ih (environment past operation)
        (past ++ [⟨operation, environment past operation⟩]) fun history longer =>
          agree history (Nat.le_trans (by
            rw [List.length_append]
            exact Nat.le_add_right _ _) longer)
      rw [Program.run, Program.run, later, here]

open Classical in
/-- What holds of every run is ensured. -/
theorem ensures_iff_run [∀ operation, Nonempty (S.Answer operation)]
    (past : List (Performed S)) : program.Ensures watch post seen ↔
      ∀ environment, watch.Followed seen (program.run environment past).1 ∧
        post (program.run environment past).2
          ((program.run environment past).1.foldl watch.see seen) := by
  refine ⟨fun ensures environment => ensures.run environment past, fun runs => ?_⟩
  induction program generalizing seen past with
  | done value => exact (runs fun _ _ => Classical.ofNonempty).2
  | step operation next ih =>
      refine ⟨(runs fun _ _ => Classical.ofNonempty).1.1, fun answer => ?_⟩
      apply ih answer (past ++ [⟨operation, answer⟩])
      intro environment
      -- the same environment, but for the one answer that is due
      let due : Environment S := fun history other =>
        if here : history = past ∧ other = operation then here.2 ▸ answer
        else environment history other
      have answers : due past operation = answer := by
        simp only [due, and_self, ↓reduceDIte]
      have agree : ∀ history : List (Performed S),
          (past ++ [(⟨operation, answer⟩ : Performed S)]).length ≤ history.length →
            due history = environment history := by
        intro history longer
        funext other
        have later : ¬ (history = past ∧ other = operation) := by
          rintro ⟨rfl, -⟩
          rw [List.length_append, List.length_singleton] at longer
          omega
        simp only [due, later, ↓reduceDIte]
      have whole := runs due
      rw [Program.run, answers, run_congr (next answer) agree] at whole
      exact ⟨whole.1.2, whole.2⟩

end Ensures
end Program
end Concurrency
