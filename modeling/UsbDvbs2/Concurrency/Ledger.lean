import UsbDvbs2.Concurrency.Walk

/-! # Threads that keep a ledger

Every operation that a thread performs is written into a ledger of that thread's own,
and what it may perform next depends on what is written there. `Program.Obeys` says
so of a program, path by path; `Step.obeys` carries it along every interleaving.
-/

namespace Concurrency

/-- What is written into a ledger, and what may be performed under one. -/
structure Rules (S : Signature) (γ : Type) where
  write : γ → Performed S → γ
  allows : γ → S.Op → Prop

variable {S : Signature} {γ α β : Type}

namespace Program

section Obeys

variable (rules : Rules S γ)

/-- Along every path the operations are allowed, and the ledger at the end is as
stated. -/
def Obeys (post : γ → α → Prop) : Program S α → γ → Prop
  | .done value, ledger => post ledger value
  | .step operation next, ledger => rules.allows ledger operation ∧
      ∀ answer, (next answer).Obeys post (rules.write ledger ⟨operation, answer⟩)

end Obeys

variable {rules : Rules S γ} {ledger : γ}

theorem Obeys.mono {post weaker : γ → α → Prop} {program : Program S α}
    (obeys : program.Obeys rules post ledger)
    (implies : ∀ ledger value, post ledger value → weaker ledger value) :
    program.Obeys rules weaker ledger := by
  induction program generalizing ledger with
  | done value => exact implies _ _ obeys
  | step operation next ih => exact ⟨obeys.1, fun answer => ih answer (obeys.2 answer)⟩

theorem Obeys.bind {post : γ → β → Prop} {program : Program S α} {rest : α → Program S β}
    (first : program.Obeys rules (fun ledger value => (rest value).Obeys rules post ledger)
      ledger) :
    (program >>= rest).Obeys rules post ledger := by
  induction program generalizing ledger with
  | done value => exact first
  | step operation next ih => exact ⟨first.1, fun answer => ih answer (first.2 answer)⟩

theorem Obeys.ite {post : γ → α → Prop} {condition : Prop} [Decidable condition]
    {left right : Program S α} (yes : condition → left.Obeys rules post ledger)
    (no : ¬ condition → right.Obeys rules post ledger) :
    (if condition then left else right).Obeys rules post ledger := by
  split
  · exact yes ‹_›
  · exact no ‹_›

/-- Operations that are always allowed and write nothing. -/
theorem Obeys.of_avoids {bad : S.Op → Prop} {post : γ → α → Prop} {program : Program S α}
    (avoids : program.Avoids bad fun _ _ => True)
    (free : ∀ ledger operation, ¬ bad operation → rules.allows ledger operation ∧
      ∀ answer, rules.write ledger ⟨operation, answer⟩ = ledger)
    (ends : ∀ value, post ledger value) : program.Obeys rules post ledger := by
  induction program with
  | done value => exact ends value
  | step operation next ih =>
      obtain ⟨allowed, same⟩ := free ledger operation avoids.1
      refine ⟨allowed, fun answer => ?_⟩
      rw [same]
      exact ih answer (avoids.2 answer trivial)

end Program

/-! ## Along an interleaving -/

namespace ThreadSystem

variable {σ ε ι : Type} [DecidableEq ι] {sys : ThreadSystem S σ ε ι}

/-- The ledgers after an event; a command begins with one of its own. -/
def Event.enter (rules : ι → Rules S γ) (begins : (thread : ι) → sys.Command thread → γ)
    (ledgers : ι → γ) : sys.Event → ι → γ
  | .start thread command => Function.update ledgers thread (begins thread command)
  | .perform thread performed =>
      Function.update ledgers thread ((rules thread).write (ledgers thread) performed)
  | .finish _ _ => ledgers

/-- The rest of a command obeys the rules, and an idle thread's ledger is closed. -/
def Phase.Obeys (rules : Rules S γ) (closed : γ → Prop) (ledger : γ) {thread : ι} :
    sys.Phase thread → Prop
  | .idle _ => closed ledger
  | .running _ rest => rest.Obeys rules (fun ledger _ => closed ledger) ledger

variable {rules : ι → Rules S γ} {closed : γ → Prop}
  {begins : (thread : ι) → sys.Command thread → γ}

/-- One step: every thread goes on obeying, as long as the commands do, and the
operation performed was allowed. -/
theorem Step.obeys {config next : sys.Config} {event : sys.Event} {ledgers : ι → γ}
    (step : sys.Step config event next)
    (obeys : ∀ thread, (config.phase thread).Obeys (rules thread) closed (ledgers thread))
    (starts : ∀ thread command locals program, sys.body thread command locals = some program →
      program.Obeys (rules thread) (fun ledger _ => closed ledger) (begins thread command)) :
    (∀ thread, (next.phase thread).Obeys (rules thread) closed
        (event.enter rules begins ledgers thread)) ∧
      ∀ thread performed, event = .perform thread performed →
        (rules thread).allows (ledgers thread) performed.1 := by
  cases step with
  | @start mover command locals program idle body =>
      refine ⟨fun thread => ?_, fun _ _ impossible => nomatch impossible⟩
      by_cases same : thread = mover
      · subst same
        rw [Event.enter, Function.update_self, Config.advance_phase_self]
        exact starts thread command locals program body
      · rw [Event.enter, Function.update_of_ne same, Config.advance_phase_other _ _ _ same]
        exact obeys thread
  | @perform mover command operation rest input answer shared here performed =>
      have own := obeys mover
      rw [here] at own
      refine ⟨fun thread => ?_, fun thread event equal => ?_⟩
      · by_cases same : thread = mover
        · subst same
          rw [Event.enter, Function.update_self, Config.advance_phase_self]
          exact own.2 answer
        · rw [Event.enter, Function.update_of_ne same, Config.advance_phase_other _ _ _ same]
          exact obeys thread
      · cases equal
        exact own.1
  | @finish mover command locals here =>
      have own := obeys mover
      rw [here] at own
      refine ⟨fun thread => ?_, fun _ _ impossible => nomatch impossible⟩
      by_cases same : thread = mover
      · subst same
        rw [Event.enter, Config.advance_phase_self]
        exact own
      · rw [Event.enter, Config.advance_phase_other _ _ _ same]
        exact obeys thread

/-! ## Ledgers that outlive a command -/

/-- What a thread's ledger says after an event; a command takes it over at its start. -/
def Event.carry (thread : ι) (rules : Rules S γ) (opens : γ → γ) (ledger : γ) : sys.Event → γ
  | .start mover _ => if mover = thread then opens ledger else ledger
  | .perform mover performed => if mover = thread then rules.write ledger performed else ledger
  | .finish _ _ => ledger

/-- The ledger fits what an idle thread keeps, and what a command hands on at its end. -/
def Phase.Carries {thread : ι} (rules : Rules S γ) (fits : γ → sys.Locals thread → Prop)
    (ledger : γ) : sys.Phase thread → Prop
  | .idle locals => fits ledger locals
  | .running _ rest => rest.Obeys rules fits ledger

/-- One step of whatever thread: this thread's ledger goes on fitting, as long as its
commands do from where the last one left it, and what it performed was allowed. -/
theorem Step.carries {config next : sys.Config} {event : sys.Event} {thread : ι}
    {rules : Rules S γ} {opens : γ → γ} {fits : γ → sys.Locals thread → Prop} {ledger : γ}
    (step : sys.Step config event next)
    (carries : (config.phase thread).Carries rules fits ledger)
    (starts : ∀ command locals program, sys.body thread command locals = some program →
      fits ledger locals → program.Obeys rules fits (opens ledger)) :
    (next.phase thread).Carries rules fits (event.carry thread rules opens ledger) ∧
      ∀ performed, event = .perform thread performed → rules.allows ledger performed.1 := by
  cases step with
  | @start mover command locals program idle body =>
      refine ⟨?_, fun _ impossible => nomatch impossible⟩
      by_cases same : thread = mover
      · subst same
        rw [idle] at carries
        rw [Event.carry, if_pos rfl, Config.advance_phase_self]
        exact starts command locals program body carries
      · rw [Event.carry, if_neg (Ne.symm same), Config.advance_phase_other _ _ _ same]
        exact carries
  | @perform mover command operation rest input answer shared here performed =>
      by_cases same : thread = mover
      · subst same
        rw [here] at carries
        rw [Event.carry, if_pos rfl, Config.advance_phase_self]
        refine ⟨carries.2 answer, fun event equal => ?_⟩
        cases equal
        exact carries.1
      · rw [Event.carry, if_neg (Ne.symm same), Config.advance_phase_other _ _ _ same]
        refine ⟨carries, fun event equal => ?_⟩
        cases equal
        exact (same rfl).elim
  | @finish mover command locals here =>
      refine ⟨?_, fun _ impossible => nomatch impossible⟩
      by_cases same : thread = mover
      · subst same
        rw [here] at carries
        rw [Event.carry, Config.advance_phase_self]
        exact carries
      · rw [Event.carry, Config.advance_phase_other _ _ _ same]
        exact carries

end ThreadSystem
end Concurrency
