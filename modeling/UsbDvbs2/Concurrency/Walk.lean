import UsbDvbs2.Concurrency.Threads

/-! # Walks of a labelled transition system

A walk keeps the states around every event, so that a property of single
transitions can be asked of all of them. Two rules are used: what follows from an
invariant that allowed transitions keep, and the equivalence of two properties of
the transitions under an invariant that the first of them carries on.
-/

namespace Concurrency

variable {σ ε : Type}

/-- One transition with the states around it. -/
structure Moved (σ ε : Type) where
  before : σ
  event : ε
  after : σ

inductive Walk (step : σ → ε → σ → Prop) : σ → List (Moved σ ε) → σ → Prop where
  | nil (state : σ) : Walk step state [] state
  | cons {state middle final : σ} {event : ε} {moves : List (Moved σ ε)} :
      step state event middle → Walk step middle moves final →
      Walk step state (⟨state, event, middle⟩ :: moves) final

namespace Walk

variable {step : σ → ε → σ → Prop} {state final : σ} {moves : List (Moved σ ε)}

theorem append {middle : σ} {first second : List (Moved σ ε)}
    (left : Walk step state first middle) (right : Walk step middle second final) :
    Walk step state (first ++ second) final := by
  induction left with
  | nil => exact right
  | cons moved _ ih => exact .cons moved (ih right)

/-- If allowed transitions keep the invariant and are as wanted under it, every
transition of an allowed walk is as wanted. -/
theorem wanted_of_allowed (inv : σ → Prop) (allowed wanted : Moved σ ε → Prop)
    (keeps : ∀ moved, step moved.before moved.event moved.after → allowed moved →
      inv moved.before → inv moved.after ∧ wanted moved)
    (walk : Walk step state moves final) (valid : inv state)
    (all : ∀ moved ∈ moves, allowed moved) : ∀ moved ∈ moves, wanted moved := by
  induction walk with
  | nil => exact fun _ member => (List.not_mem_nil member).elim
  | @cons state middle final event moves moved _ ih =>
      rw [List.forall_mem_cons] at all ⊢
      have kept := keeps ⟨state, event, middle⟩ moved all.1 valid
      exact ⟨kept.2, ih kept.1 all.2⟩

/-- An invariant that allowed transitions keep holds in the end. -/
theorem invariant (inv : σ → Prop) (allowed : Moved σ ε → Prop)
    (keeps : ∀ moved, step moved.before moved.event moved.after → allowed moved →
      inv moved.before → inv moved.after)
    (walk : Walk step state moves final) (valid : inv state)
    (all : ∀ moved ∈ moves, allowed moved) : inv final := by
  induction walk with
  | nil => exact valid
  | @cons state middle final event moves moved _ ih =>
      rw [List.forall_mem_cons] at all
      exact ih (keeps ⟨state, event, middle⟩ moved all.1 valid) all.2

/-- What goes into a balance and out of it along a walk. -/
theorem balance (value : σ → Nat) (enters leaves : Moved σ ε → Bool)
    (balanced : ∀ moved, step moved.before moved.event moved.after →
      value moved.before + (enters moved).toNat = value moved.after + (leaves moved).toNat)
    (walk : Walk step state moves final) :
    value state + moves.countP enters = value final + moves.countP leaves := by
  induction walk with
  | nil => rfl
  | @cons state middle final event moves moved _ ih =>
      have here := balanced ⟨state, event, middle⟩ moved
      have count : ∀ chosen : Moved σ ε → Bool,
          (⟨state, event, middle⟩ :: moves).countP chosen =
            moves.countP chosen + (chosen ⟨state, event, middle⟩).toNat := by
        intro chosen
        rw [List.countP_cons]
        cases chosen ⟨state, event, middle⟩ <;> rfl
      rw [count, count]
      simp only at here
      omega

/-- As long as allowed events bring every state nearer to its goal, the goal can be
reached by allowed events. -/
theorem exists_of_measure (inv goal : σ → Prop) (allowed : ε → Prop) (measure : σ → Nat)
    (nearer : ∀ state, inv state → ¬ goal state → ∃ event after, allowed event ∧
      step state event after ∧ inv after ∧ measure after < measure state) (valid : inv state) :
    ∃ moves final, Walk step state moves final ∧ (∀ moved ∈ moves, allowed moved.event) ∧
      inv final ∧ goal final := by
  induction distance : measure state using Nat.strongRecOn generalizing state with
  | ind distance ih =>
      by_cases there : goal state
      · exact ⟨[], state, .nil state, fun _ member => (List.not_mem_nil member).elim, valid, there⟩
      · obtain ⟨event, after, allow, moved, kept, less⟩ := nearer state valid there
        obtain ⟨moves, final, walk, all, holds, reached⟩ := ih _ (distance ▸ less) kept rfl
        refine ⟨_, final, .cons moved walk, ?_, holds, reached⟩
        exact List.forall_mem_cons.mpr ⟨allow, all⟩

/-- If under an invariant a transition is good exactly when it is fine, and good
transitions keep the invariant, then all transitions of a walk are good exactly
when all of them are fine. -/
theorem good_iff (inv : σ → Prop) (good fine : Moved σ ε → Prop)
    (decides : ∀ moved, step moved.before moved.event moved.after → inv moved.before →
      (good moved ↔ fine moved))
    (keeps : ∀ moved, step moved.before moved.event moved.after → inv moved.before →
      good moved → inv moved.after)
    (walk : Walk step state moves final) (valid : inv state) :
    (∀ moved ∈ moves, good moved) ↔ ∀ moved ∈ moves, fine moved := by
  induction walk with
  | nil => simp only [List.not_mem_nil, false_imp_iff, implies_true]
  | @cons state middle final event moves moved _ ih =>
      have here := decides ⟨state, event, middle⟩ moved valid
      have later := fun isGood => ih (keeps ⟨state, event, middle⟩ moved valid isGood)
      rw [List.forall_mem_cons, List.forall_mem_cons]
      constructor
      · intro all
        exact ⟨here.mp all.1, (later all.1).mp all.2⟩
      · intro all
        have isGood := here.mpr all.1
        exact ⟨isGood, (later isGood).mpr all.2⟩

end Walk

/-! ## Deterministic systems -/

section Deterministic

variable (next : σ → ε → σ)

/-- The step relation of a transition function. -/
def stepOf (before : σ) (event : ε) (after : σ) : Prop := after = next before event

/-- The transitions along a list of events. -/
def moves : σ → List ε → List (Moved σ ε)
  | _, [] => []
  | state, event :: events => ⟨state, event, next state event⟩ :: moves (next state event) events

theorem walk_moves (state : σ) (events : List ε) :
    Walk (stepOf next) state (moves next state events) (events.foldl next state) := by
  induction events generalizing state with
  | nil => exact .nil state
  | cons event events ih => exact .cons rfl (ih _)

/-- The transition of an event somewhere in a list. -/
theorem mem_moves (state : σ) (earlier : List ε) (event : ε) (later : List ε) :
    (⟨earlier.foldl next state, event, next (earlier.foldl next state) event⟩ : Moved σ ε) ∈
      moves next state (earlier ++ event :: later) := by
  induction earlier generalizing state with
  | nil => exact List.mem_cons_self
  | cons first earlier ih => exact List.mem_cons_of_mem _ (ih (next state first))

/-- Follow events as far as they are possible. -/
def follow (next : σ → ε → Option σ) : σ → List ε → List (Moved σ ε) × σ
  | state, [] => ([], state)
  | state, event :: events =>
      match next state event with
      | none => ([], state)
      | some after =>
          let later := follow next after events
          (⟨state, event, after⟩ :: later.1, later.2)

theorem walk_follow (next : σ → ε → Option σ) (state : σ) (events : List ε) :
    Walk (fun before event after => next before event = some after) state
      (follow next state events).1 (follow next state events).2 := by
  induction events generalizing state with
  | nil => exact .nil state
  | cons event events ih =>
      rw [follow]
      split
      · exact .nil state
      · rename_i after moved
        exact .cons moved (ih after)

end Deterministic

/-! ## A record beside a walk -/

section Record

variable {ρ : Type} (note : ρ → ε → ρ)

/-- A step of a system, with a record of what happened so far. -/
def Recorded (step : σ → ε → σ → Prop) (before : σ × ρ) (event : ε) (after : σ × ρ) : Prop :=
  step before.1 event after.1 ∧ after.2 = note before.2 event

/-- The transitions of a walk, each with the record before and after it. -/
def record (noted : ρ) : List (Moved σ ε) → List (Moved (σ × ρ) ε)
  | [] => []
  | moved :: moves =>
      let later := note noted moved.event
      ⟨(moved.before, noted), moved.event, (moved.after, later)⟩ :: record later moves

theorem Walk.recorded {step : σ → ε → σ → Prop} {state final : σ} {moves : List (Moved σ ε)}
    (walk : Walk step state moves final) (noted : ρ) :
    ∃ last, Walk (Recorded note step) (state, noted) (record note noted moves) (final, last) := by
  induction walk generalizing noted with
  | nil => exact ⟨noted, .nil _⟩
  | @cons state middle final event moves moved _ ih =>
      obtain ⟨last, later⟩ := ih (note noted event)
      exact ⟨last, .cons ⟨moved, rfl⟩ later⟩

section Rules

variable {note} {step : σ → ε → σ → Prop} {state final : σ} {moves : List (Moved σ ε)} {noted : ρ}
  (inv : σ × ρ → Prop)

/-- `Walk.wanted_of_allowed` along a record. -/
theorem Walk.recorded_wanted (allowed wanted : Moved (σ × ρ) ε → Prop)
    (keeps : ∀ {before after event noted}, step before event after → inv (before, noted) →
      allowed ⟨(before, noted), event, (after, note noted event)⟩ →
      inv (after, note noted event) ∧
        wanted ⟨(before, noted), event, (after, note noted event)⟩)
    (walk : Walk step state moves final) (valid : inv (state, noted))
    (all : ∀ moved ∈ record note noted moves, allowed moved) :
    ∀ moved ∈ record note noted moves, wanted moved := by
  obtain ⟨last, walk⟩ := walk.recorded note noted
  refine walk.wanted_of_allowed inv allowed wanted ?_ valid all
  rintro ⟨⟨before, noted⟩, event, after, later⟩ ⟨moved, same⟩ allows valid
  obtain rfl : later = note noted event := same
  exact keeps moved valid allows

/-- `Walk.good_iff` along a record. -/
theorem Walk.recorded_good_iff (good fine : Moved (σ × ρ) ε → Prop)
    (decides : ∀ {before after event noted}, step before event after → inv (before, noted) →
      (good ⟨(before, noted), event, (after, note noted event)⟩ ↔
        fine ⟨(before, noted), event, (after, note noted event)⟩))
    (keeps : ∀ {before after event noted}, step before event after → inv (before, noted) →
      good ⟨(before, noted), event, (after, note noted event)⟩ → inv (after, note noted event))
    (walk : Walk step state moves final) (valid : inv (state, noted)) :
    (∀ moved ∈ record note noted moves, good moved) ↔
      ∀ moved ∈ record note noted moves, fine moved := by
  obtain ⟨last, walk⟩ := walk.recorded note noted
  refine walk.good_iff inv good fine ?_ ?_ valid
  · rintro ⟨⟨before, noted⟩, event, after, later⟩ ⟨moved, same⟩ valid
    obtain rfl : later = note noted event := same
    exact decides moved valid
  · rintro ⟨⟨before, noted⟩, event, after, later⟩ ⟨moved, same⟩ valid isGood
    obtain rfl : later = note noted event := same
    exact keeps moved valid isGood

end Rules

end Record

/-! ## Interleavings as walks -/

namespace ThreadSystem

variable {S : Signature} {ι : Type} [DecidableEq ι] {sys : ThreadSystem S σ ε ι}

theorem Run.step_of_single {config next : sys.Config} {event : sys.Event}
    (run : sys.Run config [event] next) : sys.Step config event next := by
  cases run with
  | cons step rest =>
      cases rest
      exact step

/-- Follow a schedule one event at a time, as far as it is possible. -/
def Config.track (config : sys.Config) :
    List sys.Move → List (Moved sys.Config sys.Event) × sys.Config
  | [] => ([], config)
  | move :: later =>
      match config.play move with
      | ([event], next) =>
          let rest := Config.track next later
          (⟨config, event, next⟩ :: rest.1, rest.2)
      | _ => ([], config)

theorem Config.walk_track (config : sys.Config) (schedule : List sys.Move) :
    Walk sys.Step config (config.track schedule).1 (config.track schedule).2 := by
  induction schedule generalizing config with
  | nil => exact .nil config
  | cons move later ih =>
      have run := config.run_play move
      simp only [track]
      split
      · rename_i event next played
        rw [played] at run
        exact .cons run.step_of_single (ih next)
      · exact .nil config

/-- Whose event it is. -/
def Event.mover : sys.Event → ι
  | .start thread _ | .perform thread _ | .finish thread _ => thread

/-- A thread without events stays in its phase. -/
theorem phase_of_absent {config final : sys.Config} {moves : List (Moved sys.Config sys.Event)}
    {thread : ι} (walk : Walk sys.Step config moves final)
    (absent : ∀ moved ∈ moves, moved.event.mover ≠ thread) :
    final.phase thread = config.phase thread := by
  induction walk with
  | nil => rfl
  | cons step _ ih =>
      rw [List.forall_mem_cons] at absent
      rw [ih absent.2]
      have other := Ne.symm absent.1
      cases step with
      | start _ _ => exact Config.advance_phase_other _ _ _ other
      | perform _ _ => exact Config.advance_phase_other _ _ _ other
      | finish _ => exact Config.advance_phase_other _ _ _ other

def Phase.isIdle {thread : ι} : sys.Phase thread → Bool
  | .idle _ => true
  | .running _ _ => false

omit [DecidableEq ι] in
theorem Phase.exists_of_isIdle {thread : ι} {phase : sys.Phase thread}
    (idle : phase.isIdle = true) : ∃ locals, phase = .idle locals := by
  cases phase with
  | idle locals => exact ⟨locals, rfl⟩
  | running => exact nomatch idle

/-- Several operations of one thread, one event each. -/
def performing (thread : ι) (count : Nat) (environment : S.Op → ε) : List sys.Move :=
  .replicate count (.perform thread 1 environment)

end ThreadSystem
end Concurrency
