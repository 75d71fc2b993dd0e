import UsbDvbs2.Camd.Worker
import UsbDvbs2.Concurrency.Walk
import Mathlib.Tactic.MkIffOfInductiveProp

/-! # Which service a stored word belongs to

`dtv_camd_set_service` clears the flags of the stored words, and an exchange
that was under way raises them again when its answer is published afterwards.
Up to such a crossing every flagged word answers an ECM of the current service.
-/

namespace Camd

open Concurrency Program ThreadSystem

/-- Every parity flagged valid holds a word asked for since the service was set. -/
@[mk_iff]
structure FlaggedCurrent (state : State) : Prop where
  even : state.client.evenValid = true → state.ledger.evenAt = state.ledger.services
  odd : state.client.oddValid = true → state.ledger.oddAt = state.ledger.services

/-- When `dtv_camd_get_keys` returns 1, every word that it hands out and that is
not zero was asked for since the service was set. -/
@[mk_iff]
structure StoredCurrent (state : State) : Prop where
  even : state.client.getKeys.valid = true → state.client.getKeys.even ≠ zeroCw →
    state.ledger.evenAt = state.ledger.services
  odd : state.client.getKeys.valid = true → state.client.getKeys.odd ≠ zeroCw →
    state.ledger.oddAt = state.ledger.services

/-- The answer of an exchange is published although the service was set since
the exchange took its ECM. -/
def State.Crosses (state : State) : Op → Prop
  | .publishControlWords words _ =>
      (words.even ≠ zeroCw ∨ words.odd ≠ zeroCw) ∧ state.ledger.takenAt ≠ state.ledger.services
  | _ => False

/-- An answer with one half zero is published over a word of an earlier service. -/
def State.Uncovers (state : State) : Op → Prop
  | .publishControlWords words _ =>
      (words.even ≠ zeroCw ∧ words.odd = zeroCw ∧ state.client.odd ≠ zeroCw ∧
        state.ledger.oddAt ≠ state.ledger.services) ∨
      (words.odd ≠ zeroCw ∧ words.even = zeroCw ∧ state.client.even ≠ zeroCw ∧
        state.ledger.evenAt ≠ state.ledger.services)
  | _ => False

/-- A pending ECM was handed in since the service was set, so the ECM of an
exchange was handed in under the service the exchange began with. -/
@[mk_iff]
structure Paired (state : State) : Prop where
  pending : state.client.pendingEcm ≠ [] → state.ledger.pendingAt = state.ledger.services
  asked : state.ledger.askedAt = state.ledger.takenAt

/-! ## One operation -/

variable {operation : Op} {input : Input} {state next : State} {answer : operation.Answer}

theorem Paired.step (paired : Paired state)
    (performed : machine.exec operation input state = some (answer, next)) : Paired next := by
  cases performed
  cases operation with
  | setService serviceId candidates => exact ⟨fun pending => (pending rfl).elim, paired.asked⟩
  | rotateCandidate => exact ⟨fun pending => (pending rfl).elim, paired.asked⟩
  | submitEcm ecm =>
      by_cases fresh : state.client.lastEcm ≠ ecm
      · simp only [effect, Client.submitEcm, if_pos fresh, Ledger.record]
        exact ⟨fun _ => rfl, paired.asked⟩
      · simp only [effect, Client.submitEcm, if_neg fresh, Ledger.record]
        exact ⟨paired.pending, paired.asked⟩
  | takePendingEcm =>
      by_cases none : state.client.pendingEcm = []
      · simp only [effect, Client.takePendingEcm, if_pos none, Ledger.record]
        exact ⟨paired.pending, paired.asked⟩
      · simp only [effect, Client.takePendingEcm, if_neg none, Ledger.record]
        exact ⟨fun pending => (pending rfl).elim, paired.pending none⟩
  | setStatus progress message => cases message <;> exact ⟨paired.pending, paired.asked⟩
  | applyCandidate =>
      simp only [effect, Client.applyCandidate]
      split <;> exact ⟨paired.pending, paired.asked⟩
  | _ => exact ⟨paired.pending, paired.asked⟩

/-- The stored words with their flags, and the service they count for. -/
def State.keyring (state : State) : (Key × Key) × (Bool × Bool) × Nat × Nat × Nat :=
  ((state.client.even, state.client.odd), (state.client.evenValid, state.client.oddValid),
    state.ledger.evenAt, state.ledger.oddAt, state.ledger.services)

/-- Only two sections touch the stored words. -/
def Op.Rekeys : Op → Prop
  | .setService .. | .publishControlWords .. => True
  | _ => False

theorem keyring_unchanged (quiet : ¬ operation.Rekeys)
    (performed : machine.exec operation input state = some (answer, next)) :
    next.keyring = state.keyring := by
  cases performed
  cases operation with
  | setService | publishControlWords => exact (quiet trivial).elim
  | submitEcm ecm =>
      by_cases fresh : state.client.lastEcm ≠ ecm
      · simp only [effect, Client.submitEcm, if_pos fresh]
        rfl
      · simp only [effect, Client.submitEcm, if_neg fresh]
        rfl
  | takePendingEcm =>
      by_cases none : state.client.pendingEcm = []
      · simp only [effect, Client.takePendingEcm, if_pos none]
        rfl
      · simp only [effect, Client.takePendingEcm, if_neg none, Ledger.record]
        rfl
  | setStatus progress message => cases message <;> rfl
  | applyCandidate =>
      simp only [effect, Client.applyCandidate]
      split <;> rfl
  | _ => rfl

section Unchanged

variable (same : next.keyring = state.keyring)

include same

theorem FlaggedCurrent.congr : FlaggedCurrent next ↔ FlaggedCurrent state := by
  simp only [State.keyring, Prod.mk.injEq] at same
  obtain ⟨-, ⟨even, odd⟩, evenAt, oddAt, services⟩ := same
  rw [flaggedCurrent_iff, flaggedCurrent_iff, even, odd, evenAt, oddAt, services]

theorem StoredCurrent.congr : StoredCurrent next ↔ StoredCurrent state := by
  simp only [State.keyring, Prod.mk.injEq] at same
  obtain ⟨⟨even, odd⟩, ⟨evenValid, oddValid⟩, evenAt, oddAt, services⟩ := same
  rw [storedCurrent_iff, storedCurrent_iff, evenAt, oddAt, services]
  simp only [Client.getKeys, even, odd, evenValid, oddValid]

end Unchanged

/-- What publishing does to one parity: a flagged word stays current exactly
when a word that replaces it is. -/
theorem flagged_half_iff {half : Key} {valid : Bool} {stamp asked services : Nat}
    (current : valid = true → stamp = services) :
    ((decide (half ≠ zeroCw) || valid) = true →
        (if half ≠ zeroCw then asked else stamp) = services) ↔
      (half ≠ zeroCw → asked = services) := by
  by_cases zero : half = zeroCw
  · simp only [zero, ne_eq, not_true_eq_false, decide_false, Bool.false_or, if_false,
      false_imp_iff, iff_true]
    exact current
  · simp only [ne_eq, zero, not_false_eq_true, decide_true, Bool.true_or, if_true, true_imp_iff]

/-- The word of one parity after publishing: the half that came, or the word
that stands. -/
theorem stored_half_iff {half stored : Key} {stamp asked services : Nat} :
    ((if half ≠ zeroCw then half else stored) ≠ zeroCw →
        (if half ≠ zeroCw then asked else stamp) = services) ↔
      (half ≠ zeroCw → asked = services) ∧
        (half = zeroCw → stored ≠ zeroCw → stamp = services) := by
  by_cases zero : half = zeroCw
  · simp only [zero, ne_eq, not_true_eq_false, if_false, false_imp_iff, true_and, true_imp_iff]
  · simp only [ne_eq, zero, not_false_eq_true, if_true, true_imp_iff, false_imp_iff, and_true]

/-- A section keeps the flagged words current unless it publishes across a
change of service. -/
theorem FlaggedCurrent.step (paired : Paired state) (current : FlaggedCurrent state)
    (performed : machine.exec operation input state = some (answer, next)) :
    FlaggedCurrent next ↔ ¬ state.Crosses operation := by
  by_cases quiet : ¬ operation.Rekeys
  · have calm : ¬ state.Crosses operation := by
      cases operation with
      | publishControlWords => exact (quiet trivial).elim
      | _ => exact id
    exact iff_of_true ((congr (keyring_unchanged quiet performed)).mpr current) calm
  · cases performed
    cases operation with
    | setService serviceId candidates => exact iff_of_true ⟨nofun, nofun⟩ id
    | publishControlWords words latencyMs =>
        rw [flaggedCurrent_iff]
        refine (and_congr (flagged_half_iff current.even) (flagged_half_iff current.odd)).trans ?_
        rw [State.Crosses, paired.asked, ← or_imp, not_and, ne_eq, not_not]
    | _ => exact (quiet id).elim

/-- A section keeps all handed-out words current unless it publishes across a
change of service or next to a word of an earlier one. -/
theorem StoredCurrent.step (paired : Paired state) (current : StoredCurrent state)
    (performed : machine.exec operation input state = some (answer, next)) :
    StoredCurrent next ↔ ¬ state.Crosses operation ∧ ¬ state.Uncovers operation := by
  by_cases quiet : ¬ operation.Rekeys
  · have calm : ¬ state.Crosses operation ∧ ¬ state.Uncovers operation := by
      cases operation with
      | publishControlWords => exact (quiet trivial).elim
      | _ => exact ⟨id, id⟩
    exact iff_of_true ((congr (keyring_unchanged quiet performed)).mpr current) calm
  · cases performed
    cases operation with
    | setService serviceId candidates => exact iff_of_true ⟨nofun, nofun⟩ ⟨id, id⟩
    | publishControlWords words latencyMs =>
        by_cases empty : words.even = zeroCw ∧ words.odd = zeroCw
        · have calm : ¬ state.Crosses (.publishControlWords words latencyMs) ∧
              ¬ state.Uncovers (.publishControlWords words latencyMs) := by
            simp only [State.Crosses, State.Uncovers, empty.1, empty.2]
            exact ⟨fun crosses => crosses.1.elim (· rfl) (· rfl),
              fun uncovers => uncovers.elim (·.1 rfl) (·.1 rfl)⟩
          refine iff_of_true ((congr ?_).mpr current) calm
          simp [State.keyring, effect, Client.publishControlWords, Ledger.record, empty.1, empty.2]
        · have valid : ((decide (words.even ≠ zeroCw) || state.client.evenValid) ||
              (decide (words.odd ≠ zeroCw) || state.client.oddValid)) = true := by
            rcases not_and_or.mp empty with even | odd
            · simp only [ne_eq, even, not_false_eq_true, decide_true, Bool.true_or]
            · simp only [ne_eq, odd, not_false_eq_true, decide_true, Bool.true_or, Bool.or_true]
          rw [storedCurrent_iff]
          refine (and_congr (forall_prop_of_true valid) (forall_prop_of_true valid)).trans ?_
          refine (and_congr stored_half_iff stored_half_iff).trans ?_
          simp only [State.Crosses, State.Uncovers, paired.asked, Ledger.record]
          grind
    | _ => exact (quiet id).elim

/-! ## Whole runs -/

/-- The transition publishes the answer of an exchange during which the service
was set. -/
def Crossed {config : Config} (moved : Moved (camd config).Config (camd config).Event) : Prop :=
  ∃ party performed, moved.event = .perform party performed ∧
    moved.before.shared.Crosses performed.1

/-- The transition publishes one half next to a word of an earlier service. -/
def Uncovered {config : Config} (moved : Moved (camd config).Config (camd config).Event) : Prop :=
  ∃ party performed, moved.event = .perform party performed ∧
    moved.before.shared.Uncovers performed.1

variable {config : Config} {moved : Moved (camd config).Config (camd config).Event}

theorem Paired.of_moved (paired : Paired moved.before.shared)
    (step : (camd config).Step moved.before moved.event moved.after) :
    Paired moved.after.shared := by
  rcases step.shared_cases with ⟨same, -⟩ | ⟨_, _, _, _, -, performed⟩
  · rwa [same]
  · exact paired.step performed

theorem flagged_moved_iff (paired : Paired moved.before.shared)
    (current : FlaggedCurrent moved.before.shared)
    (step : (camd config).Step moved.before moved.event moved.after) :
    FlaggedCurrent moved.after.shared ↔ ¬ Crossed moved := by
  rcases step.shared_cases with ⟨same, other⟩ | ⟨party, operation, _, answer, event, performed⟩
  · rw [same]
    exact iff_of_true current fun ⟨party, performed, event, _⟩ => other party performed event
  · have crossed : Crossed moved ↔ moved.before.shared.Crosses operation :=
      Event.performs_iff event moved.before.shared.Crosses
    rw [current.step paired performed, crossed]

theorem stored_moved_iff (paired : Paired moved.before.shared)
    (current : StoredCurrent moved.before.shared)
    (step : (camd config).Step moved.before moved.event moved.after) :
    StoredCurrent moved.after.shared ↔ ¬ Crossed moved ∧ ¬ Uncovered moved := by
  rcases step.shared_cases with ⟨same, other⟩ | ⟨party, operation, _, answer, event, performed⟩
  · rw [same]
    exact iff_of_true current
      ⟨fun ⟨party, performed, event, _⟩ => other party performed event,
        fun ⟨party, performed, event, _⟩ => other party performed event⟩
  · have crossed : Crossed moved ↔ moved.before.shared.Crosses operation :=
      Event.performs_iff event moved.before.shared.Crosses
    have uncovered : Uncovered moved ↔ moved.before.shared.Uncovers operation :=
      Event.performs_iff event moved.before.shared.Uncovers
    rw [current.step paired performed, crossed, uncovered]

/-- In every interleaving of the worker with any number of callers, the words
flagged valid always answer ECMs of the current service exactly when no answer
is published across a change of service; and the words that a successful
`dtv_camd_get_keys` hands out do exactly when, besides, no answer with one half
zero is published next to a word of an earlier service. -/
theorem keys_stay_with_service {now : UInt64} {final : (camd config).Config}
    {moves : List (Moved (camd config).Config (camd config).Event)}
    (walk : Walk (camd config).Step (launched config now) moves final) :
    ((∀ moved ∈ moves, FlaggedCurrent moved.after.shared) ↔ ∀ moved ∈ moves, ¬ Crossed moved) ∧
      ((∀ moved ∈ moves, StoredCurrent moved.after.shared) ↔
        ∀ moved ∈ moves, ¬ Crossed moved ∧ ¬ Uncovered moved) := by
  have paired : Paired (launched config now).shared := ⟨fun pending => (pending rfl).elim, rfl⟩
  constructor
  · refine walk.good_iff (fun config => Paired config.shared ∧ FlaggedCurrent config.shared)
      _ _ ?_ ?_ ⟨paired, nofun, nofun⟩
    · exact fun moved step valid => flagged_moved_iff valid.1 valid.2 step
    · exact fun moved step valid current => ⟨valid.1.of_moved step, current⟩
  · refine walk.good_iff (fun config => Paired config.shared ∧ StoredCurrent config.shared)
      _ _ ?_ ?_ ⟨paired, nofun, nofun⟩
    · exact fun moved step valid => stored_moved_iff valid.1 valid.2 step
    · exact fun moved step valid current => ⟨valid.1.of_moved step, current⟩

/-! ### Runs with and without a crossing -/

def localServer : Config := ⟨.newcamd, "127.0.0.1", 15000⟩

def someWords : Words := ⟨.replicate 8 1, .replicate 8 2⟩

/-- A server that accepts everything and answers with the same two words. -/
def willing : Op → Input
  | .login | .recvCw => { code := 1, words := someWords }
  | _ => {}

/-- A service is set, its ECM handed in, and the worker sends it. -/
def asking : List (camd localServer).Move :=
  .start (.caller 0) (Call.setService 1 [⟨0x500, 0x100, 0⟩]) :: performing (.caller 0) 3 willing ++
    .finish (.caller 0) :: .start (.caller 0) (Call.submitEcm [0x80, 0x70, 0x00]) ::
      performing (.caller 0) 2 willing ++
        .finish (.caller 0) :: .start .worker () :: performing .worker 13 willing

/-- The worker receives the answer and publishes it, and the keys are read. -/
def receiving : List (camd localServer).Move :=
  performing .worker 4 willing ++
    .finish .worker :: .start (.caller 0) Call.getKeys :: performing (.caller 0) 1 willing

/-- The next service is set, without candidates. -/
def zapping : List (camd localServer).Move :=
  .start (.caller 1) (Call.setService 2 []) :: performing (.caller 1) 3 willing ++
    [.finish (.caller 1)]

def tracked (schedule : List (camd localServer).Move) :
    List (Moved (camd localServer).Config (camd localServer).Event) × (camd localServer).Config :=
  (launched localServer 0).track schedule

/-- The words of an exchange that no change of service crosses. -/
theorem keys_stay_with_service_honest :
    (tracked (asking ++ receiving)).2.shared.client.getKeys.valid = true ∧
      ((∀ moved ∈ (tracked (asking ++ receiving)).1, FlaggedCurrent moved.after.shared) ↔
        ∀ moved ∈ (tracked (asking ++ receiving)).1, ¬ Crossed moved) ∧
      ((∀ moved ∈ (tracked (asking ++ receiving)).1, StoredCurrent moved.after.shared) ↔
        ∀ moved ∈ (tracked (asking ++ receiving)).1, ¬ Crossed moved ∧ ¬ Uncovered moved) :=
  ⟨by decide +kernel, keys_stay_with_service (Config.walk_track _ _)⟩

/-- The service is set while its predecessor's ECM is with the server: the
answer counts for the new service. -/
theorem key_of_previous_service :
    ∃ moved ∈ (tracked (asking ++ zapping ++ receiving)).1,
      (∃ keys, moved.event = .perform (.caller 0) ⟨.getKeys, keys⟩ ∧ keys.valid = true) ∧
      ¬ FlaggedCurrent moved.after.shared ∧ ¬ StoredCurrent moved.after.shared := by
  refine ⟨_, List.getElem_mem (n := 34) (by decide +kernel), ⟨_, rfl, ?_⟩, ?_, ?_⟩
  · decide +kernel
  · intro current
    have services := current.even (by decide +kernel)
    revert services
    decide +kernel
  · intro current
    have services := current.even (by decide +kernel) (by decide +kernel)
    revert services
    decide +kernel

end Camd
