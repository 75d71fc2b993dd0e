import UsbDvbs2.Engine.Tune

/-! # What a tune does to the LNB supply

Every function that drives the supply is described by its LNB writes and by its
effect on the LNB books: which writes were answered how, where the two control
pins end, and what the flag, the tuned mark and the cached transponder say.
-/

namespace Engine

open Concurrency Program Machine

/-- A message to one of the two LNB control registers, with its answer. -/
structure LnbWrite where
  reg : UInt32
  value : UInt32
  code : Int
  deriving DecidableEq

def lnbWrite? : Performed signature → Option LnbWrite
  | ⟨.demodWrite reg data, code⟩ =>
      if IsLnbReg reg then (be32At data).map fun value => ⟨reg, value, code⟩ else none
  | _ => none

def lnbWrites (trace : Trace) : List LnbWrite := trace.filterMap lnbWrite?

@[simp] theorem lnbWrites_nil : lnbWrites [] = [] := rfl

@[simp] theorem lnbWrites_append (first second : Trace) :
    lnbWrites (first ++ second) = lnbWrites first ++ lnbWrites second := List.filterMap_append

/-- An operation outside the LNB books is not an LNB write. -/
theorem lnbWrite?_eq_none {performed : Performed signature} (quiet : ¬ performed.1.Books) :
    lnbWrite? performed = none := by
  obtain ⟨operation, answer⟩ := performed
  cases operation with
  | demodWrite reg data => exact if_neg quiet
  | _ => rfl

theorem Quiet.lnbWrites_eq {α : Type} {code : Code α} {state final : State} {trace : Trace}
    {value : α} (quiet : Quiet code) (run : machine.Executes state code trace value final) :
    lnbWrites trace = [] :=
  List.filterMap_eq_nil_iff.mpr fun performed member =>
    lnbWrite?_eq_none (run.trace_avoids quiet performed member)

/-! ## Driving the two pins -/

/-- What driving the control pins did: the enable write comes first, and the
select write is made only when it went through. -/
inductive Driven (pins : LnbPins) (enable select : UInt32) :
    List LnbWrite → Int → LnbPins → Prop where
  | enableFailed {code : Int} : code ≠ 0 →
      Driven pins enable select [⟨lnbPowerEnableReg, enable, code⟩] code pins
  | selectFailed {code : Int} : code ≠ 0 →
      Driven pins enable select
        [⟨lnbPowerEnableReg, enable, 0⟩, ⟨lnbPowerSelectReg, select, code⟩] code
        { pins with enable }
  | driven :
      Driven pins enable select
        [⟨lnbPowerEnableReg, enable, 0⟩, ⟨lnbPowerSelectReg, select, 0⟩] 0 ⟨enable, select⟩

theorem books_answered (state : State) (input : Input) (reg : UInt32) (data : List UInt8)
    {answer : Int} {next : State}
    (performed : machine.exec (.demodWrite reg data) input state = some (answer, next)) :
    next.books = { state.books with
      lnbPins := state.books.lnbPins.answered reg data answer } := by
  cases performed
  have same := state.books_passages input.passages
  simp only [State.books, Books.mk.injEq] at same ⊢
  simp only [same, and_self]

/-- Writing one word to an LNB register. -/
theorem executes_write32 {reg value : UInt32} {state final : State} {trace : Trace} {code : Int}
    (lnb : IsLnbReg reg) (word : be32At (Avl62x1.bytes32 value) = some value)
    (run : machine.Executes state (Avl62x1.write32 reg value) trace code final) :
    lnbWrites trace = [⟨reg, value, code⟩] ∧
      final.books = { state.books with
        lnbPins := state.books.lnbPins.answered reg (Avl62x1.bytes32 value) code } := by
  rw [Avl62x1.write32, Avl62x1.write_single reg (by simp [Avl62x1.bytes32])
    (by simp [Avl62x1.bytes32, Avl62x1.writeDataMax]), executes_ifZero] at run
  have shown : ∀ answer : Int, lnbWrites [⟨.demodWrite reg (Avl62x1.bytes32 value), answer⟩] =
      [⟨reg, value, answer⟩] := by
    intro answer
    simp only [lnbWrites, List.filterMap_cons, lnbWrite?, if_pos lnb, word, Option.map_some,
      List.filterMap_nil]
  rcases run with ⟨_, wrote⟩ | ⟨first, middle, second, wrote, later, rfl⟩
  · obtain ⟨⟨input, performed⟩, rfl⟩ := executes_perform.mp wrote
    exact ⟨shown code, books_answered _ _ _ _ performed⟩
  · obtain ⟨⟨input, performed⟩, rfl⟩ := executes_perform.mp wrote
    have quiet : Quiet (Avl62x1.breathe >>= fun _ => (.done 0 : Code Int)) :=
      .bind Avl62x1.plain_breathe.quiet fun _ => .done 0
    obtain ⟨_, _, _, _, _, ended, _⟩ := executes_bind.mp later
    obtain ⟨_, rfl, _⟩ := executes_done.mp ended
    rw [lnbWrites_append, shown, quiet.lnbWrites_eq later, quiet.books_eq later,
      books_answered _ _ _ _ performed]
    exact ⟨rfl, rfl⟩

theorem executes_setLnbPins {enable select : UInt32} {state final : State} {trace : Trace}
    {code : Int} (enableWord : be32At (Avl62x1.bytes32 enable) = some enable)
    (selectWord : be32At (Avl62x1.bytes32 select) = some select)
    (run : machine.Executes state (Avl62x1.setLnbPins enable select) trace code final) :
    ∃ pins, Driven state.books.lnbPins enable select (lnbWrites trace) code pins ∧
      final.books = { state.books with lnbPins := pins } := by
  have differ : lnbPowerSelectReg ≠ lnbPowerEnableReg := by decide
  simp only [Avl62x1.setLnbPins, untilFailure_cons_cons, untilFailure_singleton,
    executes_ifZero] at run
  rcases run with ⟨failed, enabled⟩ | ⟨first, middle, second, enabled, selected, rfl⟩
  · obtain ⟨writes, books⟩ := executes_write32 (.inl rfl) enableWord enabled
    rw [writes, books]
    exact ⟨_, .enableFailed failed, by rw [LnbPins.answered, if_pos failed]⟩
  · obtain ⟨enableWrites, enableBooks⟩ := executes_write32 (.inl rfl) enableWord enabled
    obtain ⟨selectWrites, selectBooks⟩ := executes_write32 (.inr rfl) selectWord selected
    rw [lnbWrites_append, enableWrites, selectWrites, selectBooks, enableBooks]
    by_cases failed : code = 0
    · subst failed
      refine ⟨_, .driven, ?_⟩
      simp [LnbPins.answered, enableWord, selectWord, differ]
    · refine ⟨_, .selectFailed failed, ?_⟩
      simp [LnbPins.answered, enableWord, failed]

/-! ## Reading the books -/

/-- Quiet code in front of other code changes neither the books nor the LNB writes. -/
theorem Quiet.split {α β : Type} {code : Code α} {rest : α → Code β} {state final : State}
    {trace : Trace} {value : β} (quiet : Quiet code)
    (run : machine.Executes state (code >>= rest) trace value final) :
    ∃ answer middle first second, machine.Executes state code first answer middle ∧
      machine.Executes middle (rest answer) second value final ∧
        middle.books = state.books ∧ lnbWrites trace = lnbWrites second := by
  obtain ⟨first, answer, middle, second, ran, later, rfl⟩ := executes_bind.mp run
  exact ⟨answer, middle, first, second, ran, later, quiet.books_eq ran, by
    rw [lnbWrites_append, quiet.lnbWrites_eq ran, List.nil_append]⟩

theorem executes_quiet_op {β : Type} (operation : Op) (quiet : ¬ operation.Books)
    {rest : operation.Answer → Code β} {state final : State} {trace : Trace} {value : β}
    (run : machine.Executes state (op operation >>= rest) trace value final) :
    ∃ answer middle first second, machine.Executes state (op operation) first answer middle ∧
      machine.Executes middle (rest answer) second value final ∧
        middle.books = state.books ∧ lnbWrites trace = lnbWrites second :=
  (quiet_op.mpr quiet).split run

section OneOperation

variable {state final : State} {trace : Trace}

/-- The time that passes before an operation is not seen in the books. -/
theorem executes_op {operation : Op} {answer : operation.Answer}
    (run : machine.Executes state (op operation) trace answer final) :
    ∃ input passed, effect operation input passed = some (answer, final) ∧
      passed.books = state.books ∧ trace = [⟨operation, answer⟩] := by
  obtain ⟨⟨input, performed⟩, shown⟩ := executes_perform.mp run
  exact ⟨input, _, performed, State.books_passages .., shown⟩

/-- An operation that answers from the books. -/
theorem executes_reads (operation : Op) {answer : operation.Answer}
    (read : Books → operation.Answer)
    (reads : ∀ input passed, effect operation input passed = some (read passed.books, passed))
    (run : machine.Executes state (op operation) trace answer final) :
    answer = read state.books := by
  obtain ⟨input, passed, performed, same, _⟩ := executes_op run
  have answered := Option.some.inj (performed.symm.trans (reads input passed))
  rw [← same]
  exact (Prod.mk.inj answered).1

/-- An operation that rewrites the books without writing to the receiver. -/
theorem executes_rewrites (operation : Op) {answer : operation.Answer} (rewrite : Books → Books)
    (rewrites : ∀ input passed, effect operation input passed = some (answer, final) →
      final.books = rewrite passed.books)
    (silent : lnbWrite? ⟨operation, answer⟩ = none)
    (run : machine.Executes state (op operation) trace answer final) :
    lnbWrites trace = [] ∧ final.books = rewrite state.books := by
  obtain ⟨input, passed, performed, same, rfl⟩ := executes_op run
  have after := rewrites input passed performed
  rw [same] at after
  refine ⟨?_, after⟩
  rw [lnbWrites, List.filterMap_cons, silent, List.filterMap_nil]

theorem executes_getLnbEnabled {answer : Bool}
    (run : machine.Executes state (op .getLnbEnabled) trace answer final) :
    answer = state.books.lnbEnabled :=
  executes_reads .getLnbEnabled Books.lnbEnabled (fun _ _ => rfl) run

theorem executes_getTuned {answer : Bool}
    (run : machine.Executes state (op .getTuned) trace answer final) :
    answer = state.books.tuned :=
  executes_reads .getTuned Books.tuned (fun _ _ => rfl) run

theorem executes_getLnbSettings {answer : Transponder}
    (run : machine.Executes state (op .getLnbSettings) trace answer final) :
    answer = state.books.transponder :=
  executes_reads .getLnbSettings Books.transponder (fun _ _ => rfl) run

theorem executes_getTransponder {answer : Transponder}
    (run : machine.Executes state (op .getTransponder) trace answer final) :
    answer = state.books.transponder :=
  executes_reads .getTransponder Books.transponder (fun _ _ => rfl) run

theorem executes_setLnbEnabled {enabled : Bool} {value : Unit}
    (run : machine.Executes state (op (.setLnbEnabled enabled)) trace value final) :
    lnbWrites trace = [] ∧ final.books = { state.books with lnbEnabled := enabled } :=
  executes_rewrites (.setLnbEnabled enabled) (fun books => { books with lnbEnabled := enabled })
    (fun _ _ performed => by cases performed; rfl) rfl run

theorem executes_setTuned {tuned : Bool} {value : Unit}
    (run : machine.Executes state (op (.setTuned tuned)) trace value final) :
    lnbWrites trace = [] ∧ final.books = { state.books with tuned } :=
  executes_rewrites (.setTuned tuned) (fun books => { books with tuned })
    (fun _ _ performed => by cases performed; rfl) rfl run

theorem executes_setTransponder {transponder : Transponder} {value : Unit}
    (run : machine.Executes state (op (.setTransponder transponder)) trace value final) :
    lnbWrites trace = [] ∧ final.books = { state.books with transponder } :=
  executes_rewrites (.setTransponder transponder) (fun books => { books with transponder })
    (fun _ _ performed => by cases performed; rfl) rfl run

end OneOperation

/-! ## Off, down and on -/

/-- The pins were driven low as far as the writes went through, and the flag is
cleared either way. -/
inductive SwitchedOff (before : Books) : List LnbWrite → Books → Prop where
  | intro {writes : List LnbWrite} {code : Int} {pins : LnbPins} :
      Driven before.lnbPins 0 0 writes code pins →
      SwitchedOff before writes { before with lnbPins := pins, lnbEnabled := false }

/-- `lnb_power_down` does nothing while the flag is clear. -/
inductive PoweredDown (before : Books) : List LnbWrite → Books → Prop where
  | already : before.lnbEnabled = false → PoweredDown before [] before
  | off {writes : List LnbWrite} {after : Books} : before.lnbEnabled = true →
      SwitchedOff before writes after → PoweredDown before writes after

/-- The level of the select pin for a supply voltage. -/
def selectLevel (volts : UInt32) : UInt32 := if volts = 18 then 1 else 0

def Powers (volts : UInt32) : Prop := volts = 13 ∨ volts = 18

instance (volts : UInt32) : Decidable (Powers volts) := inferInstanceAs (Decidable (_ ∨ _))

/-- Switching on sets the flag only after both writes went through. -/
inductive SwitchedOn (volts : UInt32) (before : Books) : List LnbWrite → Int → Books → Prop where
  | unsupported : ¬ Powers volts → SwitchedOn volts before [] (-1) before
  | failed {writes : List LnbWrite} {code : Int} {pins : LnbPins} : Powers volts → code ≠ 0 →
      Driven before.lnbPins 1 (selectLevel volts) writes code pins →
      SwitchedOn volts before writes (-1) { before with lnbPins := pins }
  | on {writes : List LnbWrite} {pins : LnbPins} {rc : Int} : Powers volts →
      Driven before.lnbPins 1 (selectLevel volts) writes 0 pins →
      SwitchedOn volts before writes rc { before with lnbPins := pins, lnbEnabled := true }

theorem executes_setLnbVoltage_zero {state final : State} {trace : Trace} {code : Int}
    (run : machine.Executes state (Avl62x1.setLnbVoltage 0) trace code final) :
    ∃ pins, Driven state.books.lnbPins 0 0 (lnbWrites trace) code pins ∧
      final.books = { state.books with lnbPins := pins } := by
  rw [Avl62x1.setLnbVoltage, if_pos rfl] at run
  exact executes_setLnbPins (by decide) (by decide) run

theorem executes_setLnbVoltage_powers {volts : UInt32} {state final : State} {trace : Trace}
    {code : Int} (powers : Powers volts)
    (run : machine.Executes state (Avl62x1.setLnbVoltage volts) trace code final) :
    ∃ pins, Driven state.books.lnbPins 1 (selectLevel volts) (lnbWrites trace) code pins ∧
      final.books = { state.books with lnbPins := pins } := by
  rcases powers with rfl | rfl
  · exact executes_setLnbPins (by decide) (by decide) run
  · exact executes_setLnbPins (by decide) (by decide) run

/-- The two places that switch the supply off: the off writes, any quiet code,
then the flag. -/
theorem executes_switchOff {rest : Code Unit} (quiet : Quiet rest) {state final : State}
    {trace : Trace} {value : Unit}
    (run : machine.Executes state
      (Avl62x1.setLnbVoltage 0 >>= fun _ => rest >>= fun _ => op (.setLnbEnabled false))
      trace value final) :
    SwitchedOff state.books (lnbWrites trace) final.books := by
  obtain ⟨first, rc, middle, second, drove, later, rfl⟩ := executes_bind.mp run
  obtain ⟨pins, drives, books⟩ := executes_setLnbVoltage_zero drove
  obtain ⟨_, last, _, tail, _, cleared, same, writes⟩ := quiet.split later
  obtain ⟨silent, after⟩ := executes_setLnbEnabled cleared
  rw [lnbWrites_append, writes, silent, List.append_nil, after, same, books]
  exact .intro drives

theorem executes_lnbPowerDown {state final : State} {trace : Trace} {value : Unit}
    (run : machine.Executes state lnbPowerDown trace value final) :
    PoweredDown state.books (lnbWrites trace) final.books := by
  have quiet : Quiet (op .getLnbEnabled) := quiet_op.mpr id
  obtain ⟨enabled, middle, first, second, got, later, same, writes⟩ := quiet.split run
  have flag := executes_getLnbEnabled got
  rw [writes, ← same]
  rw [← same] at flag
  cases enabled with
  | false =>
      obtain ⟨rfl, _, rfl⟩ := executes_done.mp later
      exact .already flag.symm
  | true =>
      obtain ⟨_, last, _, tail, _, off, toned, silent⟩ :=
        (Avl62x1.plain_set22khzTone false).quiet.split later
      rw [silent, ← toned]
      rw [← toned] at flag
      exact .off flag.symm (executes_switchOff (Quiet.done ()) off)

theorem executes_cutForRelight {state final : State} {trace : Trace} {value : Unit}
    (run : machine.Executes state cutForRelight trace value final) :
    SwitchedOff state.books (lnbWrites trace) final.books :=
  executes_switchOff (quiet_sleep 120) run

theorem executes_switchOn {asked : Transponder} {state final : State} {trace : Trace} {rc : Int}
    (asksPower : asked.lnbV ≠ 0)
    (run : machine.Executes state (switchOn asked) trace rc final) :
    SwitchedOn asked.lnbV state.books (lnbWrites trace) rc final.books := by
  obtain ⟨first, code, middle, second, drove, later, rfl⟩ := executes_bind.mp run
  by_cases powers : Powers asked.lnbV
  · obtain ⟨pins, drives, books⟩ := executes_setLnbVoltage_powers powers drove
    rw [lnbWrites_append]
    split at later
    · rename_i failed
      obtain ⟨rfl, rfl, rfl⟩ := executes_done.mp later
      rw [lnbWrites_nil, List.append_nil, books]
      exact .failed powers failed drives
    · rename_i fine
      rw [Decidable.not_not.mp fine] at drives
      obtain ⟨third, _, last, fourth, set, rest, rfl⟩ := executes_bind.mp later
      obtain ⟨silent, flagged⟩ := executes_setLnbEnabled set
      rw [lnbWrites_append, silent, (plain_afterSwitchOn asked).quiet.lnbWrites_eq rest,
        (plain_afterSwitchOn asked).quiet.books_eq rest, flagged, books, List.append_nil,
        List.append_nil]
      exact .on powers drives
  · have refused : Avl62x1.setLnbVoltage asked.lnbV = .done (-1) := by
      simp only [Powers, not_or] at powers
      simp only [Avl62x1.setLnbVoltage, asksPower, powers, ↓reduceIte]
    rw [refused] at drove
    obtain ⟨rfl, rfl, rfl⟩ := executes_done.mp drove
    rw [if_pos (by decide)] at later
    obtain ⟨rfl, rfl, rfl⟩ := executes_done.mp later
    exact .unsupported powers

/-! ## The LNB part of a tune -/

inductive SwitchedLnb (asked : Transponder) (relight : Bool) (before : Books) :
    Bool → List LnbWrite → Int → Books → Prop where
  | kept : SwitchedLnb asked relight before false [] 0 before
  | poweredDown {writes : List LnbWrite} {after : Books} : asked.lnbV = 0 →
      PoweredDown before writes after → SwitchedLnb asked relight before true writes 0 after
  | switched {writes : List LnbWrite} {rc : Int} {after : Books} : asked.lnbV ≠ 0 →
      relight = false → SwitchedOn asked.lnbV before writes rc after →
      SwitchedLnb asked relight before true writes rc after
  | relit {cut writes : List LnbWrite} {rc : Int} {middle after : Books} : asked.lnbV ≠ 0 →
      relight = true → SwitchedOff before cut middle →
      SwitchedOn asked.lnbV middle writes rc after →
      SwitchedLnb asked relight before true (cut ++ writes) rc after

theorem executes_switchLnb {asked : Transponder} {relight changed : Bool} {state final : State}
    {trace : Trace} {rc : Int}
    (run : machine.Executes state (switchLnb asked relight changed) trace rc final) :
    SwitchedLnb asked relight state.books changed (lnbWrites trace) rc final.books := by
  cases changed with
  | false =>
      obtain ⟨rfl, rfl, rfl⟩ := executes_done.mp run
      exact .kept
  | true =>
      by_cases down : asked.lnbV = 0
      · rw [switchLnb, if_pos rfl, if_pos down] at run
        obtain ⟨first, _, middle, second, off, done, rfl⟩ := executes_bind.mp run
        obtain ⟨rfl, rfl, rfl⟩ := executes_done.mp done
        rw [lnbWrites_append, lnbWrites_nil, List.append_nil]
        exact .poweredDown down (executes_lnbPowerDown off)
      · rw [switchLnb, if_pos rfl, if_neg down] at run
        obtain ⟨_, middle, _, second, _, later, same, writes⟩ :=
          executes_quiet_op (.stage 94 "Switching LNB / DiSEqC") id run
        rw [writes, ← same]
        obtain ⟨third, _, last, fourth, cut, on, rfl⟩ := executes_bind.mp later
        rw [lnbWrites_append]
        cases relight with
        | false =>
            obtain ⟨rfl, _, rfl⟩ := executes_done.mp cut
            exact .switched down rfl (executes_switchOn down on)
        | true => exact .relit down rfl (executes_cutForRelight cut) (executes_switchOn down on)

/-- What a tune decided before it touched anything: it relights unless it was
locked, and it leaves the LNB alone only when nothing about it changes. -/
structure Decided (asked : Transponder) (before : Books) (relight changed : Bool) : Prop where
  locked : relight = false → before.tuned = true
  same : changed = false → asked.sameLnb before.transponder = true
  powered : changed = false → before.lnbEnabled = true
  steady : changed = false → relight = false

/-- A tune clears the tuned mark first. It then fails before the LNB, at or
after it, or searches and caches what was asked for. -/
inductive Tuned (asked : Transponder) (before : Books) : List LnbWrite → Int → Books → Prop where
  | refused : Tuned asked before [] (-1) { before with tuned := false }
  | failed {relight changed : Bool} {writes : List LnbWrite} {code : Int} {after : Books} :
      Decided asked before relight changed →
      SwitchedLnb asked relight { before with tuned := false } changed writes code after →
      Tuned asked before writes (-1) after
  | searched {relight changed locked : Bool} {writes : List LnbWrite} {after : Books}
      {srKsps : UInt32} : Decided asked before relight changed →
      SwitchedLnb asked relight { before with tuned := false } changed writes 0 after →
      Tuned asked before writes (if locked then 0 else 1)
        { after with tuned := locked, transponder := { asked with srKsps } }

theorem executes_relightWanted {state final : State} {trace : Trace} {relight : Bool}
    (run : machine.Executes state relightWanted trace relight final)
    (stays : relight = false) : state.books.tuned = true := by
  obtain ⟨asked, middle, _, second, _, later, same, _⟩ :=
    executes_quiet_op .takeRelight id run
  cases asked with
  | true =>
      obtain ⟨_, rfl, _⟩ := executes_done.mp later
      cases stays
  | false =>
      obtain ⟨_, tuned, _, _, got, done, _⟩ := executes_bind.mp later
      obtain ⟨_, rfl, _⟩ := executes_done.mp done
      rw [← same, ← executes_getTuned got]
      exact (Bool.not_eq_eq_eq_not.mp stays)

theorem executes_lnbChanged {asked : Transponder} {relight changed : Bool} {state final : State}
    {trace : Trace} (run : machine.Executes state (lnbChanged asked relight) trace changed final)
    (keeps : changed = false) :
    asked.sameLnb state.books.transponder = true ∧ state.books.lnbEnabled = true ∧
      relight = false := by
  obtain ⟨cached, middle, _, second, got, later, same, _⟩ :=
    executes_quiet_op .getLnbSettings id run
  rw [← executes_getLnbSettings got, ← same]
  split at later
  · rename_i equal
    obtain ⟨_, enabled, _, _, read, done, _⟩ := executes_bind.mp later
    obtain ⟨_, rfl, _⟩ := executes_done.mp done
    rw [← executes_getLnbEnabled read]
    simp only [Bool.or_eq_false_iff, Bool.not_eq_false'] at keeps
    exact ⟨equal, keeps⟩
  · obtain ⟨_, rfl, _⟩ := executes_done.mp later
    cases keeps

theorem executes_storeTransponder {asked : Transponder} {poll : Poll} {state final : State}
    {trace : Trace} {rc : Int} (cleared : state.books.tuned = false)
    (run : machine.Executes state (storeTransponder asked poll) trace rc final) :
    lnbWrites trace = [] ∧ rc = (if poll.locked = true then 0 else 1) ∧
      ∃ srKsps, final.books =
        { state.books with tuned := poll.locked, transponder := { asked with srKsps } } := by
  obtain ⟨first, _, middle, second, stored, later, rfl⟩ := executes_bind.mp run
  obtain ⟨silent, books⟩ := executes_setTransponder stored
  rw [lnbWrites_append, silent, List.nil_append]
  split at later
  · rename_i locked
    obtain ⟨third, _, last, fourth, marked, rest, rfl⟩ := executes_bind.mp later
    obtain ⟨quiet, tuned⟩ := executes_setTuned marked
    obtain ⟨_, _, _, _, _, done, same, none⟩ :=
      executes_quiet_op (.stage 100 "Broadcast ready") id rest
    obtain ⟨rfl, rfl, rfl⟩ := executes_done.mp done
    rw [lnbWrites_append, quiet, none, same, tuned, books, if_pos locked, locked]
    exact ⟨rfl, rfl, _, rfl⟩
  · rename_i lost
    obtain ⟨_, _, _, _, _, done, same, none⟩ :=
      executes_quiet_op (.log "No lock was achieved.\n") id later
    obtain ⟨rfl, rfl, rfl⟩ := executes_done.mp done
    rw [none, same, books, if_neg lost, Bool.eq_false_iff.mpr lost, ← cleared]
    exact ⟨rfl, rfl, _, rfl⟩

/-- The search part keeps the supply, and caches the transponder when it gets
as far as polling. -/
theorem executes_searchSignal {asked : Transponder} {state final : State} {trace : Trace}
    {rc : Int} (cleared : state.books.tuned = false)
    (run : machine.Executes state (searchSignal asked) trace rc final) :
    lnbWrites trace = [] ∧ (rc = -1 ∧ final.books = state.books ∨
      ∃ locked srKsps, rc = (if locked = true then 0 else 1) ∧
        final.books =
          { state.books with tuned := locked, transponder := { asked with srKsps } }) := by
  obtain ⟨_, middle, _, second, _, later, same, writes⟩ :=
    executes_quiet_op (.stage 96 "Searching for signal") id run
  obtain ⟨code, last, _, third, _, rest, still, silent⟩ :=
    (Avl62x1.plain_acquire _ _ _).quiet.split later
  rw [writes, silent, ← same, ← still]
  rw [← same, ← still] at cleared
  split at rest
  · obtain ⟨_, _, _, _, _, done, equal, none⟩ :=
      executes_quiet_op (.error s!"acquire rc={code}\n") id rest
    obtain ⟨rfl, rfl, rfl⟩ := executes_done.mp done
    exact ⟨none, .inl ⟨rfl, equal⟩⟩
  · obtain ⟨poll, polled, _, fourth, _, stored, equal, none⟩ :=
      (quiet_pollSignal _ _ _).split rest
    rw [← equal] at cleared ⊢
    obtain ⟨nothing, value, srKsps, books⟩ := executes_storeTransponder cleared stored
    exact ⟨none.trans nothing, .inr ⟨poll.locked, srKsps, value, books⟩⟩

theorem SwitchedLnb.tuned_eq {asked : Transponder} {relight changed : Bool} {before after : Books}
    {writes : List LnbWrite} {rc : Int}
    (switched : SwitchedLnb asked relight before changed writes rc after) :
    after.tuned = before.tuned := by
  cases switched with
  | kept => rfl
  | poweredDown _ down =>
      cases down with
      | already => rfl
      | off _ off => cases off; rfl
  | switched _ _ on => cases on <;> rfl
  | relit _ _ off on => cases off; cases on <;> rfl

theorem executes_daemonTune {asked : Transponder} {state final : State} {trace : Trace} {rc : Int}
    (run : machine.Executes state (daemonTune asked) trace rc final) :
    Tuned asked state.books (lnbWrites trace) rc final.books := by
  obtain ⟨relight, _, _, _, wanted, compares, books₁, writes₁⟩ :=
    plain_relightWanted.quiet.split run
  obtain ⟨changed, _, _, _, compared, clears, books₂, writes₂⟩ :=
    (plain_lnbChanged asked relight).quiet.split compares
  have decided : Decided asked state.books relight changed := by
    refine ⟨executes_relightWanted wanted, ?_, ?_, ?_⟩
    · exact fun keeps => books₁ ▸ (executes_lnbChanged compared keeps).1
    · exact fun keeps => books₁ ▸ (executes_lnbChanged compared keeps).2.1
    · exact fun keeps => (executes_lnbChanged compared keeps).2.2
  obtain ⟨_, _, _, _, cleared, reports, rfl⟩ := executes_bind.mp clears
  obtain ⟨writes₃, books₃⟩ := executes_setTuned cleared
  obtain ⟨_, _, _, _, _, programs, books₄, writes₄⟩ :=
    executes_quiet_op (.setStatus noSignal) id reports
  obtain ⟨code, programmed, _, _, _, switches, books₅, writes₅⟩ :=
    (plain_programTuner asked).quiet.split programs
  have before : programmed.books = { state.books with tuned := false } := by
    rw [books₅, books₄, books₃, books₂, books₁]
  rw [writes₁, writes₂, lnbWrites_append, writes₃, List.nil_append, writes₄, writes₅]
  split at switches
  · obtain ⟨_, _, _, _, _, done, equal, none⟩ :=
      executes_quiet_op (.error s!"tune rc={code}\n") id switches
    obtain ⟨rfl, rfl, rfl⟩ := executes_done.mp done
    rw [none, equal, before]
    exact .refused
  · obtain ⟨_, _, _, _, switched, searches, rfl⟩ := executes_bind.mp switches
    have lnb := executes_switchLnb switched
    rw [before] at lnb
    rw [lnbWrites_append]
    split at searches
    · obtain ⟨rfl, rfl, rfl⟩ := executes_done.mp searches
      rw [lnbWrites_nil, List.append_nil]
      exact .failed decided lnb
    · rename_i fine
      obtain ⟨none, outcome⟩ := executes_searchSignal lnb.tuned_eq searches
      rw [none, List.append_nil]
      rcases outcome with ⟨rfl, equal⟩ | ⟨locked, srKsps, rfl, equal⟩
      · rw [equal]
        exact .failed decided lnb
      · rw [equal]
        rw [Decidable.not_not.mp fine] at lnb
        exact .searched decided lnb

end Engine
