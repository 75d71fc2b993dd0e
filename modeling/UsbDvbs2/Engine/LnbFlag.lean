import UsbDvbs2.Engine.LnbSupply

/-! # Does the LNB flag cover the supply?

`g_lnb_enabled` is what a power down looks at, so it should be set whenever the
enable pin is on. It is, except after a failed write in one of two places: an
off write that fails while the flag is cleared all the same, and a select write
that fails after the enable write went through.
-/

namespace Engine

open Concurrency Program Machine

/-- The calls that drive the LNB supply. -/
inductive SupplyCall where
  | coldInit (supported : Bool) (deviceIndex : UInt32)
  | tune (asked : Transponder)
  | powerDown

def SupplyCall.code : SupplyCall → Code Int
  | .coldInit supported deviceIndex => daemonColdInit supported deviceIndex
  | .tune asked => daemonTune asked
  | .powerDown => do
      lnbPowerDown
      pure 0

/-- The flag is set whenever the enable pin is on. -/
def Books.FlagCovers (books : Books) : Prop :=
  books.lnbPins.enable = 1 → books.lnbEnabled = true

instance (books : Books) : Decidable books.FlagCovers := inferInstanceAs (Decidable (_ → _))

/-- The call began with an off write that failed, and no later write of it
went through. -/
def CutFailed : List LnbWrite → Prop
  | [] => False
  | cut :: rest => cut.reg = lnbPowerEnableReg ∧ cut.value = 0 ∧ cut.code ≠ 0 ∧
      ∀ write ∈ rest, write.code ≠ 0

/-- The call ended with an enable write that went through and a select write
that failed, and the flag was clear by then. The newest write comes first. -/
def SelectFailed (flag : Bool) : List LnbWrite → Prop
  | select :: enable :: earlier =>
      enable.reg = lnbPowerEnableReg ∧ enable.value = 1 ∧ enable.code = 0 ∧ select.code ≠ 0 ∧
        (flag = false ∨ earlier ≠ [])
  | _ => False

/-- The answers to the LNB writes that leave the supply on and the flag clear. -/
def Books.Fault (before : Books) (writes : List LnbWrite) : Prop :=
  before.lnbPins.enable = 1 ∧ CutFailed writes ∨ SelectFailed before.lnbEnabled writes.reverse

/-- A call with such answers. Cold init never touches the flag. -/
def LnbFault (done : Completed signature State SupplyCall Int) : Prop :=
  match done.call with
  | .coldInit .. => False
  | _ => done.before.books.Fault (lnbWrites done.trace)

/-! ## One call -/

section Shapes

attribute [local simp] Books.FlagCovers Books.Fault CutFailed SelectFailed

theorem Books.not_fault_nil (before : Books) : ¬ before.Fault [] := by
  simp

theorem SwitchedOff.flagCovers_iff {before after : Books} {writes : List LnbWrite}
    (off : SwitchedOff before writes after) : after.FlagCovers ↔ ¬ before.Fault writes := by
  cases off with
  | intro drives =>
      cases drives with
      | enableFailed failed => simp [failed]
      | selectFailed failed => simp
      | driven => simp

theorem PoweredDown.flagCovers_iff {before after : Books} {writes : List LnbWrite}
    (down : PoweredDown before writes after) (valid : before.FlagCovers) :
    after.FlagCovers ↔ ¬ before.Fault writes := by
  cases down with
  | already => exact iff_of_true valid before.not_fault_nil
  | off _ off => exact off.flagCovers_iff

theorem SwitchedOn.flagCovers_iff {volts : UInt32} {before after : Books}
    {writes : List LnbWrite} {rc : Int} (on : SwitchedOn volts before writes rc after)
    (valid : before.FlagCovers) : after.FlagCovers ↔ ¬ before.Fault writes := by
  cases on with
  | unsupported => exact iff_of_true valid before.not_fault_nil
  | failed _ nonzero drives =>
      cases drives with
      | enableFailed failed => exact iff_of_true valid (by simp)
      | selectFailed failed => simp [failed]
      | driven => exact (nonzero rfl).elim
  | on _ drives =>
      cases drives with
      | enableFailed failed => exact (failed rfl).elim
      | selectFailed failed => exact (failed rfl).elim
      | driven => simp

/-- A relight: the flag is clear in between, so only the last pair of writes
and the first one count. -/
theorem SwitchedOff.relight_flagCovers_iff {volts : UInt32} {before middle after : Books}
    {cut writes : List LnbWrite} {rc : Int} (off : SwitchedOff before cut middle)
    (on : SwitchedOn volts middle writes rc after) :
    after.FlagCovers ↔ ¬ before.Fault (cut ++ writes) := by
  cases off with
  | intro cutDrives =>
      cases on with
      | unsupported =>
          cases cutDrives with
          | enableFailed failed => simp [failed]
          | selectFailed failed => simp
          | driven => simp
      | failed _ nonzero drives =>
          cases drives with
          | enableFailed missed =>
              cases cutDrives with
              | enableFailed failed => simp [failed, missed]
              | selectFailed failed => simp
              | driven => simp
          | selectFailed missed => cases cutDrives <;> simp [missed]
          | driven => exact (nonzero rfl).elim
      | on _ drives =>
          cases drives with
          | enableFailed missed => exact (missed rfl).elim
          | selectFailed missed => exact (missed rfl).elim
          | driven => cases cutDrives <;> simp

end Shapes

theorem SwitchedLnb.flagCovers_iff {asked : Transponder} {relight changed : Bool}
    {before after : Books} {writes : List LnbWrite} {rc : Int}
    (lnb : SwitchedLnb asked relight before changed writes rc after) (valid : before.FlagCovers) :
    after.FlagCovers ↔ ¬ before.Fault writes := by
  cases lnb with
  | kept => exact iff_of_true valid before.not_fault_nil
  | poweredDown _ down => exact down.flagCovers_iff valid
  | switched _ _ on => exact on.flagCovers_iff valid
  | relit _ _ off on => exact off.relight_flagCovers_iff on

theorem Tuned.flagCovers_iff {asked : Transponder} {before after : Books} {writes : List LnbWrite}
    {rc : Int} (tuned : Tuned asked before writes rc after) (valid : before.FlagCovers) :
    after.FlagCovers ↔ ¬ before.Fault writes := by
  cases tuned with
  | refused => exact iff_of_true valid before.not_fault_nil
  | failed _ lnb => exact lnb.flagCovers_iff valid
  | searched _ lnb => exact lnb.flagCovers_iff valid

theorem executes_setLnbVoltage_flagCovers {state final : State} {trace : Trace} {code : Int}
    (valid : state.books.FlagCovers)
    (run : machine.Executes state (Avl62x1.setLnbVoltage 0) trace code final) :
    final.books.FlagCovers := by
  obtain ⟨pins, drives, books⟩ := executes_setLnbVoltage_zero run
  have dark : (0 : UInt32) ≠ 1 := by decide
  rw [books]
  generalize lnbWrites trace = writes at drives
  cases drives with
  | enableFailed => exact valid
  | selectFailed => exact fun on => (dark on).elim
  | driven => exact fun on => (dark on).elim

/-- Cold init leaves the flag alone and only ever drives the supply off. -/
theorem executes_daemonColdInit_flagCovers {supported : Bool} {deviceIndex : UInt32}
    {state final : State} {trace : Trace} {rc : Int} (valid : state.books.FlagCovers)
    (run : machine.Executes state (daemonColdInit supported deviceIndex) trace rc final) :
    final.books.FlagCovers := by
  cases supported with
  | false =>
      obtain ⟨_, _, rfl⟩ := executes_done.mp run
      exact valid
  | true =>
      have front : Quiet (untilFailure [bringUpBridge deviceIndex, findDemod]) :=
        .untilFailure (by simp [(plain_bringUpBridge deviceIndex).quiet, plain_findDemod.quiet])
      obtain ⟨frontRc, found, _, _, _, starts, books₁, _⟩ := front.split run
      rw [← books₁] at valid
      split at starts
      · obtain ⟨_, _, rfl⟩ := executes_done.mp starts
        exact valid
      obtain ⟨startRc, started, _, _, _, ends, books₂, _⟩ := plain_startDemod.quiet.split starts
      rw [← books₂] at valid
      split at ends
      · have tail : Quiet (op (.setColdInitPacing false) >>= fun _ => (pure (-1) : Code Int)) :=
          .bind (quiet_op.mpr id) fun _ => .done _
        rw [tail.books_eq ends]
        exact valid
      obtain ⟨_, toned, _, _, _, cuts, books₃, _⟩ :=
        (Avl62x1.plain_set22khzTone false).quiet.split ends
      rw [← books₃] at valid
      obtain ⟨_, _, _, _, cut, rest, _⟩ := executes_bind.mp cuts
      have tail : Quiet (op (.setColdInitPacing false) >>= fun _ =>
          op (.stage 90 "Hardware ready") >>= fun _ =>
            op (.log "Daemon cold-init complete.\n") >>= fun _ => (pure 0 : Code Int)) :=
        .bind (quiet_op.mpr id) fun _ => .bind (quiet_op.mpr id) fun _ =>
          .bind (quiet_op.mpr id) fun _ => .done _
      rw [tail.books_eq rest]
      exact executes_setLnbVoltage_flagCovers valid cut

/-- A call keeps the flag truthful exactly when its answers are no fault. -/
theorem SupplyCall.flagCovers_iff (done : Completed signature State SupplyCall Int)
    (run : machine.Executes done.before done.call.code done.trace done.value done.after)
    (valid : done.before.books.FlagCovers) :
    done.after.books.FlagCovers ↔ ¬ LnbFault done := by
  obtain ⟨call, before, trace, value, after⟩ := done
  cases call with
  | coldInit supported deviceIndex =>
      exact iff_of_true (executes_daemonColdInit_flagCovers valid run) id
  | tune asked => exact (executes_daemonTune run).flagCovers_iff valid
  | powerDown =>
      obtain ⟨first, _, middle, second, down, rest, rfl⟩ := executes_bind.mp run
      obtain ⟨rfl, _, rfl⟩ := executes_done.mp rest
      have covers := (executes_lnbPowerDown down).flagCovers_iff valid
      simpa only [LnbFault, List.append_nil] using covers

/-! ## Whole histories -/

/-- From a fresh process on, the flag covers the supply after every call exactly
when no call meets such answers. -/
theorem lnb_flag_covers_supply {clock : UInt32} {genericI2c : Bool} {final : State}
    {calls : List (Completed signature State SupplyCall Int)}
    (history : machine.History SupplyCall.code (.fresh clock genericI2c) calls final) :
    (∀ done ∈ calls, done.after.books.FlagCovers) ↔ ∀ done ∈ calls, ¬ LnbFault done :=
  history.good_iff (fun state => state.books.FlagCovers) SupplyCall.flagCovers_iff
    fun on => absurd on (by decide : (0 : UInt32) ≠ 1)

/-- A receiver that refuses every write to the select register. -/
def selectRefused : Op → Input :=
  environment (fun
    | .demodWrite reg _ => reg == lnbPowerSelectReg
    | _ => false) fun _ => []

theorem tune_select_refused : ∃ trace rc final,
    machine.Executes (.fresh 0 false) (daemonTune someTransponder) trace rc final ∧
      decide (¬ final.books.FlagCovers) = true :=
  exists_executes_of_respond selectRefused
    (fun _ _ (final : State) => decide (¬ final.books.FlagCovers)) (by decide +kernel)

/-- The first tune turns the supply on, fails to select the voltage and
returns with the flag clear. -/
theorem lnb_flag_underreports : ∃ calls final,
    machine.History SupplyCall.code (.fresh 0 false) calls final ∧
      ∃ done ∈ calls, ¬ done.after.books.FlagCovers := by
  obtain ⟨trace, rc, final, run, uncovered⟩ := tune_select_refused
  exact ⟨[⟨.tune someTransponder, _, trace, rc, final⟩], final, .cons run (.nil final),
    _, List.mem_cons_self, of_decide_eq_true uncovered⟩

/-- The history of that tune, where both sides are false. -/
theorem lnb_flag_covers_supply_select_refused :
    ∃ calls : List (Completed signature State SupplyCall Int), calls ≠ [] ∧
      ((∀ done ∈ calls, done.after.books.FlagCovers) ↔ ∀ done ∈ calls, ¬ LnbFault done) := by
  obtain ⟨trace, rc, final, run, _⟩ := tune_select_refused
  exact ⟨[⟨.tune someTransponder, _, trace, rc, final⟩], List.cons_ne_nil _ _,
    lnb_flag_covers_supply (.cons run (.nil final))⟩

end Engine
