import UsbDvbs2.Engine.PatchScript

/-! # The interpreter of patches stays inside

Whatever the patch holds and the receiver answers, the interpreter reads inside of
the patch and of its variables, and every turn of its loop starts behind the one
before, so that the loop comes to an end.
-/

namespace Engine

open Concurrency Program

/-- Code without a loop that never ends. -/
def Ends {α : Type} (code : Code α) : Prop := code.Avoids (· = Op.spin) fun _ _ => True

namespace Avl62x1

theorem ends_op {operation : Op} (other : operation ≠ .spin) : Ends (op operation) :=
  (avoids_perform (S := signature) operation).2 other

theorem ends_sleep (ms : UInt32) : Ends (sleep ms) := ends_op nofun

theorem ends_breathe : Ends breathe := by
  apply Avoids.bind (@ends_op .paceWrite nofun)
  intro pause
  exact .when fun _ => ends_sleep 1

theorem ends_write (reg : UInt32) (data : List UInt8) : Ends (write reg data) := by
  have chunks : ∀ rounds reg data, Ends (writeChunks rounds reg data) := by
    intro rounds
    induction rounds with
    | zero => exact fun _ _ => avoids_done 0
    | succ rounds ih =>
        intro reg data
        apply Avoids.ite
        · exact fun _ => avoids_done 0
        · exact fun _ => .ifZero (ends_op nofun) (.bind ends_breathe fun _ => ih _ _)
  exact chunks data.length reg data

theorem ends_read (reg : UInt32) (size : Nat) : Ends (read reg size) := by
  apply Avoids.bind (@ends_op .getGenericI2c nofun)
  intro generic
  apply Avoids.ite
  · intro _
    apply Avoids.bind (@ends_op (.demodSelect reg) nofun)
    intro rc
    exact .ite (fun _ => avoids_done _) fun _ => .bind (ends_op nofun) fun _ => avoids_done _
  · exact fun _ => .bind (ends_op nofun) fun _ => avoids_done _

theorem ends_read8 (reg : UInt32) : Ends (read8 reg) :=
  .bind (ends_read reg 1) fun _ => avoids_done _

theorem ends_read16 (reg : UInt32) : Ends (read16 reg) :=
  .bind (ends_read reg 2) fun _ => avoids_done _

theorem ends_read32 (reg : UInt32) : Ends (read32 reg) :=
  .bind (ends_read reg 4) fun _ => avoids_done _

theorem ends_waitCommandIdle : Ends waitCommandIdle := by
  have polls : ∀ attempts, Ends (pollCommandIdle attempts) := by
    intro attempts
    induction attempts with
    | zero => exact avoids_done _
    | succ attempts ih =>
        apply Avoids.bind (.ifRead (ends_read16 _) fun _ => avoids_done _)
        intro rc
        exact .ite (fun _ => avoids_done _) fun _ => .bind (ends_sleep 10) fun _ => ih
  exact polls 51

theorem ends_sendCommand (command : UInt16) : Ends (sendCommand command) := by
  apply Avoids.untilFailure
  simp only [List.forall_mem_cons, List.not_mem_nil, false_imp_iff, implies_true, and_true]
  exact ⟨ends_waitCommandIdle, ends_write _ _, ends_waitCommandIdle⟩

end Avl62x1

namespace Patch

open Avl62x1

theorem ends_readResultValue (length reg : UInt32) : Ends (readResultValue length reg) := by
  apply Avoids.ite
  · exact fun _ => ends_read32 reg
  intro _
  apply Avoids.ite
  · exact fun _ => .bind (ends_read16 reg) fun _ => avoids_done _
  intro _
  apply Avoids.ite
  · exact fun _ => .bind (ends_read8 reg) fun _ => avoids_done _
  · exact fun _ => avoids_done _

theorem ends_pollStatus (wanted : UInt32 → Bool) (tries : Nat) :
    Ends (pollStatus wanted tries) := by
  have turns : ∀ again, Ends again → Ends (statusTurn wanted again) := fun again ends =>
    .bind (ends_sleep 10) fun _ => .ifRead (ends_read32 _) fun _ =>
      .ite (fun _ => avoids_done _) fun _ => ends
  induction tries with
  | zero => exact turns _ (avoids_done _)
  | succ tries ih => exact turns _ ih

theorem ends_pollValue (width reg wanted : UInt32) (polls : Nat) :
    Ends (pollValue width reg wanted polls) := by
  have turns : ∀ again, Ends again → Ends (valueTurn width reg wanted again) := fun again ends =>
    .ifRead (ends_readResultValue _ _) fun _ => .ite (fun _ => avoids_done _) fun _ => ends
  induction polls with
  | zero => exact turns _ (avoids_done _)
  | succ polls ih => exact turns _ (.bind (ends_sleep 10) fun _ => ih)

/-! ## What is watched -/

/-- Where the last turn started, and `avl_patch_upload_active`. -/
structure Seen where
  last : Option Nat
  uploadActive : Bool

/-- Nothing outside is touched, no loop is endless, and every turn starts behind the one
before. -/
def uploading : Watch signature Seen where
  see seen performed :=
    match performed.1 with
    | .turn start => { seen with last := some start }
    | .setUploadActive active => { seen with uploadActive := active }
    | _ => seen
  Allows seen operation :=
    match operation with
    | .outside | .endless => False
    | .receiver operation => operation ≠ .spin
    | .turn start => ∀ before ∈ seen.last, before < start
    | _ => True

/-- Code that is allowed all of its operations and does not start a turn; when it does not end
with a failure, the condition holds. -/
def Yields {α : Type} (run : Run α) (script : Script) (holds : α → Script → Prop) : Prop :=
  ∀ seen, (run script).run.Ensures uploading (fun ended after => after = seen ∧
    ∀ value next, ended = .ok (value, next) → holds value next) seen

/-- The reader is left behind a position. -/
abbrev Onward {α : Type} (start : Nat) (run : Run α) (script : Script) : Prop :=
  Yields run script fun _ next => start < next.pos

namespace Yields

variable {α β : Type} {run : Run α} {script : Script} {holds other : α → Script → Prop}

theorem pure {value : α} (here : holds value script) :
    Yields (pure value : Run α) script holds := by
  refine fun seen => ⟨rfl, ?_⟩
  rintro _ _ ⟨⟩
  exact here

theorem throw (rc : Int) : Yields (throw rc : Run α) script holds := fun _ => ⟨rfl, nofun⟩

theorem mono (yields : Yields run script holds)
    (weaker : ∀ value next, holds value next → other value next) : Yields run script other :=
  fun seen => (yields seen).mono fun _ _ both =>
    ⟨both.1, fun value next ended => weaker value next (both.2 value next ended)⟩

theorem bind {rest : α → Run β} {final : β → Script → Prop} (first : Yields run script holds)
    (later : ∀ value next, holds value next → Yields (rest value) next final) :
    Yields (run >>= rest) script final := by
  intro seen
  apply (first seen).bind
  rintro ended _ ⟨rfl, held⟩
  cases ended with
  | error rc => exact ⟨rfl, nofun⟩
  | ok result => exact later result.1 result.2 (held _ _ rfl) _

theorem ite {condition : Prop} [Decidable condition] {left right : Run α}
    (yes : condition → Yields left script holds) (no : ¬ condition → Yields right script holds) :
    Yields (if condition then left else right) script holds := by
  split
  · exact yes ‹_›
  · exact no ‹_›

theorem get {rest : Script → Run α} (later : Yields (rest script) script holds) :
    Yields (get >>= rest) script holds := later

theorem driver {code : Engine.Code α} (ends : Ends code) :
    Yields (driver code) script fun _ next => next = script := by
  intro seen
  refine ensures_bind.2 (Ensures.carried ends (fun operation quiet => ⟨quiet, fun _ => rfl⟩) ?_)
  refine fun value => ⟨rfl, ?_⟩
  rintro _ _ ⟨⟩
  rfl

theorem must {code : Engine.Code Int} (ends : Ends code) :
    Yields (must code) script fun _ next => next = script :=
  (driver ends).bind fun _ _ still => .ite (fun _ => .throw _) fun _ => .pure still

theorem fetch {code : Engine.Code (Except Int α)} (ends : Ends code) :
    Yields (fetch code) script fun _ next => next = script := by
  apply (driver ends).bind
  rintro answer _ rfl
  cases answer with
  | ok value => exact .pure rfl
  | error rc => exact .throw _

theorem moveTo {pos : Nat} {holds : Unit → Script → Prop} (there : holds () { script with pos }) :
    Yields (moveTo pos) script holds := by
  refine fun seen => ⟨rfl, ?_⟩
  rintro _ _ ⟨⟩
  exact there

/-- A variable that there is. -/
theorem setVariable {index : UInt32} {value : UInt32} (inside : index.toNat < patchVariables) :
    Yields (setVariable index value) script fun _ next => next.pos = script.pos := by
  rw [Patch.setVariable, dif_pos inside]
  refine fun seen => ⟨rfl, ?_⟩
  rintro _ _ ⟨⟩
  rfl

theorem variableAt {index : UInt32} (inside : index.toNat < patchVariables) :
    Yields (variableAt index) script fun _ next => next = script := by
  apply Yields.get
  rw [Vector.getElem?_eq_getElem inside]
  exact .pure rfl

end Yields

/-! ## Reading -/

section Reader

variable {patch : List UInt8} {size start pos : Nat} {script : Script}

/-- Reads inside of the patch leave everything as it is. -/
theorem still_byteAt (inside : pos < patch.length) :
    Yields (byteAt patch pos) script fun _ next => next = script := by
  rw [byteAt, List.getElem?_eq_getElem inside]
  exact .pure rfl

theorem still_be16At (inside : pos + 2 ≤ patch.length) :
    Yields (be16At patch pos) script fun _ next => next = script := by
  refine Yields.bind (still_byteAt (by omega)) ?_
  rintro high _ rfl
  refine Yields.bind (still_byteAt (by omega)) ?_
  rintro low _ rfl
  exact .pure rfl

theorem still_be32At (inside : pos + 4 ≤ patch.length) :
    Yields (be32At patch pos) script fun _ next => next = script := by
  refine Yields.bind (still_byteAt (by omega)) ?_
  rintro first _ rfl
  refine Yields.bind (still_byteAt (by omega)) ?_
  rintro second _ rfl
  refine Yields.bind (still_byteAt (by omega)) ?_
  rintro third _ rfl
  refine Yields.bind (still_byteAt (by omega)) ?_
  rintro fourth _ rfl
  exact .pure rfl

theorem still_bytesAt {count : Nat} (inside : pos + count ≤ patch.length) :
    Yields (bytesAt patch pos count) script fun _ next => next = script := by
  rw [bytesAt, Bytes.slice?_eq inside]
  exact .pure rfl

theorem onward_skipWords (words : UInt32) (ahead : start < script.pos) :
    Onward start (skipWords size words) script := by
  apply Yields.get
  apply Yields.ite
  · exact fun _ => .throw _
  · exact fun _ => .moveTo (Nat.lt_of_lt_of_le ahead (Nat.le_add_right _ _))

variable (held : size ≤ patch.length)

include held

theorem onward_readWord (ahead : start < script.pos + 4) :
    Onward start (readWord patch size) script := by
  apply Yields.get
  apply Yields.ite
  · exact fun _ => .throw _
  · intro room
    refine Yields.bind (still_be32At (by omega)) ?_
    rintro value next rfl
    have moves : Onward start (moveTo (next.pos + 4)) next := .moveTo ahead
    exact moves.bind fun _ _ moved => Yields.pure moved

theorem onward_skipCounted (ahead : start < script.pos) :
    Onward start (skipCounted patch size) script := by
  apply Yields.bind (onward_readWord held (Nat.lt_add_right 4 ahead))
  exact fun count next moved => onward_skipWords count moved

/-- The variable that a command names is one of the thirty-two. -/
theorem onward_result (ahead : start < script.pos) : Yields (result patch size) script
    fun named next => named.2.toNat < patchVariables ∧ start < next.pos := by
  apply Yields.bind (onward_readWord held (Nat.lt_add_right 4 ahead))
  intro count script ahead
  apply Yields.bind (onward_readWord held (Nat.lt_add_right 4 ahead))
  intro index script ahead
  apply Yields.ite
  · exact fun _ => .throw _
  · exact fun named => .pure ⟨Nat.lt_of_not_le fun past => named (.inl past), ahead⟩

omit held in
/-- A command that names its variable sets it and passes the words behind. -/
theorem onward_store {count index : UInt32} (value : UInt32)
    (named : index.toNat < patchVariables) (ahead : start < script.pos) :
    Onward start (setVariable index value >>= fun _ => skipWords size (count - 1)) script := by
  apply (Yields.setVariable named).bind
  exact fun _ next same => onward_skipWords _ (same ▸ ahead)

/-! ## Commands -/

theorem onward_packedRecords (destination : UInt32) (records pos : Nat)
    (ahead : start < script.pos) :
    Onward start (packedRecords patch size destination records pos) script := by
  induction records generalizing pos script with
  | zero => exact .pure ahead
  | succ records ih =>
      apply Yields.ite
      · exact fun _ => .throw _
      intro room
      refine Yields.bind (still_be16At (by omega)) ?_
      rintro offset _ rfl
      refine Yields.bind (still_be16At (by omega)) ?_
      rintro length _ rfl
      apply Yields.ite
      · exact fun _ => .throw _
      intro data_room
      refine Yields.bind (still_bytesAt (by omega)) ?_
      rintro data _ rfl
      apply (Yields.must (ends_write _ _)).bind
      rintro _ _ rfl
      exact ih _ ahead

theorem onward_loadPacked (dataOffsetWords sourceWords : UInt32) (ahead : start < script.pos) :
    Onward start (loadPacked patch size dataOffsetWords sourceWords) script := by
  apply Yields.ite
  · exact fun _ => .throw _
  intro room
  refine Yields.bind (still_be16At (by omega)) ?_
  rintro records _ rfl
  refine Yields.bind (still_be32At (by omega)) ?_
  rintro destination _ rfl
  exact onward_packedRecords held _ _ _ ahead

theorem onward_ping (ahead : start < script.pos) : Onward start (ping patch size) script := by
  apply (Yields.driver (ends_sendCommand _)).bind
  rintro rc _ rfl
  apply (onward_result held ahead).bind
  rintro ⟨count, index⟩ next ⟨named, moved⟩
  exact onward_store 1 named moved

theorem onward_validateCrc (argsAddr : UInt32) (ahead : start < script.pos) :
    Onward start (validateCrc patch size argsAddr) script := by
  apply (onward_readWord held (Nat.lt_add_right 4 ahead)).bind
  intro expected script ahead
  apply (onward_readWord held (Nat.lt_add_right 4 ahead)).bind
  intro from_reg script ahead
  apply (onward_readWord held (Nat.lt_add_right 4 ahead)).bind
  intro length script ahead
  have asks : Ends (untilFailure [write32 regArgsAddr argsAddr, write32 argsAddr from_reg,
      write32 (argsAddr + 4) length, sendCommand cmdCalcCrc]) := by
    apply Avoids.untilFailure
    simp only [List.forall_mem_cons, List.not_mem_nil, false_imp_iff, implies_true, and_true]
    exact ⟨ends_write _ _, ends_write _ _, ends_write _ _, ends_sendCommand _⟩
  apply (Yields.must asks).bind
  rintro _ _ rfl
  apply (Yields.fetch (ends_read32 _)).bind
  rintro value _ rfl
  apply (onward_result held ahead).bind
  rintro ⟨count, index⟩ next ⟨named, moved⟩
  exact onward_store _ named moved

theorem onward_load (dataOffsetWords : UInt32) (ahead : start < script.pos) :
    Onward start (load patch size dataOffsetWords) script := by
  apply (onward_readWord held (Nat.lt_add_right 4 ahead)).bind
  intro words script ahead
  apply (onward_readWord held (Nat.lt_add_right 4 ahead)).bind
  intro destination script ahead
  apply (onward_readWord held (Nat.lt_add_right 4 ahead)).bind
  intro offset script ahead
  apply Yields.ite
  · exact fun _ => .throw _
  intro room
  refine Yields.bind (still_bytesAt (by omega)) ?_
  rintro data _ rfl
  apply (Yields.must (ends_write _ _)).bind
  rintro _ _ rfl
  exact onward_skipCounted held ahead

theorem onward_loadImmediate (ahead : start < script.pos) :
    Onward start (loadImmediate patch size) script := by
  apply (onward_readWord held (Nat.lt_add_right 4 ahead)).bind
  intro width script ahead
  apply (onward_readWord held (Nat.lt_add_right 4 ahead)).bind
  intro destination script ahead
  apply (onward_readWord held (Nat.lt_add_right 4 ahead)).bind
  intro value script ahead
  have writes : Ends (if width = 4 then write32 destination value
      else if width = 2 then write16 destination value.toUInt16
      else if width = 1 then write8 destination value.toUInt8
      else .done (-2)) :=
    .ite (fun _ => ends_write _ _) fun _ => .ite (fun _ => ends_write _ _) fun _ =>
      .ite (fun _ => ends_write _ _) fun _ => avoids_done _
  apply (Yields.must writes).bind
  rintro _ _ rfl
  exact onward_skipCounted held ahead

theorem onward_loadPackedCommand (dataOffsetWords : UInt32) (ahead : start < script.pos) :
    Onward start (loadPackedCommand patch size dataOffsetWords) script := by
  apply (onward_readWord held (Nat.lt_add_right 4 ahead)).bind
  intro length script ahead
  apply (onward_readWord held (Nat.lt_add_right 4 ahead)).bind
  intro source script ahead
  apply (onward_loadPacked held _ _ ahead).bind
  exact fun _ _ moved => onward_skipCounted held moved

theorem onward_readCommand (ahead : start < script.pos) :
    Onward start (readCommand patch size) script := by
  apply (onward_readWord held (Nat.lt_add_right 4 ahead)).bind
  intro length script ahead
  apply (onward_readWord held (Nat.lt_add_right 4 ahead)).bind
  intro reg script ahead
  apply (onward_result held ahead).bind
  rintro ⟨count, index⟩ script ⟨named, ahead⟩
  apply (Yields.fetch (ends_readResultValue _ _)).bind
  rintro value _ rfl
  exact onward_store value named ahead

/-- The descriptors are read in front of the reader, which is moved behind them later. -/
theorem onward_descriptors (count : UInt32) (ahead : start < script.pos) :
    Onward start (descriptors patch size count) script := by
  apply Yields.get
  apply Yields.ite
  · exact fun _ => .throw _
  · intro room
    refine (still_bytesAt (by omega)).mono ?_
    rintro data _ rfl
    exact ahead

omit held in
theorem onward_passDescriptors (count : UInt32) (ahead : start < script.pos) :
    Onward start (passDescriptors count) script := by
  apply Yields.get
  exact .moveTo (Nat.lt_of_lt_of_le ahead (Nat.le_add_right _ _))

theorem onward_dma (ahead : start < script.pos) : Onward start (dma patch size) script := by
  apply (onward_readWord held (Nat.lt_add_right 4 ahead)).bind
  intro address script ahead
  apply (onward_readWord held (Nat.lt_add_right 4 ahead)).bind
  intro count script ahead
  apply (onward_descriptors held count ahead).bind
  intro data script ahead
  apply (Yields.must (ends_write _ _)).bind
  rintro _ _ rfl
  apply (onward_passDescriptors count ahead).bind
  intro _ script ahead
  have starts : Ends (untilFailure [write32 regArgsAddr address, sendCommand cmdDma]) := by
    apply Avoids.untilFailure
    simp only [List.forall_mem_cons, List.not_mem_nil, false_imp_iff, implies_true, and_true]
    exact ⟨ends_write _ _, ends_sendCommand _⟩
  apply (Yields.must starts).bind
  rintro _ _ rfl
  exact onward_skipCounted held ahead

theorem onward_dmaHw (ahead : start < script.pos) : Onward start (dmaHw patch size) script := by
  apply (onward_readWord held (Nat.lt_add_right 4 ahead)).bind
  intro address script ahead
  apply (onward_readWord held (Nat.lt_add_right 4 ahead)).bind
  intro count script ahead
  apply (onward_descriptors held count ahead).bind
  intro data script ahead
  have sends : Yields (writeDescriptors address count data) script fun _ next => next = script :=
    .ite (fun _ => .must (ends_write _ _)) fun _ => .pure rfl
  apply sends.bind
  rintro _ _ rfl
  apply (onward_passDescriptors count ahead).bind
  intro _ script ahead
  apply (Yields.must (ends_pollStatus _ _)).bind
  rintro _ _ rfl
  apply (Yields.must (ends_write _ _)).bind
  rintro _ _ rfl
  apply (Yields.must (ends_pollStatus _ _)).bind
  rintro _ _ rfl
  exact onward_skipCounted held ahead

theorem onward_extract (argsAddr : UInt32) (ahead : start < script.pos) :
    Onward start (extract patch size argsAddr) script := by
  apply (onward_readWord held (Nat.lt_add_right 4 ahead)).bind
  intro kind script ahead
  apply (onward_readWord held (Nat.lt_add_right 4 ahead)).bind
  intro source script ahead
  apply (onward_readWord held (Nat.lt_add_right 4 ahead)).bind
  intro destination script ahead
  have asks : Ends (untilFailure [write32 regArgsAddr argsAddr, write32 argsAddr kind,
      write32 (argsAddr + 4) source, write32 (argsAddr + 8) destination,
      sendCommand cmdDecompress]) := by
    apply Avoids.untilFailure
    simp only [List.forall_mem_cons, List.not_mem_nil, false_imp_iff, implies_true, and_true]
    exact ⟨ends_write _ _, ends_write _ _, ends_write _ _, ends_write _ _, ends_sendCommand _⟩
  apply (Yields.must asks).bind
  rintro _ _ rfl
  exact onward_skipCounted held ahead

theorem onward_reset (level : UInt32) (ahead : start < script.pos) :
    Onward start (reset patch size level) script := by
  apply (Yields.must (ends_write _ _)).bind
  rintro _ _ rfl
  exact onward_skipCounted held ahead

theorem onward_setCondition (ahead : start < script.pos) :
    Onward start (setCondition patch size) script := by
  apply (onward_readWord held (Nat.lt_add_right 4 ahead)).bind
  intro value script ahead
  apply (onward_result held ahead).bind
  rintro ⟨count, index⟩ next ⟨named, moved⟩
  exact onward_store value named moved

theorem onward_exit {scriptEnd : Nat} (before : start < scriptEnd) (ahead : start < script.pos) :
    Onward start (exit patch size scriptEnd) script := by
  apply (onward_readWord held (Nat.lt_add_right 4 ahead)).bind
  rintro count next moved seen
  refine ⟨rfl, ?_⟩
  rintro _ _ ⟨⟩
  exact before

theorem onward_poll (ahead : start < script.pos) : Onward start (poll patch size) script := by
  apply (onward_readWord held (Nat.lt_add_right 4 ahead)).bind
  intro width script ahead
  apply (onward_readWord held (Nat.lt_add_right 4 ahead)).bind
  intro reg script ahead
  apply (onward_readWord held (Nat.lt_add_right 4 ahead)).bind
  intro wanted script ahead
  apply (onward_readWord held (Nat.lt_add_right 4 ahead)).bind
  intro polls script ahead
  apply (Yields.must (ends_pollValue _ _ _ _)).bind
  rintro _ _ rfl
  exact onward_skipCounted held ahead

theorem onward_runPatchCommand {scriptEnd : Nat} (dataOffsetWords argsAddr command : UInt32)
    (before : start < scriptEnd) (ahead : start < script.pos) :
    Onward start (runPatchCommand patch size scriptEnd dataOffsetWords argsAddr command)
      script := by
  unfold runPatchCommand
  split
  · exact onward_validateCrc held argsAddr ahead
  · exact onward_ping held ahead
  · exact onward_load held dataOffsetWords ahead
  · exact onward_dma held ahead
  · exact onward_extract held argsAddr ahead
  · exact onward_reset held 1 ahead
  · exact onward_reset held 0 ahead
  · exact onward_loadImmediate held ahead
  · exact onward_readCommand held ahead
  · exact onward_dmaHw held ahead
  · exact onward_setCondition held ahead
  · exact onward_exit held before ahead
  · exact onward_poll held ahead
  · exact onward_loadPackedCommand held dataOffsetWords ahead
  · exact .throw _

/-! ## Records -/

omit held in
theorem still_addressed (mode binary : UInt8) (operand : UInt32) :
    Yields (addressed mode binary operand) script fun _ next => next = script := by
  apply Yields.ite
  · intro _
    apply Yields.ite
    · exact fun _ => .throw _
    · exact fun inside => .variableAt (Nat.lt_of_not_le inside)
  · exact fun _ => .pure rfl

omit held in
theorem still_unaryApplied (unary : UInt8) (operand : UInt32) :
    Yields (unaryApplied unary operand) script fun _ next => next = script :=
  .ite (fun _ => .pure rfl) fun _ => .ite (fun _ => .pure rfl) fun _ =>
    .ite (fun _ => .throw _) fun _ => .pure rfl

omit held in
/-- Only a store changes a variable, and none of the operations moves the reader. -/
theorem onward_binaryApplied (binary : UInt8) (condition operand : UInt32)
    (ahead : start < script.pos) :
    Onward start (binaryApplied binary condition operand) script := by
  have value : ∀ value : UInt32, Onward start (pure value) script := fun value => .pure ahead
  apply Yields.ite
  · exact fun _ => value _
  intro _
  apply Yields.ite
  · intro _
    apply Yields.ite
    · exact fun _ => .throw _
    · intro inside
      apply (Yields.setVariable (Nat.lt_of_not_le inside)).bind
      exact fun _ next same => .pure (same ▸ ahead)
  intro _
  exact .ite (fun _ => value _) fun _ => .ite (fun _ => value _) fun _ =>
    .ite (fun _ => value _) fun _ => .ite (fun _ => value _) fun _ =>
      .ite (fun _ => value _) fun _ => .ite (fun _ => value _) fun _ => .throw _

theorem onward_conditionWord (condition : UInt32) (ahead : start < script.pos) :
    Onward start (conditionWord patch size condition) script := by
  apply (onward_readWord held (Nat.lt_add_right 4 ahead)).bind
  intro operation script ahead
  apply (onward_readWord held (Nat.lt_add_right 4 ahead)).bind
  intro operand script ahead
  apply (still_addressed _ _ _).bind
  rintro value _ rfl
  apply (still_unaryApplied _ _).bind
  rintro applied _ rfl
  exact onward_binaryApplied _ _ _ ahead

theorem onward_conditions (words : Nat) (condition : UInt32) (ahead : start < script.pos) :
    Onward start (conditions patch size words condition) script := by
  induction words generalizing condition script with
  | zero => exact .pure ahead
  | succ words ih =>
      apply (onward_conditionWord held condition ahead).bind
      exact fun next script moved => ih next moved

theorem onward_recordCondition (conditionWords : UInt32) (ahead : start < script.pos) :
    Onward start (recordCondition patch size conditionWords) script :=
  .ite (fun _ => .pure ahead) fun _ => onward_conditions held _ _ ahead

/-- One turn starts where the reader is, behind the turn before, and leaves it further on. -/
theorem ensures_scriptTurn {scriptEnd : Nat} {seen : Seen} (dataOffsetWords argsAddr : UInt32)
    (before : script.pos < scriptEnd) (fresh : ∀ last ∈ seen.last, last < script.pos) :
    (scriptTurn patch size scriptEnd dataOffsetWords argsAddr script).run.Ensures uploading
      (fun ended after => after = { seen with last := some script.pos } ∧
        ∀ value next, ended = .ok (value, next) → script.pos < next.pos) seen := by
  refine ⟨fresh, fun _ => ?_⟩
  have record : Onward script.pos (do
      let recordWords ← readWord patch size
      if recordWords = 0 then throw (-2)
      else
        let conditionWords ← readWord patch size
        let nextRecord := script.pos + recordWords.toNat * 4
        if scriptEnd < nextRecord then throw (-2)
        else
          let condition ← recordCondition patch size conditionWords
          if condition = 0 then moveTo nextRecord
          else
            let command ← readWord patch size
            runPatchCommand patch size scriptEnd dataOffsetWords argsAddr command) script := by
    apply (onward_readWord held (Nat.lt_add_of_pos_right (by decide))).bind
    intro recordWords next ahead
    apply Yields.ite
    · exact fun _ => .throw _
    intro some
    apply (onward_readWord held (Nat.lt_add_right 4 ahead)).bind
    intro conditionWords next ahead
    apply Yields.ite
    · exact fun _ => .throw _
    intro inside
    apply (onward_recordCondition held conditionWords ahead).bind
    intro condition next ahead
    apply Yields.ite
    · intro _
      have positive : 0 < recordWords.toNat :=
        Nat.pos_of_ne_zero fun zero => some (UInt32.toNat_inj.1 zero)
      exact .moveTo (by change _ < _ + _; omega)
    · intro _
      apply (onward_readWord held (Nat.lt_add_right 4 ahead)).bind
      exact fun command next ahead =>
        onward_runPatchCommand held dataOffsetWords argsAddr command before ahead
  exact record _

/-- The flag of the upload is left alone. -/
def Keeps {α : Type} (run : Run α) (script : Script) (seen : Seen) : Prop :=
  (run script).run.Ensures uploading
    (fun _ after => after.uploadActive = seen.uploadActive) seen

omit held in
theorem Yields.keeps {α β : Type} {run : Run α} {rest : α → Run β} {seen : Seen}
    {holds : α → Script → Prop} (first : Yields run script holds)
    (later : ∀ value next, holds value next → Keeps (rest value) next seen) :
    Keeps (run >>= rest) script seen := by
  apply (first seen).bind
  rintro ended _ ⟨rfl, held⟩
  cases ended with
  | error rc => rfl
  | ok result => exact later result.1 result.2 (held _ _ rfl)

omit held in
theorem keeps_throw {α : Type} (rc : Int) (seen : Seen) :
    Keeps (throw rc : Run α) script seen := rfl

/-- As the reader moves on in every turn, there are no more turns than positions. -/
theorem keeps_scriptLoop {scriptEnd : Nat} {seen : Seen} (dataOffsetWords argsAddr : UInt32)
    (turns : Nat) (enough : scriptEnd ≤ script.pos + turns)
    (fresh : ∀ last ∈ seen.last, last < script.pos) :
    Keeps (scriptLoop patch size scriptEnd dataOffsetWords argsAddr turns) script seen := by
  induction turns generalizing script seen with
  | zero =>
      have done : ¬ (script.pos < scriptEnd ∧ script.exitSeen = false) := fun more => by
        have inside := more.1
        omega
      change Keeps (if _ then _ else _) script seen
      rw [if_neg done]
      rfl
  | succ turns ih =>
      change Keeps (if _ then _ else _) script seen
      split
      · rename_i more
        apply (ensures_scriptTurn held dataOffsetWords argsAddr more.1 fresh).bind
        rintro ended _ ⟨rfl, moved⟩
        cases ended with
        | error rc => rfl
        | ok result =>
            have further : script.pos < result.2.pos := moved _ _ rfl
            refine @ih result.2 { seen with last := some script.pos } (by omega) ?_
            rintro _ ⟨⟩
            exact further
      · rfl

omit held in
theorem Keeps.bind {α β : Type} {run : Run α} {rest : α → Run β} {seen : Seen}
    (first : Keeps run script seen) (later : ∀ value next after,
      after.uploadActive = seen.uploadActive → Keeps (rest value) next after) :
    Keeps (run >>= rest) script seen := by
  apply Ensures.bind first
  intro ended after same
  cases ended with
  | error rc => exact same
  | ok result =>
      have rest := later result.1 result.2 after same
      rw [Keeps, same] at rest
      exact rest

theorem keeps_runScript {seen : Seen} (dataOffsetWords argsAddr : UInt32)
    (fresh : seen.last = none) :
    Keeps (runScript patch size dataOffsetWords argsAddr) script seen := by
  have begins : 0 < script.pos + 4 := Nat.succ_pos _
  apply (onward_readWord held begins).keeps
  intro reservedWords script ahead
  apply (onward_skipWords reservedWords ahead).keeps
  intro _ script ahead
  apply (onward_readWord held (Nat.lt_add_right 4 ahead)).keeps
  intro scriptWords script ahead
  change Keeps (if _ then _ else _) script seen
  split
  · exact keeps_throw _ _
  · rename_i inside
    apply (keeps_scriptLoop held dataOffsetWords argsAddr size (by omega) _).bind
    · intro _ next after same
      change Keeps (if _ then _ else _) next after
      split
      · rfl
      · rfl
    · rw [fresh]
      exact nofun

end Reader

/-! ## The whole patch -/

theorem still_parsePatch (patch : List UInt8) (script : Script) :
    Yields (parsePatch patch) script fun parsed next => next = script ∧
      ∀ info, parsed = .ok info → info.words.toNat * 4 ≤ patch.length := by
  apply Yields.ite
  · exact fun _ => .pure ⟨rfl, nofun⟩
  intro long
  refine Yields.bind (still_be32At (by omega)) ?_
  rintro words _ rfl
  refine Yields.bind (still_be32At (by omega)) ?_
  rintro standard _ rfl
  refine Yields.bind (still_be32At (by omega)) ?_
  rintro argsAddr _ rfl
  refine Yields.bind (still_be32At (by omega)) ?_
  rintro dataOffsetWords _ rfl
  refine Yields.bind (still_byteAt (by omega)) ?_
  rintro major _ rfl
  refine Yields.bind (still_byteAt (by omega)) ?_
  rintro minor _ rfl
  refine Yields.bind (still_be16At (by omega)) ?_
  rintro build _ rfl
  refine Yields.bind (still_be32At (by omega)) ?_
  rintro chipId _ rfl
  apply Yields.ite
  · exact fun _ => .pure ⟨rfl, nofun⟩
  · intro sound
    refine .pure ⟨rfl, ?_⟩
    rintro _ ⟨⟩
    change words.toNat * 4 ≤ patch.length
    omega

theorem keeps_loadBody (patch : List UInt8) (script : Script) {seen : Seen}
    (fresh : seen.last = none) : Keeps (loadBody patch) script seen := by
  apply (still_parsePatch patch script).keeps
  rintro parsed _ ⟨rfl, held⟩
  cases parsed with
  | error rc => exact keeps_throw _ _
  | ok info =>
      change Keeps (if _ then _ else _) _ seen
      split
      · exact keeps_throw _ _
      · exact keeps_runScript (held info rfl) _ _ fresh

/-- The upload is closed however it ends. -/
theorem ensures_avl62x1LoadPatch (patch : List UInt8) (active : Bool) :
    (avl62x1LoadPatch patch).Ensures uploading (fun _ after => after.uploadActive = false)
      ⟨none, active⟩ := by
  refine ensures_perform_bind.2 ⟨trivial, fun _ => ensures_perform_bind.2 ⟨trivial, fun _ => ?_⟩⟩
  have body := @keeps_loadBody patch ⟨0, .replicate patchVariables 0, false⟩ ⟨none, true⟩ rfl
  refine Ensures.bind body ?_
  intro ended after _
  refine ⟨trivial, fun _ => ?_⟩
  cases ended with
  | ok done => rfl
  | error rc => rfl

/-- Nothing outside of the patch or the variables, and no loop without end. -/
def Op.Sound : Op → Prop
  | .outside | .endless => False
  | .receiver operation => operation ≠ .spin
  | _ => True

/-- The positions where the turns of the loop started. -/
def turnStarts (trace : List (Performed signature)) : List Nat :=
  trace.filterMap fun
    | ⟨.turn start, _⟩ => some start
    | _ => none

/-- `avl_patch_upload_active` at the end. -/
def uploadActive (active : Bool) (trace : List (Performed signature)) : Bool :=
  trace.foldl (fun active performed =>
    match performed.1 with
    | .setUploadActive set => set
    | _ => active) active

theorem uploadActive_eq (seen : Seen) (trace : List (Performed signature)) :
    (trace.foldl uploading.see seen).uploadActive = uploadActive seen.uploadActive trace := by
  induction trace generalizing seen with
  | nil => rfl
  | cons performed trace ih =>
      rw [List.foldl_cons, ih]
      obtain ⟨operation, answer⟩ := performed
      cases operation <;> rfl

theorem followed_uploading {seen : Seen} {trace : List (Performed signature)}
    (followed : uploading.Followed seen trace) :
    (∀ performed ∈ trace, Op.Sound performed.1) ∧ (turnStarts trace).Pairwise (· < ·) ∧
      ∀ start ∈ turnStarts trace, ∀ before ∈ seen.last, before < start := by
  induction trace generalizing seen with
  | nil => exact ⟨nofun, .nil, nofun⟩
  | cons performed trace ih =>
      obtain ⟨allowed, later⟩ := followed
      obtain ⟨sound, sorted, fresh⟩ := ih later
      rw [List.forall_mem_cons]
      obtain ⟨operation, answer⟩ := performed
      cases operation with
      | turn start =>
          have starts : turnStarts (⟨Op.turn start, answer⟩ :: trace) =
              start :: turnStarts trace := rfl
          rw [starts, List.pairwise_cons, List.forall_mem_cons]
          have further : ∀ next ∈ turnStarts trace, start < next := fun next mem =>
            fresh next mem start rfl
          exact ⟨⟨trivial, sound⟩, ⟨further, sorted⟩, allowed, fun next mem before last =>
            Nat.lt_trans (allowed before last) (further next mem)⟩
      | outside => exact allowed.elim
      | endless => exact allowed.elim
      | receiver operation => exact ⟨⟨allowed, sound⟩, sorted, fresh⟩
      | setUploadActive active => exact ⟨⟨trivial, sound⟩, sorted, fresh⟩
      | clearWriteCount => exact ⟨⟨trivial, sound⟩, sorted, fresh⟩

/-- **The interpreter is total and stays inside.** Whatever the patch holds and the receiver
answers, the upload comes to its end without an access outside of the patch or of the
variables and without an endless loop, every turn of the loop over the script starts at a
larger position than the one before, and the flag of the upload is off at the end. -/
theorem loadPatch_sound (patch : List UInt8) (active : Bool) (environment : Environment signature)
    (past : List (Performed signature)) :
    let trace := ((avl62x1LoadPatch patch).run environment past).1
    (∀ performed ∈ trace, Op.Sound performed.1) ∧ (turnStarts trace).Pairwise (· < ·) ∧
      uploadActive active trace = false := by
  intro trace
  obtain ⟨followed, off⟩ := (ensures_avl62x1LoadPatch patch active).run environment past
  obtain ⟨sound, sorted, -⟩ := followed_uploading followed
  rw [uploadActive_eq] at off
  exact ⟨sound, sorted, off⟩

end Patch
end Engine
