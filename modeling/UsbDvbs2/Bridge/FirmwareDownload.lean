import UsbDvbs2.Bridge.Calls

/-! # The download of the bridge firmware

An image is sent in messages and booted. Images in the old format name the lengths
of their blocks; in the new format a piece ends where the next marker is found.
Both loops go on to the boot from places where the image has not been sent.
-/

namespace Bridge

open Bytes Concurrency Program

def cmdFwQueryinfo : UInt8 := 0x22
def cmdFwBoot : UInt8 := 0x23
def cmdFwDlBegin : UInt8 := 0x24
def cmdFwDlEnd : UInt8 := 0x25
def cmdFwScatterWr : UInt8 := 0x29

def fwHdrSize : Nat := 7
def fwMaxData : Nat := 58
def fwChunkBreatheEvery : UInt32 := 8
def fwChunkBreatheMs : Nat := 1

/-- Go on unless a negative code came back. -/
def unlessNegative (program rest : Code Int) : Code Int :=
  program >>= fun ret => if ret < 0 then .done ret else rest

def bare (cmd : UInt8) : Code Int := do
  let answer ← it9300CtrlMsg ⟨cmd, 0, [], 0⟩
  pure answer.1

/-- A pause after every eighth message. -/
def breathe (chunkCount : UInt32) : Code Unit :=
  when (chunkCount % fwChunkBreatheEvery == 0) (call (.sleep fwChunkBreatheMs))

/-- Send a piece of the image, and count it. -/
def sendPiece (cmd : UInt8) (chunkCount : UInt32) (piece : List UInt8) :
    Code (Except Int UInt32) := do
  let answer ← it9300CtrlMsg ⟨cmd, 0, piece, 0⟩
  if answer.1 < 0 then pure (.error answer.1)
  else
    breathe (chunkCount + 1)
    pure (.ok (chunkCount + 1))

/-! ## The old format -/

/-- The loop over the chunks of a block, of which `j` bytes are left; the image goes on with
`chunk`. -/
def oldChunks (chunk : List UInt8) (j : Nat) (chunkCount : UInt32) : Code (Except Int UInt32) :=
  if 0 < j then
    if chunk.length < min j fwMaxData then do
      let unknown ← call .outside
      pure (.error unknown)
    else do
      let counted ← sendPiece cmdFwDl chunkCount (chunk.take (min j fwMaxData))
      match counted with
      | .error ret => pure (.error ret)
      | .ok chunkCount =>
          oldChunks (chunk.drop (min j fwMaxData)) (j - min j fwMaxData) chunkCount
  else pure (.ok chunkCount)
termination_by j
decreasing_by simp only [fwMaxData]; omega

/-- The loop over the blocks; `rest` is what is left of the image. -/
def oldBlocks (rest : List UInt8) (chunkCount : UInt32) : Code Int :=
  if fwHdrSize < rest.length then
    let core := rest.getD 0 0
    let dataLen := (be16 rest 3).toNat
    if (core ≠ 1 ∧ core ≠ 2) ∨ rest.length < dataLen then .done 0
    else
      unlessNegative (bare cmdFwDlBegin) <|
        ifRead (oldChunks rest (fwHdrSize + dataLen) chunkCount) fun chunkCount =>
          unlessNegative (bare cmdFwDlEnd) <|
            oldBlocks (rest.drop (dataLen + fwHdrSize)) chunkCount
  else .done 0
termination_by rest.length
decreasing_by simp only [List.length_drop, fwHdrSize] at *; omega

def fwDownloadOld (fw : List UInt8) : Code Int := oldBlocks fw 0

/-! ## The new format -/

/-- Whether a piece begins with these bytes; nothing is known where that would have to be
looked up past the end. -/
def boundary : List UInt8 → Option Bool
  | [] => some true
  | first :: ahead =>
      if first ≠ 3 then some false
      else
        match ahead with
        | [] => none
        | second :: ahead =>
            if second ≠ 0 ∧ second ≠ 1 then some false
            else
              match ahead with
              | [] => none
              | third :: _ => some (third == 0)

/-- A length as the `int` that is handed over. -/
def wlen (length : Nat) : Int := (BitVec.ofNat 32 length).toInt

/-- A negative length is copied as one that no buffer has. -/
def scatter (piece : List UInt8) (chunkCount : UInt32) : Code (Except Int UInt32) :=
  if wlen piece.length < 0 then do
    let unknown ← call .outside
    pure (.error unknown)
  else sendPiece cmdFwScatterWr chunkCount (piece.take (wlen piece.length).toNat)

/-- The loop over the image: `pending` was passed since the last boundary, `ahead` is still to
come. -/
def newFrom (pending : List UInt8) : List UInt8 → UInt32 → Code Int
  | [], chunkCount => ifRead (scatter pending chunkCount) fun _ => .done 0
  | byte :: ahead, chunkCount =>
      match boundary (byte :: ahead) with
      | none => call .outside
      | some true => ifRead (scatter pending chunkCount) (newFrom [byte] ahead)
      | some false => newFrom (pending ++ [byte]) ahead chunkCount

def fwDownloadNew (fw : List UInt8) : Code Int :=
  newFrom (fw.take fwHdrSize) (fw.drop fwHdrSize) 0

/-! ## The boot -/

/-- `it9300_query_fw_version`; a version of zero is no firmware. -/
def it9300QueryFwVersion : Code Int := do
  let answer ← it9300CtrlMsg ⟨cmdFwQueryinfo, 0, [1], 4⟩
  if answer.1 < 0 then pure answer.1
  else if answer.1 ≠ 0 ∨ answer.2.all (· == 0) = true then pure (-4)
  else pure 0

def it9300Boot : Code Int := unlessNegative (bare cmdFwBoot) it9300QueryFwVersion

def it9300DownloadFirmware (fw : List UInt8) : Code Int :=
  if fw.length < fwHdrSize then .done (-1)
  else unlessNegative (if fw.getD 0 0 = 1 then fwDownloadOld fw else fwDownloadNew fw) it9300Boot

/-! ## What a run sends -/

/-- The bytes of the image in what is performed. -/
def payload (trace : List (Performed calls)) : List UInt8 :=
  trace.flatMap fun
    | ⟨.command command, _⟩ =>
        if command.cmd = cmdFwDl ∨ command.cmd = cmdFwScatterWr then command.wbuf else []
    | _ => []

def Call.Boots : Call → Prop
  | .command sent => sent.cmd = cmdFwBoot
  | _ => False

/-- A run reads nothing outside of the image, and boots only with all of it sent. -/
def SentWhole (fw : List UInt8) (trace : List (Performed calls)) : Prop :=
  (∀ performed ∈ trace, performed.1 ≠ Call.outside) ∧
    ∀ front boot back, trace = front ++ boot :: back → Call.Boots boot.1 → payload front = fw

/-- Follow the bytes that were sent. -/
def downloading (fw : List UInt8) : Watch calls (List UInt8) where
  see seen performed := seen ++ payload [performed]
  Allows seen operation := operation ≠ Call.outside ∧ (Call.Boots operation → seen = fw)

theorem command_ne_outside (command : Command) : Call.command command ≠ Call.outside := by
  intro same
  contradiction

theorem payload_cons (performed : Performed calls) (trace : List (Performed calls)) :
    payload (performed :: trace) = payload [performed] ++ payload trace := by
  rw [payload, List.flatMap_cons, payload, List.flatMap_singleton]
  rfl

theorem followed_downloading (fw seen : List UInt8) (trace : List (Performed calls)) :
    (downloading fw).Followed seen trace ↔ (∀ performed ∈ trace, performed.1 ≠ Call.outside) ∧
      ∀ front boot back, trace = front ++ boot :: back → Call.Boots boot.1 →
        seen ++ payload front = fw := by
  induction trace generalizing seen with
  | nil =>
      refine iff_of_true trivial ⟨nofun, fun front boot back cut _ => ?_⟩
      exact absurd cut.symm (List.append_ne_nil_of_right_ne_nil _ (List.cons_ne_nil _ _))
  | cons performed trace ih =>
      rw [Watch.Followed, ih, List.forall_mem_cons]
      change (_ ∧ _) ∧ _ ∧ _ ↔ _
      constructor
      · rintro ⟨⟨inside, boots⟩, later, rest⟩
        refine ⟨⟨inside, later⟩, fun front boot back cut isBoot => ?_⟩
        cases front with
        | nil =>
            obtain ⟨rfl, -⟩ := List.cons.inj cut
            exact (List.append_nil seen).trans (boots isBoot)
        | cons first front =>
            obtain ⟨rfl, behind⟩ := List.cons.inj cut
            rw [payload_cons, ← List.append_assoc]
            exact rest front boot back behind isBoot
      · rintro ⟨⟨inside, later⟩, boots⟩
        refine ⟨⟨inside, fun isBoot => ?_⟩, later, fun front boot back cut isBoot => ?_⟩
        · exact (List.append_nil seen).symm.trans (boots [] performed trace rfl isBoot)
        · have here := boots (performed :: front) boot back (congrArg _ cut) isBoot
          rw [payload_cons, ← List.append_assoc] at here
          exact here

/-! ## One message -/

section Messages

variable {fw seen : List UInt8} {α : Type}

/-- The condition that is left to the boot: the code is negative, or all of the image was
sent. -/
def Ready (fw : List UInt8) (ret : Int) (seen : List UInt8) : Prop := ret < 0 ∨ seen = fw

theorem ensures_breathe {post : Unit → List UInt8 → Prop} (count : UInt32) :
    (breathe count).Ensures (downloading fw) post seen ↔ post () seen := by
  have silent : (downloading fw).see seen ⟨Call.sleep fwChunkBreatheMs, ()⟩ = seen :=
    List.append_nil seen
  rw [breathe, when]
  split
  · refine ⟨fun ensures => ?_, fun holds => ⟨⟨nofun, fun boot => boot.elim⟩, fun _ => ?_⟩⟩
    · exact silent ▸ ensures.2 ()
    · exact silent.symm ▸ holds
  · exact Iff.rfl

/-- A message with a piece of the image: too long a piece ends the download, any other is sent,
and the download may end with it. -/
theorem ensures_sendPiece {post : Except Int UInt32 → List UInt8 → Prop} {cmd : UInt8}
    (image : cmd = cmdFwDl ∨ cmd = cmdFwScatterWr) (count : UInt32) (piece : List UInt8)
    (ends : ∀ ret after, ret < 0 → post (.error ret) after) :
    (sendPiece cmd count piece).Ensures (downloading fw) post seen ↔
      (piece.length ≤ 249 → post (.ok (count + 1)) (seen ++ piece)) := by
  have sized : (⟨cmd, 0, piece, 0⟩ : Command).oversized ↔ ¬ piece.length ≤ 249 := by
    simp only [Command.oversized, bufLen, reqHdrLen, ackHdrLen, checksumLen]
    omega
  rw [sendPiece, it9300CtrlMsg]
  by_cases fits : piece.length ≤ 249
  · rw [if_neg (fun oversized => sized.1 oversized fits), call, ensures_perform_bind]
    have sees : ∀ answer, (downloading fw).see seen
        ⟨Call.command ⟨cmd, 0, piece, 0⟩, answer⟩ = seen ++ piece := fun answer => by
      change seen ++ ((if cmd = cmdFwDl ∨ cmd = cmdFwScatterWr then piece else []) ++ []) = _
      rw [if_pos image, List.append_nil]
    have quiet : ¬ cmd = cmdFwBoot := by
      rcases image with rfl | rfl <;> decide
    simp only [sees]
    constructor
    · rintro ⟨-, accepted⟩ -
      exact (ensures_breathe _).1 (ensures_bind.1 (accepted (0, [])))
    · refine fun holds =>
        ⟨⟨command_ne_outside _, fun boot => (quiet boot).elim⟩, fun answer => ?_⟩
      split
      · rename_i refused
        exact ends _ _ refused
      · exact ensures_bind.2 ((ensures_breathe _).2 (holds fits))
  · rw [if_pos (sized.2 fits)]
    exact iff_of_true (ends _ _ (by decide)) fun small => (fits small).elim

/-- A message without payload, and what follows it unless it is refused. -/
theorem ensures_bare {rest : Code Int} {cmd : UInt8} {post : Int → List UInt8 → Prop}
    (plain : ¬ (cmd = cmdFwDl ∨ cmd = cmdFwScatterWr))
    (ends : ∀ ret after, ret < 0 → post ret after) :
    (unlessNegative (bare cmd) rest).Ensures (downloading fw) post seen ↔
      (cmd = cmdFwBoot → seen = fw) ∧ rest.Ensures (downloading fw) post seen := by
  have small : ¬ (⟨cmd, 0, [], 0⟩ : Command).oversized := by
    simp only [Command.oversized, bufLen, reqHdrLen, ackHdrLen, checksumLen, List.length_nil]
    decide
  have sees : ∀ answer, (downloading fw).see seen ⟨Call.command ⟨cmd, 0, [], 0⟩, answer⟩ = seen :=
    fun answer => by
      change seen ++ ((if cmd = cmdFwDl ∨ cmd = cmdFwScatterWr then [] else []) ++ []) = _
      rw [if_neg plain, List.append_nil, List.append_nil]
  rw [unlessNegative, bare, it9300CtrlMsg, if_neg small, bind_bind, call, ensures_perform_bind]
  simp only [sees]
  constructor
  · rintro ⟨allowed, accepted⟩
    exact ⟨allowed.2, accepted (0, [])⟩
  · rintro ⟨boots, later⟩
    refine ⟨⟨command_ne_outside _, boots⟩, fun answer => ?_⟩
    change Ensures _ _ (if answer.1 < 0 then _ else _) seen
    split
    · rename_i refused
      exact ends _ _ refused
    · exact later

/-! ## The old format -/

/-- The chunks of a block are sent if the image goes on far enough. -/
theorem ensures_oldChunks {post : Except Int UInt32 → List UInt8 → Prop} (chunk : List UInt8)
    (j : Nat) (count : UInt32) (ends : ∀ ret after, ret < 0 → post (.error ret) after)
    (any : ∀ count other, post (.ok count) (seen ++ chunk.take j) →
      post (.ok other) (seen ++ chunk.take j)) :
    (oldChunks chunk j count).Ensures (downloading fw) post seen ↔
      j ≤ chunk.length ∧ post (.ok count) (seen ++ chunk.take j) := by
  induction j using Nat.strongRecOn generalizing chunk count seen with
  | ind j ih =>
    rw [oldChunks]
    split
    · rename_i some
      split
      · rename_i short
        refine iff_of_false (fun ensures => (ensures.1.1 rfl).elim) fun both => ?_
        have enough := both.1
        omega
      · rename_i long
        have bound : min j fwMaxData ≤ 58 := Nat.min_le_right _ _
        have small : (chunk.take (min j fwMaxData)).length ≤ 249 := by
          rw [List.length_take]
          omega
        have less : j - min j fwMaxData < j := by
          simp only [fwMaxData]
          omega
        have whole : seen ++ chunk.take (min j fwMaxData) ++
            (chunk.drop (min j fwMaxData)).take (j - min j fwMaxData) = seen ++ chunk.take j := by
          rw [List.append_assoc, ← List.take_add, Nat.add_sub_of_le (Nat.min_le_left _ _)]
        rw [ensures_bind]
        refine (ensures_sendPiece (.inl rfl) _ _ ?_).trans ?_
        · exact fun ret after refused => ends ret after refused
        change (_ → (oldChunks _ _ (count + 1)).Ensures _ _ _) ↔ _
        rw [ih _ less _ _ (by rwa [whole]), whole, List.length_drop]
        constructor
        · intro sends
          obtain ⟨room, held⟩ := sends small
          exact ⟨by omega, any _ _ held⟩
        · rintro ⟨room, held⟩ -
          exact ⟨by omega, any _ _ held⟩
    · rename_i none
      rw [Nat.eq_zero_of_not_pos none, List.take_zero, List.append_nil]
      exact ⟨fun held => ⟨Nat.zero_le _, held⟩, fun held => held.2⟩

/-- An image in the old format: blocks of a header and the data that it announces, the last
one more than a header. -/
inductive Blocks : List UInt8 → Prop where
  | done : Blocks []
  | block {header data rest : List UInt8} (size : header.length = fwHdrSize)
      (core : header.getD 0 0 = 1 ∨ header.getD 0 0 = 2)
      (length : data.length = (be16 header 3).toNat) (more : data ++ rest ≠ [])
      (later : Blocks rest) : Blocks (header ++ data ++ rest)

theorem getD_header {header : List UInt8} (size : header.length = fwHdrSize)
    (behind : List UInt8) (pos : Nat) (inside : pos < fwHdrSize) :
    (header ++ behind).getD pos 0 = header.getD pos 0 := by
  rw [List.getD_eq_getElem?_getD, List.getElem?_append_left (size ▸ inside),
    ← List.getD_eq_getElem?_getD]

theorem be16_header {header : List UInt8} (size : header.length = fwHdrSize)
    (behind : List UInt8) : be16 (header ++ behind) 3 = be16 header 3 := by
  rw [be16, be16, getD_header size _ _ (by decide), getD_header size _ _ (by decide)]

/-- The block that an image begins with. -/
theorem blocks_iff (image : List UInt8) : Blocks image ↔ image = [] ∨
    fwHdrSize < image.length ∧ (image.getD 0 0 = 1 ∨ image.getD 0 0 = 2) ∧
      fwHdrSize + (be16 image 3).toNat ≤ image.length ∧
        Blocks (image.drop (fwHdrSize + (be16 image 3).toNat)) := by
  constructor
  · intro blocks
    cases blocks with
    | done => exact .inl rfl
    | @block header data rest size core length more later =>
        have some := List.length_pos_iff.2 more
        rw [List.length_append] at some
        refine .inr ⟨?_, ?_, ?_, ?_⟩
        · rw [List.length_append, List.length_append, size]
          omega
        · rwa [List.append_assoc, getD_header size _ _ (by decide)]
        · rw [List.append_assoc, be16_header size, ← length, ← size, List.length_append,
            List.length_append, ← Nat.add_assoc]
          exact Nat.le_add_right _ _
        · rwa [List.append_assoc, be16_header size, ← length, ← size, ← List.append_assoc,
            ← List.length_append, List.drop_left]
  · rintro (rfl | ⟨long, core, room, later⟩)
    · exact .done
    · have size : (image.take fwHdrSize).length = fwHdrSize :=
        List.length_take_of_le (Nat.le_of_lt long)
      have first := getD_header size (image.drop fwHdrSize) 0 (by decide)
      have same := be16_header size (image.drop fwHdrSize)
      have cut : image = image.take fwHdrSize ++
          (image.drop fwHdrSize).take (be16 image 3).toNat ++
            image.drop (fwHdrSize + (be16 image 3).toNat) := by
        rw [← List.take_add, List.take_append_drop]
      rw [List.take_append_drop] at first same
      rw [cut]
      refine .block size ?_ ?_ ?_ later
      · rwa [← first]
      · rw [← same, List.length_take_of_le]
        rw [List.length_drop]
        omega
      · intro nothing
        rw [← List.append_nil image, cut, List.append_nil] at long
        rw [List.append_assoc, List.length_append, nothing, size] at long
        exact absurd long (Nat.lt_irrefl _)

/-- A block is begun, sent and ended, and then the next one begins. -/
theorem ensures_oldBlock {next : UInt32 → Code Int} {holds : Prop} (image : List UInt8)
    (size : Nat) (count : UInt32)
    (later : ∀ count, (next count).Ensures (downloading fw) (Ready fw) (seen ++ image.take size) ↔
      holds) :
    (unlessNegative (bare cmdFwDlBegin) <|
        ifRead (oldChunks image size count) fun count =>
          unlessNegative (bare cmdFwDlEnd) (next count)).Ensures (downloading fw) (Ready fw) seen ↔
      size ≤ image.length ∧ holds := by
  have ends : ∀ (ret : Int) (after : List UInt8), ret < 0 → Ready fw ret after :=
    fun ret after negative => .inl negative
  have closes : ∀ count, (unlessNegative (bare cmdFwDlEnd) (next count)).Ensures
      (downloading fw) (Ready fw) (seen ++ image.take size) ↔ holds := fun count => by
    rw [ensures_bare (by decide) ends, later count]
    exact and_iff_right fun boot => absurd boot (by decide)
  rw [ensures_bare (by decide) ends, ensures_ifRead,
    ensures_oldChunks _ _ _ ends fun count other held => (closes other).2 ((closes count).1 held)]
  change _ ∧ _ ∧ (unlessNegative (bare cmdFwDlEnd) _).Ensures _ _ _ ↔ _
  rw [closes]
  exact and_iff_right fun boot => absurd boot (by decide)

/-- With the first part of the image sent, the rest is sent exactly when it is made of
blocks. -/
theorem ensures_oldBlocks (rest : List UInt8) (count : UInt32) (whole : seen ++ rest = fw) :
    (oldBlocks rest count).Ensures (downloading fw) (Ready fw) seen ↔ Blocks rest := by
  induction hlen : rest.length using Nat.strongRecOn generalizing rest count seen with
  | ind length ih =>
    have stops : Ready fw 0 seen ↔ rest = [] := by
      rw [Ready, or_iff_right (by decide), ← whole]
      exact List.self_eq_append_right
    rw [oldBlocks, blocks_iff]
    split
    · rename_i long
      have some : rest ≠ [] := List.ne_nil_of_length_pos (Nat.lt_of_le_of_lt (Nat.zero_le _) long)
      simp only [some, long, true_and, false_or]
      split
      · rename_i broken
        refine iff_of_false (fun ready => some (stops.1 ready)) ?_
        rintro ⟨core, room, -⟩
        rcases broken with ⟨first, second⟩ | short
        · exact core.elim first second
        · omega
      · rename_i sound
        have core : rest.getD 0 0 = 1 ∨ rest.getD 0 0 = 2 := by
          by_contra neither
          exact sound (.inl (not_or.1 neither))
        have cut : seen ++ rest.take (fwHdrSize + (be16 rest 3).toNat) ++
            rest.drop (fwHdrSize + (be16 rest 3).toNat) = fw := by
          rw [List.append_assoc, List.take_append_drop, whole]
        have less : (rest.drop (fwHdrSize + (be16 rest 3).toNat)).length < length := by
          rw [List.length_drop, ← hlen, fwHdrSize]
          omega
        rw [Nat.add_comm (be16 rest 3).toNat]
        refine (ensures_oldBlock rest _ count fun count => ih _ less _ count cut rfl).trans ?_
        exact (and_iff_right core).symm
    · rename_i short
      have no : ¬ fwHdrSize < rest.length := short
      simp only [no, false_and, or_false]
      exact stops

/-! ## The new format -/

/-- A piece begins here. -/
def marker : List UInt8 → Bool
  | first :: second :: third :: _ => first == 3 && (second == 0 || second == 1) && third == 0
  | _ => false

/-- The pieces of an image, of which `pending` was passed since the last marker. -/
def pieces (pending : List UInt8) : List UInt8 → List (List UInt8)
  | [] => [pending]
  | byte :: ahead =>
      if marker (byte :: ahead) then pending :: pieces [byte] ahead
      else pieces (pending ++ [byte]) ahead

/-- The end may be the beginning of a marker. -/
def EndsOpen (ahead : List UInt8) : Prop :=
  [3] <:+ ahead ∨ [3, 0] <:+ ahead ∨ [3, 1] <:+ ahead

/-- A piece whose length the command accepts as an `int`. -/
def Accepted (piece : List UInt8) : Prop := 0 ≤ wlen piece.length ∧ wlen piece.length ≤ 249

/-- A piece ends the download as too long, and those before it were accepted. -/
def Refused (parts : List (List UInt8)) : Prop :=
  ∃ front piece back, parts = front ++ piece :: back ∧ (∀ before ∈ front, Accepted before) ∧
    249 < wlen piece.length

/-- What is sent of a piece. -/
def carriedOf (piece : List UInt8) : List UInt8 := piece.take (wlen piece.length).toNat

theorem wlen_le (length : Nat) : wlen length ≤ length := by
  rw [wlen, BitVec.toInt_eq_toNat_bmod, BitVec.toNat_ofNat]
  have small := Nat.mod_le length (2 ^ 32)
  have bmod := @Int.bmod_le (((length % 2 ^ 32 : Nat) : Int)) (2 ^ 32) (by decide)
  rw [Int.bmod_def]
  split
  · omega
  · omega

theorem length_carriedOf {piece : List UInt8} (positive : 0 ≤ wlen piece.length) :
    ((carriedOf piece).length : Int) = wlen piece.length := by
  have small := wlen_le piece.length
  rw [carriedOf, List.length_take_of_le (by omega), Int.toNat_of_nonneg positive]

theorem wlen_small {piece : List UInt8} (small : piece.length ≤ 249) :
    wlen piece.length = piece.length := by
  rw [wlen, BitVec.toInt_eq_toNat_of_lt, BitVec.toNat_ofNat, Nat.mod_eq_of_lt]
  · omega
  · rw [BitVec.toNat_ofNat]
    omega

theorem refused_nil : ¬ Refused [] := by
  rintro ⟨front, piece, back, cut, -⟩
  exact absurd cut.symm (List.append_ne_nil_of_right_ne_nil _ (List.cons_ne_nil _ _))

theorem refused_cons (piece : List UInt8) (parts : List (List UInt8)) :
    Refused (piece :: parts) ↔ 249 < wlen piece.length ∨ Accepted piece ∧ Refused parts := by
  constructor
  · rintro ⟨front, long, back, cut, accepted, refused⟩
    cases front with
    | nil =>
        obtain ⟨rfl, -⟩ := List.cons.inj cut
        exact .inl refused
    | cons first front =>
        obtain ⟨rfl, rest⟩ := List.cons.inj cut
        exact .inr ⟨accepted _ List.mem_cons_self, front, long, back, rest,
          fun before mem => accepted before (List.mem_cons_of_mem _ mem), refused⟩
  · rintro (long | ⟨accepted, front, long, back, rfl, before, refused⟩)
    · exact ⟨[], piece, parts, rfl, nofun, long⟩
    · exact ⟨piece :: front, long, back, rfl, List.forall_mem_cons.2 ⟨accepted, before⟩, refused⟩

theorem pieces_ne_nil (pending ahead : List UInt8) : pieces pending ahead ≠ [] := by
  induction ahead generalizing pending with
  | nil => exact List.cons_ne_nil _ _
  | cons byte ahead ih =>
      rw [pieces]
      split
      · exact List.cons_ne_nil _ _
      · exact ih _

theorem flatten_pieces (pending ahead : List UInt8) :
    (pieces pending ahead).flatten = pending ++ ahead := by
  induction ahead generalizing pending with
  | nil => rw [pieces, List.flatten_singleton, List.append_nil]
  | cons byte ahead ih =>
      rw [pieces]
      split
      · rw [List.flatten_cons, ih, List.singleton_append]
      · rw [ih, List.append_assoc, List.singleton_append]

/-- The look-ahead finds the markers, and passes the end of the image where that may be the
beginning of one. -/
theorem boundary_cons (byte : UInt8) (ahead : List UInt8) : boundary (byte :: ahead) =
    if byte = 3 ∧ (ahead = [] ∨ ahead = [0] ∨ ahead = [1]) then none
    else some (marker (byte :: ahead)) := by
  by_cases first : byte = 3
  · subst first
    match ahead with
    | [] => rfl
    | [second] =>
        by_cases low : second = 0 ∨ second = 1
        · rcases low with rfl | rfl <;> rfl
        · rw [not_or] at low
          simp only [boundary, marker, low.1, low.2, List.cons.injEq, reduceCtorEq, and_true,
            or_self, and_false, ne_eq, not_true_eq_false, not_false_eq_true, and_self, ↓reduceIte]
    | second :: third :: behind =>
        by_cases low : second = 0 ∨ second = 1
        · rcases low with rfl | rfl <;> simp [boundary, marker]
        · rw [not_or] at low
          simp [boundary, marker, low.1, low.2]
  · have plain : marker (byte :: ahead) = false := by
      match ahead with
      | [] | [_] => rfl
      | second :: third :: behind =>
          rw [marker, beq_false_of_ne first, Bool.false_and, Bool.false_and]
    rw [if_neg fun open_end => first open_end.1, plain]
    exact if_pos first

theorem not_endsOpen_nil : ¬ EndsOpen [] := by
  rintro (one | two | three)
  · exact List.cons_ne_nil _ _ (List.suffix_nil.1 one)
  · exact List.cons_ne_nil _ _ (List.suffix_nil.1 two)
  · exact List.cons_ne_nil _ _ (List.suffix_nil.1 three)

theorem endsOpen_cons (byte : UInt8) (ahead : List UInt8) : EndsOpen (byte :: ahead) ↔
    byte = 3 ∧ (ahead = [] ∨ ahead = [0] ∨ ahead = [1]) ∨ EndsOpen ahead := by
  simp only [EndsOpen, List.suffix_cons_iff, List.cons.injEq]
  constructor
  · rintro ((⟨rfl, rfl⟩ | one) | (⟨rfl, rfl⟩ | two) | (⟨rfl, rfl⟩ | three))
    · exact .inl ⟨rfl, .inl rfl⟩
    · exact .inr (.inl one)
    · exact .inl ⟨rfl, .inr (.inl rfl)⟩
    · exact .inr (.inr (.inl two))
    · exact .inl ⟨rfl, .inr (.inr rfl)⟩
    · exact .inr (.inr (.inr three))
  · rintro (⟨rfl, rfl | rfl | rfl⟩ | one | two | three)
    · exact .inl (.inl ⟨rfl, rfl⟩)
    · exact .inr (.inl (.inl ⟨rfl, rfl⟩))
    · exact .inr (.inr (.inl ⟨rfl, rfl⟩))
    · exact .inl (.inr one)
    · exact .inr (.inl (.inr two))
    · exact .inr (.inr (.inr three))

/-- An end that may be the beginning of a marker is not one. -/
theorem pieces_open {byte : UInt8} {ahead : List UInt8}
    (open_end : byte = 3 ∧ (ahead = [] ∨ ahead = [0] ∨ ahead = [1])) (pending : List UInt8) :
    pieces pending (byte :: ahead) = [pending ++ byte :: ahead] := by
  obtain ⟨rfl, rfl | rfl | rfl⟩ := open_end
  · rfl
  · simp [pieces, marker]
  · simp [pieces, marker]

theorem ensures_scatter {post : Except Int UInt32 → List UInt8 → Prop} (piece : List UInt8)
    (count : UInt32) (ends : ∀ ret after, ret < 0 → post (.error ret) after) :
    (scatter piece count).Ensures (downloading fw) post seen ↔
      249 < wlen piece.length ∨
        Accepted piece ∧ post (.ok (count + 1)) (seen ++ carriedOf piece) := by
  rw [scatter]
  split
  · rename_i negative
    refine iff_of_false (fun ensures => (ensures.1.1 rfl).elim) ?_
    rintro (long | ⟨accepted, -⟩)
    · omega
    · exact absurd accepted.1 (Int.not_le_of_gt negative)
  · rename_i positive
    rw [ensures_sendPiece (.inr rfl) _ _ ends]
    have size := length_carriedOf (Int.not_lt.1 positive)
    change ((carriedOf piece).length ≤ 249 → post _ (seen ++ carriedOf piece)) ↔ _
    by_cases long : 249 < wlen piece.length
    · exact iff_of_true (fun small => absurd small (by omega)) (.inl long)
    · have accepted : Accepted piece := ⟨Int.not_lt.1 positive, Int.not_lt.1 long⟩
      simp only [long, accepted, false_or, true_and]
      exact ⟨fun sends => sends (by omega), fun held _ => held⟩

/-- The new format stops at a piece that is too long, or the look-ahead stays inside and what
is sent of the pieces is all of the image. -/
theorem ensures_newFrom (pending ahead : List UInt8) (count : UInt32) :
    (newFrom pending ahead count).Ensures (downloading fw) (Ready fw) seen ↔
      Refused (pieces pending ahead).dropLast ∨ ¬ EndsOpen ahead ∧
        (Refused (pieces pending ahead) ∨ (∀ piece ∈ pieces pending ahead, Accepted piece) ∧
          seen ++ (pieces pending ahead).flatMap carriedOf = fw) := by
  have ends : ∀ (ret : Int) (after : List UInt8), ret < 0 → Ready fw ret after :=
    fun ret after negative => .inl negative
  induction ahead generalizing pending count seen with
  | nil =>
      rw [newFrom, ensures_ifRead, ensures_scatter _ _ ends]
      simp only [pieces, List.dropLast_singleton, refused_nil, not_endsOpen_nil, refused_cons,
        List.mem_singleton, forall_eq, List.flatMap_singleton, false_or, not_false_eq_true,
        true_and, and_false, or_false]
      exact or_congr_right (and_congr_right fun _ => or_iff_right (by decide))
  | cons byte ahead ih =>
      rw [newFrom, boundary_cons]
      by_cases open_end : byte = 3 ∧ (ahead = [] ∨ ahead = [0] ∨ ahead = [1])
      · rw [if_pos open_end]
        refine iff_of_false (fun ensures => (ensures.1.1 rfl).elim) ?_
        rintro (early | ⟨inside, -⟩)
        · rw [pieces_open open_end] at early
          exact refused_nil early
        · exact inside ((endsOpen_cons byte ahead).2 (.inl open_end))
      · have same : EndsOpen (byte :: ahead) ↔ EndsOpen ahead := by
          rw [endsOpen_cons]
          exact or_iff_right open_end
        rw [if_neg open_end, same, pieces]
        cases found : marker (byte :: ahead) with
        | false => simp only [Bool.false_eq_true, ↓reduceIte, ih]
        | true =>
            simp only [↓reduceIte, ensures_ifRead]
            refine (ensures_scatter _ _ ends).trans ?_
            simp only [ih]
            rw [List.dropLast_cons_of_ne_nil (pieces_ne_nil _ _)]
            simp only [refused_cons, List.forall_mem_cons, List.flatMap_cons, List.append_assoc]
            constructor
            · rintro (long | ⟨accepted, early | ⟨inside, refused | ⟨all, whole⟩⟩⟩)
              · exact .inl (.inl long)
              · exact .inl (.inr ⟨accepted, early⟩)
              · exact .inr ⟨inside, .inl (.inr ⟨accepted, refused⟩)⟩
              · exact .inr ⟨inside, .inr ⟨⟨accepted, all⟩, whole⟩⟩
            · rintro ((long | ⟨accepted, early⟩) |
                ⟨inside, (long | ⟨accepted, refused⟩) | ⟨⟨accepted, all⟩, whole⟩⟩)
              · exact .inl long
              · exact .inr ⟨accepted, .inl early⟩
              · exact .inl long
              · exact .inr ⟨accepted, .inr ⟨inside, .inl refused⟩⟩
              · exact .inr ⟨accepted, .inr ⟨inside, .inr ⟨all, whole⟩⟩⟩

theorem length_carried_le (parts : List (List UInt8)) :
    (parts.flatMap carriedOf).length ≤ parts.flatten.length := by
  induction parts with
  | nil => exact Nat.le_refl _
  | cons piece parts ih =>
      rw [List.flatMap_cons, List.flatten_cons, List.length_append, List.length_append]
      exact Nat.add_le_add (List.length_take_le' _ _) ih

/-- Accepted pieces are sent whole exactly when all of them fit a command. -/
theorem carriedOf_whole {parts : List (List UInt8)} (accepted : ∀ piece ∈ parts, Accepted piece) :
    parts.flatMap carriedOf = parts.flatten ↔ ∀ piece ∈ parts, piece.length ≤ 249 := by
  induction parts with
  | nil => exact iff_of_true rfl nofun
  | cons piece parts ih =>
      obtain ⟨first, others⟩ := List.forall_mem_cons.1 accepted
      have size := length_carriedOf first.1
      have below := wlen_le piece.length
      rw [List.flatMap_cons, List.flatten_cons, List.forall_mem_cons]
      constructor
      · intro whole
        have shorter := length_carried_le parts
        have lengths := congrArg List.length whole
        rw [List.length_append, List.length_append] at lengths
        have bound := first.2
        refine ⟨by omega, (ih others).1 ?_⟩
        exact (List.append_inj whole (by omega)).2
      · rintro ⟨small, rest⟩
        rw [(ih others).2 rest, carriedOf, wlen_small small, Int.toNat_natCast, List.take_length]

end Messages

/-! ## The whole download -/

/-- What an image in the new format must be. -/
def Scatters (fw : List UInt8) : Prop :=
  let parts := pieces (fw.take fwHdrSize) (fw.drop fwHdrSize)
  Refused parts.dropLast ∨ ¬ EndsOpen (fw.drop fwHdrSize) ∧
    (Refused parts ∨ ∀ piece ∈ parts, piece.length ≤ 249)

/-- The images that are sent whole or not booted. -/
def Downloads (fw : List UInt8) : Prop := if fw.getD 0 0 = 1 then Blocks fw else Scatters fw

theorem ensures_fwDownloadNew (fw : List UInt8) :
    (fwDownloadNew fw).Ensures (downloading fw) (Ready fw) [] ↔ Scatters fw := by
  have image := flatten_pieces (fw.take fwHdrSize) (fw.drop fwHdrSize)
  rw [List.take_append_drop] at image
  rw [fwDownloadNew, ensures_newFrom, Scatters]
  refine or_congr_right (and_congr_right fun _ => or_congr_right ?_)
  rw [List.nil_append]
  constructor
  · rintro ⟨accepted, whole⟩
    exact (carriedOf_whole accepted).1 (whole.trans image.symm)
  · intro small
    have accepted : ∀ piece ∈ pieces (fw.take fwHdrSize) (fw.drop fwHdrSize), Accepted piece := by
      intro piece mem
      have short := small piece mem
      rw [Accepted, wlen_small short]
      omega
    exact ⟨accepted, ((carriedOf_whole accepted).2 small).trans image⟩

theorem ensures_it9300Boot (fw seen : List UInt8) :
    it9300Boot.Ensures (downloading fw) (fun _ _ => True) seen ↔ seen = fw := by
  have asks : it9300QueryFwVersion.Ensures (downloading fw) (fun _ _ => True) seen := by
    have small : ¬ (⟨cmdFwQueryinfo, 0, [1], 4⟩ : Command).oversized := by decide
    rw [it9300QueryFwVersion, it9300CtrlMsg, if_neg small, call, ensures_perform_bind]
    have quiet : ¬ cmdFwQueryinfo = cmdFwBoot := by decide
    refine ⟨⟨command_ne_outside _, fun boot => absurd boot quiet⟩, fun answer => ?_⟩
    split
    · trivial
    · split
      · trivial
      · trivial
  rw [it9300Boot, ensures_bare (by decide) fun _ _ _ => trivial]
  exact ⟨fun held => held.1 rfl, fun whole => ⟨fun _ => whole, asks⟩⟩

theorem ensures_download {fw : List UInt8} (enough : fwHdrSize ≤ fw.length) :
    (it9300DownloadFirmware fw).Ensures (downloading fw) (fun _ _ => True) [] ↔ Downloads fw := by
  have boots : ∀ ret after, Ensures (downloading fw) (fun _ _ => True)
      (if ret < 0 then .done ret else it9300Boot) after ↔ Ready fw ret after := by
    intro ret after
    by_cases negative : ret < 0
    · rw [if_pos negative]
      exact iff_of_true trivial (.inl negative)
    · rw [if_neg negative, ensures_it9300Boot]
      exact (or_iff_right negative).symm
  rw [it9300DownloadFirmware, if_neg (Nat.not_lt.2 enough), unlessNegative, ensures_bind,
    ensures_congr boots, Downloads]
  split
  · exact ensures_oldBlocks fw 0 (List.nil_append fw)
  · exact ensures_fwDownloadNew fw

instance (operation : calls.Op) : Nonempty (calls.Answer operation) := by
  cases operation with
  | command sent => exact ⟨((0, []) : Int × List UInt8)⟩
  | countWrite => exact ⟨false⟩
  | sleep ms => exact ⟨()⟩
  | outside => exact ⟨(0 : Int)⟩

/-- **Exactly these images are sent whole or not booted.** Over all answers of the device, the
download of an image of at least a header reads nothing outside of it and boots only with all
of its bytes sent in order if and only if the image is, in the old format, made of blocks, or,
in the new one, stopped by a piece that is too long or cut into pieces that fit without an
end that may be the beginning of a marker. -/
theorem sentWhole_iff_downloads (fw : List UInt8) (enough : fwHdrSize ≤ fw.length) :
    (∀ environment, SentWhole fw ((it9300DownloadFirmware fw).run environment []).1) ↔
      Downloads fw := by
  rw [← ensures_download enough, ensures_iff_run []]
  refine forall_congr' fun environment => ?_
  rw [followed_downloading, SentWhole, and_true]
  rfl

/-- One block of the old format, with a single byte of data. -/
def oneBlock : List UInt8 := [1, 0, 0, 0, 1, 0, 0, 9]

theorem downloads_oneBlock : Downloads oneBlock := by
  rw [Downloads, if_pos (by decide)]
  exact @Blocks.block [1, 0, 0, 0, 1, 0, 0] [9] [] rfl (.inl rfl) rfl (List.cons_ne_nil _ _) .done

theorem sentWhole_oneBlock : fwHdrSize ≤ oneBlock.length ∧
    ∀ environment, SentWhole oneBlock ((it9300DownloadFirmware oneBlock).run environment []).1 :=
  ⟨by decide, (sentWhole_iff_downloads oneBlock (by decide)).2 downloads_oneBlock⟩

/-- Nothing but the header of a block. -/
def headerOnly : List UInt8 := [1, 0, 0, 0, 0, 0, 0]

/-- A header without data is as long as an image must be, and is not sent before the boot. -/
theorem headerOnly_boots : ¬ ∀ environment,
    SentWhole headerOnly ((it9300DownloadFirmware headerOnly).run environment []).1 := by
  intro whole
  have nothing : fwDownloadOld headerOnly = .done 0 := by
    rw [fwDownloadOld, oldBlocks, if_neg (by decide)]
  have boots : it9300DownloadFirmware headerOnly = it9300Boot := by
    rw [it9300DownloadFirmware, if_neg (by decide), if_pos (by decide), nothing]
    rfl
  have silent := whole fun _ operation =>
    match operation with
    | .command _ => ((0, []) : Int × List UInt8)
    | .countWrite => false
    | .sleep _ => ()
    | .outside => (0 : Int)
  rw [boots] at silent
  exact absurd (silent.2 [] _ _ rfl rfl) (by decide)

end Bridge
