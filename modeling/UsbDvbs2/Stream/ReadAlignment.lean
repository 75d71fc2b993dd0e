import UsbDvbs2.Stream.PacketLoop

/-! # One alignment for a whole read

The descrambler goes over a read before the packet loop does, from the first
alignment it finds and in steps of 188 bytes. The loop behind it may lose that
alignment and find another; the descrambler does not follow. What each packet
should be extracted as, and the reads in which the two walks agree on it.
-/

namespace Stream

open Bytes Camd

/-! ## Slots -/

/-- The packet that begins `index` packets further on. -/
def slot {α : Type} (items : List α) (index : Nat) : List α := (items.drop (188 * index)).take 188

theorem slot_drop {α : Type} (items : List α) (index : Nat) :
    slot (items.drop 188) index = slot items (index + 1) := by
  rw [slot, slot, List.drop_drop, Nat.mul_succ, Nat.add_comm 188]

theorem slot_map {α β : Type} (f : α → β) (items : List α) (index : Nat) :
    slot (items.map f) index = (slot items index).map f := by
  rw [slot, slot, List.map_take, List.map_drop]

theorem length_slot {α : Type} {items : List α} {index : Nat}
    (whole : index < items.length / 188) : (slot items index).length = 188 := by
  rw [slot, List.length_take_of_le]
  rw [List.length_drop]
  omega

theorem octet_drop (bytes : List UInt8) (count pos : Nat) :
    octet (bytes.drop count) pos = octet bytes (count + pos) := by
  simp only [octet, List.getD_eq_getElem?_getD, List.getElem?_drop]

theorem octet_take {pos count : Nat} (inside : pos < count) (bytes : List UInt8) :
    octet (bytes.take count) pos = octet bytes pos := by
  simp only [octet, List.getD_eq_getElem?_getD, List.getElem?_take_of_lt inside]

theorem octet_slot {pos : Nat} (inside : pos < 188) (bytes : List UInt8) (index : Nat) :
    octet (slot bytes index) pos = octet bytes (188 * index + pos) := by
  rw [slot, octet_take inside, octet_drop]

/-! ## What a packet should be extracted as -/

section Plain

variable (cipher : Key → List UInt8 → List UInt8)

/-- The payload decrypted with the key of its parity and the scrambling bits
cleared, if it arrived scrambled. -/
def Csa.plain (csa : Csa) (packet : List UInt8) : List UInt8 :=
  if 2 ≤ octet packet 3 / 64 then
    let cleared := packet.modify 3 (· &&& 0x3f)
    match payloadOffset packet with
    | some offset =>
        cleared.take offset ++ cipher (csa.batch packet).key (cleared.drop offset)
    | none => cleared
  else packet

theorem Csa.plain_of_clear (csa : Csa) {packet : List UInt8}
    (clear : ¬ 2 ≤ octet packet 3 / 64) : csa.plain cipher packet = packet := if_neg clear

/-- Both parities have a key. -/
structure Csa.Keyed (csa : Csa) : Prop where
  even : csa.even.valid = true
  odd : csa.odd.valid = true

theorem Csa.Keyed.valid {csa : Csa} (keyed : csa.Keyed) (packet : List UInt8) :
    (csa.batch packet).valid = true := by
  rw [batch]
  split
  · exact keyed.odd
  · exact keyed.even

theorem Csa.Keyed.descrambles {csa : Csa} (keyed : csa.Keyed) (packet : List UInt8) :
    csa.descrambles packet = true ↔ octet packet 0 = 0x47 ∧ 2 ≤ octet packet 3 / 64 := by
  rw [Csa.descrambles, keyed.valid, Bool.and_true, Bool.and_eq_true, beq_iff_eq,
    decide_eq_true_eq]

theorem map_raw_rewrite (cells : List Cell) (bytes : List UInt8) :
    (rewrite cells bytes).map Cell.raw = cells.map Cell.raw := by
  induction cells generalizing bytes with
  | nil => cases bytes <;> rfl
  | cons cell cells ih =>
      cases bytes with
      | nil => rfl
      | cons byte bytes => rw [rewrite, List.map_cons, List.map_cons, ih]

theorem map_byte_rewrite {cells : List Cell} {bytes : List UInt8}
    (same : bytes.length = cells.length) : (rewrite cells bytes).map Cell.byte = bytes := by
  induction cells generalizing bytes with
  | nil => rw [List.eq_nil_of_length_eq_zero same]; rfl
  | cons cell cells ih =>
      cases bytes with
      | nil => exact nomatch same
      | cons byte bytes => rw [rewrite, List.map_cons, ih (Nat.succ.inj same)]

theorem map_byte_clear (cells : List Cell) :
    (cells.modify 3 Cell.clear).map Cell.byte = (cells.map Cell.byte).modify 3 (· &&& 0x3f) := by
  rcases cells with _ | ⟨_, _ | ⟨_, _ | ⟨_, _ | ⟨_, _⟩⟩⟩⟩ <;> rfl

theorem map_raw_clear (cells : List Cell) :
    (cells.modify 3 Cell.clear).map Cell.raw = cells.map Cell.raw := by
  rcases cells with _ | ⟨_, _ | ⟨_, _ | ⟨_, _ | ⟨_, _⟩⟩⟩⟩ <;> rfl

theorem Csa.map_raw_decryptPacket (csa : Csa) (cells : List Cell) :
    (csa.decryptPacket cipher cells).map Cell.raw = cells.map Cell.raw := by
  simp only [decryptPacket]
  split
  · split
    · rw [List.map_append, map_raw_rewrite, ← List.map_append, List.take_append_drop,
        map_raw_clear]
    · exact map_raw_clear cells
  · rfl

/-- A packet is decrypted to what it should be extracted as. -/
theorem Csa.Keyed.map_byte_decryptPacket {csa : Csa} (keyed : csa.Keyed)
    (inPlace : ∀ key payload, (cipher key payload).length = payload.length) {cells : List Cell}
    (sync : octet (cells.map Cell.byte) 0 = 0x47) :
    (csa.decryptPacket cipher cells).map Cell.byte = csa.plain cipher (cells.map Cell.byte) := by
  simp only [decryptPacket]
  by_cases scrambled : 2 ≤ octet (cells.map Cell.byte) 3 / 64
  · rw [if_pos ((keyed.descrambles _).2 ⟨sync, scrambled⟩), plain, if_pos scrambled]
    cases payloadOffset (cells.map Cell.byte) with
    | none => exact map_byte_clear cells
    | some offset =>
        simp only
        rw [List.map_append, List.map_take, map_byte_clear, map_byte_rewrite, List.map_drop,
          map_byte_clear]
        rw [inPlace, List.length_map]
  · rw [if_neg fun descrambles => scrambled ((keyed.descrambles _).1 descrambles).2,
      plain_of_clear cipher csa scrambled]

end Plain

/-! ## The descrambler's walk -/

section Run

variable (cipher : Key → List UInt8 → List UInt8) {cells : List Cell}

theorem Csa.length_decryptPacket (csa : Csa) (cells : List Cell) :
    (csa.decryptPacket cipher cells).length = cells.length := by
  have raws := congrArg List.length (csa.map_raw_decryptPacket cipher cells)
  rwa [List.length_map, List.length_map] at raws

theorem Csa.map_raw_decryptRun (csa : Csa) (count : Nat) (cells : List Cell) :
    (csa.decryptRun cipher count cells).map Cell.raw = cells.map Cell.raw := by
  induction count generalizing cells with
  | zero => rfl
  | succ count ih =>
      rw [decryptRun, List.map_append, ih, map_raw_decryptPacket, ← List.map_append,
        List.take_append_drop]

theorem Csa.length_decryptRun (csa : Csa) (count : Nat) (cells : List Cell) :
    (csa.decryptRun cipher count cells).length = cells.length := by
  have raws := congrArg List.length (csa.map_raw_decryptRun cipher count cells)
  rwa [List.length_map, List.length_map] at raws

theorem Csa.take_decryptRun (csa : Csa) {count : Nat} (whole : 188 ≤ cells.length) :
    (csa.decryptRun cipher (count + 1) cells).take 188 =
      csa.decryptPacket cipher (cells.take 188) := by
  have first : (csa.decryptPacket cipher (cells.take 188)).length = 188 := by
    rw [length_decryptPacket, List.length_take_of_le whole]
  rw [decryptRun, List.take_append_of_le_length (by omega), List.take_of_length_le (by omega)]

theorem Csa.drop_decryptRun (csa : Csa) {count : Nat} (whole : 188 ≤ cells.length) :
    (csa.decryptRun cipher (count + 1) cells).drop 188 =
      csa.decryptRun cipher count (cells.drop 188) := by
  have first : (csa.decryptPacket cipher (cells.take 188)).length = 188 := by
    rw [length_decryptPacket, List.length_take_of_le whole]
  rw [decryptRun, List.drop_append_of_le_length (by omega), List.drop_of_length_le (by omega),
    List.nil_append]

/-- Every slot of the walk is decrypted by itself. -/
theorem Csa.slot_decryptRun (csa : Csa) {count index : Nat} (inside : index < count)
    (whole : 188 * count ≤ cells.length) :
    slot (csa.decryptRun cipher count cells) index =
      csa.decryptPacket cipher (slot cells index) := by
  induction index generalizing count cells with
  | zero =>
      obtain ⟨rest, rfl⟩ := Nat.exists_eq_succ_of_ne_zero (Nat.ne_of_gt inside)
      exact csa.take_decryptRun cipher (by omega)
  | succ index ih =>
      obtain ⟨rest, rfl⟩ := Nat.exists_eq_succ_of_ne_zero (Nat.ne_of_gt (Nat.zero_lt_of_lt inside))
      rw [← slot_drop, ← slot_drop, Nat.succ_eq_add_one, csa.drop_decryptRun cipher (by omega)]
      refine ih (Nat.lt_of_succ_lt_succ inside) ?_
      rw [List.length_drop]
      omega

/-- The rest behind the walk is not touched. -/
theorem Csa.octet_decryptRun_behind (csa : Csa) {count pos : Nat} (behind : 188 * count ≤ pos)
    (whole : 188 * count ≤ cells.length) :
    octet ((csa.decryptRun cipher count cells).map Cell.byte) pos =
      octet (cells.map Cell.byte) pos := by
  induction count generalizing cells pos with
  | zero => rfl
  | succ count ih =>
      obtain ⟨later, rfl⟩ := Nat.exists_eq_add_of_le (show 188 ≤ pos by omega)
      rw [← octet_drop, ← octet_drop, ← List.map_drop, csa.drop_decryptRun cipher (by omega),
        ih (by omega) (by rw [List.length_drop]; omega), List.map_drop]

/-- A byte of a packet that is enciphered, and will be deciphered. -/
def Csa.deciphersIn (csa : Csa) (packet : List UInt8) (pos : Nat) : Bool :=
  csa.descrambles packet && (payloadOffset packet).any (· ≤ pos)

theorem payloadOffset_ge {packet : List UInt8} {offset : Nat}
    (found : payloadOffset packet = some offset) : 4 ≤ offset := by
  simp only [payloadOffset] at found
  split at found
  · exact Nat.le_of_eq (Option.some.inj found)
  · split at found
    · have := Option.some.inj found
      omega
    · contradiction

theorem octet_clear {bytes : List UInt8} {pos : Nat} :
    octet (bytes.modify 3 (· &&& 0x3f)) pos =
      if pos = 3 then octet bytes pos % 64 else octet bytes pos := by
  have low (byte : UInt8) : (byte &&& 0x3f).toNat = byte.toNat % 64 := by
    rw [UInt8.toNat_and]
    exact Nat.and_two_pow_sub_one_eq_mod byte.toNat 6
  simp only [octet, List.getD_eq_getElem?_getD, List.getElem?_modify]
  split
  · rename_i third
    subst third
    cases bytes[3]? with
    | none => rfl
    | some byte => exact low byte
  · rename_i other
    rw [if_neg fun third => other third.symm]
    cases bytes[pos]? <;> rfl

/-- Decryption makes no sync byte of a byte that it does not decipher. -/
theorem Csa.octet_decryptPacket (csa : Csa) {pos : Nat} (inside : pos < cells.length)
    (untouched : csa.deciphersIn (cells.map Cell.byte) pos = false) :
    octet ((csa.decryptPacket cipher cells).map Cell.byte) pos = octet (cells.map Cell.byte) pos ∨
      pos = 3 ∧ octet ((csa.decryptPacket cipher cells).map Cell.byte) pos < 0x40 := by
  cases descrambles : csa.descrambles (cells.map Cell.byte) with
  | false => exact Or.inl (by rw [decryptPacket_of_not descrambles])
  | true =>
      have cleared : octet ((cells.modify 3 Cell.clear).map Cell.byte) pos =
            octet (cells.map Cell.byte) pos ∨
          pos = 3 ∧ octet ((cells.modify 3 Cell.clear).map Cell.byte) pos < 0x40 := by
        rw [map_byte_clear, octet_clear]
        split
        · rename_i third
          exact Or.inr ⟨third, Nat.mod_lt _ (by decide)⟩
        · exact Or.inl rfl
      simp only [decryptPacket, descrambles, if_true]
      cases found : payloadOffset (cells.map Cell.byte) with
      | none => exact cleared
      | some offset =>
          rw [deciphersIn, descrambles, found, Bool.true_and, Option.any_some,
            decide_eq_false_iff_not] at untouched
          simp only
          rw [List.map_append, List.map_take, octet_append, octet_take (by omega)]
          · exact cleared
          · rw [List.length_take, List.length_map, List.length_modify]
            omega

theorem Csa.first_decryptPacket (csa : Csa) (inside : 0 < cells.length) :
    octet ((csa.decryptPacket cipher cells).map Cell.byte) 0 = octet (cells.map Cell.byte) 0 := by
  have untouched : csa.deciphersIn (cells.map Cell.byte) 0 = false := by
    rw [deciphersIn]
    cases found : payloadOffset (cells.map Cell.byte) with
    | none => exact Bool.and_false _
    | some offset =>
        have behind := payloadOffset_ge found
        rw [Option.any_some, decide_eq_false (by omega), Bool.and_false]
  rcases csa.octet_decryptPacket cipher inside untouched with same | ⟨third, -⟩
  · exact same
  · exact absurd third (by decide)

/-- A byte that the walk over a whole buffer deciphers. -/
def Csa.deciphers (csa : Csa) (bytes : List UInt8) (pos : Nat) : Bool :=
  decide (pos / 188 < bytes.length / 188) && csa.deciphersIn (slot bytes (pos / 188)) (pos % 188)

/-- The descrambler's walk from an alignment to the end of the buffer. -/
def Csa.walk (csa : Csa) (cells : List Cell) : List Cell :=
  csa.decryptRun cipher (cells.length / 188) cells

theorem Csa.length_walk (csa : Csa) (cells : List Cell) :
    (csa.walk cipher cells).length = cells.length := csa.length_decryptRun cipher _ cells

theorem Csa.walk_of_short (csa : Csa) (short : ¬ 188 ≤ cells.length) :
    csa.walk cipher cells = cells := by
  rw [walk, Nat.div_eq_of_lt (by omega)]
  rfl

theorem Csa.take_walk (csa : Csa) (whole : 188 ≤ cells.length) :
    (csa.walk cipher cells).take 188 = csa.decryptPacket cipher (cells.take 188) := by
  obtain ⟨rest, more⟩ := Nat.exists_eq_succ_of_ne_zero (Nat.ne_of_gt (Nat.div_pos whole (by omega)))
  rw [walk, more]
  exact csa.take_decryptRun cipher whole

theorem Csa.drop_walk (csa : Csa) (whole : 188 ≤ cells.length) :
    (csa.walk cipher cells).drop 188 = csa.walk cipher (cells.drop 188) := by
  have count : cells.length / 188 = (cells.drop 188).length / 188 + 1 := by
    rw [List.length_drop]
    omega
  rw [walk, walk, count]
  exact csa.drop_decryptRun cipher whole

theorem Csa.octet_walk (csa : Csa) (pos : Nat) :
    (pos % 188 = 0 → octet ((csa.walk cipher cells).map Cell.byte) pos =
        octet (cells.map Cell.byte) pos) ∧
      (csa.deciphers (cells.map Cell.byte) pos = false →
        octet (cells.map Cell.byte) pos ≠ 0x47 →
          octet ((csa.walk cipher cells).map Cell.byte) pos ≠ 0x47) := by
  have split : pos = 188 * (pos / 188) + pos % 188 := (Nat.div_add_mod pos 188).symm
  have low : pos % 188 < 188 := Nat.mod_lt _ (by decide)
  by_cases walked : pos / 188 < cells.length / 188
  · have here : (slot cells (pos / 188)).length = 188 := length_slot walked
    have step : octet ((csa.walk cipher cells).map Cell.byte) pos =
        octet ((csa.decryptPacket cipher (slot cells (pos / 188))).map Cell.byte) (pos % 188) := by
      rw [← csa.slot_decryptRun cipher walked (by omega), ← slot_map, octet_slot low, ← split]
      rfl
    have received : octet (cells.map Cell.byte) pos =
        octet ((slot cells (pos / 188)).map Cell.byte) (pos % 188) := by
      rw [← slot_map, octet_slot low, ← split]
    rw [step, received]
    refine ⟨fun first => ?_, fun untouched other => ?_⟩
    · rw [first]
      exact csa.first_decryptPacket cipher (by omega)
    · rw [deciphers, List.length_map, decide_eq_true walked, Bool.true_and, slot_map] at untouched
      rcases csa.octet_decryptPacket cipher (by omega) untouched with same | ⟨-, small⟩
      · rwa [same]
      · exact Nat.ne_of_lt (by omega)
  · have behind : 188 * (cells.length / 188) ≤ pos := by omega
    have same := csa.octet_decryptRun_behind cipher behind (Nat.mul_div_le _ _)
    rw [walk, same]
    exact ⟨fun _ => rfl, fun _ other => other⟩

end Run

/-! ## The reads that go well -/

/-- No offset before the alignment can come to look like one: five sync bytes are
not there, and cannot all be brought about by what is deciphered. -/
def Undisturbed (csa : Csa) (bytes : List UInt8) (start : Nat) : Prop :=
  ∀ offset < start, ∃ k < 5, octet bytes (offset + 188 * k) ≠ 0x47 ∧
    (start ≤ offset + 188 * k →
      csa.deciphers (bytes.drop start) (offset + 188 * k - start) = false)

/-- The alignment is kept up to whatever could be a scrambled packet. -/
def Kept (bytes : List UInt8) : Prop :=
  ∀ pos < bytes.length - 187, octet bytes pos = 0x47 → 2 ≤ octet bytes (pos + 3) / 64 →
    ∀ k ≤ pos / 188, octet bytes (188 * k) = 0x47

/-- Nothing could be a scrambled packet. -/
def Unscrambled (bytes : List UInt8) : Prop :=
  ∀ pos < bytes.length - 187, octet bytes pos = 0x47 → ¬ 2 ≤ octet bytes (pos + 3) / 64

theorem Unscrambled.drop {bytes : List UInt8} (unscrambled : Unscrambled bytes) (count : Nat) :
    Unscrambled (bytes.drop count) := by
  intro pos inside sync
  rw [List.length_drop] at inside
  rw [octet_drop] at sync ⊢
  exact unscrambled (count + pos) (by omega) sync

theorem Kept.drop {bytes : List UInt8} (kept : Kept bytes) : Kept (bytes.drop 188) := by
  intro pos inside sync scrambled k before
  rw [List.length_drop] at inside
  rw [octet_drop] at sync scrambled ⊢
  have later := kept (188 + pos) (by omega) sync scrambled (k + 1) (by omega)
  rwa [Nat.mul_succ, Nat.add_comm] at later

/-- Once the alignment is lost nothing is scrambled any more. -/
theorem Kept.unscrambled {bytes : List UInt8} (kept : Kept bytes)
    (lost : octet bytes 0 ≠ 0x47) : Unscrambled bytes :=
  fun pos inside sync scrambled => lost (kept pos inside sync scrambled 0 (Nat.zero_le _))

/-- The read goes well: with the buffer as it is before, and the bytes read. -/
def Buffer.Steady (csa : Csa) (buffer : Buffer) (bytes : List UInt8) : Prop :=
  ∀ start, (buffer.extend (bytes.map Cell.received)).alignment = some start →
    Undisturbed csa (buffer.cells.map Cell.byte ++ bytes) start ∧
      Kept ((buffer.cells.map Cell.byte ++ bytes).drop start)

/-! ## The two walks together -/

/-- As it came from USB. -/
def Intact (cells : List Cell) : Prop := ∀ cell ∈ cells, cell.byte = cell.raw

theorem Intact.same {cells : List Cell} (intact : Intact cells) :
    cells.map Cell.byte = cells.map Cell.raw := List.map_congr_left intact

theorem Intact.drop {cells : List Cell} (intact : Intact cells) (count : Nat) :
    Intact (cells.drop count) := fun cell mem => intact cell (List.mem_of_mem_drop mem)

theorem Intact.take {cells : List Cell} (intact : Intact cells) (count : Nat) :
    Intact (cells.take count) := fun cell mem => intact cell (List.mem_of_mem_take mem)

theorem Intact.append {cells : List Cell} (intact : Intact cells) (bytes : List UInt8) :
    Intact (cells ++ bytes.map Cell.received) := by
  intro cell mem
  rcases List.mem_append.1 mem with before | now
  · exact intact cell before
  · obtain ⟨byte, -, rfl⟩ := List.mem_map.1 now
    rfl

theorem Intact.carried {buffer : Buffer} (intact : Intact buffer.cells) :
    Intact buffer.carried := by
  unfold Buffer.carried
  split
  · exact intact.drop _
  · exact intact

section Together

variable (cipher : Key → List UInt8 → List UInt8) (csa : Csa)

/-- The packet is extracted as it should be. -/
def Frame.Plain (frame : Frame) : Prop :=
  frame.sent.bytes = csa.plain cipher frame.received.bytes

variable {cells : List Cell} {buffer last : Buffer} {frames : List Frame}

/-- Where nothing is scrambled, packets are extracted as received. -/
theorem Buffer.Drains.plain_of_unscrambled (drains : Drains buffer last frames)
    (intact : Intact buffer.cells) (unscrambled : Unscrambled (buffer.cells.map Cell.byte)) :
    (∀ frame ∈ frames, frame.Plain cipher csa) ∧ Intact last.carried := by
  induction drains with
  | stop => exact ⟨List.forall_mem_nil _, intact.carried⟩
  | @step buffer next last frames later turned drains ih =>
      obtain ⟨skip, -, taken⟩ := Option.bind_eq_some_iff.1 turned
      have here := unscrambled.drop skip
      rw [← List.map_drop] at here
      have untouched := intact.drop skip
      generalize buffer.cells.drop skip = cells at taken here untouched
      unfold takePacket at taken
      split at taken
      · rename_i whole
        split at taken
        · obtain ⟨rfl, rfl⟩ := Prod.mk.inj (Option.some.inj taken)
          exact ih (untouched.drop 1) (by rw [List.map_drop]; exact here.drop 1)
        · rename_i sync
          obtain ⟨rfl, rfl⟩ := Prod.mk.inj (Option.some.inj taken)
          obtain ⟨plain, carried⟩ :=
            ih (untouched.drop 188) (by rw [List.map_drop]; exact here.drop 188)
          refine ⟨List.forall_mem_cons.2 ⟨?_, plain⟩, carried⟩
          have clear : ¬ 2 ≤ octet ((cells.take 188).map Cell.byte) 3 / 64 := by
            rw [List.map_take, octet_take (by decide)]
            exact here 0 (by rw [List.length_map]; omega) (not_not.1 sync)
          have same := (untouched.take 188).same
          change (cells.take 188).map Cell.byte =
            csa.plain cipher ((cells.take 188).map Cell.raw)
          rw [← same, csa.plain_of_clear cipher clear]
      · contradiction

/-- What the descrambler does to a buffer in which nothing is scrambled. -/
theorem Csa.walk_of_unscrambled {csa : Csa} (keyed : csa.Keyed)
    (unscrambled : Unscrambled (cells.map Cell.byte)) : csa.walk cipher cells = cells := by
  induction len : cells.length using Nat.strongRecOn generalizing cells with
  | ind len ih =>
      by_cases whole : 188 ≤ cells.length
      · have clear : csa.descrambles ((cells.take 188).map Cell.byte) = false := by
          rw [Bool.eq_false_iff]
          intro descrambles
          rw [keyed.descrambles, List.map_take, octet_take (by decide), octet_take (by decide)]
            at descrambles
          exact unscrambled 0 (by rw [List.length_map]; omega) descrambles.1 descrambles.2
        have rest := ih (cells.drop 188).length (by rw [List.length_drop]; omega)
          (by rw [List.map_drop]; exact unscrambled.drop 188) rfl
        rw [← List.take_append_drop 188 (csa.walk cipher cells), csa.take_walk cipher whole,
          csa.drop_walk cipher whole, rest, Csa.decryptPacket_of_not clear, List.take_append_drop]
      · exact csa.walk_of_short cipher whole

/-- Behind the descrambler on its own alignment, packets are extracted as they
should be for as long as something may be scrambled. -/
theorem Buffer.Drains.plain_of_kept {csa : Csa} (keyed : csa.Keyed)
    (inPlace : ∀ key payload, (cipher key payload).length = payload.length)
    (drains : Drains ⟨csa.walk cipher cells, true⟩ last frames) (intact : Intact cells)
    (kept : Kept (cells.map Cell.byte)) :
    (∀ frame ∈ frames, frame.Plain cipher csa) ∧ Intact last.carried := by
  induction len : cells.length using Nat.strongRecOn generalizing cells frames with
  | ind len ih =>
      by_cases whole : 188 ≤ cells.length
      · have whole' : 188 ≤ (csa.walk cipher cells).length := by rwa [csa.length_walk]
        have first : octet ((csa.walk cipher cells).map Cell.byte) 0 =
            octet (cells.map Cell.byte) 0 := (csa.octet_walk cipher 0).1 rfl
        by_cases sync : octet (cells.map Cell.byte) 0 = 0x47
        · cases drains with
          | stop ended =>
              have short := turn_eq_none.1 ended
              simp only [if_true, csa.length_walk] at short
              omega
          | step turned drains =>
              have taken := takePacket_frame whole' (first.trans sync)
              have turned' : takePacket (csa.walk cipher cells) = some _ := turned
              rw [taken] at turned'
              obtain ⟨rfl, rfl⟩ := Prod.mk.inj (Option.some.inj turned')
              rw [csa.drop_walk cipher whole] at drains
              obtain ⟨plain, carried⟩ := ih (cells.drop 188).length
                (by rw [List.length_drop]; omega) drains (intact.drop 188)
                (by rw [List.map_drop]; exact kept.drop) rfl
              refine ⟨List.forall_mem_cons.2 ⟨?_, plain⟩, carried⟩
              have sync' : octet ((cells.take 188).map Cell.byte) 0 = 0x47 := by
                rw [List.map_take, octet_take (by decide), sync]
              have same := (intact.take 188).same
              change ((csa.walk cipher cells).take 188).map Cell.byte =
                csa.plain cipher (((csa.walk cipher cells).take 188).map Cell.raw)
              rw [csa.take_walk cipher whole, csa.map_raw_decryptPacket, ← same,
                keyed.map_byte_decryptPacket cipher inPlace sync']
        · have unscrambled := kept.unscrambled sync
          rw [csa.walk_of_unscrambled cipher keyed unscrambled] at drains
          exact drains.plain_of_unscrambled cipher csa intact unscrambled
      · rw [csa.walk_of_short cipher whole] at drains
        have ended : turn ⟨cells, true⟩ = none := turn_eq_none.2 (by simp only [if_true]; omega)
        obtain ⟨rfl, rfl⟩ := drains.unique (.stop ended)
        exact ⟨List.forall_mem_nil _, intact.carried⟩

end Together

/-! ## One read -/

theorem findTsSync_eq_some {bytes : List UInt8} {start : Nat} (sync : AtSync (bytes.drop start))
    (before : ∀ offset < start, ¬ AtSync (bytes.drop offset)) : findTsSync bytes = some start := by
  induction bytes generalizing start with
  | nil =>
      have long := sync.1
      rw [List.drop_nil] at long
      exact absurd long (by decide)
  | cons byte bytes ih =>
      rw [findTsSync_cons]
      cases start with
      | zero =>
          have here : AtSync (byte :: bytes) := sync
          rw [if_pos here]
      | succ start =>
          have apart : ¬ AtSync (byte :: bytes) := before 0 (Nat.succ_pos _)
          have later := ih sync fun offset early => before (offset + 1) (Nat.succ_lt_succ early)
          rw [if_neg apart, later, Option.map_some]

section Read

variable (cipher : Key → List UInt8 → List UInt8) {ring : Keyring} {buffer : Buffer}
  {bytes : List UInt8} {start : Nat}

theorem Buffer.filled_lost (lost : (buffer.extend (bytes.map Cell.received)).alignment = none) :
    buffer.filled cipher ring bytes = buffer.extend (bytes.map Cell.received) := by
  change (if buffer.synced then some 0
    else findTsSync ((buffer.cells ++ bytes.map Cell.received).map Cell.byte)) = none at lost
  rw [filled, Keyring.decryptRead, lost]
  split <;> rfl

theorem Buffer.filled_aligned (decrypts : ring.decrypts = true)
    (aligned : (buffer.extend (bytes.map Cell.received)).alignment = some start) :
    buffer.filled cipher ring bytes =
      ⟨(buffer.cells ++ bytes.map Cell.received).take start ++
        ring.csa.walk cipher ((buffer.cells ++ bytes.map Cell.received).drop start),
        buffer.synced⟩ := by
  change (if buffer.synced then some 0
    else findTsSync ((buffer.cells ++ bytes.map Cell.received).map Cell.byte)) = some start
    at aligned
  rw [filled, Keyring.decryptRead, if_pos decrypts, aligned, Csa.walk, List.length_drop]

/-- The loop finds the alignment that the descrambler found. -/
theorem findTsSync_walk {csa : Csa} {cells : List Cell}
    (found : findTsSync (cells.map Cell.byte) = some start)
    (undisturbed : Undisturbed csa (cells.map Cell.byte) start) :
    findTsSync ((cells.take start ++ csa.walk cipher (cells.drop start)).map Cell.byte) =
      some start := by
  have inside := findTsSync_lt found
  have sync := findTsSync_spec found
  rw [List.length_map] at inside
  have front : (cells.take start).length = start := List.length_take_of_le (by omega)
  have behind : ∀ pos, octet ((cells.take start ++
      csa.walk cipher (cells.drop start)).map Cell.byte) (start + pos) =
      octet ((csa.walk cipher (cells.drop start)).map Cell.byte) pos := by
    intro pos
    rw [List.map_append]
    have shifted := octet_append_right ((cells.take start).map Cell.byte)
      ((csa.walk cipher (cells.drop start)).map Cell.byte) pos
    rwa [List.length_map, front] at shifted
  refine findTsSync_eq_some ⟨?_, fun k small => ?_⟩ fun offset early sync' => ?_
  · rw [List.length_drop, List.length_map, List.length_append, front, csa.length_walk,
      List.length_drop]
    omega
  · have first := (@Csa.octet_walk cipher (cells.drop start) csa (188 * k)).1
      (Nat.mul_mod_right _ _)
    rw [octet_drop, behind, first, List.map_drop]
    exact sync.2 k small
  · obtain ⟨k, small, other, untouched⟩ := undisturbed offset early
    have claimed := sync'.2 k small
    rw [octet_drop] at claimed
    by_cases reached : start ≤ offset + 188 * k
    · have walked := (@Csa.octet_walk cipher (cells.drop start) csa (offset + 188 * k - start)).2
      rw [List.map_drop] at walked
      obtain ⟨later, split⟩ := Nat.exists_eq_add_of_le reached
      rw [split, Nat.add_sub_cancel_left] at walked untouched
      rw [split, behind] at claimed
      refine walked (untouched (Nat.le_add_right _ _)) ?_ claimed
      rwa [octet_drop, ← split]
    · rw [List.map_append, octet_append (by rw [List.length_map, front]; omega), List.map_take,
        octet_take (by omega)] at claimed
      exact other claimed

theorem Buffer.alignment_filled (decrypts : ring.decrypts = true)
    (aligned : (buffer.extend (bytes.map Cell.received)).alignment = some start)
    (undisturbed : Undisturbed ring.csa
      ((buffer.cells ++ bytes.map Cell.received).map Cell.byte) start) :
    (buffer.filled cipher ring bytes).alignment = some start := by
  rw [filled_aligned cipher decrypts aligned]
  unfold alignment extend at *
  split at aligned
  · rename_i synced
    rw [if_pos synced, aligned]
  · rename_i unsynced
    rw [if_neg unsynced]
    exact findTsSync_walk cipher aligned undisturbed

/-- The turns from an alignment on are those of the aligned buffer. -/
theorem Buffer.Drains.aligned {last : Buffer} {frames : List Frame}
    (drains : Drains buffer last frames)
    (aligned : buffer.alignment = some start) :
    Drains ⟨buffer.cells.drop start, true⟩ last frames := by
  have turns : turn ⟨buffer.cells.drop start, true⟩ = buffer.turn := by
    rw [turn, turn, aligned]
    rfl
  cases drains with
  | step turned drains => exact .step (turns.trans turned) drains
  | stop ended =>
      have stuck := turn_eq_none.1 ended
      unfold alignment at aligned
      split at aligned
      · rename_i synced
        obtain rfl := Option.some.inj aligned
        obtain ⟨cells, _⟩ := buffer
        obtain rfl : _ = true := synced
        exact .stop ended
      · rename_i unsynced
        rw [if_neg unsynced, aligned] at stuck
        contradiction

/-- A read that goes well extracts every packet as it should be, and leaves the
pending bytes as they came. -/
theorem Buffer.Steady.read_plain (steady : buffer.Steady ring.csa bytes)
    (decrypts : ring.decrypts = true) (keyed : ring.csa.Keyed)
    (inPlace : ∀ key payload, (cipher key payload).length = payload.length)
    (intact : Intact buffer.cells) :
    (∀ frame ∈ (buffer.read cipher ring bytes).2, frame.Plain cipher ring.csa) ∧
      Intact (buffer.read cipher ring bytes).1.cells := by
  have drains := buffer.drains_looped cipher ring bytes
  have whole := intact.append bytes
  rw [Buffer.read_of_drains cipher drains]
  cases aligned : (buffer.extend (bytes.map Cell.received)).alignment with
  | none =>
      rw [filled_lost cipher aligned] at drains
      have ended : (buffer.extend (bytes.map Cell.received)).turn = none := by
        rw [turn, aligned]
        rfl
      obtain ⟨last, none_⟩ := drains.unique (.stop ended)
      rw [last, none_]
      exact ⟨List.forall_mem_nil _, whole.carried⟩
  | some start =>
      obtain ⟨undisturbed, kept⟩ := steady start aligned
      have received : (buffer.cells ++ bytes.map Cell.received).map Cell.byte =
          buffer.cells.map Cell.byte ++ bytes := by
        rw [List.map_append, List.map_map]
        exact congrArg _ (List.map_id _)
      rw [← received] at undisturbed kept
      rw [← List.map_drop] at kept
      have aligned' := alignment_filled cipher decrypts aligned undisturbed
      have behind := drains.aligned aligned'
      have inside := alignment_lt aligned
      rw [filled_aligned cipher decrypts aligned] at behind
      have front : ((buffer.cells ++ bytes.map Cell.received).take start).length = start :=
        List.length_take_of_le inside
      rw [List.drop_append_of_le_length (Nat.le_of_eq front.symm),
        List.drop_of_length_le (Nat.le_of_eq front), List.nil_append] at behind
      exact behind.plain_of_kept cipher keyed inPlace (whole.drop start) kept

end Read

/-! ## Runs -/

section Run

variable (cipher : Key → List UInt8 → List UInt8) {ring : Keyring}

/-- Every read of the run goes well. -/
def SteadyRun (ring : Keyring) : Buffer → List (List UInt8) → Prop
  | _, [] => True
  | buffer, bytes :: reads =>
      buffer.Steady ring.csa bytes ∧ SteadyRun ring (buffer.read cipher ring bytes).1 reads

theorem SteadyRun.plain {buffer : Buffer} {reads : List (List UInt8)}
    (steady : SteadyRun cipher ring buffer reads) (decrypts : ring.decrypts = true)
    (keyed : ring.csa.Keyed)
    (inPlace : ∀ key payload, (cipher key payload).length = payload.length)
    (intact : Intact buffer.cells) :
    ∀ frame ∈ (inPieces (Buffer.read cipher ring) buffer reads).2, frame.Plain cipher ring.csa := by
  induction reads generalizing buffer with
  | nil => exact nofun
  | cons bytes reads ih =>
      obtain ⟨here, later⟩ := steady
      obtain ⟨plain, carried⟩ := here.read_plain cipher decrypts keyed inPlace intact
      intro frame mem
      rcases List.mem_append.1 mem with now | after
      · exact plain frame now
      · exact ih later carried frame after

/-- With keys of both parities installed: in every run whose reads keep their
alignment for as long as something may be scrambled, every extracted packet is the
received one, with its payload decrypted once and its scrambling bits cleared if
it arrived scrambled. -/
theorem packets_descrambled (installed : ring.keysInstalled = true) (keyed : ring.csa.Keyed)
    (inPlace : ∀ key payload, (cipher key payload).length = payload.length)
    (reads : List (List UInt8)) (steady : SteadyRun cipher ring .empty reads) :
    ∀ frame ∈ (inPieces (Buffer.read cipher ring) .empty reads).2,
      frame.sent.bytes = ring.csa.plain cipher frame.received.bytes := by
  have decrypts : ring.decrypts = true := by
    rw [Keyring.decrypts, installed, Csa.hasKey, keyed.even]
    rfl
  exact steady.plain cipher decrypts keyed inPlace nofun

end Run

/-! ### A read of six packets, and one with a byte lost -/

theorem kept_of_slots {bytes : List UInt8}
    (slots : ∀ k < bytes.length / 188, octet bytes (188 * k) = 0x47) : Kept bytes := by
  intro pos inside _ _ k before
  exact slots k (by omega)

/-- A first read that is aligned from its first byte on. -/
theorem Buffer.steady_empty {csa : Csa} {bytes : List UInt8}
    (aligned : findTsSync bytes = some 0)
    (slots : ∀ k < bytes.length / 188, octet bytes (188 * k) = 0x47) :
    Buffer.empty.Steady csa bytes := by
  have received : (Buffer.empty.cells ++ bytes.map Cell.received).map Cell.byte = bytes := by
    rw [empty, List.nil_append, List.map_map]
    exact List.map_id _
  have found : (Buffer.empty.extend (bytes.map Cell.received)).alignment = some 0 := by
    rw [← aligned]
    exact congrArg findTsSync received
  intro start aligned'
  rw [found] at aligned'
  obtain rfl := Option.some.inj aligned'
  exact ⟨nofun, kept_of_slots slots⟩

/-- A packet of pid 0x101 with a payload. -/
def payloadPacket (control : UInt8) : List UInt8 :=
  [0x47, 0x01, 0x01, control] ++ .replicate 184 0x11

def bothKeys : Keyring := ⟨⟨⟨zeroCw, true⟩, ⟨zeroCw, true⟩⟩, true, 1⟩

/-- A cipher that turns every bit around. -/
def inverting : Key → List UInt8 → List UInt8 := fun _ payload => payload.map (0xff - ·)

theorem length_inverting (key : Key) (payload : List UInt8) :
    (inverting key payload).length = payload.length := List.length_map _

def alignedRead : List UInt8 := (List.replicate 6 (payloadPacket 0x90)).flatten

theorem packets_descrambled_aligned :
    (inPieces (Buffer.read inverting bothKeys) .empty [alignedRead]).2.length = 6 ∧
      ∀ frame ∈ (inPieces (Buffer.read inverting bothKeys) .empty [alignedRead]).2,
        frame.sent.bytes = bothKeys.csa.plain inverting frame.received.bytes := by
  have aligned : findTsSync alignedRead = some 0 := by decide +kernel
  have slots : ∀ k < alignedRead.length / 188, octet alignedRead (188 * k) = 0x47 := by
    decide +kernel
  have steady : SteadyRun inverting bothKeys .empty [alignedRead] :=
    ⟨Buffer.steady_empty aligned slots, trivial⟩
  exact ⟨by decide +kernel,
    packets_descrambled inverting rfl ⟨rfl, rfl⟩ length_inverting _ steady⟩

/-- Five packets in the clear, the last byte of a sixth, and five scrambled ones. -/
def lossyRead : List UInt8 :=
  (List.replicate 5 (payloadPacket 0x10)).flatten ++ [0x11] ++
    (List.replicate 5 (payloadPacket 0x90)).flatten

/-- The scrambled packets behind the loss are extracted as they came. -/
theorem packets_left_scrambled :
    ∃ frame ∈ (inPieces (Buffer.read inverting bothKeys) .empty [lossyRead]).2,
      octet frame.received.bytes 3 / 64 = 2 ∧ frame.sent = frame.received ∧
        frame.sent.bytes ≠ bothKeys.csa.plain inverting frame.received.bytes := by
  decide +kernel

end Stream
