import UsbDvbs2.Stream.Sections

/-! # Guide and time tables

The assembler of EIT and TDT copies ahead past the end of a section and starts
over on what is left. It ends on every payload, and from the first section start
on it hands over every section.
-/

namespace Stream

open Bytes Mpeg

def metadataSize : Nat := 4096

/-- What one turn of the loop of `metadata_append` comes to. -/
inductive MetadataTurn where
  /-- it returns -/
  | leaves (asm : Assembler)
  /-- a section is processed, and a call of its own handles what is behind it -/
  | calls (sec extra : List UInt8)
  | loops (asm : Assembler) (left : List UInt8)

/-- One turn of the loop, for some data. -/
def metadataTurn (asm : Assembler) (data : List UInt8) : MetadataTurn :=
  let data := if asm.data = [] then data.dropWhile (· == 0xff) else data
  if data = [] then .leaves asm
  else
    let copy := min data.length (metadataSize - asm.data.length)
    let bytes := asm.data ++ data.take copy
    let expected := if asm.expected = 0 ∧ 3 ≤ bytes.length then declared bytes else asm.expected
    if expected ≠ 0 ∧ expected ≤ bytes.length then
      .calls (bytes.take expected) (bytes.drop expected)
    else if bytes.length = metadataSize then .leaves .empty
    else .loops ⟨bytes, expected⟩ (data.drop copy)

/-- `metadata_append` with at most `fuel` turns and calls: the sections it hands
to `process_metadata_section`, or nothing when the fuel is used up. -/
def metadataAppendWithin : Nat → Assembler → List UInt8 →
    Option (Assembler × List (List UInt8))
  | _, asm, [] => some (asm, [])
  | 0, _, _ :: _ => none
  | fuel + 1, asm, byte :: more =>
      match metadataTurn asm (byte :: more) with
      | .leaves next => some (next, [])
      | .calls sec extra =>
          (metadataAppendWithin fuel .empty extra).map fun (final, sections) =>
            (final, sec :: sections)
      | .loops next left => metadataAppendWithin fuel next left

/-- More fuel changes nothing. -/
theorem metadataAppendWithin_mono {fuel : Nat} {asm : Assembler} {data : List UInt8}
    {result : Assembler × List (List UInt8)}
    (done : metadataAppendWithin fuel asm data = some result) {more : Nat} (le : fuel ≤ more) :
    metadataAppendWithin more asm data = some result := by
  induction fuel generalizing asm data result more with
  | zero =>
      cases data with
      | nil =>
          rw [← done]
          cases more <;> rfl
      | cons byte data => exact nomatch done
  | succ fuel ih =>
      obtain ⟨more, rfl⟩ : ∃ less, more = less + 1 := ⟨more - 1, by omega⟩
      cases data with
      | nil => exact done
      | cons byte data =>
          rw [metadataAppendWithin] at done ⊢
          cases turn : metadataTurn asm (byte :: data) with
          | leaves next =>
              rw [turn] at done
              exact done
          | calls sec extra =>
              rw [turn] at done
              obtain ⟨inner, called, rfl⟩ := Option.map_eq_some_iff.1 done
              simp only [ih called (Nat.le_of_succ_le_succ le), Option.map_some]
          | loops next left =>
              rw [turn] at done
              exact ih done (Nat.le_of_succ_le_succ le)

/-- What a turn leaves to do is less than what there was. -/
theorem metadataTurn_less {asm : Assembler} (fits : asm.data.length ≤ metadataSize)
    (data : List UInt8) :
    match metadataTurn asm data with
    | .leaves next => next.data.length ≤ metadataSize
    | .calls _ extra => extra.length < asm.data.length + data.length
    | .loops next left => next.data.length ≤ metadataSize ∧ left = [] := by
  have shorter : (if asm.data = [] then data.dropWhile (· == 0xff) else data).length ≤
      data.length := by
    split
    · exact (List.dropWhile_suffix _).length_le
    · exact Nat.le_refl _
  unfold metadataTurn
  generalize (if asm.data = [] then data.dropWhile (· == 0xff) else data) = data' at shorter ⊢
  simp only
  by_cases none : data' = []
  · rw [if_pos none]
    exact fits
  · rw [if_neg none]
    have copied :
        (asm.data ++ data'.take (min data'.length (metadataSize - asm.data.length))).length =
          asm.data.length + min data'.length (metadataSize - asm.data.length) := by
      rw [List.length_append, List.length_take, Nat.min_eq_left (Nat.min_le_left _ _)]
    generalize (asm.data ++ data'.take (min data'.length (metadataSize - asm.data.length))) =
      bytes at copied ⊢
    generalize (if asm.expected = 0 ∧ 3 ≤ bytes.length then declared bytes else asm.expected) =
      expected
    by_cases whole : expected ≠ 0 ∧ expected ≤ bytes.length
    · rw [if_pos whole]
      simp only [List.length_drop]
      omega
    · rw [if_neg whole]
      by_cases full : bytes.length = metadataSize
      · rw [if_pos full]
        exact Nat.zero_le _
      · rw [if_neg full]
        exact ⟨by simp only; omega, List.drop_eq_nil_of_le (by omega)⟩

/-- `metadata_append` returns: there is a turn or a call for every byte at most. -/
theorem metadataAppendWithin_returns {fuel : Nat} {asm : Assembler} {data : List UInt8}
    (fits : asm.data.length ≤ metadataSize) (enough : asm.data.length + data.length < fuel) :
    ∃ result, metadataAppendWithin fuel asm data = some result ∧
      result.1.data.length ≤ metadataSize := by
  induction fuel generalizing asm data with
  | zero => exact absurd enough (Nat.not_lt_zero _)
  | succ fuel ih =>
      cases data with
      | nil => exact ⟨(asm, []), rfl, fits⟩
      | cons byte more =>
          have less := metadataTurn_less fits (byte :: more)
          rw [metadataAppendWithin]
          cases turn : metadataTurn asm (byte :: more) with
          | leaves next =>
              rw [turn] at less
              exact ⟨(next, []), rfl, less⟩
          | calls sec extra =>
              rw [turn] at less
              have room : Assembler.empty.data.length + extra.length < fuel := by
                simp only [Assembler.empty, List.length_nil]
                omega
              obtain ⟨inner, called, bound⟩ := ih (Nat.zero_le _) room
              exact ⟨(inner.1, sec :: inner.2), by simp only [called, Option.map_some], bound⟩
          | loops next left =>
              rw [turn] at less
              obtain ⟨bound, rfl⟩ := less
              refine ⟨(next, []), ?_, bound⟩
              cases fuel <;> rfl

/-- `metadata_append`. -/
def metadataAppend (asm : Assembler) (data : List UInt8) :
    Option (Assembler × List (List UInt8)) :=
  metadataAppendWithin (asm.data.length + data.length + 1) asm data

theorem metadataAppend_returns {asm : Assembler} (fits : asm.data.length ≤ metadataSize)
    (data : List UInt8) :
    ∃ result, metadataAppend asm data = some result ∧ result.1.data.length ≤ metadataSize :=
  metadataAppendWithin_returns fits (Nat.lt_succ_self _)

theorem metadataAppend_nil (asm : Assembler) : metadataAppend asm [] = some (asm, []) := rfl

/-- The call that a turn ends with. -/
theorem metadataAppend_calls {asm : Assembler} {data sec extra : List UInt8}
    (fits : asm.data.length ≤ metadataSize) (present : data ≠ [])
    (turn : metadataTurn asm data = .calls sec extra) :
    metadataAppend asm data =
      (metadataAppend .empty extra).map fun (final, sections) => (final, sec :: sections) := by
  obtain ⟨byte, more, rfl⟩ := List.exists_cons_of_ne_nil present
  have less := metadataTurn_less fits (byte :: more)
  rw [turn] at less
  have none : Assembler.empty.data.length ≤ metadataSize := Nat.zero_le _
  obtain ⟨inner, called, -⟩ := metadataAppend_returns none extra
  have room : Assembler.empty.data.length + extra.length + 1 ≤
      asm.data.length + (byte :: more).length := by
    simp only [Assembler.empty, List.length_nil]
    omega
  rw [called, metadataAppend, metadataAppendWithin, turn]
  simp only [metadataAppendWithin_mono called room]

theorem metadataAppend_loops {asm next : Assembler} {data : List UInt8} (present : data ≠ [])
    (turn : metadataTurn asm data = .loops next []) :
    metadataAppend asm data = some (next, []) := by
  obtain ⟨byte, more, rfl⟩ := List.exists_cons_of_ne_nil present
  rw [metadataAppend, metadataAppendWithin, turn]
  cases asm.data.length + (byte :: more).length <;> rfl

/-! ## Sections in a payload -/

/-- A section does not begin with stuffing. -/
theorem dropWhile_section {bytes rest : List UInt8} (present : bytes ≠ [])
    (valid : IsSection metadataSize (bytes ++ rest)) :
    bytes.dropWhile (· == 0xff) = bytes := by
  obtain ⟨byte, more, rfl⟩ := List.exists_cons_of_ne_nil present
  have other : byte ≠ 0xff := fun same => valid.tableId (congrArg some same)
  exact List.dropWhile_cons_of_neg (by simpa using other)

/-- One turn for the bytes of a section under way and some behind them. -/
theorem metadataTurn_of {got bytes : List UInt8} (present : bytes ≠ [])
    (begins : got = [] → bytes.dropWhile (· == 0xff) = bytes) :
    metadataTurn (.of got) bytes =
      let all := got ++ bytes.take (min bytes.length (metadataSize - got.length))
      if (Assembler.of all).expected ≠ 0 ∧ (Assembler.of all).expected ≤ all.length then
        .calls (all.take (Assembler.of all).expected) (all.drop (Assembler.of all).expected)
      else if all.length = metadataSize then .leaves .empty
      else .loops (.of all) (bytes.drop (min bytes.length (metadataSize - got.length))) := by
  have same : (if got = [] then bytes.dropWhile (· == 0xff) else bytes) = bytes := by
    by_cases fresh : got = []
    · exact (if_pos fresh).trans (begins fresh)
    · exact if_neg fresh
  have kept : (Assembler.of got).data = got := rfl
  unfold metadataTurn
  simp only [kept, same, expected_of_append, if_neg present]
  rfl

theorem metadataTurn_more {got bytes rest : List UInt8} (present : bytes ≠ []) (more : rest ≠ [])
    (valid : IsSection metadataSize (got ++ bytes ++ rest)) :
    metadataTurn (.of got) bytes = .loops (.of (got ++ bytes)) [] := by
  have behind := List.length_pos_iff.2 more
  have total : (got ++ bytes).length = got.length + bytes.length := List.length_append
  have fits := valid.fits
  rw [List.length_append, total] at fits
  have begins : got = [] → bytes.dropWhile (· == 0xff) = bytes := by
    intro fresh
    subst fresh
    exact dropWhile_section present valid
  rw [metadataTurn_of present begins, Nat.min_eq_left (by omega), List.take_length,
    List.drop_length]
  rw [if_neg (expected_waits more valid), if_neg (by omega)]

theorem metadataTurn_whole {got tail : List UInt8} (present : tail ≠ [])
    (valid : IsSection metadataSize (got ++ tail)) (behind : List UInt8) :
    metadataTurn (.of got) (tail ++ behind) =
      .calls (got ++ tail) (behind.take (metadataSize - (got ++ tail).length)) := by
  have fits := valid.fits
  have header := valid.header
  have total : (got ++ tail).length = got.length + tail.length := List.length_append
  have longer : (tail ++ behind).length = tail.length + behind.length := List.length_append
  have begins : got = [] → (tail ++ behind).dropWhile (· == 0xff) = tail ++ behind := by
    intro fresh
    subst fresh
    obtain ⟨byte, others, rfl⟩ := List.exists_cons_of_ne_nil present
    have other : byte ≠ 0xff := fun same => valid.tableId (congrArg some same)
    exact List.dropWhile_cons_of_neg (by simpa using other)
  have copied : got ++ (tail ++ behind).take (min (tail ++ behind).length
      (metadataSize - got.length)) =
        got ++ tail ++ behind.take (metadataSize - (got ++ tail).length) := by
    have clipped : (tail ++ behind).take (min (tail ++ behind).length
        (metadataSize - got.length)) = (tail ++ behind).take (metadataSize - got.length) := by
      rw [List.take_eq_take_iff]
      omega
    have room : metadataSize - got.length - tail.length = metadataSize - (got ++ tail).length := by
      omega
    rw [clipped, List.take_append, List.take_of_length_le (by omega), room, List.append_assoc]
  have long : (got ++ tail ++ behind.take (metadataSize - (got ++ tail).length)).length =
      (got ++ tail).length + (behind.take (metadataSize - (got ++ tail).length)).length :=
    List.length_append
  have length : (Assembler.of (got ++ tail ++ behind.take (metadataSize -
      (got ++ tail).length))).expected = (got ++ tail).length := by
    rw [expected_of_long (by omega), declared_append header, ← valid.whole]
  rw [metadataTurn_of (by simp [present]) begins, copied]
  simp only [length]
  rw [if_pos (by omega), List.take_left' rfl, List.drop_left' rfl]

theorem metadataAppend_more {got bytes rest : List UInt8} (present : bytes ≠ []) (more : rest ≠ [])
    (valid : IsSection metadataSize (got ++ bytes ++ rest)) :
    metadataAppend (.of got) bytes = some (.of (got ++ bytes), []) :=
  metadataAppend_loops present (metadataTurn_more present more valid)

/-- The section is processed, and what is behind it is appended on its own. -/
theorem metadataAppend_whole {got tail : List UInt8} (present : tail ≠ [])
    (valid : IsSection metadataSize (got ++ tail)) (behind : List UInt8) :
    metadataAppend (.of got) (tail ++ behind) =
      (metadataAppend .empty (behind.take (metadataSize - (got ++ tail).length))).map
        fun (final, sections) => (final, (got ++ tail) :: sections) := by
  have fits := valid.fits
  rw [List.length_append] at fits
  have room : (Assembler.of got).data.length ≤ metadataSize := Nat.le_of_add_right_le fits
  exact metadataAppend_calls room (by simp [present]) (metadataTurn_whole present valid behind)

theorem metadataAppend_stuffing (count : Nat) :
    metadataAppend .empty (.replicate count 0xff) = some (.empty, []) := by
  cases count with
  | zero => rfl
  | succ count =>
      have dropped : (List.replicate (count + 1) (0xff : UInt8)).dropWhile (· == 0xff) = [] :=
        by simp
      have turn : metadataTurn .empty (.replicate (count + 1) 0xff) = .leaves .empty := by
        unfold metadataTurn
        simp only [Assembler.empty, if_true, dropped]
      rw [List.replicate_succ] at turn ⊢
      rw [metadataAppend, metadataAppendWithin, turn]

theorem metadataAppend_last {got tail : List UInt8} (present : tail ≠ [])
    (valid : IsSection metadataSize (got ++ tail)) (stuffing : Nat) :
    metadataAppend (.of got) (tail ++ .replicate stuffing 0xff) =
      some (.empty, [got ++ tail]) := by
  rw [metadataAppend_whole present valid, List.take_replicate, metadataAppend_stuffing]
  rfl

/-- Whole sections behind a start are processed one by one. -/
theorem metadataAppend_flatten {whole : List (List UInt8)} {behind : List UInt8}
    (valid : ∀ sec ∈ whole, IsSection metadataSize sec)
    (fits : (whole.flatten ++ behind).length ≤ metadataSize) :
    metadataAppend .empty (whole.flatten ++ behind) =
      (metadataAppend .empty behind).map fun (final, sections) => (final, whole ++ sections) := by
  induction whole with
  | nil => simp
  | cons sec whole ih =>
      have here := valid sec (List.mem_cons_self ..)
      rw [List.flatten_cons, List.append_assoc] at fits ⊢
      rw [List.length_append] at fits
      have room : (whole.flatten ++ behind).length ≤ metadataSize - sec.length := by omega
      have first := @metadataAppend_whole [] _ here.ne_nil here (whole.flatten ++ behind)
      rw [of_nil, List.nil_append, List.take_of_length_le room] at first
      rw [first, ih (fun other mem => valid other (List.mem_cons_of_mem _ mem)) (by omega),
        Option.map_map]
      rfl

/-! ## Packets -/

/-- What the bytes in front of the first section start complete. -/
def metadataStale (asm : Assembler) (tail : List UInt8) : Option (List (List UInt8)) :=
  if tail ≠ [] ∧ asm.data ≠ [] then (metadataAppend asm tail).map Prod.snd else some []

/-- `metadata_feed_packet` on a payload. -/
def metadataFeed (asm : Assembler) (payload : Payload) :
    Option (Assembler × List (List UInt8)) :=
  match payload.start, payload.bytes with
  | _, [] => some (asm, [])
  | false, byte :: body => metadataAppend asm (byte :: body)
  | true, pointer :: body =>
      if body.length < pointer.toNat then some (asm, [])
      else do
        let stale ← metadataStale asm (body.take pointer.toNat)
        let (final, sections) ← metadataAppend .empty (body.drop pointer.toNat)
        some (final, stale ++ sections)

/-- `metadata_feed_packet`. -/
def metadataFeedPacket (asm : Assembler) (packet : Packet) :
    Option (Assembler × List (List UInt8)) :=
  match packet.payload? with
  | some payload => metadataFeed asm payload
  | none => some (asm, [])

/-- The packets of one pid, and every section handed over. -/
def metadataFeedAll : Assembler → List Packet → Option (Assembler × List (List UInt8))
  | asm, [] => some (asm, [])
  | asm, packet :: packets => do
      let (next, sections) ← metadataFeedPacket asm packet
      let (final, more) ← metadataFeedAll next packets
      some (final, sections ++ more)

theorem metadataStale_returns {asm : Assembler} (fits : asm.data.length ≤ metadataSize)
    (tail : List UInt8) : ∃ stale, metadataStale asm tail = some stale := by
  unfold metadataStale
  by_cases held : tail ≠ [] ∧ asm.data ≠ []
  · obtain ⟨result, done, -⟩ := metadataAppend_returns fits tail
    exact ⟨result.2, by rw [if_pos held, done]; rfl⟩
  · exact ⟨[], if_neg held⟩

theorem metadataFeed_returns {asm : Assembler} (fits : asm.data.length ≤ metadataSize)
    (payload : Payload) :
    ∃ result, metadataFeed asm payload = some result ∧
      result.1.data.length ≤ metadataSize := by
  obtain ⟨start, bytes⟩ := payload
  have none : Assembler.empty.data.length ≤ metadataSize := Nat.zero_le _
  unfold metadataFeed
  cases bytes with
  | nil => exact ⟨(asm, []), rfl, fits⟩
  | cons byte body =>
      cases start with
      | false => exact metadataAppend_returns fits (byte :: body)
      | true =>
          simp only
          by_cases short : body.length < byte.toNat
          · rw [if_pos short]
            exact ⟨(asm, []), rfl, fits⟩
          · rw [if_neg short]
            obtain ⟨final, later, bound⟩ := metadataAppend_returns none (body.drop byte.toNat)
            obtain ⟨stale, before⟩ := metadataStale_returns fits (body.take byte.toNat)
            rw [before, later]
            exact ⟨(final.1, stale ++ final.2), rfl, bound⟩

/-- `metadata_feed_packet` where it returns, which is everywhere. -/
def metadataHand (asm : Assembler) (payload : Payload) : Assembler × List (List UInt8) :=
  (metadataFeed asm payload).getD (asm, [])

theorem metadataFeed_eq {asm : Assembler} (fits : asm.data.length ≤ metadataSize)
    (payload : Payload) :
    metadataFeed asm payload = some (metadataHand asm payload) ∧
      (metadataHand asm payload).1.data.length ≤ metadataSize := by
  obtain ⟨result, done, bound⟩ := metadataFeed_returns fits payload
  unfold metadataHand
  rw [done]
  exact ⟨rfl, bound⟩

theorem metadataFeedAll_eq (packets : List Packet) {asm : Assembler}
    (fits : asm.data.length ≤ metadataSize) :
    metadataFeedAll asm packets =
      some (assemble metadataHand asm (packets.filterMap Packet.payload?)) := by
  induction packets generalizing asm with
  | nil => rfl
  | cons packet packets ih =>
      rw [metadataFeedAll, metadataFeedPacket, List.filterMap_cons]
      cases packet.payload? with
      | none => simp [ih fits]
      | some payload =>
          obtain ⟨done, bound⟩ := metadataFeed_eq fits payload
          simp [done, ih bound, assemble]

theorem metadataHand_pointed {asm : Assembler} (fits : asm.data.length ≤ metadataSize)
    {tail bytes : List UInt8} (points : tail.length < 256) {final : Assembler}
    {sections : List (List UInt8)} (later : metadataAppend .empty bytes = some (final, sections)) :
    metadataHand asm ⟨true, pointed tail bytes⟩ =
      (final, (metadataStale asm tail).getD [] ++ sections) := by
  have pointer : (UInt8.ofNat tail.length).toNat = tail.length := UInt8.toNat_ofNat_of_lt points
  obtain ⟨stale, before⟩ := metadataStale_returns fits tail
  simp only [metadataHand, metadataFeed, pointed, pointer]
  rw [if_neg (by simp), List.take_left' rfl, List.drop_left' rfl, before, later]
  rfl

theorem metadataHand_plain (asm : Assembler) (bytes : List UInt8) :
    metadataHand asm ⟨false, bytes⟩ = (metadataAppend asm bytes).getD (asm, []) := by
  cases bytes <;> rfl

/-- A payload is no longer than a packet lets it be. -/
abbrev InPacket (piece : Piece) : Prop := piece.payload.bytes.length ≤ 184

theorem payload?_length {packet : Packet} {payload : Payload}
    (carries : packet.payload? = some payload) : payload.bytes.length ≤ 184 := by
  have size := packet.size
  unfold Packet.payload? at carries
  simp only at carries
  by_cases plain : octet packet.bytes 3 / 16 % 4 = 1
  · rw [if_pos plain] at carries
    cases carries
    rw [List.length_drop]
    omega
  · rw [if_neg plain] at carries
    by_cases adapted : octet packet.bytes 3 / 16 % 4 = 3 ∧ 5 + octet packet.bytes 4 ≤ 188
    · rw [if_pos adapted] at carries
      cases carries
      rw [List.length_drop]
      omega
    · rw [if_neg adapted] at carries
      exact nomatch carries

theorem Carried.inPacket {packets : List Packet} {pieces : List Piece}
    (carried : Carried packets pieces) : ∀ piece ∈ pieces, InPacket piece := by
  intro piece mem
  have there : piece.payload ∈ packets.filterMap Packet.payload? := by
    rw [carried]
    exact List.mem_map_of_mem mem
  obtain ⟨packet, -, carries⟩ := List.mem_filterMap.1 there
  exact payload?_length carries

theorem metadata_resyncs {asm : Assembler} (fits : asm.data.length ≤ metadataSize) :
    Resyncs metadataHand metadataSize InPacket Tracks asm
      fun tail => (metadataStale asm tail).getD [] := by
  intro rest rest' piece started carries valid flagged short
  cases carries with
  | middle | last => exact nomatch flagged
  | @closed _ _ stuffing starts points =>
      have room : (started.flatten ++ List.replicate stuffing (0xff : UInt8)).length ≤
          metadataSize := by
        have inside : (pointed rest (started.flatten ++ .replicate stuffing 0xff)).length ≤ 184 :=
          short
        rw [pointed, List.length_cons, List.length_append] at inside
        unfold metadataSize
        omega
      have later := metadataAppend_flatten valid room
      rw [metadataAppend_stuffing] at later
      rw [Piece.payload, metadataHand_pointed fits points later]
      exact ⟨by simp [Piece.wholes], tracks_empty⟩
  | @opened _ whole head _ starts more points =>
      have room : (whole.flatten ++ head).length ≤ metadataSize := by
        have inside : (pointed rest (whole.flatten ++ head)).length ≤ 184 := short
        rw [pointed, List.length_cons, List.length_append] at inside
        unfold metadataSize
        omega
      have here := valid _ (List.mem_append_right _ (List.mem_singleton_self _))
      have later := metadataAppend_flatten
        (fun sec mem => valid sec (List.mem_append_left _ mem)) room
      have kept := @metadataAppend_more [] _ _ starts more here
      rw [of_nil, List.nil_append] at kept
      rw [kept] at later
      rw [Piece.payload, metadataHand_pointed fits points later]
      exact ⟨by simp [Piece.wholes], tracks_of more⟩

theorem metadata_faithful : Faithful metadataHand metadataSize InPacket Tracks := by
  intro got rest rest' piece started asm tracks underway carries valid short
  by_cases flagged : piece.payload.start = true
  · have fits : asm.data.length ≤ metadataSize := by
      by_cases none : rest = []
      · subst none
        rw [show asm = .empty from tracks]
        exact Nat.zero_le _
      · have whole := (underway.valid none).fits
        rw [List.length_append] at whole
        rw [tracks.of_ne none]
        exact Nat.le_of_add_right_le whole
    obtain ⟨handed, after⟩ := metadata_resyncs fits carries valid flagged short
    obtain ⟨leaves, completes, -⟩ := carries.start_parts got flagged
    have own : (metadataStale asm rest).getD [] = pending got rest := by
      by_cases none : rest = []
      · subst none
        rw [pending_nil, metadataStale, if_neg (fun both => both.1 rfl)]
        rfl
      · have whole := metadataAppend_last none (underway.valid none) 0
        rw [List.replicate_zero, List.append_nil] at whole
        rw [tracks.of_ne none, metadataStale, if_pos ⟨none, underway.begun none⟩, whole,
          pending_of_ne none]
        rfl
    rw [handed, completes, leaves]
    exact ⟨congrArg (· ++ piece.wholes) own, after⟩
  · cases carries with
    | closed | opened => exact (flagged rfl).elim
    | @middle bytes _ more =>
        have under : bytes ++ rest' ≠ [] := by simp [more]
        have valid' := underway.valid under
        rw [← List.append_assoc] at valid'
        rw [tracks.of_ne under, Piece.payload, metadataHand_plain, Piece.leaves]
        by_cases none : bytes = []
        · rw [none, metadataAppend_nil, List.append_nil]
          exact ⟨rfl, tracks_of more⟩
        · rw [metadataAppend_more none more valid']
          exact ⟨rfl, tracks_of more⟩
    | @last _ stuffing =>
        rw [Piece.payload, metadataHand_plain]
        by_cases none : rest = []
        · subst none
          rw [show asm = .empty from tracks, List.nil_append, metadataAppend_stuffing]
          exact ⟨(pending_nil got).symm, tracks_empty⟩
        · rw [tracks.of_ne none, metadataAppend_last none (underway.valid none)]
          exact ⟨(pending_of_ne none).symm, tracks_empty⟩

/-- `metadata_append` always returns, and from the first packet that starts a
section on every section that starts is processed once, complete and in order;
in front of them comes only what the bytes before the first start complete. -/
theorem metadataFeedAll_exact {asm : Assembler} (fits : asm.data.length ≤ metadataSize)
    {packets : List Packet} {rest : List UInt8} {sections : List (List UInt8)} {first : Piece}
    {pieces : List Piece} (conforms : Conforms rest sections (first :: pieces))
    (starts : first.payload.start = true)
    (valid : ∀ sec ∈ sections, IsSection metadataSize sec)
    (carried : Carried packets (first :: pieces)) :
    (∀ data, (metadataAppend asm data).isSome) ∧
      ∃ stale, metadataStale asm rest = some stale ∧
        (metadataFeedAll asm packets).map Prod.snd = some (stale ++ sections) := by
  obtain ⟨stale, before⟩ := metadataStale_returns fits rest
  refine ⟨fun data => ?_, stale, before, ?_⟩
  · obtain ⟨result, done, -⟩ := metadataAppend_returns fits data
    rw [done]
    rfl
  · have handed := metadata_faithful.assemble_from_start (metadata_resyncs fits) conforms valid
      carried.inPacket starts
    rw [before] at handed
    rw [metadataFeedAll_eq packets fits, carried, Option.map_some, handed]
    rfl

theorem metadataFeedAll_exact_pair :
    (∀ data, (metadataAppend ⟨[0x4e, 0xf0], 7⟩ data).isSome) ∧
      ∃ stale, metadataStale ⟨[0x4e, 0xf0], 7⟩ [] = some stale ∧
        (metadataFeedAll ⟨[0x4e, 0xf0], 7⟩ [ecmPairPacket]).map Prod.snd =
          some (stale ++ ecmPair) :=
  metadataFeedAll_exact (by decide) ecmPair_conforms rfl
    (fun sec mem => (ecmPair_valid sec mem).mono (by decide)) (by rw [Carried]; decide +kernel)

end Stream
