import UsbDvbs2.Mpeg.Sections
import UsbDvbs2.Stream.Psi

/-! # Sections of the stream thread

The assembler of the stream thread keeps one section at a time: at a packet that
starts a section it lets go of what it holds, and once a section is whole it
drops the rest of the payload. A packetization gets through exactly when no
packet holds bytes of two sections.
-/

namespace Stream

open Bytes Mpeg

/-- The payload of a packet, as the adaptation field leaves it. -/
def Packet.payload? (packet : Packet) : Option Payload :=
  let control := octet packet.bytes 3 / 16 % 4
  let start : Bool := octet packet.bytes 1 / 64 % 2 = 1
  if control = 1 then some ⟨start, packet.bytes.drop 4⟩
  else if control = 3 ∧ 5 + octet packet.bytes 4 ≤ 188 then
    some ⟨start, packet.bytes.drop (5 + octet packet.bytes 4)⟩
  else none

/-- The packets of one pid carry the pieces; packets without a payload may stand
anywhere between them. -/
def Carried (packets : List Packet) (pieces : List Piece) : Prop :=
  packets.filterMap Packet.payload? = pieces.map Piece.payload

/-- `psi_assemble` packet after packet, and every section it delivers. -/
def psiAssembleAll : Assembler → List Packet → Assembler × List (List UInt8)
  | asm, [] => (asm, [])
  | asm, packet :: packets =>
      let (next, sec) := psiAssemble asm packet
      let (final, more) := psiAssembleAll next packets
      (final, sec.toList ++ more)

/-- What `psi_assemble` does with a payload. -/
def Assembler.feed (asm : Assembler) (payload : Payload) : Assembler × Option (List UInt8) :=
  match payload.start, payload.bytes with
  | _, [] => (asm, none)
  | true, pointer :: body =>
      if body.length < pointer.toNat then (asm, none)
      else if body.length = pointer.toNat then (.empty, none)
      else Assembler.collect .empty (body.drop pointer.toNat)
  | false, byte :: body => if asm.data = [] then (asm, none) else asm.collect (byte :: body)

theorem feed_drop (asm : Assembler) (packet : Packet) {offset : Nat} :
    asm.feed ⟨octet packet.bytes 1 / 64 % 2 = 1, packet.bytes.drop offset⟩ =
      if 188 ≤ offset then (asm, none)
      else if octet packet.bytes 1 / 64 % 2 = 1 then
        let pointer := octet packet.bytes offset
        if 188 < offset + 1 + pointer then (asm, none)
        else if 188 ≤ offset + 1 + pointer then (.empty, none)
        else Assembler.collect .empty (packet.bytes.drop (offset + 1 + pointer))
      else if asm.data = [] then (asm, none)
      else asm.collect (packet.bytes.drop offset) := by
  have size := packet.size
  by_cases outside : 188 ≤ offset
  · rw [if_pos outside, List.drop_eq_nil_of_le (by omega), Assembler.feed]
  · have inside : offset < packet.bytes.length := by omega
    have here : octet packet.bytes offset = (packet.bytes[offset]).toNat := by
      rw [octet, List.getD_eq_getElem?_getD, List.getElem?_eq_getElem inside, Option.getD_some]
    have long : (packet.bytes.drop (offset + 1)).length = 187 - offset := by
      rw [List.length_drop, size]
      omega
    rw [if_neg outside, List.drop_eq_getElem_cons inside]
    by_cases starts : octet packet.bytes 1 / 64 % 2 = 1
    · simp only [starts, decide_true, Assembler.feed, ← here, long, if_true, List.drop_drop]
      by_cases beyond : 188 < offset + 1 + octet packet.bytes offset
      · rw [if_pos (by omega), if_pos beyond]
      · rw [if_neg (by omega), if_neg beyond]
        by_cases full : 188 ≤ offset + 1 + octet packet.bytes offset
        · rw [if_pos (by omega), if_pos full]
        · rw [if_neg (by omega), if_neg full]
    · simp only [starts, decide_false, Assembler.feed, if_false]

theorem psiAssemble_eq (asm : Assembler) (packet : Packet) :
    psiAssemble asm packet = (packet.payload?.map asm.feed).getD (asm, none) := by
  unfold psiAssemble Packet.payload?
  by_cases plain : octet packet.bytes 3 / 16 % 4 = 1
  · simp only [plain, if_true, ne_eq, not_true, false_and, if_false, Option.map_some,
      Option.getD_some, feed_drop]
  · by_cases adapted : octet packet.bytes 3 / 16 % 4 = 3
    · by_cases fits : 5 + octet packet.bytes 4 ≤ 188
      · simp only [adapted, fits, and_self, if_true, ne_eq, not_true, and_false, if_false,
          Option.map_some, Option.getD_some, feed_drop, Nat.reduceEqDiff]
      · simp only [adapted, fits, and_false, ne_eq, not_true, if_false, Option.map_none,
          Option.getD_none, Nat.reduceEqDiff]
        rw [if_pos (by omega)]
    · simp only [plain, adapted, false_and, ne_eq, not_false_eq_true, and_self, if_true, if_false,
        Option.map_none, Option.getD_none]

/-- The assembler as a reassembler of payloads. -/
def Assembler.hand (asm : Assembler) (payload : Payload) : Assembler × List (List UInt8) :=
  ((asm.feed payload).1, (asm.feed payload).2.toList)

theorem psiAssembleAll_eq (packets : List Packet) (asm : Assembler) :
    psiAssembleAll asm packets =
      assemble Assembler.hand asm (packets.filterMap Packet.payload?) := by
  induction packets generalizing asm with
  | nil => rfl
  | cons packet packets ih =>
      rw [psiAssembleAll, psiAssemble_eq, List.filterMap_cons]
      cases packet.payload? with
      | none => simp [ih]
      | some payload => simp [ih, assemble, Assembler.hand]

/-! ## Collecting one section -/

/-- The assembler with the first bytes of a section. -/
def Assembler.of (got : List UInt8) : Assembler :=
  ⟨got, if got.length < 3 then 0 else declared got⟩

@[simp] theorem of_nil : Assembler.of [] = .empty := rfl

theorem of_ne_empty {got : List UInt8} (begun : got ≠ []) : Assembler.of got ≠ .empty :=
  fun same => begun (congrArg Assembler.data same)

/-- The expected length is what the bytes so far declare. -/
theorem expected_of_append (got bytes : List UInt8) :
    (if (Assembler.of got).expected = 0 ∧ 3 ≤ (got ++ bytes).length then declared (got ++ bytes)
      else (Assembler.of got).expected) = (Assembler.of (got ++ bytes)).expected := by
  have total : (got ++ bytes).length = got.length + bytes.length := List.length_append
  unfold Assembler.of
  simp only
  by_cases short : got.length < 3
  · by_cases still : (got ++ bytes).length < 3
    · rw [if_neg (by omega), if_pos short, if_pos still]
    · rw [if_pos ⟨if_pos short, by omega⟩, if_neg still]
  · have declares : declared (got ++ bytes) = declared got := declared_append (by omega) _
    rw [if_neg short, if_neg (fun both => declared_ne_zero got both.1), if_neg (by omega),
      declares]

theorem expected_of_long {got : List UInt8} (header : 3 ≤ got.length) :
    (Assembler.of got).expected = declared got := if_neg (by omega)

theorem expected_eq_zero {got : List UInt8} : (Assembler.of got).expected = 0 ↔ got.length < 3 := by
  constructor
  · intro zero
    by_contra long
    rw [expected_of_long (Nat.le_of_not_lt long)] at zero
    exact declared_ne_zero got zero
  · exact fun short => if_pos short

/-- A length that is known comes from three bytes. -/
theorem header_of_expected {got : List UInt8} {limit : Nat}
    (long : limit < (Assembler.of got).expected) : 3 ≤ got.length := by
  by_contra header
  rw [expected_eq_zero.2 (Nat.lt_of_not_le header)] at long
  exact Nat.not_lt_zero _ long

/-- What is kept of a section under way and of some bytes behind it. -/
theorem collect_of {got bytes : List UInt8}
    (room : bytes.take (assemblerSize - got.length) ≠ []) :
    (Assembler.of got).collect bytes =
      let all := got ++ bytes.take (assemblerSize - got.length)
      if got.length < 3 ∧ assemblerSize < (Assembler.of all).expected then (.empty, none)
      else if (Assembler.of all).expected ≠ 0 ∧ (Assembler.of all).expected ≤ all.length then
        (.empty, some (all.take (Assembler.of all).expected))
      else (.of all, none) := by
  have some := List.length_pos_iff.2 room
  unfold Assembler.collect
  have kept : (Assembler.of got).data = got := rfl
  simp only [kept]
  generalize bytes.take (assemblerSize - got.length) = more at some
  have both : (got ++ more).length = got.length + more.length := List.length_append
  have declares := expected_of_append got more
  rw [declared] at declares
  simp only [declares]
  rw [if_neg (by omega)]
  have opens : ((Assembler.of got).expected = 0 ∧ 3 ≤ (got ++ more).length) ∧
      assemblerSize < (Assembler.of (got ++ more)).expected ↔
        got.length < 3 ∧ assemblerSize < (Assembler.of (got ++ more)).expected := by
    constructor
    · rintro ⟨⟨zero, -⟩, long⟩
      exact ⟨expected_eq_zero.1 zero, long⟩
    · rintro ⟨short, long⟩
      exact ⟨⟨expected_eq_zero.2 short, header_of_expected long⟩, long⟩
  simp only [opens]
  rfl

/-- Until all of it is there, a section of which some bytes have come does not end. -/
theorem expected_waits {limit : Nat} {got rest : List UInt8} (more : rest ≠ [])
    (valid : IsSection limit (got ++ rest)) :
    ¬ ((Assembler.of got).expected ≠ 0 ∧ (Assembler.of got).expected ≤ got.length) := by
  intro ⟨known, whole⟩
  have behind := List.length_pos_iff.2 more
  have header : 3 ≤ got.length := header_of_expected (Nat.pos_of_ne_zero known)
  rw [expected_of_long header, valid.declared_head header] at whole
  omega

/-- Bytes of a section that goes on are kept, its length from the third on. -/
theorem collect_more {got bytes rest : List UInt8} (present : bytes ≠ []) (more : rest ≠ [])
    (valid : IsSection assemblerSize (got ++ bytes ++ rest)) :
    (Assembler.of got).collect bytes = (.of (got ++ bytes), none) := by
  have fits := valid.fits
  have both : (got ++ bytes).length = got.length + bytes.length := List.length_append
  rw [List.length_append, both] at fits
  have kept : bytes.take (assemblerSize - got.length) = bytes :=
    List.take_of_length_le (by omega)
  rw [collect_of (by rwa [kept]), kept]
  have short : ¬ assemblerSize < (Assembler.of (got ++ bytes)).expected := by
    intro long
    have header : 3 ≤ (got ++ bytes).length := header_of_expected long
    rw [expected_of_long header, valid.declared_head header] at long
    omega
  rw [if_neg fun both => short both.2, if_neg (expected_waits more valid)]

/-- The section is handed on with its last byte, and what is behind it is lost. -/
theorem collect_whole {got tail : List UInt8} (present : tail ≠ [])
    (valid : IsSection assemblerSize (got ++ tail)) (behind : List UInt8) :
    (Assembler.of got).collect (tail ++ behind) = (.empty, some (got ++ tail)) := by
  have here := List.length_pos_iff.2 present
  have fits := valid.fits
  have header := valid.header
  have both : (got ++ tail).length = got.length + tail.length := List.length_append
  obtain ⟨extra, kept⟩ : ∃ extra, (tail ++ behind).take (assemblerSize - got.length) =
      tail ++ extra := by
    rw [List.take_append, List.take_of_length_le (by omega)]
    exact ⟨_, rfl⟩
  have long : (got ++ tail ++ extra).length = (got ++ tail).length + extra.length :=
    List.length_append
  have length : (Assembler.of (got ++ tail ++ extra)).expected = (got ++ tail).length := by
    rw [expected_of_long (by omega), declared_append header, ← valid.whole]
  rw [collect_of (by simp [kept, present]), kept, ← List.append_assoc]
  simp only [length]
  rw [if_neg (by omega), if_pos (by omega), List.take_left' rfl]

/-! ## One payload -/

variable {asm : Assembler} {got rest rest' : List UInt8} {piece : Piece}
  {started : List (List UInt8)}

/-- A pointer leads over the end of the section before. -/
theorem feed_pointed {tail bytes : List UInt8} (points : tail.length < 256) (asm : Assembler) :
    asm.feed ⟨true, pointed tail bytes⟩ =
      if bytes = [] then (.empty, none) else Assembler.collect .empty bytes := by
  have pointer : (UInt8.ofNat tail.length).toNat = tail.length := UInt8.toNat_ofNat_of_lt points
  have both : (tail ++ bytes).length = tail.length + bytes.length := List.length_append
  simp only [Assembler.feed, pointed, pointer]
  rw [if_neg (by omega)]
  by_cases none : bytes = []
  · rw [if_pos none, if_pos (by simp [none])]
  · have some := List.length_pos_iff.2 none
    rw [if_neg none, if_neg (by omega), List.drop_left' rfl]

theorem feed_behind {bytes : List UInt8} (present : bytes ≠ []) (begun : got ≠ []) :
    (Assembler.of got).feed ⟨false, bytes⟩ = (Assembler.of got).collect bytes := by
  obtain ⟨byte, body, rfl⟩ := List.exists_cons_of_ne_nil present
  exact if_neg begun

/-- Without a section under way only a start is looked at. -/
theorem feed_empty (bytes : List UInt8) :
    Assembler.empty.feed ⟨false, bytes⟩ = (.empty, none) := by
  cases bytes <;> rfl

/-- The first section behind the pointer is handed on. -/
theorem feed_closed {tail sec : List UInt8} {more : List (List UInt8)} {behind : List UInt8}
    (points : tail.length < 256) (valid : IsSection assemblerSize sec) (asm : Assembler) :
    asm.feed ⟨true, pointed tail ((sec :: more).flatten ++ behind)⟩ = (.empty, some sec) := by
  rw [feed_pointed points, List.flatten_cons, List.append_assoc,
    if_neg (by simp [valid.ne_nil])]
  exact @collect_whole [] _ valid.ne_nil valid _

/-- The first bytes of a section behind the pointer are kept. -/
theorem feed_opened {tail head rest : List UInt8} (points : tail.length < 256)
    (starts : head ≠ []) (more : rest ≠ []) (valid : IsSection assemblerSize (head ++ rest))
    (asm : Assembler) : asm.feed ⟨true, pointed tail head⟩ = (.of head, none) := by
  rw [feed_pointed points, if_neg starts]
  exact @collect_more [] _ _ starts more valid

/-- The assembler holds what has come of the section under way. -/
def Tracks (got rest : List UInt8) (asm : Assembler) : Prop :=
  asm = if rest = [] then .empty else .of got

theorem Tracks.of_ne (tracks : Tracks got rest asm) (more : rest ≠ []) : asm = .of got :=
  tracks.trans (if_neg more)

theorem tracks_of (more : rest ≠ []) : Tracks got rest (.of got) := (if_neg more).symm

theorem tracks_empty : Tracks got [] .empty := (if_pos rfl).symm

/-- A payload with bytes of one section gets through. -/
theorem psi_faithful : Faithful Assembler.hand assemblerSize (·.held ≤ 1) Tracks := by
  intro got rest rest' piece started asm tracks underway carries valid single
  unfold Assembler.hand
  cases carries with
  | @middle bytes _ more =>
      have under : bytes ++ rest' ≠ [] := by simp [more]
      have begun := underway.begun under
      have section_ := underway.valid under
      rw [tracks.of_ne under]
      by_cases none : bytes = []
      · subst none
        refine ⟨rfl, ?_⟩
        rw [Piece.leaves, List.append_nil]
        exact tracks_of more
      · rw [Piece.payload, feed_behind none begun,
          collect_more none more (by rwa [List.append_assoc])]
        exact ⟨rfl, tracks_of more⟩
  | last =>
      rw [Piece.payload]
      by_cases none : rest = []
      · subst none
        rw [show asm = .empty from tracks, feed_empty]
        exact ⟨rfl, tracks_empty⟩
      · rw [tracks.of_ne none, feed_behind (by simp [none]) (underway.begun none),
          collect_whole none (underway.valid none)]
        exact ⟨(pending_of_ne none).symm, tracks_empty⟩
  | @closed _ whole stuffing starts points =>
      rw [Piece.payload]
      rw [Piece.held] at single
      obtain ⟨sec, more, rfl⟩ := List.exists_cons_of_ne_nil starts
      rw [List.length_cons] at single
      obtain rfl : more = [] := List.length_eq_zero_iff.1 (by omega)
      obtain rfl : rest = [] := absent_of_zero (by omega)
      rw [feed_closed points (valid sec (by simp))]
      exact ⟨rfl, tracks_empty⟩
  | @opened _ whole head _ starts more points =>
      rw [Piece.payload]
      rw [Piece.held, present_of_ne starts] at single
      obtain rfl : whole = [] := List.length_eq_zero_iff.1 (by omega)
      obtain rfl : rest = [] := absent_of_zero (by omega)
      rw [List.flatten_nil, List.nil_append,
        feed_opened points starts more (valid _ (List.mem_singleton_self _))]
      exact ⟨rfl, tracks_of more⟩

/-! ## Several sections in one packet -/

/-- The assembler lags behind: it holds the section under way or nothing. -/
def Behind (got rest : List UInt8) (asm : Assembler) : Prop := asm = .empty ∨ Tracks got rest asm

/-- The sections that an assembler may still deliver of those under way. -/
def Assembler.due (asm : Assembler) : Nat := if asm = .empty then 0 else 1

theorem due_of {got : List UInt8} (begun : got ≠ []) : (Assembler.of got).due = 1 :=
  if_neg (of_ne_empty begun)

theorem Tracks.due_eq (tracks : Tracks got rest asm) (underway : Underway assemblerSize got rest) :
    asm.due = (pending got rest).length := by
  by_cases none : rest = []
  · subst none
    rw [show asm = .empty from tracks, pending_nil]
    rfl
  · rw [tracks.of_ne none, due_of (underway.begun none), pending_of_ne none]
    rfl

/-- What a payload that starts a section delivers, whatever the assembler held. -/
theorem hand_start (got : List UInt8) (asm : Assembler) (carries : Carries rest piece started rest')
    (valid : ∀ sec ∈ started, IsSection assemblerSize sec)
    (flagged : piece.payload.start = true) :
    Behind (piece.leaves got) rest' (asm.hand piece.payload).1 ∧
      (asm.hand piece.payload).2.length + (asm.hand piece.payload).1.due = 1 ∧
        present rest + started.length = piece.held ∧ started ≠ [] := by
  unfold Assembler.hand
  cases carries with
  | middle | last => exact nomatch flagged
  | @closed _ whole stuffing starts points =>
      rw [Piece.payload]
      obtain ⟨sec, more, rfl⟩ := List.exists_cons_of_ne_nil starts
      rw [feed_closed points (valid sec (by simp))]
      exact ⟨.inl rfl, rfl, rfl, starts⟩
  | @opened _ whole head _ starts more points =>
      rw [Piece.payload, Piece.held, present_of_ne starts, List.length_append, Nat.add_assoc]
      cases whole with
      | nil =>
          rw [List.flatten_nil, List.nil_append,
            feed_opened points starts more (valid _ (List.mem_singleton_self _))]
          exact ⟨.inr (tracks_of more), by simp [due_of starts], rfl, by simp⟩
      | cons sec others =>
          rw [feed_closed points (valid sec (by simp))]
          exact ⟨.inl rfl, rfl, rfl, by simp⟩

/-- Only a payload that starts a section has bytes of more than one. -/
theorem held_le_of_not_start (carries : Carries rest piece started rest')
    (plain : ¬ piece.payload.start = true) : piece.held ≤ 1 := by
  cases carries with
  | middle => exact present_le _
  | last => exact present_le _
  | closed | opened => exact (plain rfl).elim

/-- While the assembler tracks the sections and a payload has bytes of one only,
what is delivered and what is due add up. -/
theorem hand_eq (tracks : Tracks got rest asm) (underway : Underway assemblerSize got rest)
    (carries : Carries rest piece started rest')
    (valid : ∀ sec ∈ started, IsSection assemblerSize sec) (single : piece.held ≤ 1) :
    (asm.hand piece.payload).2.length + (pending (piece.leaves got) rest').length =
      (pending got rest).length + started.length := by
  rw [(psi_faithful tracks underway carries valid single).1, ← List.length_append,
    carries.completes_pending, List.length_append]

/-- One payload never delivers more than what is due and what starts in it. -/
theorem hand_le (behind : Behind got rest asm) (underway : Underway assemblerSize got rest)
    (carries : Carries rest piece started rest')
    (valid : ∀ sec ∈ started, IsSection assemblerSize sec) :
    Behind (piece.leaves got) rest' (asm.hand piece.payload).1 ∧
      (asm.hand piece.payload).2.length + (asm.hand piece.payload).1.due ≤
        asm.due + started.length := by
  by_cases flagged : piece.payload.start = true
  · obtain ⟨lags, one, -, some⟩ := hand_start got asm carries valid flagged
    have counted := List.length_pos_iff.2 some
    exact ⟨lags, by omega⟩
  · have single := held_le_of_not_start carries flagged
    rcases behind with rfl | tracks
    · have nothing : Assembler.empty.hand piece.payload = (.empty, []) := by
        cases carries with
        | middle => simp [Assembler.hand, Piece.payload, feed_empty]
        | last => simp [Assembler.hand, Piece.payload, feed_empty]
        | closed | opened => exact (flagged rfl).elim
      rw [nothing]
      exact ⟨.inl rfl, by simp⟩
    · have goes := (psi_faithful tracks underway carries valid single).2
      have counted := hand_eq tracks underway carries valid single
      rw [← tracks.due_eq underway, ← goes.due_eq (carries.underway underway valid)] at counted
      exact ⟨.inr goes, by omega⟩

/-- With bytes of two sections in a payload, one of them is lost. -/
theorem hand_lt (got : List UInt8) (asm : Assembler) (carries : Carries rest piece started rest')
    (valid : ∀ sec ∈ started, IsSection assemblerSize sec) (several : 2 ≤ piece.held) :
    Behind (piece.leaves got) rest' (asm.hand piece.payload).1 ∧
      (asm.hand piece.payload).2.length + (asm.hand piece.payload).1.due <
        (pending got rest).length + started.length := by
  have flagged : piece.payload.start = true := by
    by_contra plain
    have single := held_le_of_not_start carries plain
    omega
  obtain ⟨lags, one, counted, -⟩ := hand_start got asm carries valid flagged
  have under : (pending got rest).length = present rest := by
    unfold pending present
    split <;> rfl
  exact ⟨lags, by omega⟩

/-- However the packets are laid out, nothing is delivered twice. -/
theorem assemble_le {sections : List (List UInt8)} {pieces : List Piece}
    (conforms : Conforms rest sections pieces)
    (valid : ∀ sec ∈ sections, IsSection assemblerSize sec) (behind : Behind got rest asm)
    (underway : Underway assemblerSize got rest) :
    (assemble Assembler.hand asm (pieces.map Piece.payload)).2.length ≤
      asm.due + sections.length := by
  induction conforms generalizing got asm with
  | done => simp [assemble]
  | @next rest rest' piece started sections pieces carries conforms ih =>
      have here : ∀ sec ∈ started, IsSection assemblerSize sec := fun sec mem =>
        valid sec (List.mem_append_left _ mem)
      obtain ⟨lags, bound⟩ := hand_le behind underway carries here
      have later := ih (fun sec mem => valid sec (List.mem_append_right _ mem)) lags
        (carries.underway underway here)
      rw [List.map_cons, assemble, List.length_append, List.length_append]
      omega

/-- One packet with bytes of two sections is enough to lose one. -/
theorem assemble_lt {sections : List (List UInt8)} {pieces : List Piece}
    (conforms : Conforms rest sections pieces)
    (valid : ∀ sec ∈ sections, IsSection assemblerSize sec) (tracks : Tracks got rest asm)
    (underway : Underway assemblerSize got rest) (several : ∃ piece ∈ pieces, 2 ≤ piece.held) :
    (assemble Assembler.hand asm (pieces.map Piece.payload)).2.length <
      (pending got rest).length + sections.length := by
  induction conforms generalizing got asm with
  | done =>
      obtain ⟨piece, mem, -⟩ := several
      exact nomatch mem
  | @next rest rest' piece started sections pieces carries conforms ih =>
      have here : ∀ sec ∈ started, IsSection assemblerSize sec := fun sec mem =>
        valid sec (List.mem_append_left _ mem)
      have there : ∀ sec ∈ sections, IsSection assemblerSize sec := fun sec mem =>
        valid sec (List.mem_append_right _ mem)
      have goes := carries.underway underway here
      rw [List.map_cons, assemble, List.length_append, List.length_append]
      by_cases single : piece.held ≤ 1
      · have counted := hand_eq tracks underway carries here single
        have later := ih there (psi_faithful tracks underway carries here single).2 goes <| by
          obtain ⟨other, mem, two⟩ := several
          rcases List.mem_cons.1 mem with rfl | mem
          · omega
          · exact ⟨other, mem, two⟩
        omega
      · obtain ⟨lags, bound⟩ := hand_lt got asm carries here (by omega)
        have later := assemble_le conforms there lags goes
        omega

/-- Exactly the sections of a packetization are delivered, complete and in
order, if and only if no packet has bytes of more than one section. -/
theorem psiAssembleAll_exact {sections : List (List UInt8)} {pieces : List Piece}
    {packets : List Packet} (valid : ∀ sec ∈ sections, IsSection assemblerSize sec)
    (conforms : Conforms [] sections pieces) (carried : Carried packets pieces) :
    (psiAssembleAll .empty packets).2 = sections ↔ ∀ piece ∈ pieces, piece.held ≤ 1 := by
  rw [psiAssembleAll_eq, carried]
  constructor
  · intro exact_ piece mem
    by_contra several
    have fewer := assemble_lt conforms valid tracks_empty (.nil []) ⟨piece, mem, by omega⟩
    rw [exact_, pending_nil] at fewer
    simp at fewer
  · intro single
    rw [psi_faithful.assemble_eq tracks_empty (.nil []) conforms valid single, pending_nil,
      List.nil_append]

/-- The ECMs of both parities, in one packet. -/
def ecmPair : List (List UInt8) := [[0x80, 0x70, 0x01, 0xaa], [0x81, 0x70, 0x01, 0xbb]]

def ecmPairPacket : Packet where
  bytes := [0x47, 0x45, 0x00, 0x10] ++ (Piece.closed [] ecmPair 175).payload.bytes
  size := by decide +kernel

theorem ecmPair_valid : ∀ sec ∈ ecmPair, IsSection assemblerSize sec := by
  intro sec mem
  rw [ecmPair, List.mem_cons, List.mem_singleton] at mem
  rcases mem with rfl | rfl
  · exact ⟨by decide, by decide, by decide, by decide⟩
  · exact ⟨by decide, by decide, by decide, by decide⟩

theorem ecmPair_conforms : Conforms [] ecmPair [.closed [] ecmPair 175] :=
  have carries : Carries [] (.closed [] ecmPair 175) ecmPair [] :=
    .closed (by decide) (by decide)
  .next carries .done

/-- The second of two ECMs is not delivered. -/
theorem psiAssembleAll_loses : ∃ sections pieces packets,
    (∀ sec ∈ sections, IsSection assemblerSize sec) ∧ Conforms [] sections pieces ∧
      Carried packets pieces ∧ (psiAssembleAll .empty packets).2 ≠ sections :=
  ⟨ecmPair, [.closed [] ecmPair 175], [ecmPairPacket], ecmPair_valid, ecmPair_conforms,
    by rw [Carried]; decide +kernel, by decide +kernel⟩

theorem psiAssembleAll_exact_pair :
    (psiAssembleAll .empty [ecmPairPacket]).2 = ecmPair ↔
      ∀ piece ∈ [Piece.closed [] ecmPair 175], piece.held ≤ 1 :=
  psiAssembleAll_exact ecmPair_valid ecmPair_conforms (by rw [Carried]; decide +kernel)

end Stream
