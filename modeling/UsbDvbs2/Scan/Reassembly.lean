import UsbDvbs2.Stream.Sections

/-! # Reassembly of a capture

The file scanner keeps one context for every table pid, and once a context is
there only the packets of its pid touch it. It takes the header of a section byte
by byte, copies no further than the section's end and goes on behind it, so it
follows every packetization from the first section start on.
-/

namespace Scan

open Bytes Mpeg Stream

/-- `psi_context`: the bytes collected so far, the length once it is known. -/
structure Context where
  data : List UInt8
  expected : Nat
  active : Bool
  deriving DecidableEq

/-- `context_reset`. -/
def Context.zero : Context := ⟨[], 0, false⟩

def maxSection : Nat := 4096

/-- The loop of `append_section` for an active context: the bytes consumed, and
the section handed over. It is left with the section, and with a length that
does not fit. -/
def Context.appendLoop : Context → List UInt8 → Context × Nat × Option (List UInt8)
  | ctx, [] => (ctx, 0, none)
  | ctx, byte :: more =>
      if ctx.data.length < 3 then
        let data := ctx.data ++ [byte]
        let expected := if data.length = 3 then declared data else ctx.expected
        if data.length = 3 ∧ maxSection < expected then (.zero, 1, none)
        else if expected ≠ 0 ∧ data.length = expected then (.zero, 1, some data)
        else
          let (final, used, sec) := appendLoop ⟨data, expected, true⟩ more
          (final, used + 1, sec)
      else
        -- what is still needed, or everything there is: no further turn
        let take := min (ctx.expected - ctx.data.length) (more.length + 1)
        let data := ctx.data ++ (byte :: more).take take
        if data.length = ctx.expected then (.zero, take, some data)
        else ({ ctx with data := data }, take, none)

/-- `append_section`. -/
def Context.appendSection (ctx : Context) (data : List UInt8) :
    Context × Nat × Option (List UInt8) :=
  if ctx.active then ctx.appendLoop data
  else if data.head? = some 0xff then (ctx, data.length, none)
  else if data = [] then (ctx, 0, none)
  else { ctx with active := true }.appendLoop data

/-- At most `fuel` turns of the loop of `process_payload`. -/
def Context.drainWithin : Nat → Context → List UInt8 → Context × List (List UInt8)
  | 0, ctx, _ => (ctx, [])
  | fuel + 1, ctx, data =>
      if data = [] then (ctx, [])
      else
        let (next, used, sec) := ctx.appendSection data
        if used = 0 then (next, sec.toList)
        else
          let (final, more) := drainWithin fuel next (data.drop used)
          (final, sec.toList ++ more)

/-- The loop of `process_payload`; a turn that goes on consumes something. -/
def Context.drain (ctx : Context) (data : List UInt8) : Context × List (List UInt8) :=
  ctx.drainWithin data.length data

/-- `process_payload`, and the sections that it hands to `parse_section`. -/
def Context.processPayload (ctx : Context) (payload : Payload) :
    Context × List (List UInt8) :=
  match payload.start, payload.bytes with
  | _, [] => (ctx, [])
  | true, pointer :: body =>
      if body.length < pointer.toNat then (.zero, [])
      else
        let stale :=
          if ctx.active ∧ pointer ≠ 0 then (ctx.appendSection (body.take pointer.toNat)).2.2
          else none
        let (final, sections) := Context.zero.drain (body.drop pointer.toNat)
        (final, stale.toList ++ sections)
  | false, byte :: body => ctx.drain (byte :: body)

/-- A packet of the capture that reaches a pid's context. -/
def reaches (pid : UInt16) (packet : Packet) : Bool :=
  octet packet.bytes 0 == 0x47 && packet.pid == pid

/-- One packet of `dtv_ts_scan_file`, for the context of `pid`. -/
def scanPacket (pid : UInt16) (ctx : Context) (packet : Packet) : Context × List (List UInt8) :=
  if reaches pid packet then
    match packet.payload? with
    | some payload => ctx.processPayload payload
    | none => (ctx, [])
  else (ctx, [])

/-- A stretch of a capture, and every section handed over from `pid`. -/
def scan (pid : UInt16) : Context → List Packet → Context × List (List UInt8)
  | ctx, [] => (ctx, [])
  | ctx, packet :: packets =>
      let (next, sections) := scanPacket pid ctx packet
      let (final, more) := scan pid next packets
      (final, sections ++ more)

theorem scan_eq (pid : UInt16) (packets : List Packet) (ctx : Context) :
    scan pid ctx packets =
      assemble Context.processPayload ctx
        ((packets.filter (reaches pid)).filterMap Packet.payload?) := by
  induction packets generalizing ctx with
  | nil => rfl
  | cons packet packets ih =>
      rw [scan, scanPacket, List.filter_cons]
      by_cases here : reaches pid packet = true
      · rw [if_pos here, if_pos here, List.filterMap_cons]
        cases packet.payload? with
        | none => simp [ih]
        | some payload => simp [ih, assemble]
      · rw [if_neg here, if_neg here]
        simp [ih]

/-! ## What a stretch of bytes does -/

/-- The context with the first bytes of a section. -/
def Context.of (got : List UInt8) : Context :=
  ⟨got, if got.length < 3 then 0 else declared got, got ≠ []⟩

@[simp] theorem of_nil : Context.of [] = .zero := rfl

/-- A section under way that is not complete yet and fits. -/
def Open (got : List UInt8) : Prop :=
  3 ≤ got.length → got.length < declared got ∧ declared got ≤ maxSection

theorem open_head {got rest : List UInt8} (valid : IsSection maxSection (got ++ rest))
    (more : rest ≠ []) : Open got := by
  intro header
  have behind := List.length_pos_iff.2 more
  have length := valid.declared_head header
  have fits := valid.fits
  rw [List.length_append] at fits
  omega

/-- Where `append_section` stops in the bytes since the section's first. -/
def settle (all : List UInt8) : Context × Nat × Option (List UInt8) :=
  if 3 ≤ all.length ∧ maxSection < declared all then (.zero, 3, none)
  else if 3 ≤ all.length ∧ declared all ≤ all.length then
    (.zero, declared all, some (all.take (declared all)))
  else (.of all, all.length, none)

theorem le_settle (all : List UInt8) : min 3 all.length ≤ (settle all).2.1 := by
  have header := declared_header all
  unfold settle
  split
  · exact Nat.min_le_left _ _
  · split
    · exact Nat.le_trans (Nat.min_le_left _ _) header
    · exact Nat.min_le_right _ _

/-- Where `append_section` ends up after `got` with more bytes. -/
def outcome (got data : List UInt8) : Context × Nat × Option (List UInt8) :=
  ((settle (got ++ data)).1, (settle (got ++ data)).2.1 - got.length, (settle (got ++ data)).2.2)

theorem of_of_short {data : List UInt8} (begun : data ≠ []) (short : data.length < 3) :
    Context.of data = ⟨data, 0, true⟩ := by
  rw [Context.of, if_pos short, decide_eq_true begun]

theorem of_of_long {data : List UInt8} (header : 3 ≤ data.length) :
    Context.of data = ⟨data, declared data, true⟩ := by
  have begun : data ≠ [] := by
    intro nil
    rw [nil] at header
    exact absurd header (by decide)
  rw [Context.of, if_neg (by omega), decide_eq_true begun]

/-- A byte of the header is one of those that are used. -/
theorem outcome_cons {got : List UInt8} (short : got.length < 3) (byte : UInt8)
    (more : List UInt8) :
    outcome got (byte :: more) =
      ((outcome (got ++ [byte]) more).1, (outcome (got ++ [byte]) more).2.1 + 1,
        (outcome (got ++ [byte]) more).2.2) := by
  have split : got ++ byte :: more = got ++ [byte] ++ more := by simp
  have long : (got ++ [byte]).length = got.length + 1 := by simp
  have total : (got ++ byte :: more).length = got.length + (more.length + 1) := by simp
  have stop := le_settle (got ++ byte :: more)
  rw [outcome, outcome, ← split, long, show (settle (got ++ byte :: more)).2.1 -
    (got.length + 1) + 1 = (settle (got ++ byte :: more)).2.1 - got.length by omega]

/-- Behind the header, all that the section still needs is taken at once. -/
theorem appendLoop_body {got : List UInt8} (fits : Open got) (header : 3 ≤ got.length)
    (byte : UInt8) (more : List UInt8) :
    (Context.of got).appendLoop (byte :: more) = outcome got (byte :: more) := by
  have inside := fits header
  have total : (got ++ byte :: more).length = got.length + (more.length + 1) := by simp
  have known : declared (got ++ byte :: more) = declared got := declared_append header _
  have size : (byte :: more).length = more.length + 1 := rfl
  have room : ¬ (3 ≤ (got ++ byte :: more).length ∧ maxSection < declared got) := by omega
  rw [Context.appendLoop,
    if_neg (show ¬ (Context.of got).data.length < 3 from Nat.not_lt.2 header),
    of_of_long header, outcome, settle, known, if_neg room, total]
  simp only
  by_cases whole : declared got ≤ got.length + (more.length + 1)
  · have needed : ((byte :: more).take (declared got - got.length)).length =
        declared got - got.length := List.length_take_of_le (by omega)
    have taken : (got ++ byte :: more).take (declared got) =
        got ++ (byte :: more).take (declared got - got.length) := by
      have inside' : got.length ≤ declared got := by omega
      rw [List.take_append, List.take_of_length_le inside']
    rw [Nat.min_eq_left (by omega), if_pos (by rw [List.length_append, needed]; omega),
      if_pos ⟨by omega, whole⟩, taken]
  · rw [Nat.min_eq_right (by omega), List.take_of_length_le (by omega), if_neg (by omega),
      if_neg (fun both => whole both.2), of_of_long (by omega), known,
      show got.length + (more.length + 1) - got.length = more.length + 1 by omega]

/-- The loop of `append_section`, where a section has begun. -/
theorem appendLoop_of (data : List UInt8) {got : List UInt8} (fits : Open got) :
    (Context.of got).appendLoop data = outcome got data := by
  induction data generalizing got with
  | nil =>
      rw [Context.appendLoop, outcome, settle, List.append_nil]
      rw [if_neg (fun large => by have := fits large.1; omega),
        if_neg (fun whole => by have := fits whole.1; omega), Nat.sub_self]
  | cons byte more ih =>
      by_cases short : got.length < 3
      case neg => exact appendLoop_body fits (Nat.le_of_not_lt short) byte more
      have split : got ++ byte :: more = got ++ [byte] ++ more := by simp
      have long : (got ++ [byte]).length = got.length + 1 := by simp
      have header := declared_header (got ++ [byte])
      have begun : got ++ [byte] ≠ [] := by simp
      have unknown : (Context.of got).expected = 0 := if_pos short
      rw [Context.appendLoop, if_pos (show (Context.of got).data.length < 3 from short)]
      simp only [unknown, show (Context.of got).data = got from rfl]
      by_cases three : (got ++ [byte]).length = 3
      · have declares : declared (got ++ byte :: more) = declared (got ++ [byte]) := by
          rw [split, declared_append (by omega)]
        have total : (got ++ byte :: more).length = got.length + (more.length + 1) := by simp
        simp only [three, if_true, true_and]
        by_cases large : maxSection < declared (got ++ [byte])
        · rw [if_pos large, outcome, settle, declares, if_pos ⟨by omega, large⟩,
            show 3 - got.length = 1 by omega]
        · rw [if_neg large]
          by_cases least : declared (got ++ [byte]) = 3
          · rw [if_pos ⟨declared_ne_zero _, least.symm⟩, outcome, settle, declares,
              if_neg (fun both => large both.2), if_pos ⟨by omega, by omega⟩, least, split,
              ← three, List.take_left' rfl, three, show 3 - got.length = 1 by omega]
          · rw [if_neg (fun both => least both.2.symm), ← of_of_long (by omega),
              ih (fun _ => by omega), outcome_cons short]
      · simp only [three, if_false, false_and, ne_eq, not_true]
        rw [← of_of_short begun (by omega), ih (fun known => by omega), outcome_cons short]

theorem open_nil : Open [] := fun header => absurd header (by decide)

/-- `append_section`, unless there is nothing or stuffing where a section would begin. -/
theorem appendSection_of {got data : List UInt8} (fits : Open got) (present : data ≠ [])
    (begins : got = [] → data.head? ≠ some 0xff) :
    (Context.of got).appendSection data = outcome got data := by
  rw [← appendLoop_of data fits]
  by_cases fresh : got = []
  · subst fresh
    obtain ⟨byte, more, rfl⟩ := List.exists_cons_of_ne_nil present
    have idle : (Context.of []).active = false := rfl
    rw [Context.appendSection, idle, if_neg (by decide), if_neg (begins rfl), if_neg present]
    rfl
  · exact if_pos (decide_eq_true fresh)

theorem appendSection_stuffing (count : Nat) :
    Context.zero.appendSection (.replicate (count + 1) 0xff) = (.zero, count + 1, none) := by
  rw [Context.appendSection, if_neg (by decide), List.replicate_succ, if_pos List.head?_cons,
    List.length_cons, List.length_replicate]

/-- Bytes of a section that goes on are kept. -/
theorem outcome_more {got bytes rest : List UInt8} (more : rest ≠ [])
    (valid : IsSection maxSection (got ++ bytes ++ rest)) :
    outcome got bytes = (.of (got ++ bytes), bytes.length, none) := by
  have fits := open_head valid more
  have all : (got ++ bytes).length - got.length = bytes.length := by simp
  rw [outcome, settle, if_neg (fun large => by have := fits large.1; omega),
    if_neg (fun whole => by have := fits whole.1; omega), all]

/-- The section is handed over with its last byte, and nothing behind it is touched. -/
theorem outcome_whole {got tail : List UInt8} (valid : IsSection maxSection (got ++ tail))
    (behind : List UInt8) :
    outcome got (tail ++ behind) = (.zero, tail.length, some (got ++ tail)) := by
  have header := valid.header
  have fits := valid.fits
  have length : declared (got ++ tail ++ behind) = (got ++ tail).length := by
    rw [declared_append header, ← valid.whole]
  have all : (got ++ tail).length - got.length = tail.length := by simp
  have total : (got ++ tail ++ behind).length = (got ++ tail).length + behind.length :=
    List.length_append
  rw [outcome, settle, ← List.append_assoc, length, if_neg (by omega), if_pos (by omega), all,
    List.take_left' rfl]

/-! ## One payload -/

/-- Every turn that goes on consumes something, so there is fuel for all of them. -/
theorem drainWithin_enough {fuel more : Nat} {ctx : Context} {data : List UInt8}
    (enough : data.length ≤ fuel) (still : data.length ≤ more) :
    ctx.drainWithin fuel data = ctx.drainWithin more data := by
  induction fuel generalizing more ctx data with
  | zero =>
      obtain rfl : data = [] := List.length_eq_zero_iff.1 (by omega)
      cases more with
      | zero => rfl
      | succ more => rw [Context.drainWithin, Context.drainWithin, if_pos rfl]
  | succ fuel ih =>
      cases more with
      | zero =>
          obtain rfl : data = [] := List.length_eq_zero_iff.1 (by omega)
          rw [Context.drainWithin, Context.drainWithin, if_pos rfl]
      | succ more =>
          rw [Context.drainWithin, Context.drainWithin]
          by_cases nothing : data = []
          · rw [if_pos nothing, if_pos nothing]
          · rw [if_neg nothing, if_neg nothing]
            simp only
            by_cases stuck : (ctx.appendSection data).2.1 = 0
            · rw [if_pos stuck, if_pos stuck]
            · have some := List.length_pos_iff.2 nothing
              have shorter : (data.drop (ctx.appendSection data).2.1).length < data.length := by
                rw [List.length_drop]
                omega
              have left : (data.drop (ctx.appendSection data).2.1).length ≤ fuel := by omega
              have right : (data.drop (ctx.appendSection data).2.1).length ≤ more := by omega
              rw [if_neg stuck, if_neg stuck, ih left right]

theorem drain_nil (ctx : Context) : ctx.drain [] = (ctx, []) := rfl

/-- One turn of the loop of `process_payload`. -/
theorem drain_eq {ctx next : Context} {data : List UInt8} {used : Nat}
    {sec : Option (List UInt8)} (turn : ctx.appendSection data = (next, used, sec))
    (goes : 0 < used) (inside : used ≤ data.length) :
    ctx.drain data = ((next.drain (data.drop used)).1,
      sec.toList ++ (next.drain (data.drop used)).2) := by
  have some : data ≠ [] := by
    intro nil
    rw [nil, List.length_nil] at inside
    omega
  have shorter : (data.drop used).length ≤ data.length - 1 := by
    rw [List.length_drop]
    omega
  have count : data.length = data.length - 1 + 1 := by
    have := List.length_pos_iff.2 some
    omega
  rw [Context.drain, count, Context.drainWithin, if_neg some, turn]
  simp only
  rw [if_neg (by omega), drainWithin_enough shorter (Nat.le_refl _)]
  rfl

theorem drain_more {got bytes rest : List UInt8} (present : bytes ≠ []) (more : rest ≠ [])
    (valid : IsSection maxSection (got ++ bytes ++ rest)) :
    (Context.of got).drain bytes = (.of (got ++ bytes), []) := by
  have fits : Open got := by
    rw [List.append_assoc] at valid
    exact open_head valid (by simp [present])
  have begins : got = [] → bytes.head? ≠ some 0xff := by
    intro fresh stuffing
    obtain ⟨byte, others, rfl⟩ := List.exists_cons_of_ne_nil present
    subst fresh
    exact valid.tableId stuffing
  have turn := appendSection_of fits present begins
  rw [outcome_more more valid] at turn
  rw [drain_eq turn (List.length_pos_iff.2 present) (Nat.le_refl _), List.drop_length, drain_nil]
  rfl

theorem drain_whole {got tail : List UInt8} (present : tail ≠ [])
    (valid : IsSection maxSection (got ++ tail)) (behind : List UInt8) :
    (Context.of got).drain (tail ++ behind) =
      ((Context.zero.drain behind).1, (got ++ tail) :: (Context.zero.drain behind).2) := by
  have begins : got = [] → (tail ++ behind).head? ≠ some 0xff := by
    intro fresh stuffing
    obtain ⟨byte, others, rfl⟩ := List.exists_cons_of_ne_nil present
    subst fresh
    exact valid.tableId stuffing
  have turn := appendSection_of (open_head valid present) (by simp [present]) begins
  rw [outcome_whole valid behind] at turn
  rw [drain_eq turn (List.length_pos_iff.2 present) (by simp), List.drop_left' rfl]
  rfl

theorem drain_stuffing (count : Nat) :
    Context.zero.drain (.replicate count 0xff) = (.zero, []) := by
  cases count with
  | zero => rfl
  | succ count =>
      rw [drain_eq (appendSection_stuffing count) (by omega) (by simp), List.drop_eq_nil_of_le
        (by simp), drain_nil]
      rfl

/-- Whole sections are handed over one by one. -/
theorem drain_flatten {whole : List (List UInt8)}
    (valid : ∀ sec ∈ whole, IsSection maxSection sec) (behind : List UInt8) :
    Context.zero.drain (whole.flatten ++ behind) =
      ((Context.zero.drain behind).1, whole ++ (Context.zero.drain behind).2) := by
  induction whole with
  | nil => rfl
  | cons sec whole ih =>
      have here := valid sec (List.mem_cons_self ..)
      have later := ih (fun other mem => valid other (List.mem_cons_of_mem _ mem))
      rw [List.flatten_cons, List.append_assoc]
      have first := @drain_whole [] _ here.ne_nil here (whole.flatten ++ behind)
      rw [of_nil, List.nil_append] at first
      rw [first, later]
      rfl

/-- What is handed over out of the bytes in front of the first section start. -/
def stale (ctx : Context) (tail : List UInt8) : List (List UInt8) :=
  if ctx.active ∧ tail ≠ [] then (ctx.appendSection tail).2.2.toList else []

theorem processPayload_pointed {tail bytes : List UInt8} (points : tail.length < 256)
    (ctx : Context) :
    ctx.processPayload ⟨true, pointed tail bytes⟩ =
      ((Context.zero.drain bytes).1, stale ctx tail ++ (Context.zero.drain bytes).2) := by
  have pointer : (UInt8.ofNat tail.length).toNat = tail.length := UInt8.toNat_ofNat_of_lt points
  have zero : UInt8.ofNat tail.length ≠ 0 ↔ tail ≠ [] := by
    rw [ne_eq, ← UInt8.toNat_inj, pointer]
    exact not_congr List.length_eq_zero_iff
  simp only [Context.processPayload, pointed, pointer]
  rw [if_neg (by simp), List.drop_left' rfl, List.take_left' rfl, stale]
  simp only [zero]
  split <;> rfl

/-- The context holds what has come of the section under way. -/
def Holds (got rest : List UInt8) (ctx : Context) : Prop :=
  ctx = if rest = [] then .zero else .of got

theorem holds_of {got rest : List UInt8} (more : rest ≠ []) : Holds got rest (.of got) :=
  (if_neg more).symm

theorem holds_zero {got : List UInt8} : Holds got [] .zero := (if_pos rfl).symm

theorem scan_resyncs (ctx : Context) :
    Resyncs Context.processPayload maxSection (fun _ => True) Holds ctx (stale ctx) := by
  intro rest rest' piece started carries valid flagged _
  cases carries with
  | middle | last => exact nomatch flagged
  | closed starts points =>
      rw [Piece.payload, processPayload_pointed points, drain_flatten valid, drain_stuffing]
      exact ⟨by simp [Piece.wholes], holds_zero⟩
  | @opened _ whole head _ starts more points =>
      have here := valid _ (List.mem_append_right _ (List.mem_singleton_self _))
      have kept := @drain_more [] _ _ starts more here
      rw [Piece.payload, processPayload_pointed points,
        drain_flatten (fun sec mem => valid sec (List.mem_append_left _ mem)), ← of_nil, kept]
      exact ⟨by simp [Piece.wholes], holds_of more⟩

theorem processPayload_plain (ctx : Context) (bytes : List UInt8) :
    ctx.processPayload ⟨false, bytes⟩ = ctx.drain bytes := by
  cases bytes <;> rfl

theorem scan_faithful : Faithful Context.processPayload maxSection (fun _ => True) Holds := by
  intro got rest rest' piece started ctx holds underway carries valid _
  by_cases flagged : piece.payload.start = true
  · obtain ⟨handed, after⟩ := scan_resyncs ctx carries valid flagged trivial
    obtain ⟨leaves, completes, -⟩ := carries.start_parts got flagged
    have own : stale ctx rest = pending got rest := by
      by_cases none : rest = []
      · subst none
        rw [pending_nil, stale, if_neg (fun both => both.2 rfl)]
      · have begun := underway.begun none
        have valid' := underway.valid none
        have active : (Context.of got).active = true := decide_eq_true begun
        have whole := outcome_whole valid' []
        rw [List.append_nil] at whole
        rw [show ctx = .of got from holds.trans (if_neg none), stale, if_pos ⟨active, none⟩,
          appendSection_of (open_head valid' none) none (fun fresh => (begun fresh).elim), whole,
          pending_of_ne none]
        rfl
    rw [handed, completes, leaves, own]
    exact ⟨rfl, after⟩
  · cases carries with
    | closed | opened => exact (flagged rfl).elim
    | @middle bytes _ more =>
        have under : bytes ++ rest' ≠ [] := by simp [more]
        have valid' := underway.valid under
        rw [← List.append_assoc] at valid'
        rw [show ctx = .of got from holds.trans (if_neg under), Piece.payload,
          processPayload_plain, Piece.leaves]
        by_cases none : bytes = []
        · rw [none, drain_nil, List.append_nil]
          exact ⟨rfl, holds_of more⟩
        · rw [drain_more none more valid']
          exact ⟨rfl, holds_of more⟩
    | last =>
        rw [Piece.payload, processPayload_plain]
        by_cases none : rest = []
        · subst none
          rw [show ctx = .zero from holds, List.nil_append, drain_stuffing]
          exact ⟨(pending_nil got).symm, holds_zero⟩
        · rw [show ctx = .of got from holds.trans (if_neg none),
            drain_whole none (underway.valid none), drain_stuffing]
          exact ⟨(pending_of_ne none).symm, holds_zero⟩

/-! ## A capture -/

/-- A context whose section under way, if there is one, is short of the length
that it declares and fits the buffer. -/
def Sound (ctx : Context) : Prop := ∃ got, Open got ∧ ctx = .of got

theorem sound_zero : Sound .zero := ⟨[], open_nil, rfl⟩

theorem settle_sound (all : List UInt8) : Sound (settle all).1 := by
  unfold settle
  by_cases large : 3 ≤ all.length ∧ maxSection < declared all
  · rw [if_pos large]
    exact sound_zero
  · rw [if_neg large]
    by_cases whole : 3 ≤ all.length ∧ declared all ≤ all.length
    · rw [if_pos whole]
      exact sound_zero
    · rw [if_neg whole]
      exact ⟨all, fun header => by omega, rfl⟩

theorem appendSection_sound {ctx : Context} (sound : Sound ctx) (data : List UInt8) :
    Sound (ctx.appendSection data).1 := by
  obtain ⟨got, fits, rfl⟩ := sound
  by_cases begins : data ≠ [] ∧ (got = [] → data.head? ≠ some 0xff)
  · rw [appendSection_of fits begins.1 begins.2]
    exact settle_sound _
  · have same : ((Context.of got).appendSection data).1 = .of got := by
      by_cases none : data = []
      · subst none
        unfold Context.appendSection
        split <;> rfl
      · have stuffed : got = [] ∧ data.head? = some 0xff := by
          by_contra other
          exact begins ⟨none, fun fresh stuffing => other ⟨fresh, stuffing⟩⟩
        rw [stuffed.1, of_nil, Context.appendSection, if_neg (by decide), if_pos stuffed.2]
    rw [same]
    exact ⟨got, fits, rfl⟩

theorem drainWithin_sound (fuel : Nat) {ctx : Context} (sound : Sound ctx) (data : List UInt8) :
    Sound (ctx.drainWithin fuel data).1 := by
  induction fuel generalizing ctx data with
  | zero => exact sound
  | succ fuel ih =>
      have turn := appendSection_sound sound data
      rw [Context.drainWithin]
      by_cases none : data = []
      · rw [if_pos none]
        exact sound
      · rw [if_neg none]
        simp only
        split
        · exact turn
        · exact ih turn _

theorem processPayload_sound {ctx : Context} (sound : Sound ctx) (payload : Payload) :
    Sound (ctx.processPayload payload).1 := by
  obtain ⟨start, bytes⟩ := payload
  cases bytes with
  | nil => exact sound
  | cons byte body =>
      cases start with
      | false => exact drainWithin_sound _ sound _
      | true =>
          unfold Context.processPayload
          by_cases short : body.length < byte.toNat
          · simp only [if_pos short]
            exact sound_zero
          · simp only [if_neg short]
            exact drainWithin_sound _ sound_zero _

/-- Whatever is scanned, every context stays sound. -/
theorem scan_sound (pid : UInt16) (packets : List Packet) {ctx : Context} (sound : Sound ctx) :
    Sound (scan pid ctx packets).1 := by
  rw [scan_eq]
  induction (packets.filter (reaches pid)).filterMap Packet.payload? generalizing ctx with
  | nil => exact sound
  | cons payload payloads ih => exact ih (processPayload_sound sound payload)

/-- A section handed over out of the bytes in front of the first start begins with
what the context held. -/
theorem stale_leftover {ctx : Context} (sound : Sound ctx) (tail : List UInt8) :
    (stale ctx tail).length ≤ 1 ∧
      ∀ sec ∈ stale ctx tail, ctx.data ≠ [] ∧ ctx.data <+: sec ∧ sec <+: ctx.data ++ tail := by
  obtain ⟨got, fits, rfl⟩ := sound
  by_cases idle : (Context.of got).active ∧ tail ≠ []
  · have begun : got ≠ [] := of_decide_eq_true idle.1
    rw [stale, if_pos idle, appendSection_of fits idle.2 (fun fresh => (begun fresh).elim)]
    refine ⟨Option.length_toList_le, ?_⟩
    intro sec mem
    rw [outcome, settle] at mem
    by_cases large : 3 ≤ (got ++ tail).length ∧ maxSection < declared (got ++ tail)
    · rw [if_pos large] at mem
      exact nomatch mem
    · by_cases whole : 3 ≤ (got ++ tail).length ∧ declared (got ++ tail) ≤ (got ++ tail).length
      · rw [if_neg large, if_pos whole, Option.toList_some, List.mem_singleton] at mem
        have within : got.length ≤ declared (got ++ tail) := by
          by_cases header : 3 ≤ got.length
          · rw [declared_append header]
            exact Nat.le_of_lt (fits header).1
          · have := declared_header (got ++ tail)
            omega
        rw [mem]
        exact ⟨begun, List.prefix_take_iff.2 ⟨List.prefix_append _ _, within⟩,
          List.take_prefix _ _⟩
      · rw [if_neg large, if_neg whole] at mem
        exact nomatch mem
  · rw [stale, if_neg idle]
    exact ⟨by decide, fun sec mem => nomatch mem⟩

/-- From the first packet that starts a section on, the sections that start are
handed over, complete, in order and once each, behind at most one that the
context had begun. -/
theorem scan_exact {pid : UInt16} {earlier packets : List Packet} {rest : List UInt8}
    {sections : List (List UInt8)} {first : Piece} {pieces : List Piece}
    (conforms : Conforms rest sections (first :: pieces)) (starts : first.payload.start = true)
    (valid : ∀ sec ∈ sections, IsSection maxSection sec)
    (carried : (packets.filter (reaches pid)).filterMap Packet.payload? =
      (first :: pieces).map Piece.payload) :
    ∃ leftover : List (List UInt8),
      (scan pid (scan pid .zero earlier).1 packets).2 = leftover ++ sections ∧
        leftover.length ≤ 1 ∧
          ∀ sec ∈ leftover, (scan pid .zero earlier).1.data ≠ [] ∧
            (scan pid .zero earlier).1.data <+: sec ∧
              sec <+: (scan pid .zero earlier).1.data ++ rest := by
  have sound := scan_sound pid earlier sound_zero
  refine ⟨stale (scan pid .zero earlier).1 rest, ?_, stale_leftover sound rest⟩
  rw [scan_eq pid packets, carried]
  have every : ∀ piece ∈ first :: pieces, True := fun _ _ => trivial
  exact scan_faithful.assemble_from_start (scan_resyncs _) conforms valid every starts

/-- Two ECMs in one packet: the scanner goes on behind the first. -/
theorem scan_exact_pair : ∃ leftover : List (List UInt8),
    (scan 0x500 (scan 0x500 .zero []).1 [ecmPairPacket]).2 = leftover ++ ecmPair ∧
      leftover.length ≤ 1 ∧
        ∀ sec ∈ leftover, (scan 0x500 .zero []).1.data ≠ [] ∧
          (scan 0x500 .zero []).1.data <+: sec ∧ sec <+: (scan 0x500 .zero []).1.data ++ [] :=
  scan_exact ecmPair_conforms rfl (fun sec mem => (ecmPair_valid sec mem).mono (by decide))
    (by decide +kernel)

end Scan
