import Mathlib.Tactic.ByContra
import UsbDvbs2.Bytes.Tables

/-! # Sections in packets

How sections are laid over the payloads of the packets of one pid, and what a
reassembler has to do with one payload in order to hand on exactly the sections.
-/

namespace Mpeg

open Bytes

/-- The length that a section's header declares. -/
def declared (bytes : List UInt8) : Nat := 3 + be12 bytes 1

theorem declared_header (bytes : List UInt8) : 3 ≤ declared bytes := Nat.le_add_right _ _

theorem declared_ne_zero (bytes : List UInt8) : declared bytes ≠ 0 :=
  Nat.ne_of_gt (Nat.lt_of_lt_of_le (by decide) (declared_header bytes))

/-- A whole section of at most `limit` bytes, which cannot be taken for stuffing. -/
structure IsSection (limit : Nat) (sec : List UInt8) : Prop where
  header : 3 ≤ sec.length
  whole : sec.length = declared sec
  fits : sec.length ≤ limit
  tableId : sec.head? ≠ some 0xff

theorem IsSection.ne_nil {limit : Nat} {sec : List UInt8} (valid : IsSection limit sec) :
    sec ≠ [] := by
  have header := valid.header
  intro nil
  rw [nil] at header
  exact absurd header (by decide)

theorem IsSection.mono {limit more : Nat} {sec : List UInt8} (valid : IsSection limit sec)
    (wider : limit ≤ more) : IsSection more sec :=
  { valid with fits := Nat.le_trans valid.fits wider }

/-- Three bytes are enough to know the length. -/
theorem declared_append {bytes : List UInt8} (header : 3 ≤ bytes.length) (more : List UInt8) :
    declared (bytes ++ more) = declared bytes := by
  rw [declared, declared, be12_append (by omega)]

/-- The first bytes of a section declare its length. -/
theorem IsSection.declared_head {limit : Nat} {head rest : List UInt8}
    (valid : IsSection limit (head ++ rest)) (header : 3 ≤ head.length) :
    declared head = head.length + rest.length := by
  rw [← declared_append header rest, ← valid.whole, List.length_append]

/-! ## Packets -/

/-- A packet's payload, and whether `payload_unit_start_indicator` is set. -/
structure Payload where
  start : Bool
  bytes : List UInt8
  deriving DecidableEq

/-- What one payload holds. -/
inductive Piece where
  /-- bytes of a section that goes on behind them -/
  | middle (bytes : List UInt8)
  /-- the end of a section, and stuffing -/
  | last (tail : List UInt8) (stuffing : Nat)
  /-- the end of a section, whole sections, and stuffing -/
  | closed (tail : List UInt8) (whole : List (List UInt8)) (stuffing : Nat)
  /-- the end of a section, whole sections, and the beginning of another -/
  | opened (tail : List UInt8) (whole : List (List UInt8)) (head : List UInt8)
  deriving DecidableEq

/-- Where a section starts, the pointer field in front says how many bytes of
the one before are still to come. -/
def pointed (tail bytes : List UInt8) : List UInt8 :=
  UInt8.ofNat tail.length :: (tail ++ bytes)

def Piece.payload : Piece → Payload
  | .middle bytes => ⟨false, bytes⟩
  | .last tail stuffing => ⟨false, tail ++ .replicate stuffing 0xff⟩
  | .closed tail whole stuffing =>
      ⟨true, pointed tail (whole.flatten ++ .replicate stuffing 0xff)⟩
  | .opened tail whole head => ⟨true, pointed tail (whole.flatten ++ head)⟩

/-- One section, if it has bytes at all. -/
def present (bytes : List UInt8) : Nat := if bytes = [] then 0 else 1

theorem present_of_ne {bytes : List UInt8} (some : bytes ≠ []) : present bytes = 1 := if_neg some

theorem present_le (bytes : List UInt8) : present bytes ≤ 1 := by
  unfold present
  split <;> decide

theorem absent_of_zero {bytes : List UInt8} (zero : present bytes = 0) : bytes = [] := by
  by_contra some
  rw [present_of_ne some] at zero
  exact absurd zero (by decide)

/-- The number of sections that a payload has bytes of. -/
def Piece.held : Piece → Nat
  | .middle bytes => present bytes
  | .last tail _ => present tail
  | .closed tail whole _ => present tail + whole.length
  | .opened tail whole head => present tail + whole.length + present head

/-- `rest` of a section is still to be sent before the payload and `rest'` after
it; the sections `started` start in it. -/
inductive Carries : (rest : List UInt8) → Piece → (started : List (List UInt8)) →
    (rest' : List UInt8) → Prop
  | middle {bytes rest : List UInt8} (more : rest ≠ []) :
      Carries (bytes ++ rest) (.middle bytes) [] rest
  | last {tail : List UInt8} {stuffing : Nat} : Carries tail (.last tail stuffing) [] []
  | closed {tail : List UInt8} {whole : List (List UInt8)} {stuffing : Nat}
      (starts : whole ≠ []) (points : tail.length < 256) :
      Carries tail (.closed tail whole stuffing) whole []
  | opened {tail : List UInt8} {whole : List (List UInt8)} {head rest : List UInt8}
      (starts : head ≠ []) (more : rest ≠ []) (points : tail.length < 256) :
      Carries tail (.opened tail whole head) (whole ++ [head ++ rest]) rest

/-- The pieces are a packetization of the rest of a section and of `sections`. -/
inductive Conforms : (rest : List UInt8) → (sections : List (List UInt8)) → List Piece → Prop
  | done : Conforms [] [] []
  | next {rest rest' : List UInt8} {piece : Piece} {started sections : List (List UInt8)}
      {pieces : List Piece} (carries : Carries rest piece started rest')
      (conforms : Conforms rest' sections pieces) :
      Conforms rest (started ++ sections) (piece :: pieces)

/-! ## Reassembly -/

/-- A section of which `got` has come, and perhaps is all there is to come. -/
def pending (got rest : List UInt8) : List (List UInt8) := if rest = [] then [] else [got ++ rest]

@[simp] theorem pending_nil (got : List UInt8) : pending got [] = [] := if_pos rfl

theorem pending_of_ne {got rest : List UInt8} (more : rest ≠ []) :
    pending got rest = [got ++ rest] := if_neg more

/-- The sections that end in a payload, after `got` of the one under way. -/
def Piece.completes (got : List UInt8) : Piece → List (List UInt8)
  | .middle _ => []
  | .last tail _ => pending got tail
  | .closed tail whole _ => pending got tail ++ whole
  | .opened tail whole _ => pending got tail ++ whole

/-- The sections that lie in a payload from the first byte to the last. -/
def Piece.wholes : Piece → List (List UInt8)
  | .middle _ => []
  | .last _ _ => []
  | .closed _ whole _ => whole
  | .opened _ whole _ => whole

/-- What has come of the section under way behind a payload. -/
def Piece.leaves (got : List UInt8) : Piece → List UInt8
  | .middle bytes => got ++ bytes
  | .last _ _ => []
  | .closed _ _ _ => []
  | .opened _ _ head => head

/-- No section is lost between the payloads. -/
theorem Carries.completes_pending {rest rest' got : List UInt8} {piece : Piece}
    {started : List (List UInt8)} (carries : Carries rest piece started rest') :
    piece.completes got ++ pending (piece.leaves got) rest' = pending got rest ++ started := by
  cases carries with
  | middle more =>
      rw [Piece.completes, Piece.leaves, pending_of_ne more, pending_of_ne (by simp [more]),
        List.append_assoc]
      rfl
  | last => simp [Piece.completes]
  | closed starts points => simp [Piece.completes]
  | opened starts more points =>
      rw [Piece.completes, Piece.leaves, pending_of_ne more, List.append_assoc]

/-- The section under way, of which `got` has come, is a section. -/
structure Underway (limit : Nat) (got rest : List UInt8) : Prop where
  begun : rest ≠ [] → got ≠ []
  valid : rest ≠ [] → IsSection limit (got ++ rest)

theorem Underway.nil {limit : Nat} (got : List UInt8) : Underway limit got [] :=
  ⟨fun more => (more rfl).elim, fun more => (more rfl).elim⟩

theorem Carries.underway {limit : Nat} {rest rest' got : List UInt8} {piece : Piece}
    {started : List (List UInt8)} (carries : Carries rest piece started rest')
    (underway : Underway limit got rest) (valid : ∀ sec ∈ started, IsSection limit sec) :
    Underway limit (piece.leaves got) rest' := by
  cases carries with
  | middle more =>
      have still := underway.valid (by simp [more])
      have begun := underway.begun (by simp [more])
      rw [← List.append_assoc] at still
      exact ⟨fun _ nil => begun (List.append_eq_nil_iff.1 nil).1, fun _ => still⟩
  | last => exact .nil _
  | closed starts points => exact .nil _
  | opened starts more points =>
      have here := valid _ (List.mem_append_right _ (List.mem_singleton_self _))
      exact ⟨fun _ => starts, fun _ => here⟩

section Reassembly

variable {σ : Type}

/-- A reassembler fed with payloads, and everything it hands on. -/
def assemble (feed : σ → Payload → σ × List (List UInt8)) : σ → List Payload →
    σ × List (List UInt8)
  | state, [] => (state, [])
  | state, payload :: payloads =>
      let (next, handed) := feed state payload
      let (final, more) := assemble feed next payloads
      (final, handed ++ more)

variable {feed : σ → Payload → σ × List (List UInt8)} {limit : Nat} {allowed : Piece → Prop}
  {Holds : List UInt8 → List UInt8 → σ → Prop}

variable (feed limit allowed Holds) in
/-- On every payload that is allowed, a state that holds `got` of a section and
waits for `rest` hands on what ends there and holds what is left. -/
def Faithful : Prop :=
  ∀ {got rest rest' : List UInt8} {piece : Piece} {started : List (List UInt8)} {state : σ},
    Holds got rest state → Underway limit got rest → Carries rest piece started rest' →
      (∀ sec ∈ started, IsSection limit sec) → allowed piece →
        (feed state piece.payload).2 = piece.completes got ∧
          Holds (piece.leaves got) rest' (feed state piece.payload).1

/-- Fed with a packetization, a faithful reassembler hands on exactly the section
under way and the sections that follow. -/
theorem Faithful.assemble_eq (faithful : Faithful feed limit allowed Holds)
    {got rest : List UInt8} {sections : List (List UInt8)} {pieces : List Piece} {state : σ}
    (holds : Holds got rest state) (underway : Underway limit got rest)
    (conforms : Conforms rest sections pieces)
    (valid : ∀ sec ∈ sections, IsSection limit sec) (fine : ∀ piece ∈ pieces, allowed piece) :
    (assemble feed state (pieces.map Piece.payload)).2 = pending got rest ++ sections := by
  induction conforms generalizing got state with
  | done => simp [assemble]
  | @next rest rest' piece started sections pieces carries conforms ih =>
      have here : ∀ sec ∈ started, IsSection limit sec := fun sec mem =>
        valid sec (List.mem_append_left _ mem)
      have step := faithful holds underway carries here (fine piece (by simp))
      have tail := ih step.2 (carries.underway underway here)
        (fun sec mem => valid sec (List.mem_append_right _ mem))
        (fun other mem => fine other (List.mem_cons_of_mem _ mem))
      rw [List.map_cons, assemble]
      simp only [step.1, tail]
      rw [← List.append_assoc, carries.completes_pending, List.append_assoc]

variable (feed limit allowed Holds) in
/-- On a payload that starts a section, a state whatever it holds hands on
something of its own, `stale`, and then is where it should be. -/
def Resyncs (state : σ) (stale : List UInt8 → List (List UInt8)) : Prop :=
  ∀ {rest rest' : List UInt8} {piece : Piece} {started : List (List UInt8)},
    Carries rest piece started rest' → (∀ sec ∈ started, IsSection limit sec) →
      piece.payload.start = true → allowed piece →
        (feed state piece.payload).2 = stale rest ++ piece.wholes ∧
          Holds (piece.leaves []) rest' (feed state piece.payload).1

/-- Behind a start the bytes that had come before do not matter. -/
theorem Carries.start_parts {rest rest' : List UInt8} {piece : Piece}
    {started : List (List UInt8)} (carries : Carries rest piece started rest')
    (got : List UInt8) (flagged : piece.payload.start = true) :
    piece.leaves got = piece.leaves [] ∧ piece.completes got = pending got rest ++ piece.wholes ∧
      piece.wholes ++ pending (piece.leaves []) rest' = started := by
  cases carries with
  | middle | last => exact nomatch flagged
  | closed starts points => exact ⟨rfl, rfl, List.append_nil _⟩
  | opened starts more points =>
      refine ⟨rfl, rfl, ?_⟩
      rw [Piece.wholes, Piece.leaves, pending_of_ne more]

theorem Carries.underway_of_start {rest rest' : List UInt8} {piece : Piece}
    {started : List (List UInt8)} (carries : Carries rest piece started rest')
    (valid : ∀ sec ∈ started, IsSection limit sec) (flagged : piece.payload.start = true) :
    Underway limit (piece.leaves []) rest' := by
  cases carries with
  | middle | last => exact nomatch flagged
  | closed starts points => exact .nil _
  | opened starts more points =>
      exact ⟨fun _ => starts,
        fun _ => valid _ (List.mem_append_right _ (List.mem_singleton_self _))⟩

/-- From the first start on, exactly the sections that start are handed on. -/
theorem Faithful.assemble_from_start (faithful : Faithful feed limit allowed Holds)
    {state : σ} {stale : List UInt8 → List (List UInt8)}
    (resyncs : Resyncs feed limit allowed Holds state stale) {rest : List UInt8}
    {sections : List (List UInt8)} {first : Piece} {pieces : List Piece}
    (conforms : Conforms rest sections (first :: pieces))
    (valid : ∀ sec ∈ sections, IsSection limit sec)
    (fine : ∀ piece ∈ first :: pieces, allowed piece) (flagged : first.payload.start = true) :
    (assemble feed state ((first :: pieces).map Piece.payload)).2 =
      stale rest ++ sections := by
  cases conforms with
  | @next _ rest' _ started sections _ carries conforms =>
      have here : ∀ sec ∈ started, IsSection limit sec := fun sec mem =>
        valid sec (List.mem_append_left _ mem)
      obtain ⟨handed, holds⟩ := resyncs carries here flagged (fine first (by simp))
      obtain ⟨-, -, parts⟩ := carries.start_parts [] flagged
      have later := faithful.assemble_eq holds (carries.underway_of_start here flagged) conforms
        (fun sec mem => valid sec (List.mem_append_right _ mem))
        (fun piece mem => fine piece (List.mem_cons_of_mem _ mem))
      rw [List.map_cons, assemble]
      simp only [handed, later]
      rw [← parts, List.append_assoc, List.append_assoc]

variable (feed limit allowed Holds) in
/-- A state that holds what has come, or that starts over on the payload, hands on
only what was sent. -/
def Sound (restarts : σ → Payload → Prop) : Prop :=
  ∀ {got rest rest' : List UInt8} {piece : Piece} {started : List (List UInt8)} {state : σ},
    Holds got rest state ∨ restarts state piece.payload → Underway limit got rest →
      Carries rest piece started rest' → (∀ sec ∈ started, IsSection limit sec) → allowed piece →
        (∀ sec ∈ (feed state piece.payload).2, sec ∈ pending got rest ++ started) ∧
          Holds (piece.leaves got) rest' (feed state piece.payload).1

/-- Where a reassembler that is faithful gets back into step without anything stale,
it is sound. -/
theorem Faithful.sound (faithful : Faithful feed limit allowed Holds)
    {restarts : σ → Payload → Prop}
    (resyncs : ∀ {rest rest' : List UInt8} {piece : Piece} {started : List (List UInt8)}
      {state : σ}, restarts state piece.payload → Carries rest piece started rest' →
        (∀ sec ∈ started, IsSection limit sec) → allowed piece → piece.payload.start = true ∧
          (feed state piece.payload).2 = piece.wholes ∧
            Holds (piece.leaves []) rest' (feed state piece.payload).1) :
    Sound feed limit allowed Holds restarts := by
  intro got rest rest' piece started state either underway carries valid fine
  rcases either with holds | anew
  · obtain ⟨handed, after⟩ := faithful holds underway carries valid fine
    refine ⟨fun sec mem => ?_, after⟩
    rw [handed] at mem
    rw [← carries.completes_pending]
    exact List.mem_append_left _ mem
  · obtain ⟨flagged, handed, after⟩ := resyncs anew carries valid fine
    obtain ⟨leaves, -, parts⟩ := carries.start_parts got flagged
    rw [handed, leaves, ← parts]
    exact ⟨fun sec mem => List.mem_append_right _ (List.mem_append_left _ mem), after⟩

/-- The next payload of a packetization that has begun. -/
theorem Conforms.of_prefix {rest : List UInt8} {sections : List (List UInt8)}
    {pieces : List Piece} {payload : Payload} {payloads : List Payload}
    (conforms : Conforms rest sections pieces)
    (begins : payload :: payloads <+: pieces.map Piece.payload) :
    ∃ piece started later rest' pieces', piece.payload = payload ∧
      Carries rest piece started rest' ∧ Conforms rest' later pieces' ∧
        payloads <+: pieces'.map Piece.payload ∧ sections = started ++ later := by
  cases conforms with
  | done => exact absurd (List.prefix_nil.1 begins) (List.cons_ne_nil _ _)
  | next carries conforms =>
      rw [List.map_cons, List.cons_prefix_cons] at begins
      exact ⟨_, _, _, _, _, begins.1.symm, carries, conforms, begins.2, rfl⟩

end Reassembly
end Mpeg
