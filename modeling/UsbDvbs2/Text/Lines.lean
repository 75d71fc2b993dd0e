import Mathlib.Tactic.ByContra

/-! # Lines on a byte stream -/

namespace Text

def lf : UInt8 := 0x0a

def cr : UInt8 := 0x0d

def ascii (chars : List Char) : List UInt8 := chars.map Char.toUInt8

/-- What holds of every byte of a text, checked byte by byte. -/
theorem all_bytes {holds : UInt8 → Prop} [DecidablePred holds] {text : List UInt8}
    (all : text.all (fun byte => decide (holds byte)) = true) : ∀ byte ∈ text, holds byte :=
  fun byte mem => of_decide_eq_true (List.all_eq_true.1 all byte mem)

/-- A line without its end, and whether that is `\r\n` or `\n`. -/
structure Line where
  text : List UInt8
  crlf : Bool
  single : lf ∉ text

/-- What stands behind the text. -/
def Line.ending (line : Line) : List UInt8 := if line.crlf then [cr, lf] else [lf]

def Line.wire (line : Line) : List UInt8 := line.text ++ line.ending

/-- Lines one after the other. -/
def wire (lines : List Line) : List UInt8 := lines.flatMap Line.wire

theorem wire_cons (line : Line) (lines : List Line) :
    wire (line :: lines) = line.wire ++ wire lines := List.flatMap_cons

theorem Line.ending_eq (line : Line) :
    ∃ returns, line.ending = returns ++ [lf] ∧ ∀ byte ∈ returns, byte = cr := by
  unfold Line.ending
  cases line.crlf with
  | true => exact ⟨[cr], rfl, fun byte mem => List.mem_singleton.1 mem⟩
  | false => exact ⟨[], rfl, fun byte mem => nomatch mem⟩

theorem cr_ne_lf : cr ≠ lf := by decide

/-- The only newline of a line is its last byte. -/
theorem Line.wire_eq (line : Line) : ∃ body, line.wire = body ++ [lf] ∧ lf ∉ body := by
  obtain ⟨returns, ends, only⟩ := line.ending_eq
  refine ⟨line.text ++ returns, by rw [Line.wire, ends, List.append_assoc], ?_⟩
  intro mem
  rcases List.mem_append.1 mem with inside | inside
  · exact line.single inside
  · exact cr_ne_lf (only _ inside).symm

/-- A line that is cut short has no newline. -/
theorem Line.cut {line : Line} {front back : List UInt8} (whole : front ++ back = line.wire)
    (more : back ≠ []) : lf ∉ front ∧ ∃ body, back = body ++ [lf] ∧ lf ∉ body := by
  obtain ⟨body, same, clear⟩ := line.wire_eq
  rw [same] at whole
  rcases List.append_eq_append_iff.1 whole with ⟨middle, rfl, rfl⟩ | ⟨middle, rfl, ends⟩
  · have none := fun mem => clear (List.mem_append_left _ mem)
    exact ⟨none, middle, rfl, fun mem => clear (List.mem_append_right _ mem)⟩
  · cases back with
    | nil => exact (more rfl).elim
    | cons byte back =>
        cases middle with
        | nil =>
            rw [List.nil_append] at ends
            rw [List.append_nil]
            exact ⟨clear, [], ends.symm, List.not_mem_nil⟩
        | cons other middle => simp at ends

end Text
