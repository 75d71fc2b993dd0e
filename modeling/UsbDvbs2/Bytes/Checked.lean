import Mathlib.Data.List.TakeWhile
import UsbDvbs2.Bytes.Tables

/-! # Reading within bounds

The reads, differences and loops of a parser, each of which yields nothing where it would leave
its bounds: a position that is not in the bytes, a difference below zero, a loop that is still
running when its fuel is spent. A parser made of these that yields something never did.
-/

namespace Bytes

/-! ## Reads -/

def octet? (bytes : List UInt8) (pos : Nat) : Option Nat := bytes[pos]?.map UInt8.toNat

def be16? (bytes : List UInt8) (pos : Nat) : Option UInt16 := do
  let high ← bytes[pos]?
  let low ← bytes[pos + 1]?
  return high.toUInt16 <<< 8 ||| low.toUInt16

def be13? (bytes : List UInt8) (pos : Nat) : Option UInt16 := do
  let high ← bytes[pos]?
  let low ← bytes[pos + 1]?
  return (high.toUInt16 &&& 0x1f) <<< 8 ||| low.toUInt16

def be12? (bytes : List UInt8) (pos : Nat) : Option Nat := do
  let high ← octet? bytes pos
  let low ← octet? bytes (pos + 1)
  return high % 16 * 256 + low

/-- `size` bytes at a position, all of which are read. -/
def slice? (bytes : List UInt8) (pos size : Nat) : Option (List UInt8) :=
  if pos + size ≤ bytes.length then some (slice bytes pos size) else none

/-- A difference of sizes. -/
def sub? (first second : Nat) : Option Nat :=
  if second ≤ first then some (first - second) else none

section Inside

variable {bytes : List UInt8} {pos : Nat}

theorem getElem?_of_inside (inside : pos < bytes.length) :
    bytes[pos]? = some (bytes.getD pos 0) := by
  rw [List.getD_eq_getElem?_getD, List.getElem?_eq_getElem inside, Option.getD_some]

theorem octet?_eq (inside : pos < bytes.length) : octet? bytes pos = some (octet bytes pos) := by
  rw [octet?, getElem?_of_inside inside]
  rfl

theorem be16?_eq (inside : pos + 1 < bytes.length) : be16? bytes pos = some (be16 bytes pos) := by
  have before : pos < bytes.length := Nat.lt_of_succ_lt inside
  rw [be16?, getElem?_of_inside before, getElem?_of_inside inside]
  rfl

theorem be13?_eq (inside : pos + 1 < bytes.length) : be13? bytes pos = some (be13 bytes pos) := by
  have before : pos < bytes.length := Nat.lt_of_succ_lt inside
  rw [be13?, getElem?_of_inside before, getElem?_of_inside inside]
  rfl

theorem be12?_eq (inside : pos + 1 < bytes.length) : be12? bytes pos = some (be12 bytes pos) := by
  have before : pos < bytes.length := Nat.lt_of_succ_lt inside
  rw [be12?, octet?_eq before, octet?_eq inside]
  rfl

theorem slice?_eq {size : Nat} (inside : pos + size ≤ bytes.length) :
    slice? bytes pos size = some (slice bytes pos size) := if_pos inside

end Inside

theorem sub?_eq {first second : Nat} (below : second ≤ first) :
    sub? first second = some (first - second) := if_pos below

/-! ## Loops -/

/-- A counted loop none of whose turns fails. -/
theorem foldlM_eq {α ι : Type} {checked : α → ι → Option α} {step : α → ι → α} {items : List ι}
    (each : ∀ item ∈ items, ∀ carried, checked carried item = some (step carried item))
    (carried : α) : items.foldlM checked carried = some (items.foldl step carried) := by
  induction items generalizing carried with
  | nil => rfl
  | cons item items ih =>
      rw [List.foldlM_cons, each item (List.mem_cons_self ..)]
      exact ih (fun other mem => each other (List.mem_cons_of_mem _ mem)) _

section Loops

variable {α : Type} {header limit : Nat} {body : Nat → Nat}
  {checked : Nat → α → Option (Option Nat × α)} {turn : Nat → α → Bool × α}

/-- At most `fuel` turns of a loop. A turn says where the next one begins, unless it leaves the
loop. -/
def scanWithin (header limit : Nat) (checked : Nat → α → Option (Option Nat × α)) :
    Nat → Nat → α → Option α
  | 0, _, _ => none
  | fuel + 1, pos, carried =>
      if pos + header ≤ limit then do
        let (next, carried) ← checked pos carried
        match next with
        | some later => scanWithin header limit checked fuel later carried
        | none => return carried
      else some carried

/-- `for (pos = start; pos + header <= limit; ...)`, with a turn for every position. -/
def scan? (header limit : Nat) (checked : Nat → α → Option (Option Nat × α)) (start : Nat)
    (carried : α) : Option α :=
  scanWithin header limit checked (limit - start + 1) start carried

/-- Going through the entries of a loop, up to a turn that leaves it. -/
def walk (turn : Nat → α → Bool × α) : List Nat → α → α
  | [], carried => carried
  | pos :: later, carried =>
      if (turn pos carried).1 then walk turn later (turn pos carried).2
      else (turn pos carried).2

/-- What a turn of a loop over entries says. -/
def onward (header : Nat) (body : Nat → Nat) (turn : Nat → α → Bool × α) (pos : Nat)
    (carried : α) : Option Nat × α :=
  (if (turn pos carried).1 then some (pos + header + body pos) else none, (turn pos carried).2)

/-- A turn that leaves the loop in front of an entry that does not fit. -/
theorem onward_fits (fits : Nat → Bool) (turn : Nat → α → Bool × α) (pos : Nat) (carried : α) :
    onward header body (fun pos carried => if fits pos then turn pos carried else (false, carried))
        pos carried =
      if fits pos then onward header body turn pos carried else (none, carried) := by
  by_cases here : fits pos = true
  · simp only [onward, if_pos here]
  · simp only [onward, if_neg here, Bool.false_eq_true, if_false]

/-- A loop over entries whose turns do what they should, as long as what they leave `holds`. -/
structure Walks (header limit : Nat) (body : Nat → Nat)
    (checked : Nat → α → Option (Option Nat × α)) (turn : Nat → α → Bool × α)
    (holds : Nat → α → Prop) : Prop where
  positive : 0 < header
  turns : ∀ {pos carried}, pos + header ≤ limit → holds pos carried →
    checked pos carried = some (onward header body turn pos carried)
  keeps : ∀ {pos carried}, pos + header ≤ limit → holds pos carried →
    (turn pos carried).1 = true → holds (pos + header + body pos) (turn pos carried).2

variable {holds : Nat → α → Prop}

theorem Walks.scanWithin (walks : Walks header limit body checked turn holds) {fuel pos : Nat}
    {carried : α} (any : 0 < fuel) (enough : limit < pos + fuel) (here : holds pos carried) :
    scanWithin header limit checked fuel pos carried =
      some (walk turn (entries header limit body pos) carried) := by
  have positive := walks.positive
  induction fuel generalizing pos carried with
  | zero => exact absurd any (Nat.lt_irrefl 0)
  | succ fuel ih =>
      rw [Bytes.scanWithin, entries_eq positive]
      by_cases inside : pos + header ≤ limit
      · rw [if_pos inside, if_pos inside, walks.turns inside here, walk, onward]
        cases goes : (turn pos carried).1 with
        | true => exact ih (by omega) (by omega) (walks.keeps inside here goes)
        | false => rfl
      · rw [if_neg inside, if_neg inside]
        rfl

/-- The loop ends, and has gone through its entries. -/
theorem Walks.scan (walks : Walks header limit body checked turn holds) {start : Nat}
    {carried : α} (here : holds start carried) :
    scan? header limit checked start carried =
      some (walk turn (entries header limit body start) carried) :=
  walks.scanWithin (Nat.succ_pos _) (by omega) here

/-- A loop that stops in front of the first entry that does not fit. -/
theorem walk_takeWhile (fits : Nat → Bool) (turn : Nat → α → Bool × α) (positions : List Nat)
    (carried : α) :
    walk (fun pos carried => if fits pos then turn pos carried else (false, carried)) positions
      carried = walk turn (positions.takeWhile fits) carried := by
  induction positions generalizing carried with
  | nil => rfl
  | cons pos later ih =>
      rw [walk]
      cases here : fits pos with
      | true =>
          rw [List.takeWhile_cons_of_pos here, walk, ih]
          rfl
      | false =>
          rw [List.takeWhile_cons_of_neg (Bool.eq_false_iff.mp here)]
          rfl

theorem walk_foldl (step : α → Nat → α) (positions : List Nat) (carried : α) :
    walk (fun pos carried => (true, step carried pos)) positions carried =
      positions.foldl step carried := by
  induction positions generalizing carried with
  | nil => rfl
  | cons pos later ih => exact ih (step carried pos)

/-- A loop that reads its entries one after the other, up to the first that does not fit. -/
structure Reads (header limit : Nat) (body : Nat → Nat)
    (checked : Nat → α → Option (Option Nat × α)) (fits : Nat → Bool) (step : α → Nat → α) :
    Prop where
  positive : 0 < header
  turns : ∀ {pos carried}, pos + header ≤ limit → checked pos carried =
    some (if fits pos then (some (pos + header + body pos), step carried pos) else (none, carried))

section Reading

variable {fits : Nat → Bool} {step : α → Nat → α}

theorem Reads.walks (reads : Reads header limit body checked fits step) :
    Walks header limit body checked
      (fun pos carried => if fits pos then (true, step carried pos) else (false, carried))
      (fun _ _ => True) where
  positive := reads.positive
  turns := by
    intro pos carried inside _
    rw [reads.turns inside, onward_fits]
    rfl
  keeps := fun _ _ _ => trivial

theorem Reads.scan (reads : Reads header limit body checked fits step) (start : Nat)
    (carried : α) : scan? header limit checked start carried =
      some (((entries header limit body start).takeWhile fits).foldl step carried) := by
  rw [reads.walks.scan trivial, walk_takeWhile fits (fun pos carried => (true, step carried pos)),
    walk_foldl]

/-- A loop whose entries are not held against its end. -/
theorem Reads.scan_all (reads : Reads header limit body checked (fun _ => true) step)
    (start : Nat) (carried : α) : scan? header limit checked start carried =
      some ((entries header limit body start).foldl step carried) := by
  rw [reads.scan, List.takeWhile_eq_self_iff.mpr fun _ _ => rfl]

end Reading

/-- A loop that is left at the first entry that is looked for. -/
theorem walk_find (found : Nat → Bool) (take : α → Nat → α) (positions : List Nat) (carried : α) :
    walk (fun pos carried => if found pos then (false, take carried pos) else (true, carried))
      positions carried =
        match positions.find? found with
        | some pos => take carried pos
        | none => carried := by
  induction positions generalizing carried with
  | nil => rfl
  | cons pos later ih =>
      rw [walk, List.find?_cons]
      cases found pos with
      | true => rfl
      | false => exact ih carried

/-- A loop that leaves the `result` of the position where it is: each turn either leaves the loop
with it, or goes on to a later position with the same one. -/
structure Solves (header limit : Nat) (checked : Nat → α → Option (Option Nat × α))
    (result : Nat → α → α) : Prop where
  positive : 0 < header
  ends : ∀ {pos carried}, limit < pos + header → result pos carried = carried
  turns : ∀ {pos carried}, pos + header ≤ limit → ∃ next after,
    checked pos carried = some (next, after) ∧
      match next with
      | some later => pos < later ∧ result pos carried = result later after
      | none => result pos carried = after

variable {result : Nat → α → α}

theorem Solves.scanWithin (solves : Solves header limit checked result) {fuel pos : Nat}
    {carried : α} (any : 0 < fuel) (enough : limit < pos + fuel) :
    scanWithin header limit checked fuel pos carried = some (result pos carried) := by
  induction fuel generalizing pos carried with
  | zero => exact absurd any (Nat.lt_irrefl 0)
  | succ fuel ih =>
      rw [Bytes.scanWithin]
      by_cases inside : pos + header ≤ limit
      · obtain ⟨next, after, turned, goes⟩ := @Solves.turns _ _ _ _ _ solves _ carried inside
        rw [if_pos inside, turned]
        cases next with
        | none => exact congrArg some goes.symm
        | some later =>
            obtain ⟨further, same⟩ := goes
            have positive := solves.positive
            rw [same]
            exact ih (by omega) (by omega)
      · rw [if_neg inside, solves.ends (Nat.not_le.mp inside)]

theorem Solves.scan (solves : Solves header limit checked result) (start : Nat) (carried : α) :
    scan? header limit checked start carried = some (result start carried) :=
  solves.scanWithin (Nat.succ_pos _) (by omega)

end Loops

end Bytes
