import Mathlib.Init

/-! # Reading tables out of bytes

Big-endian fields at a position, and the positions visited by a loop over
entries that each name their own length behind a header of fixed size.
-/

namespace Bytes

/-- A fact that holds of every byte in turn. -/
theorem forall_byte {holds : UInt8 → Prop} [DecidablePred holds]
    (check : ∀ n ∈ List.range 256, holds (UInt8.ofNat n)) (byte : UInt8) : holds byte := by
  have here := check byte.toNat (List.mem_range.2 byte.toNat_lt)
  rwa [UInt8.ofNat_toNat] at here

/-- The byte at a position, as a number. -/
def octet (bytes : List UInt8) (pos : Nat) : Nat := (bytes.getD pos 0).toNat

/-- Two bytes. -/
def be16 (bytes : List UInt8) (pos : Nat) : UInt16 :=
  (bytes.getD pos 0).toUInt16 <<< 8 ||| (bytes.getD (pos + 1) 0).toUInt16

/-- The low 13 bits of two bytes. -/
def be13 (bytes : List UInt8) (pos : Nat) : UInt16 :=
  ((bytes.getD pos 0).toUInt16 &&& 0x1f) <<< 8 ||| (bytes.getD (pos + 1) 0).toUInt16

/-- The low 12 bits of two bytes, a length. -/
def be12 (bytes : List UInt8) (pos : Nat) : Nat :=
  (octet bytes pos % 16) * 256 + octet bytes (pos + 1)

section Entries

variable (header limit : Nat) (body : Nat → Nat)

/-- At most `fuel` positions of the loop. -/
def entriesWithin : Nat → Nat → List Nat
  | 0, _ => []
  | fuel + 1, pos =>
      if pos + header ≤ limit then pos :: entriesWithin fuel (pos + header + body pos) else []

/-- The positions of `for (pos = start; pos + header <= limit; pos += header + body)`. -/
def entries (start : Nat) : List Nat := entriesWithin header limit body (limit + 1 - start) start

variable {header limit : Nat} {body : Nat → Nat}

/-- Once there is fuel for every byte, more of it changes nothing. -/
theorem entriesWithin_enough (positive : 0 < header) {fuel more start : Nat}
    (enough : limit < start + fuel) (still : limit < start + more) :
    entriesWithin header limit body fuel start = entriesWithin header limit body more start := by
  induction fuel generalizing start more with
  | zero =>
      cases more with
      | zero => rfl
      | succ more => rw [entriesWithin, entriesWithin, if_neg (by omega)]
  | succ fuel ih =>
      cases more with
      | zero => rw [entriesWithin, entriesWithin, if_neg (by omega)]
      | succ more =>
          rw [entriesWithin, entriesWithin]
          split
          · exact congrArg _ (ih (by omega) (by omega))
          · rfl

/-- One turn of the loop. -/
theorem entries_eq (positive : 0 < header) (start : Nat) :
    entries header limit body start =
      if start + header ≤ limit then
        start :: entries header limit body (start + header + body start)
      else [] := by
  by_cases inside : start + header ≤ limit
  · rw [if_pos inside, entries, show limit + 1 - start = (limit - start) + 1 by omega,
      entriesWithin, if_pos inside]
    exact congrArg _ (entriesWithin_enough positive (by omega) (by omega))
  · rw [if_neg inside, entries]
    cases limit + 1 - start with
    | zero => rfl
    | succ fuel => rw [entriesWithin, if_neg inside]

/-- Entries that fill a loop: each ends where the next begins, and the last at the limit. -/
inductive Tiles (header limit : Nat) (body : Nat → Nat) : Nat → Prop where
  | done : Tiles header limit body limit
  | entry {start : Nat} (rest : Tiles header limit body (start + header + body start)) :
      Tiles header limit body start

theorem Tiles.le {start : Nat} (tiles : Tiles header limit body start) : start ≤ limit := by
  induction tiles with
  | done => exact Nat.le_refl _
  | entry rest ih => omega

/-- Every entry of a loop that is filled ends inside of it. -/
theorem Tiles.fits (positive : 0 < header) {start : Nat} (tiles : Tiles header limit body start) :
    ∀ pos ∈ entries header limit body start, pos + header + body pos ≤ limit := by
  induction tiles with
  | done =>
      rw [entries_eq positive, if_neg (by omega)]
      exact fun pos mem => nomatch mem
  | entry rest ih =>
      have inside := rest.le
      rw [entries_eq positive, if_pos (by omega)]
      intro pos mem
      rcases List.mem_cons.1 mem with rfl | later
      · exact inside
      · exact ih pos later

end Entries
end Bytes
