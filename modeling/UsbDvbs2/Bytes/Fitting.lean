import Mathlib.Algebra.GroupWithZero.Nat

/-! # What fits

The longest front of a list whose items fit into some room one behind the other.
-/

namespace Bytes

variable {α β : Type} (size : α → Nat)

/-- The room that a list takes. -/
def taken (items : List α) : Nat := (items.map size).sum

/-- The items up to the first that does not fit any more. -/
def fitting : Nat → List α → List α
  | _, [] => []
  | room, item :: items =>
      if size item ≤ room then item :: fitting (room - size item) items else []

variable {size}

@[simp] theorem taken_nil : taken size [] = 0 := rfl

@[simp] theorem taken_cons (item : α) (items : List α) :
    taken size (item :: items) = size item + taken size items := List.sum_cons

@[simp] theorem fitting_nil (room : Nat) : fitting size room [] = [] := rfl

theorem fitting_begins (room : Nat) (items : List α) : fitting size room items <+: items := by
  induction items generalizing room with
  | nil => exact List.prefix_refl _
  | cons item items ih =>
      rw [fitting]
      split
      · exact List.cons_prefix_cons.2 ⟨rfl, ih _⟩
      · exact List.nil_prefix

theorem taken_fitting (room : Nat) (items : List α) :
    taken size (fitting size room items) ≤ room := by
  induction items generalizing room with
  | nil => exact Nat.zero_le _
  | cons item items ih =>
      rw [fitting]
      split
      · have rest := ih (room - size item)
        rw [taken_cons]
        omega
      · exact Nat.zero_le _

/-- No longer front fits. -/
theorem prefix_fitting {room : Nat} {front items : List α} (begins : front <+: items)
    (fits : taken size front ≤ room) : front <+: fitting size room items := by
  induction front generalizing room items with
  | nil => exact List.nil_prefix
  | cons item front ih =>
      obtain ⟨rest, rfl, later⟩ := List.cons_prefix_iff.1 begins
      rw [taken_cons] at fits
      rw [fitting, if_pos (by omega)]
      exact List.cons_prefix_cons.2 ⟨rfl, ih later (by omega)⟩

theorem fitting_mono {room more : Nat} (grows : room ≤ more) (items : List α) :
    fitting size room items <+: fitting size more items :=
  prefix_fitting (fitting_begins room items) (Nat.le_trans (taken_fitting room items) grows)

/-- With enough room everything fits. -/
theorem fitting_all {room : Nat} {items : List α} (fits : taken size items ≤ room) :
    fitting size room items = items :=
  List.IsPrefix.eq_of_length_le (fitting_begins room items)
    (prefix_fitting (List.prefix_refl items) fits).length_le

theorem fitting_append (room : Nat) (front back : List α) : fitting size room (front ++ back) =
    if taken size front ≤ room then front ++ fitting size (room - taken size front) back
    else fitting size room front := by
  induction front generalizing room with
  | nil => exact (if_pos (Nat.zero_le _)).symm
  | cons item front ih =>
      rw [List.cons_append, fitting, fitting, ih, taken_cons]
      by_cases fits : size item ≤ room
      · rw [if_pos fits, if_pos fits]
        by_cases whole : taken size front ≤ room - size item
        · rw [if_pos whole, if_pos (by omega), Nat.sub_sub]
          rfl
        · rw [if_neg whole, if_neg (by omega)]
      · rw [if_neg fits, if_neg (by omega), if_neg fits]

/-- Nothing fits where there is no room for anything. -/
theorem fitting_zero {items : List α} (positive : ∀ item ∈ items, 0 < size item) :
    fitting size 0 items = [] := by
  cases items with
  | nil => rfl
  | cons item items =>
      have one := positive item (List.mem_cons_self ..)
      rw [fitting, if_neg (by omega)]

theorem fitting_map (change : β → α) (room : Nat) (items : List β) :
    fitting size room (items.map change) =
      (fitting (fun item => size (change item)) room items).map change := by
  induction items generalizing room with
  | nil => rfl
  | cons item items ih =>
      rw [List.map_cons, fitting, fitting, ih]
      split <;> rfl

end Bytes
