import Mathlib.Data.List.Basic
import Mathlib.Logic.Function.Basic

/-! # Transposing in stages

A table of rows of cells is transposed by stages: each takes the rows in pairs, a fixed
distance apart, and exchanges the upper part of every span of the one with the lower part of
the same span of the other. A stage moves cells, so a network of stages is known by the place
every cell comes from.
-/

namespace Exchange

section Stages

variable {α : Type}

/-- The row at `a` and the one `d` behind it are replaced, both from what they were. -/
def pairStep (first second : α → α → α) (d : Nat) (rows : Nat → α) (a : Nat) : Nat → α :=
  Function.update (Function.update rows a (first (rows a) (rows (a + d)))) (a + d)
    (second (rows a) (rows (a + d)))

/-- The rows that have their partner behind them, in the order of the loops. -/
def leaders (count d : Nat) : List Nat := (List.range count).filter fun a => a / d % 2 = 0

def stage (first second : α → α → α) (count d : Nat) (rows : Nat → α) : Nat → α :=
  (leaders count d).foldl (pairStep first second d) rows

end Stages

variable {α : Type} {first second : α → α → α} {d : Nat}

theorem pairStep_of_ne {rows : Nat → α} {a x : Nat} (own : x ≠ a) (partner : x ≠ a + d) :
    pairStep first second d rows a x = rows x := by
  rw [pairStep, Function.update_of_ne partner, Function.update_of_ne own]

/-- Pairs that do not meet are replaced as if at once. -/
theorem foldl_pairStep (positive : 0 < d) {pairs : List Nat}
    (apart : pairs.Pairwise fun a b => a ≠ b ∧ a ≠ b + d ∧ a + d ≠ b) (rows : Nat → α) {a : Nat}
    (listed : a ∈ pairs) :
    pairs.foldl (pairStep first second d) rows a = first (rows a) (rows (a + d)) ∧
      pairs.foldl (pairStep first second d) rows (a + d) = second (rows a) (rows (a + d)) := by
  have untouched (pairs : List Nat) (rows : Nat → α) (x : Nat)
      (free : ∀ b ∈ pairs, x ≠ b ∧ x ≠ b + d) :
      pairs.foldl (pairStep first second d) rows x = rows x := by
    induction pairs generalizing rows with
    | nil => rfl
    | cons b pairs ih =>
        have here := free b List.mem_cons_self
        rw [List.foldl_cons, ih _ fun c later => free c (List.mem_cons_of_mem b later),
          pairStep_of_ne here.1 here.2]
  induction pairs generalizing rows with
  | nil => exact absurd listed List.not_mem_nil
  | cons b pairs ih =>
      obtain ⟨away, rest⟩ := List.pairwise_cons.mp apart
      rw [List.foldl_cons]
      rcases List.mem_cons.mp listed with rfl | later
      · rw [untouched pairs _ a fun c there => ⟨(away c there).1, (away c there).2.1⟩,
          untouched pairs _ (a + d) fun c there =>
            ⟨(away c there).2.2, fun same => (away c there).1 (Nat.add_right_cancel same)⟩]
        constructor
        · rw [pairStep, Function.update_of_ne (by omega), Function.update_self]
        · rw [pairStep, Function.update_self]
      · obtain ⟨differs, behind, before⟩ := away a later
        have own : pairStep first second d rows b a = rows a :=
          pairStep_of_ne differs.symm before.symm
        have partner : pairStep first second d rows b (a + d) = rows (a + d) :=
          pairStep_of_ne behind.symm fun same => differs (Nat.add_right_cancel same).symm
        have done := ih rest (pairStep first second d rows b) later
        rwa [own, partner] at done

theorem mem_leaders {count a : Nat} : a ∈ leaders count d ↔ a < count ∧ a / d % 2 = 0 := by
  rw [leaders, List.mem_filter, List.mem_range, decide_eq_true_eq]

theorem leaders_apart (positive : 0 < d) (count : Nat) :
    (leaders count d).Pairwise fun a b => a ≠ b ∧ a ≠ b + d ∧ a + d ≠ b := by
  have distinct : (leaders count d).Nodup := List.nodup_range.filter _
  refine distinct.imp_of_mem fun {a b} first second differs => ⟨differs, ?_, ?_⟩
  all_goals
    have even := (mem_leaders.mp first).2
    have other := (mem_leaders.mp second).2
    rintro rfl
  · rw [Nat.add_div_right _ positive] at even
    omega
  · rw [Nat.add_div_right _ positive] at other
    omega

/-- A stage, row by row. -/
theorem stage_eq (positive : 0 < d) {count x : Nat} (rows : Nat → α) (inside : x < count) :
    stage first second count d rows x =
      if x / d % 2 = 0 then first (rows x) (rows (x + d))
      else second (rows (x - d)) (rows x) := by
  have apart := leaders_apart positive count
  split
  · exact (foldl_pairStep positive apart rows (mem_leaders.mpr ⟨inside, by assumption⟩)).1
  · rename_i odd
    have behind : d ≤ x := Nat.le_of_not_lt fun small => odd (by rw [Nat.div_eq_of_lt small])
    have leader : (x - d) / d % 2 = 0 := by
      have := Nat.add_div_right (x - d) positive
      rw [Nat.sub_add_cancel behind] at this
      omega
    have done := (@foldl_pairStep _ first second _ positive _ apart rows _
      (mem_leaders.mpr ⟨Nat.lt_of_le_of_lt (Nat.sub_le x d) inside, leader⟩)).2
    rwa [Nat.sub_add_cancel behind] at done

/-! ## Where a cell comes from -/

section Cells

variable {β : Type} (cell : α → Nat → β) (width : Nat)

/-- The place a cell of row `x`, column `c` comes from. -/
def source (d n : Nat) (place : Nat × Nat) : Nat × Nat :=
  if place.1 / d % 2 = place.2 / n % 2 then place
  else if place.1 / d % 2 = 0 then (place.1 + d, place.2 - n)
  else (place.1 - d, place.2 + n)

/-- The two sides of a pair exchange spans of `n` cells. -/
structure Exchanges (first second : α → α → α) (n : Nat) : Prop where
  first_even : ∀ top bottom, ∀ c < width, c / n % 2 = 0 → cell (first top bottom) c = cell top c
  first_odd : ∀ top bottom, ∀ c < width, c / n % 2 = 1 →
    cell (first top bottom) c = cell bottom (c - n)
  second_even : ∀ top bottom, ∀ c < width, c / n % 2 = 0 →
    cell (second top bottom) c = cell top (c + n)
  second_odd : ∀ top bottom, ∀ c < width, c / n % 2 = 1 →
    cell (second top bottom) c = cell bottom c

theorem cell_stage {n count : Nat} (positive : 0 < d)
    (exchanges : Exchanges cell width first second n) (rows : Nat → α) {place : Nat × Nat}
    (row : place.1 < count) (column : place.2 < width) :
    cell (stage first second count d rows place.1) place.2 =
      cell (rows (source d n place).1) (source d n place).2 := by
  rw [stage_eq positive rows row, source]
  rcases Nat.mod_two_eq_zero_or_one (place.1 / d) with x | x <;>
    rcases Nat.mod_two_eq_zero_or_one (place.2 / n) with c | c
  · rw [if_pos x, x, c, if_pos rfl, exchanges.first_even _ _ _ column c]
  · rw [if_pos x, x, c, if_neg Nat.zero_ne_one, if_pos rfl, exchanges.first_odd _ _ _ column c]
  · rw [if_neg (by omega), x, c, if_neg Nat.one_ne_zero, if_neg Nat.one_ne_zero,
      exchanges.second_even _ _ _ column c]
  · rw [if_neg (by omega), x, c, if_pos rfl, exchanges.second_odd _ _ _ column c]

end Cells

/-! ## Digits -/

theorem digit {d a x u : Nat} (bit : x < 2) (below : u < d) :
    (2 * d * a + d * x + u) / d % 2 = x := by
  have positive : 0 < d := Nat.lt_of_le_of_lt (Nat.zero_le u) below
  rw [show 2 * d * a + d * x + u = u + d * (2 * a + x) by
      rw [Nat.mul_add, Nat.mul_assoc 2 d a, Nat.mul_left_comm 2 d a]; omega,
    Nat.add_mul_div_left u _ positive, Nat.div_eq_of_lt below]
  omega

/-- A stage exchanges a binary digit of the row and one of the column. -/
theorem source_digits {d n r c r' c' a x u b y v : Nat} (row : r = 2 * d * a + d * x + u)
    (column : c = 2 * n * b + n * y + v) (u_lt : u < d) (v_lt : v < n) (x_lt : x < 2)
    (y_lt : y < 2) (row' : r' = 2 * d * a + d * y + u) (column' : c' = 2 * n * b + n * x + v) :
    source d n (r, c) = (r', c') := by
  subst row column row' column'
  rw [source, digit x_lt u_lt, digit y_lt v_lt]
  rcases Nat.lt_succ_iff_lt_or_eq.mp x_lt with x_zero | rfl <;>
    rcases Nat.lt_succ_iff_lt_or_eq.mp y_lt with y_zero | rfl
  · obtain rfl := Nat.lt_one_iff.mp x_zero
    obtain rfl := Nat.lt_one_iff.mp y_zero
    rfl
  · obtain rfl := Nat.lt_one_iff.mp x_zero
    rw [if_neg (by decide), if_pos rfl]
    ext <;> simp <;> omega
  · obtain rfl := Nat.lt_one_iff.mp y_zero
    rw [if_neg (by decide), if_neg (by decide)]
    ext <;> simp <;> omega
  · rfl

/-- A place with its digits below `d` exchanged. -/
def halfway (d r c : Nat) : Nat × Nat := (c % d + d * (r / d), r % d + d * (c / d))

theorem halfway_one (r c : Nat) : halfway 1 r c = (r, c) := by
  simp [halfway, Nat.mod_one]

/-- Stages of growing spans exchange more and more digits. -/
theorem source_halfway {d : Nat} (positive : 0 < d) (r c : Nat) :
    source d d (halfway d r c) = halfway (2 * d) r c := by
  have whole (m : Nat) : d * (m / d) = 2 * d * (m / (2 * d)) + d * (m / d % 2) := by
    rw [Nat.mul_comm 2 d, ← Nat.div_div_eq_div_mul, Nat.mul_assoc, ← Nat.mul_add,
      Nat.div_add_mod]
  have part (m : Nat) : m % (2 * d) = m % d + d * (m / d % 2) := by
    rw [Nat.mul_comm 2 d, Nat.mod_mul]
  refine source_digits (a := r / (2 * d)) (x := r / d % 2) (u := c % d) (b := c / (2 * d))
    (y := c / d % 2) (v := r % d) ?_ ?_ (Nat.mod_lt c positive) (Nat.mod_lt r positive)
    (Nat.mod_lt _ (by decide)) (Nat.mod_lt _ (by decide)) ?_ ?_
  · rw [whole]
    omega
  · rw [whole]
    omega
  · rw [part]
    omega
  · rw [part]
    omega

/-- Places made of larger pieces. -/
theorem source_scaled {k m d r c r' c' g t : Nat} (moved : source d d (r, c) = (r', c'))
    (g_lt : g < k) (t_lt : t < m) :
    source (k * d) (m * d) (k * r + g, m * c + t) = (k * r' + g, m * c' + t) := by
  have row : (k * r + g) / (k * d) = r / d := by
    rw [← Nat.div_div_eq_div_mul, Nat.mul_add_div (by omega), Nat.div_eq_of_lt g_lt, Nat.add_zero]
  have column : (m * c + t) / (m * d) = c / d := by
    rw [← Nat.div_div_eq_div_mul, Nat.mul_add_div (by omega), Nat.div_eq_of_lt t_lt, Nat.add_zero]
  unfold source at moved ⊢
  dsimp only at moved ⊢
  rw [row, column]
  have bounded (n : Nat) (odd : ¬ n / d % 2 = 0) : d ≤ n :=
    Nat.le_of_not_lt fun small => odd (by rw [Nat.div_eq_of_lt small])
  split at moved
  · rename_i same
    obtain ⟨rfl, rfl⟩ := Prod.mk.inj moved
    exact if_pos same
  · rename_i differs
    rw [if_neg differs]
    split at moved
    · rename_i even
      obtain ⟨rfl, rfl⟩ := Prod.mk.inj moved
      have := Nat.mul_le_mul_left m (bounded c (by omega))
      rw [if_pos even, Nat.mul_add, Nat.mul_sub]
      ext <;> dsimp only <;> omega
    · rename_i odd
      obtain ⟨rfl, rfl⟩ := Prod.mk.inj moved
      have := Nat.mul_le_mul_left k (bounded r odd)
      rw [if_neg odd, Nat.mul_add, Nat.mul_sub]
      ext <;> dsimp only <;> omega

end Exchange
