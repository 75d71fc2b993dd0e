import Mathlib.Algebra.BigOperators.Group.Finset.Basic
import Mathlib.Data.List.Chain

/-! # Neighbours in a run

How often two neighbours of a list are not as they should be, what cutting a stretch out of
the list does to that number, and who the neighbours are in what is left of a list.
-/

namespace Runs

variable {α κ : Type} (holds : α → α → Prop) [DecidableRel holds]

/-- One, where there is an element on either side and they are not as they should be. -/
def broken : Option α → Option α → Nat
  | some first, some second => if holds first second then 0 else 1
  | _, _ => 0

def breaks : List α → Nat
  | [] => 0
  | item :: later => broken holds (some item) later.head? + breaks later

variable {holds}

theorem broken_none (first : Option α) : broken holds first none = 0 := by
  cases first <;> rfl

theorem breaks_append (front back : List α) :
    breaks holds (front ++ back) =
      breaks holds front + broken holds front.getLast? back.head? + breaks holds back := by
  induction front with
  | nil => exact (Nat.zero_add _).symm
  | cons item front ih =>
      rw [List.cons_append, breaks, ih, breaks]
      cases front with
      | nil =>
          rw [List.nil_append, List.head?_nil, broken_none, List.getLast?_singleton,
            List.getLast?_nil]
          simp only [breaks, broken, Nat.zero_add]
      | cons next front =>
          rw [List.getLast?_cons_cons]
          simp only [List.cons_append, List.head?_cons, Nat.add_assoc]

theorem breaks_eq_zero {items : List α} : breaks holds items = 0 ↔ items.IsChain holds := by
  induction items with
  | nil => exact iff_of_true rfl .nil
  | cons item later ih =>
      rw [breaks, Nat.add_eq_zero_iff, ih]
      cases later with
      | nil => exact iff_of_true ⟨rfl, .nil⟩ (.singleton item)
      | cons next later =>
          rw [List.isChain_cons_cons, List.head?_cons, broken]
          split
          · exact and_congr_left' (iff_of_true rfl ‹_›)
          · exact and_congr_left' (iff_of_false Nat.one_ne_zero ‹_›)

/-- A stretch that is as it should be, up to its neighbours on both sides, is cut out: there
may be a break where its neighbours meet. -/
theorem breaks_cut {front middle back : List α}
    (sound : (front.getLast?.toList ++ middle ++ back.head?.toList).IsChain holds) :
    breaks holds (front ++ middle ++ back) = breaks holds front + breaks holds back := by
  have parts := breaks_eq_zero.mpr sound
  rw [breaks_append, breaks_append] at parts
  rw [breaks_append, breaks_append]
  have left : broken holds front.getLast?.toList.getLast? middle.head? =
      broken holds front.getLast? middle.head? := by
    cases front.getLast? <;> rfl
  have right : back.head?.toList.head? = back.head? := by
    cases back.head? <;> rfl
  rw [left, right] at parts
  have joint : broken holds (front ++ middle).getLast? back.head? =
      broken holds (front.getLast?.toList ++ middle).getLast? back.head? := by
    cases middle with
    | nil =>
        rw [List.append_nil, List.append_nil]
        cases front.getLast? <;> rfl
    | cons item middle =>
        rw [List.getLast?_append_of_ne_nil _ (List.cons_ne_nil item middle),
          List.getLast?_append_of_ne_nil _ (List.cons_ne_nil item middle)]
  omega

/-! ## Neighbours in what is left of a list -/

/-- The neighbours in a filtered list are those with nothing kept between them. -/
theorem isChain_filter_iff (holds : α → α → Prop) (keep : α → Bool) {items : List α} :
    (items.filter keep).IsChain holds ↔
      ∀ front first between second back,
        items = front ++ first :: (between ++ second :: back) → keep first →
        (∀ item ∈ between, ¬ keep item) → keep second → holds first second := by
  constructor
  · rintro chain front first between second back rfl kept gone kept'
    rw [List.filter_append, List.filter_cons_of_pos kept, List.filter_append,
      List.filter_eq_nil_iff.mpr gone, List.nil_append, List.filter_cons_of_pos kept'] at chain
    exact List.isChain_iff_forall_rel_of_append_cons_cons.mp chain rfl
  · intro all
    rw [List.isChain_iff_forall_rel_of_append_cons_cons]
    intro first second front back split
    obtain ⟨before, rest, rfl, -, cut⟩ := List.filter_eq_append_iff.mp split
    obtain ⟨skipped, later, rfl, -, kept, cut⟩ := List.filter_eq_cons_iff.mp cut
    obtain ⟨between, tail, rfl, gone, kept', -⟩ := List.filter_eq_cons_iff.mp cut
    exact all (before ++ skipped) first between second tail (by simp) kept gone kept'

/-! ## Counting by a key -/

section Keys

variable [DecidableEq κ] (key : α → κ)

/-- The items of a key. -/
def ofKey (name : κ) (items : List α) : List α := items.filter fun item => key item = name

/-- A further item adds to the count of its key only. -/
theorem sum_breaks_concat {keys : Finset κ} {items : List α} {item : α}
    (listed : key item ∈ keys) :
    ∑ name ∈ keys, breaks holds (ofKey key name (items ++ [item])) =
      (∑ name ∈ keys, breaks holds (ofKey key name items)) +
        broken holds (ofKey key (key item) items).getLast? (some item) := by
  rw [← Finset.add_sum_erase keys _ listed, ← Finset.add_sum_erase keys _ listed]
  have others : ∀ name ∈ keys.erase (key item),
      breaks holds (ofKey key name (items ++ [item])) = breaks holds (ofKey key name items) := by
    intro name other
    have differs : ¬ key item = name := (Finset.ne_of_mem_erase other).symm
    rw [ofKey, List.filter_append, List.filter_singleton, decide_eq_false differs]
    exact congrArg _ (List.append_nil _)
  have own : ofKey key (key item) (items ++ [item]) = ofKey key (key item) items ++ [item] := by
    rw [ofKey, List.filter_append, List.filter_singleton, decide_eq_true rfl]
    rfl
  rw [Finset.sum_congr rfl others, own, breaks_append]
  simp only [List.head?_cons, breaks, List.head?_nil, broken_none, Nat.add_zero]
  omega

end Keys

end Runs
