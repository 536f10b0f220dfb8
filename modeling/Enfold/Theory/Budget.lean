/-
# Theory.Budget -- a list cut at a count and at a size

`fill` keeps elements from the front while there are fewer than `limit` and while their sizes,
with one separator between two, stay within a budget; it tells whether it left any out.  What it
keeps is a prefix (`fill_take`) that fits (`fill_cost`), and it keeps everything exactly when
everything fits (`fill_complete_iff`).
-/
import Mathlib.Data.List.Basic

namespace Enfold.Theory

set_option autoImplicit false

section Budget

variable {α : Type} (size : α → Nat) (limit budget : Nat)

/-- The characters of an element after `count` others. -/
def itemCost (count : Nat) (item : α) : Nat := size item + if 0 < count then 1 else 0

/-- `count` elements of `used` characters are kept already. -/
def fill (count used : Nat) : List α → List α × Bool
  | [] => ([], false)
  | item :: items =>
      if limit ≤ count then ([], true)
      else
        if budget < used + itemCost size count item then ([], true)
        else
          let (kept, truncated) := fill (count + 1) (used + itemCost size count item) items
          (item :: kept, truncated)

/-- The characters that elements take after `count` others. -/
def cost (count : Nat) : List α → Nat
  | [] => 0
  | item :: items => itemCost size count item + cost (count + 1) items

variable {size limit budget}

theorem cost_append (count : Nat) (xs ys : List α) :
    cost size count (xs ++ ys) = cost size count xs + cost size (count + xs.length) ys := by
  induction xs generalizing count with
  | nil => simp [cost]
  | cons x xs ih =>
      rw [List.cons_append, cost, cost, ih, List.length_cons, ← Nat.add_assoc,
        Nat.add_right_comm count 1, Nat.add_assoc count]

/-- Elements take no more room at the front. -/
theorem cost_mono {count count' : Nat} (fewer : count ≤ count') (xs : List α) :
    cost size count xs ≤ cost size count' xs := by
  induction xs generalizing count count' with
  | nil => exact Nat.le_refl 0
  | cons x xs ih =>
      rw [cost, cost]
      refine Nat.add_le_add (Nat.add_le_add_left ?_ _) (ih (Nat.add_le_add_right fewer 1))
      split
      · exact Nat.le_of_eq (if_pos (by omega)).symm
      · exact Nat.zero_le _

/-- What is kept is a prefix; the flag tells whether it is a proper one. -/
theorem fill_take (count used : Nat) (items : List α) :
    ∃ k ≤ items.length, (fill size limit budget count used items).1 = items.take k ∧
      ((fill size limit budget count used items).2 = true ↔ k < items.length) := by
  induction items generalizing count used with
  | nil => exact ⟨0, Nat.le_refl 0, rfl, by simp [fill]⟩
  | cons item items ih =>
      rw [fill]
      split
      · exact ⟨0, Nat.zero_le _, rfl, by simp⟩
      split
      · exact ⟨0, Nat.zero_le _, rfl, by simp⟩
      · obtain ⟨k, few, kept, flag⟩ := ih (count + 1) (used + itemCost size count item)
        refine ⟨k + 1, Nat.succ_le_succ few, ?_, ?_⟩
        · dsimp only
          rw [kept, List.take_succ_cons]
        · dsimp only
          rw [flag, List.length_cons, Nat.succ_lt_succ_iff]

theorem fill_cost {count used : Nat} (room : used ≤ budget) (items : List α) :
    used + cost size count (fill size limit budget count used items).1 ≤ budget := by
  induction items generalizing count used with
  | nil => exact room
  | cons item items ih =>
      rw [fill]
      split
      · exact room
      split
      · exact room
      · rename_i fits
        have rest := @ih (count + 1) _ (Nat.not_lt.1 fits)
        rw [cost]
        omega

/-- Everything is kept when everything fits, and only then. -/
theorem fill_complete_iff {count used : Nat} (room : used ≤ budget) (few : count ≤ limit)
    (items : List α) :
    (fill size limit budget count used items).2 = false ↔
      count + items.length ≤ limit ∧ used + cost size count items ≤ budget := by
  induction items generalizing count used with
  | nil => simpa [fill, cost] using ⟨few, room⟩
  | cons item items ih =>
      rw [fill, cost, List.length_cons]
      split
      · simp only [Bool.true_eq_false, false_iff, not_and]
        omega
      split
      · simp only [Bool.true_eq_false, false_iff, not_and]
        omega
      · rename_i below fits
        rw [ih (Nat.not_lt.1 fits) (by omega)]
        omega

theorem fill_complete {count used : Nat} {items : List α}
    (whole : (fill size limit budget count used items).2 = false) :
    (fill size limit budget count used items).1 = items := by
  obtain ⟨k, few, kept, flag⟩ := @fill_take α size limit budget count used items
  rw [whole] at flag
  rw [kept, List.take_of_length_le (by simpa using flag)]

/-- Nothing is kept when not even the first element fits. -/
theorem fill_eq_nil_iff {used : Nat} (some' : 0 < limit) (items : List α) :
    (fill size limit budget 0 used items).1 = [] ↔
      ∀ item ∈ items.head?, budget < used + size item := by
  cases items with
  | nil => simp [fill]
  | cons item items =>
      rw [fill, if_neg (by omega)]
      dsimp only
      simp only [itemCost, Nat.lt_irrefl, if_false, Nat.add_zero, List.head?_cons, Option.mem_def,
        Option.some.injEq, forall_eq']
      split
      · simpa
      · rename_i fits
        simp [fits]

end Budget

end Enfold.Theory
