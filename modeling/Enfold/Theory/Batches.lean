/-
# Theory.Batches -- work done batch by batch

`batches size xs` cuts a list into pieces of `size` elements, as a loop
`for offset in range(0, len(xs), size)` does.  Put together the pieces are the list
(`flatten_batches`), so a query that selects by the elements of each batch selects by the
elements of the list (`mem_flatMap_batches`), each of them once (`nodup_flatMap_batches`).
-/
import Mathlib.Data.List.Nodup
import Mathlib.Data.List.Flatten

namespace Enfold.Theory

set_option autoImplicit false

variable {α β : Type}

/-- At most `rounds` pieces. -/
def batchesIn (size : Nat) : Nat → List α → List (List α)
  | 0, _ => []
  | _ + 1, [] => []
  | rounds + 1, x :: xs => (x :: xs).take size :: batchesIn size rounds ((x :: xs).drop size)

def batches (size : Nat) (xs : List α) : List (List α) := batchesIn size xs.length xs

theorem flatten_batchesIn {size rounds : Nat} (positive : 0 < size) {xs : List α}
    (enough : xs.length ≤ rounds) : (batchesIn size rounds xs).flatten = xs := by
  induction rounds generalizing xs with
  | zero =>
      rw [List.length_eq_zero_iff.1 (Nat.le_zero.1 enough)]
      rfl
  | succ rounds ih =>
      cases xs with
      | nil => rfl
      | cons x xs =>
          have shorter : ((x :: xs).drop size).length ≤ rounds := by
            rw [List.length_drop]
            simp only [List.length_cons] at enough ⊢
            omega
          rw [batchesIn, List.flatten_cons, ih shorter, List.take_append_drop]

theorem flatten_batches {size : Nat} (positive : 0 < size) (xs : List α) :
    (batches size xs).flatten = xs :=
  flatten_batchesIn positive (Nat.le_refl _)

section Query

variable {size : Nat} {ids : List α} {query : List α → List β} {key : β → α}

/-- A query that finds rows by their key. -/
theorem mem_flatMap_batches (positive : 0 < size) {rows : List β}
    (finds : ∀ batch r, r ∈ query batch ↔ r ∈ rows ∧ key r ∈ batch) {r : β} :
    r ∈ (batches size ids).flatMap query ↔ r ∈ rows ∧ key r ∈ ids := by
  have whole := flatten_batches positive ids
  rw [List.mem_flatMap]
  constructor
  · rintro ⟨batch, cut, found⟩
    obtain ⟨mem, here⟩ := (finds batch r).1 found
    refine ⟨mem, ?_⟩
    rw [← whole]
    exact List.mem_flatten.2 ⟨batch, cut, here⟩
  · rintro ⟨mem, here⟩
    rw [← whole] at here
    obtain ⟨batch, cut, here⟩ := List.mem_flatten.1 here
    exact ⟨batch, cut, (finds batch r).2 ⟨mem, here⟩⟩

/-- Distinct ids are asked for once. -/
theorem nodup_flatMap_batches (positive : 0 < size) (distinct : ids.Nodup)
    (finds : ∀ batch, ∀ r ∈ query batch, key r ∈ batch)
    (once : ∀ batch, ((query batch).map key).Nodup) :
    (((batches size ids).flatMap query).map key).Nodup := by
  have cut : (batches size ids).Pairwise List.Disjoint := by
    have whole := flatten_batches positive ids
    rw [← whole] at distinct
    exact (List.nodup_flatten.1 distinct).2
  rw [List.map_flatMap, List.nodup_flatMap]
  refine ⟨fun batch _ => once batch, cut.imp ?_⟩
  intro batch batch' apart k here there
  obtain ⟨r, found, rfl⟩ := List.mem_map.1 here
  obtain ⟨r', found', same⟩ := List.mem_map.1 there
  refine apart (finds batch r found) ?_
  rw [← same]
  exact finds batch' r' found'

end Query

end Enfold.Theory
