/-
# Theory.Lines -- texts made of terminated lines

Joining lines, each with the separator after it, and splitting at the separator gives the lines
back exactly when none of them holds the separator.
-/
import Mathlib.Data.List.Basic

namespace Enfold.Theory

set_option autoImplicit false

variable {α : Type}

/-- Splitting makes one piece more than there are separators. -/
theorem length_splitOn [DecidableEq α] (sep : α) (xs : List α) : (xs.splitOn sep).length = xs.count sep + 1 := by
  induction xs with
  | nil => rfl
  | cons x xs ih =>
      rw [List.splitOn_cons_eq_if_modifyHead, List.count_cons]
      by_cases same : x = sep
      · simp [same, ih]
      · simp [same, ih]

/-- The lines one after the other, each followed by the separator. -/
def terminated (sep : α) (lines : List (List α)) : List α :=
  (lines.map fun line => line ++ [sep]).flatten

theorem terminated_cons (sep : α) (line : List α) (lines : List (List α)) :
    terminated sep (line :: lines) = line ++ sep :: terminated sep lines := by
  simp [terminated]

theorem terminated_append (sep : α) (lines later : List (List α)) :
    terminated sep (lines ++ later) = terminated sep lines ++ terminated sep later := by
  simp [terminated]

theorem length_le_count_terminated [DecidableEq α] (sep : α) (lines : List (List α)) :
    lines.length ≤ (terminated sep lines).count sep := by
  induction lines with
  | nil => exact Nat.zero_le _
  | cons line lines ih =>
      rw [terminated_cons, List.count_append, List.count_cons_self, List.length_cons]
      omega

/-- The lines come back exactly when none holds the separator. -/
theorem splitOn_terminated_iff [DecidableEq α] {sep : α} {lines : List (List α)} :
    (terminated sep lines).splitOn sep = lines ++ [[]] ↔ ∀ line ∈ lines, sep ∉ line := by
  constructor
  · intro split
    have counted : (terminated sep lines).count sep = lines.length := by
      have lengths := congrArg List.length split
      rw [length_splitOn, List.length_append, List.length_singleton] at lengths
      exact Nat.succ.inj lengths
    clear split
    induction lines with
    | nil => simp
    | cons line lines ih =>
        rw [terminated_cons, List.count_append, List.count_cons_self, List.length_cons] at counted
        have rest := length_le_count_terminated sep lines
        have none : line.count sep = 0 := by omega
        intro other mem
        rcases List.mem_cons.1 mem with rfl | mem
        · exact List.count_eq_zero.1 none
        · exact ih (by omega) other mem
  · intro solid
    induction lines with
    | nil => rfl
    | cons line lines ih =>
        rw [terminated_cons, List.splitOn_append_cons_self_of_not_mem (solid line List.mem_cons_self),
          ih fun other mem => solid other (List.mem_cons_of_mem _ mem)]
        rfl

end Enfold.Theory
