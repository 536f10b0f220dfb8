/-
# Laws.BudgetTruncation -- a text cut to a budget is as long as it can be

`truncateToBudget` searches the cut points by bisection.  A longer prefix stays at least as long
after its trailing whitespace is stripped (`rdropWhile_mono`), so the estimate grows with the cut
point and the cut points that fit are an initial segment; the search ends at its last one
(`longestFit_last`).
-/
import Enfold.Laws.ContextPacking

namespace Enfold.Laws

open Enfold.Theory Enfold.Model

set_option autoImplicit false

/-! ## Stripped prefixes -/

/-- Stripping the end of a list keeps the order of prefixes. -/
theorem rdropWhile_mono {α : Type} (p : α → Bool) {l l' : List α} (start : l <+: l') :
    l.rdropWhile p <+: l'.rdropWhile p := by
  obtain ⟨rest, rfl⟩ := start
  induction rest using List.reverseRecOn with
  | nil => rw [List.append_nil]
  | append_singleton rest last ih =>
      rw [← List.append_assoc, List.rdropWhile_concat]
      by_cases dropped : p last = true
      · rw [if_pos dropped]
        exact ih
      · rw [if_neg dropped]
        have whole : l <+: l ++ rest ++ [last] := by
          rw [List.append_assoc]
          exact List.prefix_append l _
        exact (List.rdropWhile_prefix p l).trans whole

/-- The candidate of a cut point. -/
def cutAt (text : String) (n : Nat) : String := trimmedPrefix text n ++ ellipsis

def CutFits (text : String) (budget : Int) (n : Nat) : Prop :=
  (estimateTokens (cutAt text n) : Int) ≤ budget

theorem length_cutAt_mono (text : String) {m n : Nat} (le : m ≤ n) :
    (cutAt text m).length ≤ (cutAt text n).length := by
  have start : text.toList.take m <+: text.toList.take n := List.take_prefix_take_left le
  have shorter := (rdropWhile_mono isSpace start).length_le
  simp only [cutAt, trimmedPrefix, String.length_append, String.length_ofList]
  omega

/-- What fits at a cut point fits at every earlier one. -/
theorem CutFits.mono {text : String} {budget : Int} {m n : Nat} (fits : CutFits text budget n)
    (le : m ≤ n) : CutFits text budget m := by
  have shorter := length_cutAt_mono text le
  unfold CutFits estimateTokens at *
  omega

/-- Beyond the text there is nothing left to cut. -/
theorem cutAt_min (text : String) (n : Nat) : cutAt text n = cutAt text (min n text.length) := by
  have same : text.toList.take n = text.toList.take (min n text.length) := by
    rw [← String.length_toList, List.take_eq_take_iff]
    omega
  rw [cutAt, cutAt, trimmedPrefix, trimmedPrefix, same]

theorem cutAt_zero (text : String) : cutAt text 0 = ellipsis := rfl

/-! ## The search -/

/-- The search returns the candidate of the last cut point that fits.  Below `low` the best
candidate is the one before it; from `stop` on nothing fits. -/
theorem longestFit_last {text : String} {budget : Int} {low stop : Nat} {best : String}
    (start : CutFits text budget 0)
    (below : ∀ k, low = k + 1 → best = cutAt text k ∧ CutFits text budget k)
    (above : ∀ n, stop ≤ n → n ≤ text.length → ¬ CutFits text budget n) :
    ∃ k, longestFit text budget low stop best = cutAt text k ∧ CutFits text budget k ∧
      ∀ n ≤ text.length, CutFits text budget n → n ≤ k := by
  fun_induction longestFit text budget low stop best with
  | case1 low stop best open_ midpoint candidate better ih =>
      refine ih ?_ above
      intro k here
      cases Nat.succ_injective here
      exact ⟨rfl, better⟩
  | case2 low stop best open_ midpoint candidate tooLong ih =>
      refine ih below ?_
      intro n from_ _ fits
      exact tooLong (fits.mono from_)
  | case3 low stop best closed =>
      cases low with
      | zero => exact absurd start (above 0 (by omega) (Nat.zero_le _))
      | succ k =>
          obtain ⟨rfl, fits⟩ := below k rfl
          refine ⟨k, rfl, fits, fun n inside fits' => ?_⟩
          by_contra beyond
          exact above n (by omega) inside fits'

/-- **Maximal truncation.**  A text that fits is returned whole.  Otherwise the result is the
longest stripped prefix with an ellipsis that fits, and empty when not even the ellipsis does.
A cut point fits whenever a later one does. -/
theorem truncateToBudget_maximal (text : String) (budget : Int) :
    ((estimateTokens text : Int) ≤ budget → (truncateToBudget text budget).1 = text) ∧
      (budget < estimateTokens text →
        (budget < estimateTokens ellipsis → (truncateToBudget text budget).1 = "") ∧
        ((estimateTokens ellipsis : Int) ≤ budget →
          (∃ k, (truncateToBudget text budget).1 = trimmedPrefix text k ++ ellipsis) ∧
          (estimateTokens (truncateToBudget text budget).1 : Int) ≤ budget ∧
          ∀ n, (estimateTokens (trimmedPrefix text n ++ ellipsis) : Int) ≤ budget →
            (trimmedPrefix text n ++ ellipsis).length ≤
              (truncateToBudget text budget).1.length)) ∧
      ∀ m n, m ≤ n → (estimateTokens (trimmedPrefix text n ++ ellipsis) : Int) ≤ budget →
        (estimateTokens (trimmedPrefix text m ++ ellipsis) : Int) ≤ budget := by
  refine ⟨?_, ?_, fun m n le fits => CutFits.mono fits le⟩
  · intro fits
    unfold truncateToBudget
    by_cases spent : budget ≤ 0
    · rw [if_pos spent]
      have empty : text.length = 0 := by
        unfold estimateTokens at fits
        omega
      exact (String.length_eq_zero_iff.1 empty).symm
    · rw [if_neg spent, if_pos fits]
  · intro tooLong
    constructor
    · intro cramped
      unfold truncateToBudget
      by_cases spent : budget ≤ 0
      · rw [if_pos spent]
      · rw [if_neg spent, if_neg (by omega), if_pos cramped]
    · intro roomy
      have one : estimateTokens ellipsis = 1 := by decide
      have found : (truncateToBudget text budget).1 =
          longestFit text budget 0 (text.length + 1) "" := by
        unfold truncateToBudget
        rw [if_neg (by omega), if_neg (by omega), if_neg (by omega)]
      have start : CutFits text budget 0 := by
        rw [CutFits, cutAt_zero]
        exact roomy
      obtain ⟨k, last, fits, maximal⟩ := @longestFit_last text budget 0 (text.length + 1) "" start
        (fun k here => by cases here) (fun n from_ inside => by omega)
      rw [found, last]
      refine ⟨⟨k, rfl⟩, fits, ?_⟩
      intro n fits'
      have within : CutFits text budget (min n text.length) :=
        CutFits.mono fits' (Nat.min_le_left n _)
      have before := maximal (min n text.length) (Nat.min_le_right n _) within
      calc (cutAt text n).length = (cutAt text (min n text.length)).length := by rw [← cutAt_min]
        _ ≤ (cutAt text k).length := length_cutAt_mono text before

end Enfold.Laws
