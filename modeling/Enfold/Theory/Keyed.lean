/-
# Theory.Keyed -- lists ordered by a key

When no two elements of a list have one key, the list has one order by the key (`sort_unique`).
So sorting and filtering commute (`filter_ascending`), the largest elements sorted upwards are the
end of the sorted list (`ascending_take_descending`), a bound on the key cuts the sorted list in two
(`filter_append_filter`), and what is cut off at the end is missed there (`take_suffix_iff`).
Lists whose keys do not repeat can be weighed key by key (`sum_lt_of_keys`).
-/
import Mathlib.Algebra.GroupWithZero.Nat
import Mathlib.Algebra.Order.BigOperators.Group.List
import Mathlib.Algebra.Order.Group.Nat
import Mathlib.Data.List.Sort
import Mathlib.Order.Defs.LinearOrder

namespace Enfold.Theory

set_option autoImplicit false

section Keyed

variable {α K : Type} [LinearOrder K] (key : α → K)

/-- Sorted upwards. -/
def ascending (l : List α) : List α := l.insertionSort fun a b => key a ≤ key b

/-- No two elements have one key. -/
def Distinguished (l : List α) : Prop := ∀ a ∈ l, ∀ b ∈ l, key a = key b → a = b

variable {key}

omit [LinearOrder K] in
theorem Distinguished.subset {l l' : List α} (distinct : Distinguished key l) (sub : l' ⊆ l) :
    Distinguished key l' :=
  fun a mem b mem' same => distinct a (sub mem) b (sub mem') same

theorem ascending_perm (l : List α) : (ascending key l).Perm l := List.perm_insertionSort _ l

theorem mem_ascending {l : List α} {a : α} : a ∈ ascending key l ↔ a ∈ l :=
  (ascending_perm l).mem_iff

theorem length_ascending (l : List α) : (ascending key l).length = l.length :=
  (ascending_perm l).length_eq

theorem ascending_pairwise (l : List α) : (ascending key l).Pairwise fun a b => key a ≤ key b := by
  have : Std.Total fun a b : α => key a ≤ key b := ⟨fun a b => le_total (key a) (key b)⟩
  have : IsTrans α fun a b => key a ≤ key b := ⟨fun _ _ _ => le_trans⟩
  exact List.pairwise_insertionSort _ l

/-- Sorted lists of the same elements are the same. -/
theorem sort_unique {l l' : List α} (distinct : Distinguished key l') (perm : l.Perm l')
    (sorted : l.Pairwise fun a b => key a ≤ key b) (sorted' : l'.Pairwise fun a b => key a ≤ key b) :
    l = l' := by
  refine perm.eq_of_pairwise (fun a b mem mem' le ge => ?_) sorted sorted'
  exact distinct a (perm.mem_iff.1 mem) b mem' (le_antisymm le ge)

omit [LinearOrder K] in
/-- Sorting numbers forgets their order. -/
theorem ascending_of_perm [LinearOrder α] {l l' : List α} (perm : l.Perm l') :
    l.insertionSort (· ≤ ·) = l'.insertionSort (· ≤ ·) :=
  @sort_unique _ _ _ id _ _ (fun _ _ _ _ same => same)
    (((List.perm_insertionSort _ _).trans perm).trans (List.perm_insertionSort _ _).symm)
    (List.pairwise_insertionSort _ _) (List.pairwise_insertionSort _ _)

theorem filter_ascending {l : List α} (distinct : Distinguished key l) (p : α → Bool) :
    ascending key (l.filter p) = (ascending key l).filter p := by
  have sub : (ascending key l).filter p ⊆ l := fun a mem => mem_ascending.1 (List.mem_filter.1 mem).1
  refine sort_unique (distinct.subset sub) ?_ (ascending_pairwise _)
    ((ascending_pairwise l).sublist List.filter_sublist)
  exact (ascending_perm _).trans ((ascending_perm l).symm.filter p)

/-- The largest elements, sorted upwards, end the sorted list. -/
theorem ascending_take_descending {l : List α} (distinct : Distinguished key l) (n : Nat) :
    ascending key ((l.insertionSort fun a b => key b ≤ key a).take n) =
      (ascending key l).drop (l.length - n) := by
  have downwards : (l.insertionSort fun a b => key b ≤ key a).Pairwise fun a b => key b ≤ key a := by
    have : Std.Total fun a b : α => key b ≤ key a := ⟨fun a b => le_total (key b) (key a)⟩
    have : IsTrans α fun a b => key b ≤ key a := ⟨fun _ _ _ ab bc => le_trans bc ab⟩
    exact List.pairwise_insertionSort _ l
  have perm := List.perm_insertionSort (fun a b => key b ≤ key a) l
  generalize l.insertionSort (fun a b => key b ≤ key a) = descending at downwards perm
  have reversed : descending.reverse = ascending key l := by
    refine sort_unique (distinct.subset fun a mem => mem_ascending.1 mem)
      (descending.reverse_perm.trans (perm.trans (ascending_perm l).symm)) ?_ (ascending_pairwise l)
    exact List.pairwise_reverse.2 downwards
  have back : descending = (ascending key l).reverse := by rw [← reversed, List.reverse_reverse]
  have last : (ascending key l).drop (l.length - n) = (descending.take n).reverse := by
    rw [back, List.take_reverse, List.reverse_reverse, length_ascending]
  rw [last]
  have sub : (descending.take n).reverse ⊆ l := fun a mem =>
    perm.mem_iff.1 (List.mem_of_mem_take (List.mem_reverse.1 mem))
  refine sort_unique (distinct.subset sub) ((ascending_perm _).trans (List.reverse_perm _).symm)
    (ascending_pairwise _) ?_
  rw [← last]
  exact (ascending_pairwise l).sublist (List.drop_sublist _ _)

/-- A condition that holds below an element whenever it holds of it cuts a sorted list in two. -/
theorem filter_append_filter {l : List α} {p : α → Bool}
    (sorted : l.Pairwise fun a b => key a ≤ key b)
    (downward : ∀ a b, key a ≤ key b → p b = true → p a = true) :
    l.filter p ++ l.filter (fun a => !p a) = l := by
  induction l with
  | nil => rfl
  | cons a l ih =>
      obtain ⟨least, sorted⟩ := List.pairwise_cons.1 sorted
      cases here : p a with
      | true => rw [List.filter_cons_of_pos here, List.filter_cons_of_neg (by simp [here]),
          List.cons_append, ih sorted]
      | false =>
          have none : l.filter p = [] := List.filter_eq_nil_iff.2 fun b mem holds => by
            rw [downward a b (least b mem) holds] at here
            cases here
          rw [List.filter_cons_of_neg (by simp [here]), List.filter_cons_of_pos (by simp [here]), none,
            List.nil_append]
          have whole := ih sorted
          rw [none, List.nil_append] at whole
          rw [whole]

/-- A proper nonempty start of a sorted list is also an end of it only when the list repeats one
element. -/
theorem take_suffix_iff {l : List α} (distinct : Distinguished key l)
    (sorted : l.Pairwise fun a b => key a ≤ key b) (k : Nat) :
    l.take k <:+ l ↔ l.length ≤ k ∨ k = 0 ∨ ∀ a ∈ l, ∀ b ∈ l, a = b := by
  constructor
  · intro suffix
    by_cases proper : 0 < k ∧ k < l.length
    · obtain ⟨some', fewer⟩ := proper
      right; right
      have shifted : ∀ i (inside : i + (l.length - k) < l.length), l[i + (l.length - k)] = l[i] := by
        intro i inside
        have ends := List.suffix_iff_eq_drop.1 suffix
        rw [List.length_take, Nat.min_eq_left fewer.le] at ends
        have here : (l.take k)[i]? = (l.drop (l.length - k))[i]? := by rw [← ends]
        rw [List.getElem?_take_of_lt (by omega), List.getElem?_drop,
          List.getElem?_eq_getElem (by omega), Nat.add_comm,
          List.getElem?_eq_getElem inside] at here
        exact (Option.some.inj here).symm
      have first : ∀ j (inside : j < l.length), l[j] = l[0] := by
        intro j
        induction j using Nat.strong_induction_on with
        | _ j ih =>
            intro inside
            by_cases near : j ≤ l.length - k
            · have below : key l[0] ≤ key l[j] := by
                rcases Nat.eq_zero_or_pos j with rfl | later
                · exact le_refl _
                · exact List.pairwise_iff_getElem.1 sorted 0 j _ inside later
              have above : key l[j] ≤ key l[0] := by
                have again := shifted 0 (by omega)
                rcases Nat.lt_or_eq_of_le near with before | rfl
                · have order := List.pairwise_iff_getElem.1 sorted j (0 + (l.length - k)) inside
                    (by omega) (by omega)
                  rwa [again] at order
                · simp only [Nat.zero_add] at again
                  rw [again]
              exact distinct _ (List.getElem_mem _) _ (List.getElem_mem _) (le_antisymm above below)
            · have back := shifted (j - (l.length - k)) (by omega)
              have same : j - (l.length - k) + (l.length - k) = j := by omega
              simp only [same] at back
              rw [back]
              exact ih (j - (l.length - k)) (by omega) (by omega)
      intro a memA b memB
      obtain ⟨i, insideA, rfl⟩ := List.getElem_of_mem memA
      obtain ⟨j, insideB, rfl⟩ := List.getElem_of_mem memB
      rw [first i insideA, first j insideB]
    · omega
  · rintro (all | rfl | same)
    · have whole : l.take k = l := List.take_of_length_le all
      simp only [whole, List.suffix_rfl]
    · exact List.nil_suffix
    · cases l with
      | nil => simp
      | cons a rest =>
          have repeats : a :: rest = List.replicate (rest.length + 1) a :=
            List.eq_replicate_iff.2 ⟨rfl, fun b mem => same b mem a List.mem_cons_self⟩
          rw [repeats, List.take_replicate]
          exact ⟨List.replicate (rest.length + 1 - min k (rest.length + 1)) a, by
            rw [List.replicate_append_replicate]
            congr 1
            omega⟩

end Keyed

/-! ## Weights -/

section Weights

variable {α K : Type} {key : α → K} {weight weight' : α → Nat}

/-- A list weighs at most another that has, for each of its keys, an element no lighter. -/
theorem sum_le_of_keys {l l' : List α} (nodup : (l'.map key).Nodup)
    (below : ∀ a ∈ l', ∃ b ∈ l, key b = key a ∧ weight' a ≤ weight b) :
    (l'.map weight').sum ≤ (l.map weight).sum := by
  induction l' generalizing l with
  | nil => exact Nat.zero_le _
  | cons a l' ih =>
      obtain ⟨fresh, nodup⟩ := List.nodup_cons.1 nodup
      obtain ⟨b, mem, same, heavier⟩ := below a List.mem_cons_self
      obtain ⟨before, after, rfl⟩ := List.append_of_mem mem
      have rest : (l'.map weight').sum ≤ ((before ++ after).map weight).sum := by
        refine ih nodup fun a' mem' => ?_
        obtain ⟨b', memB, sameB, heavierB⟩ := below a' (List.mem_cons_of_mem _ mem')
        have apart : b' ≠ b := by
          rintro rfl
          exact fresh (List.mem_map.2 ⟨a', mem', sameB.symm.trans same⟩)
        exact ⟨b', by simpa [apart] using memB, sameB, heavierB⟩
      simp only [List.map_append, List.map_cons, List.sum_append, List.sum_cons] at rest ⊢
      omega

/-- It weighs less when some key has weight in the other, and its element there is lighter. -/
theorem sum_lt_of_keys {l l' : List α} {k : K} (nodup : (l'.map key).Nodup)
    (below : ∀ a ∈ l', ∃ b ∈ l, key b = key a ∧ weight a ≤ weight b ∧
      (key a = k → weight a < weight b))
    (heavy : ∃ b ∈ l, key b = k ∧ 0 < weight b) :
    (l'.map weight).sum < (l.map weight).sum := by
  classical
  have lowered : (l'.map weight).sum ≤
      (l.map fun b => weight b - if key b = k then 1 else 0).sum := by
    refine sum_le_of_keys nodup fun a mem => ?_
    obtain ⟨b, memB, same, heavier, strict⟩ := below a mem
    refine ⟨b, memB, same, ?_⟩
    split
    · rename_i here
      have := strict (same.symm.trans here)
      omega
    · omega
  obtain ⟨b, mem, here, positive⟩ := heavy
  refine lowered.trans_lt (List.sum_lt_sum _ _ (fun b _ => Nat.sub_le _ _) ⟨b, mem, ?_⟩)
  rw [if_pos here]
  omega

end Weights

end Enfold.Theory
