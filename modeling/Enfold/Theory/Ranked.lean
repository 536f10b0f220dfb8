/-
# Theory.Ranked -- the first elements of an ordered list

In a list that is strictly ordered, the rank of an element is the number of elements below it.
The first `n` elements are those of rank less than `n` (`mem_take_iff_rank`), an element stands at
the place of its rank (`getElem?_iff_rank`), also when the places are looked up by a key
(`lookup_places`), and before another exactly when it is below it (`pair_sublist_iff`).
-/
import Mathlib.Data.List.Pairwise
import Mathlib.Order.Defs.Unbundled

namespace Enfold.Theory

set_option autoImplicit false

section Ranked

variable {α : Type} {below : α → α → Prop} [DecidableRel below]

/-- The number of elements below `x`. -/
def rank (below : α → α → Prop) [DecidableRel below] (l : List α) (x : α) : Nat :=
  l.countP fun y => below y x

theorem rank_perm {l l' : List α} (perm : l.Perm l') (x : α) : rank below l x = rank below l' x :=
  perm.countP_eq _

variable [Std.Asymm below]

theorem rank_head {y : α} {rest : List α} (ordered : (y :: rest).Pairwise below) :
    rank below (y :: rest) y = 0 := by
  refine List.countP_eq_zero.2 fun z mem => ?_
  rcases List.mem_cons.1 mem with rfl | mem
  · simpa using irrefl_of below z
  · simpa using asymm_of below (List.rel_of_pairwise_cons ordered mem)

omit [Std.Asymm below] in
theorem rank_tail {x y : α} {rest : List α} (ordered : (y :: rest).Pairwise below)
    (mem : x ∈ rest) : rank below (y :: rest) x = rank below rest x + 1 :=
  List.countP_cons_of_pos (decide_eq_true (List.rel_of_pairwise_cons ordered mem))

variable {l : List α} (ordered : l.Pairwise below)

include ordered

theorem mem_take_iff_rank {n : Nat} {x : α} : x ∈ l.take n ↔ x ∈ l ∧ rank below l x < n := by
  induction l generalizing n with
  | nil => simp
  | cons y rest ih =>
      cases n with
      | zero => simp
      | succ n =>
          rw [List.take_succ_cons, List.mem_cons, List.mem_cons, ih ordered.of_cons]
          constructor
          · rintro (rfl | ⟨mem, least⟩)
            · exact ⟨.inl rfl, by rw [rank_head ordered]; exact Nat.succ_pos n⟩
            · exact ⟨.inr mem, by rw [rank_tail ordered mem]; exact Nat.succ_lt_succ least⟩
          · rintro ⟨rfl | mem, least⟩
            · exact .inl rfl
            · rw [rank_tail ordered mem] at least
              exact .inr ⟨mem, Nat.lt_of_succ_lt_succ least⟩

/-- The element at a place is the one with that many elements below it. -/
theorem getElem?_iff_rank {i : Nat} {x : α} : l[i]? = some x ↔ x ∈ l ∧ rank below l x = i := by
  induction l generalizing i with
  | nil => simp
  | cons y rest ih =>
      have head := rank_head ordered
      cases i with
      | zero =>
          rw [List.getElem?_cons_zero, Option.some_inj]
          constructor
          · rintro rfl
            exact ⟨List.mem_cons_self, head⟩
          · rintro ⟨mem, least⟩
            rcases List.mem_cons.1 mem with rfl | mem
            · rfl
            · rw [rank_tail ordered mem] at least
              cases least
      | succ i =>
          rw [List.getElem?_cons_succ, ih ordered.of_cons]
          constructor
          · rintro ⟨mem, same⟩
            exact ⟨List.mem_cons_of_mem y mem, by rw [rank_tail ordered mem, same]⟩
          · rintro ⟨mem, same⟩
            rcases List.mem_cons.1 mem with rfl | mem
            · rw [head] at same
              cases same
            · rw [rank_tail ordered mem] at same
              exact ⟨mem, Nat.succ.inj same⟩

/-- A lookup among the first elements, each listed under its key with a value of its place. -/
theorem lookup_places {κ β : Type} [DecidableEq κ] {key : α → κ} {g : Nat → β} {n : Nat} {k : κ}
    {v : β} (distinct : (l.map key).Nodup) :
    ((l.take n).zipIdx.map fun e => (key e.1, g e.2)).lookup k = some v ↔
      ∃ x ∈ l, key x = k ∧ rank below l x < n ∧ g (rank below l x) = v := by
  have entries : ∀ v, (k, v) ∈ ((l.take n).zipIdx.map fun e => (key e.1, g e.2)) ↔
      ∃ x ∈ l, key x = k ∧ rank below l x < n ∧ g (rank below l x) = v := by
    intro v
    simp only [List.mem_map, Prod.mk.injEq, Prod.exists, List.mem_zipIdx_iff_getElem?,
      List.getElem?_take]
    constructor
    · rintro ⟨x, i, at', same, value⟩
      split at at'
      · next few =>
        obtain ⟨mem, rfl⟩ := (getElem?_iff_rank ordered).1 at'
        exact ⟨x, mem, same, few, value⟩
      · cases at'
    · rintro ⟨x, mem, same, few, value⟩
      refine ⟨x, rank below l x, ?_, same, value⟩
      rw [if_pos few]
      exact (getElem?_iff_rank ordered).2 ⟨mem, rfl⟩
  have keys : ((((l.take n).zipIdx.map fun e => (key e.1, g e.2))).map Prod.fst).Nodup := by
    have same : (((l.take n).zipIdx.map fun e => (key e.1, g e.2))).map Prod.fst =
        (l.take n).map key := by
      have firsts := congrArg (List.map key) (List.zipIdx_map_fst 0 (l.take n))
      rw [List.map_map] at firsts ⊢
      exact firsts
    rw [same]
    exact distinct.sublist ((List.take_sublist n l).map key)
  rw [← entries v, List.lookup_eq_some_iff]
  constructor
  · rintro ⟨before, after, split, -⟩
    rw [split]
    simp
  · intro mem
    obtain ⟨before, after, split⟩ := List.append_of_mem mem
    refine ⟨before, after, split, fun p inside => ?_⟩
    rw [split, List.map_append, List.map_cons] at keys
    rw [bne_iff_ne]
    exact ((List.nodup_append.1 keys).2.2 _ (List.mem_map_of_mem inside) k List.mem_cons_self).symm

omit [DecidableRel below] in
theorem pair_sublist_iff {a b : α} : [a, b].Sublist l ↔ a ∈ l ∧ b ∈ l ∧ below a b := by
  constructor
  · intro sub
    refine ⟨sub.subset (by simp), sub.subset (by simp), ?_⟩
    exact List.rel_of_pairwise_cons (ordered.sublist sub) List.mem_cons_self
  · induction l with
    | nil => simp
    | cons y rest ih =>
        obtain ⟨first, ordered⟩ := List.pairwise_cons.1 ordered
        rintro ⟨memA, memB, less⟩
        rcases List.mem_cons.1 memB with rfl | memB
        · rcases List.mem_cons.1 memA with rfl | memA
          · exact absurd less (irrefl_of below _)
          · exact absurd less (asymm_of below (first _ memA))
        · rcases List.mem_cons.1 memA with same | memA
          · rw [same]
            exact List.Sublist.cons_cons y (List.singleton_sublist.2 memB)
          · exact (ih ordered ⟨memA, memB, less⟩).cons y

end Ranked

end Enfold.Theory
