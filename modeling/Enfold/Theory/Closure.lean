/-
# Theory.Closure -- growing a list of rows until nothing is added

`saturate` repeats one round: add every row of a table that some row of the chain has an
edge to and whose key the chain does not hold.  It stops because a chain of rows of the table
can only grow so far, and it stops with what the edges reach from where it started
(`mem_saturate`).
-/
import Enfold.Theory.Table
import Mathlib.Logic.Relation

namespace Enfold.Theory

set_option autoImplicit false

variable {K R : Type} {key : R → K} [DecidableEq K]

/-- The rows one round adds. -/
def fresh (t : Table K R key) (edge : R → R → Prop) [DecidableRel edge] (chain : List R) : List R :=
  t.select fun r => key r ∉ chain.map key ∧ ∃ c ∈ chain, edge c r

theorem mem_fresh {t : Table K R key} {edge : R → R → Prop} [DecidableRel edge] {chain : List R}
    {r : R} : r ∈ fresh t edge chain ↔
      r ∈ t ∧ key r ∉ chain.map key ∧ ∃ c ∈ chain, edge c r :=
  Table.mem_select

/-- A round that adds a row leaves fewer rows outside the chain. -/
theorem fewer_outside {t : Table K R key} {edge : R → R → Prop} [DecidableRel edge]
    {chain : List R} (grows : fresh t edge chain ≠ []) :
    t.rowcount (fun r => key r ∉ (chain ++ fresh t edge chain).map key) <
      t.rowcount (fun r => key r ∉ chain.map key) := by
  obtain ⟨r, added⟩ := List.exists_mem_of_ne_nil _ grows
  obtain ⟨mem, outside, -⟩ := mem_fresh.1 added
  unfold Table.rowcount
  rw [List.countP_eq_length_filter, List.countP_eq_length_filter]
  have sub : (t.rows.filter fun r => key r ∉ (chain ++ fresh t edge chain).map key).Sublist
      (t.rows.filter fun r => key r ∉ chain.map key) := by
    refine List.monotone_filter_right _ fun r kept => ?_
    simp only [decide_eq_true_eq] at kept ⊢
    intro inside
    rw [List.map_append] at kept
    exact kept (List.mem_append_left _ inside)
  refine Nat.lt_of_le_of_ne sub.length_le fun same => ?_
  have listed : r ∈ t.rows.filter fun r => key r ∉ (chain ++ fresh t edge chain).map key := by
    rw [sub.eq_of_length same]
    exact List.mem_filter.2 ⟨mem, by simpa using outside⟩
  have kept : key r ∉ (chain ++ fresh t edge chain).map key := by
    simpa using (List.mem_filter.1 listed).2
  exact kept (List.mem_map_of_mem (List.mem_append_right _ added))

/-- The rounds, until one adds nothing. -/
def saturate (t : Table K R key) (edge : R → R → Prop) [DecidableRel edge] (chain : List R) :
    List R :=
  if fresh t edge chain = [] then chain
  else saturate t edge (chain ++ fresh t edge chain)
termination_by t.rowcount fun r => key r ∉ chain.map key
decreasing_by exact fewer_outside ‹_›

section Saturate

variable {t : Table K R key} {edge : R → R → Prop} [DecidableRel edge] {chain : List R}

/-- An edge into a row of the table. -/
def EdgeIn (t : Table K R key) (edge : R → R → Prop) (c r : R) : Prop := edge c r ∧ r ∈ t

theorem nodup_append_fresh (distinct : chain.Nodup) :
    (chain ++ fresh t edge chain).Nodup := by
  refine distinct.append (t.nodup_select _) fun r here added => ?_
  exact (mem_fresh.1 added).2.1 (List.mem_map_of_mem here)

/-- The chain stays a list of distinct rows of the table. -/
theorem saturate_nodup (inside : ∀ c ∈ chain, c ∈ t) (distinct : chain.Nodup) :
    (saturate t edge chain).Nodup ∧ ∀ r ∈ saturate t edge chain, r ∈ t := by
  fun_induction saturate t edge chain with
  | case1 chain still => exact ⟨distinct, inside⟩
  | case2 chain grows ih =>
      refine ih (fun r mem => ?_) (nodup_append_fresh distinct)
      obtain here | added := List.mem_append.1 mem
      · exact inside r here
      · exact (mem_fresh.1 added).1

/-- What the rounds leave: the rows that the edges reach. -/
theorem mem_saturate (inside : ∀ c ∈ chain, c ∈ t) {r : R} :
    r ∈ saturate t edge chain ↔
      ∃ c ∈ chain, Relation.ReflTransGen (EdgeIn t edge) c r := by
  fun_induction saturate t edge chain with
  | case1 chain still =>
      refine ⟨fun mem => ⟨r, mem, .refl⟩, ?_⟩
      rintro ⟨c, mem, path⟩
      induction path with
      | refl => exact mem
      | @tail r' r _ step ih =>
          by_contra missing
          have added : r ∈ fresh t edge chain := by
            refine mem_fresh.2 ⟨step.2, fun taken => ?_, r', ih, step.1⟩
            obtain ⟨held, here, same⟩ := List.mem_map.1 taken
            rw [Table.eq_of_key (inside held here) step.2 same] at here
            exact missing here
          rw [still] at added
          cases added
  | case2 chain grows ih =>
      rw [ih]
      · constructor
        · rintro ⟨c, mem, path⟩
          obtain here | added := List.mem_append.1 mem
          · exact ⟨c, here, path⟩
          · obtain ⟨inTable, -, c', here, step⟩ := mem_fresh.1 added
            exact ⟨c', here, .head ⟨step, inTable⟩ path⟩
        · rintro ⟨c, mem, path⟩
          exact ⟨c, List.mem_append_left _ mem, path⟩
      · intro c mem
        obtain here | added := List.mem_append.1 mem
        · exact inside c here
        · exact (mem_fresh.1 added).1

end Saturate

end Enfold.Theory
