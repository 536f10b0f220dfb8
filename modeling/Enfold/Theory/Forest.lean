/-
# Theory.Forest -- following a successor until it stops

A partial successor `next : α → Option α` is a graph with at most one edge out of
each point.  `Ends next a` says that following it from `a` stops; a graph all of
whose points end is a forest, and has no cycle (`Ends.acyclic`).

`ends_of_link` is the step rule: redirecting any number of roots to points that
are roots afterwards keeps every chain finite.  No measure on the points is used,
so the edges may run in any order.

In a forest the points that lead to `a` and the points `a` leads to are its whole connected
component exactly when no point that `a` leads to joins two edges (`comparable_of_joined`,
`alone_of_comparable`).
-/
import Mathlib.Logic.Relation

namespace Enfold.Theory

set_option autoImplicit false

variable {α : Type}

/-- `n` steps along `next`. -/
def follow (next : α → Option α) : Nat → α → Option α
  | 0, a => some a
  | n + 1, a => (next a).bind (follow next n)

/-- Following `next` from `a` stops. -/
def Ends (next : α → Option α) (a : α) : Prop :=
  ∃ n, follow next n a = none

theorem ends_of_root {next : α → Option α} {a : α} (root : next a = none) : Ends next a :=
  ⟨1, by simp [follow, root]⟩

theorem ends_of_next {next : α → Option α} {a b : α} (edge : next a = some b)
    (ends : Ends next b) : Ends next a := by
  obtain ⟨n, stopped⟩ := ends
  exact ⟨n + 1, by simpa [follow, edge] using stopped⟩

/-- The chain that ends at `a` has a last point. -/
theorem Ends.rec_on {next : α → Option α} {P : α → Prop}
    (root : ∀ a, next a = none → P a) (edge : ∀ a b, next a = some b → P b → P a) {a : α}
    (ends : Ends next a) : P a := by
  obtain ⟨n, stopped⟩ := ends
  induction n generalizing a with
  | zero => simp [follow] at stopped
  | succ n ih =>
      cases successor : next a with
      | none => exact root a successor
      | some b =>
          refine edge a b successor (ih ?_)
          simpa [follow, successor] using stopped

/-- Redirecting roots to points that are roots afterwards keeps every chain finite. -/
theorem ends_of_link {next next' : α → Option α}
    (link : ∀ a, next' a = next a ∨ next a = none ∧ ∃ b, next' a = some b ∧ next' b = none)
    {a : α} (ends : Ends next a) : Ends next' a := by
  refine ends.rec_on (fun a root => ?_) (fun a b edge tail => ?_)
  · rcases link a with same | ⟨-, b, edge, last⟩
    · exact ends_of_root (same.trans root)
    · exact ends_of_next edge (ends_of_root last)
  · rcases link a with same | ⟨root, -⟩
    · exact ends_of_next (same.trans edge) tail
    · rw [edge] at root
      cases root

/-- The edge relation of a successor. -/
def Edge (next : α → Option α) (a b : α) : Prop := next a = some b

/-- A chain that ends is not part of a cycle. -/
theorem Ends.acyclic {next : α → Option α} {a : α} (ends : Ends next a) :
    ¬ Relation.TransGen (Edge next) a a := by
  refine Ends.rec_on (P := fun a => ¬ Relation.TransGen (Edge next) a a)
    (fun a root cycle => ?_) (fun a b edge tail cycle => ?_) ends
  · obtain ⟨b, edge, -⟩ := Relation.TransGen.head'_iff.1 cycle
    rw [Edge, root] at edge
    cases edge
  · obtain ⟨b', edge', back⟩ := Relation.TransGen.head'_iff.1 cycle
    have same : b = b' := Option.some.inj (edge.symm.trans edge')
    subst same
    exact tail (Relation.TransGen.tail' back edge)

/-! ## Components -/

section Component

variable {E : α → α → Prop} {a r w x y : α}

/-- Connected by edges in either direction. -/
def Joined (E : α → α → Prop) : α → α → Prop := Relation.ReflTransGen fun a b => E a b ∨ E b a

theorem Joined.refl (a : α) : Joined E a a := Relation.ReflTransGen.refl

theorem Joined.trans {b c : α} (first : Joined E a b) (rest : Joined E b c) : Joined E a c :=
  Relation.ReflTransGen.trans first rest

theorem Joined.symm {b : α} (joined : Joined E a b) : Joined E b a := by
  induction joined with
  | refl => exact .refl a
  | tail _ step ih => exact .head step.symm ih

theorem Joined.of_path {b : α} (path : Relation.ReflTransGen E a b) : Joined E a b :=
  Relation.ReflTransGen.mono (fun _ _ => Or.inl) _ _ path

/-- Past a point nothing joins, a component is one line through the point. -/
theorem comparable_of_joined (functional : Relator.RightUnique E)
    (alone : ∀ w x y, Relation.TransGen E a w → E x w → E y w → x = y) (joined : Joined E a r) :
    Relation.ReflTransGen E r a ∨ Relation.ReflTransGen E a r := by
  induction joined with
  | refl => exact .inl .refl
  | @tail b c _ step ih =>
      obtain before | after := ih
      · obtain forth | back := step
        · obtain rfl | ⟨next, edge, path⟩ := Relation.ReflTransGen.cases_head before
          · exact .inr (.single forth)
          · cases functional forth edge
            exact .inl path
        · exact .inl (.head back before)
      · obtain forth | back := step
        · exact .inr (after.tail forth)
        · obtain rfl | ⟨last, path, edge⟩ := Relation.ReflTransGen.cases_tail after
          · exact .inl (.single back)
          · cases alone b c last (Relation.TransGen.tail' path edge) back edge
            exact .inr path

/-- Two edges into one point, from points on one line, are one edge. -/
theorem source_unique (functional : Relator.RightUnique E)
    (acyclic : ∀ x, ¬ Relation.TransGen E x x) (here : E x w) (there : E y w)
    (line : Relation.ReflTransGen E x y) : x = y := by
  obtain same | ⟨next, edge, path⟩ := Relation.ReflTransGen.cases_head line
  · exact same
  · cases functional here edge
    exact absurd (Relation.TransGen.tail' path there) (acyclic w)

/-- If the component of `a` is one line, no point that `a` leads to joins two edges: either of them
would be the last edge of the path from `a`. -/
theorem alone_of_comparable (functional : Relator.RightUnique E)
    (acyclic : ∀ x, ¬ Relation.TransGen E x x)
    (comparable : ∀ r, Joined E a r → Relation.ReflTransGen E r a ∨ Relation.ReflTransGen E a r)
    (path : Relation.TransGen E a w) (here : E x w) (there : E y w) : x = y := by
  obtain ⟨last, before, edge⟩ := Relation.TransGen.tail'_iff.1 path
  have taken : ∀ z, E z w → z = last := by
    intro z into
    have joined : Joined E a z :=
      (Joined.of_path path.to_reflTransGen).trans (.single (.inr into))
    obtain back | forth := comparable z joined
    · exact source_unique functional acyclic into edge (back.trans before)
    · obtain line | line := Relation.ReflTransGen.total_of_right_unique functional forth before
      · exact source_unique functional acyclic into edge line
      · exact (source_unique functional acyclic edge into line).symm
  rw [taken x here, taken y there]

end Component

end Enfold.Theory
