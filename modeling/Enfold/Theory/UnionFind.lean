/-
# Theory.UnionFind -- parent pointers

Every point of a set points at a point of the set, and a root at itself.  `Leads` counts the
steps from a point to its root.  Two changes of the pointers matter: pointing a root at another
root moves its whole class there (`leads_link`), and pointing a point at its own root changes no
class (`leads_shortcut`).

Where every point leads to a root, the steps are fewer than the points (`Leads.lt_length`), so a
loop that follows the pointers comes to its end.
-/
import Mathlib.Data.List.Nodup
import Mathlib.Data.List.Perm.Subperm
import Mathlib.Logic.Function.Basic
import Mathlib.Logic.Relation

namespace Enfold.Theory

set_option autoImplicit false

variable {α : Type}

/-- `n` steps along the parents lead from the point to its root. -/
inductive Leads (parent : α → Option α) : α → Nat → α → Prop where
  | root {r : α} (self : parent r = some r) : Leads parent r 0 r
  | step {x y r : α} {n : Nat} (edge : parent x = some y) (proper : y ≠ x)
      (tail : Leads parent y n r) : Leads parent x (n + 1) r

/-- The root of a point. -/
def RootOf (parent : α → Option α) (x r : α) : Prop := ∃ n, Leads parent x n r

variable {parent : α → Option α}

theorem Leads.is_root {x r : α} {n : Nat} (leads : Leads parent x n r) : parent r = some r := by
  induction leads with
  | root self => exact self
  | step _ _ _ ih => exact ih

/-- The pointers determine the root and the number of steps. -/
theorem Leads.unique {x r r' : α} {n m : Nat} (leads : Leads parent x n r)
    (leads' : Leads parent x m r') : n = m ∧ r = r' := by
  induction leads generalizing m with
  | root self =>
      cases leads' with
      | root _ => exact ⟨rfl, rfl⟩
      | step edge proper _ =>
          rw [self] at edge
          exact absurd (Option.some.inj edge).symm proper
  | step edge proper _ ih =>
      cases leads' with
      | root self =>
          rw [edge] at self
          exact absurd (Option.some.inj self) proper
      | step edge' _ tail =>
          rw [edge] at edge'
          cases edge'
          obtain ⟨rfl, rfl⟩ := ih tail
          exact ⟨rfl, rfl⟩

theorem RootOf.unique {x r r' : α} (root : RootOf parent x r) (root' : RootOf parent x r') :
    r = r' := by
  obtain ⟨n, leads⟩ := root
  obtain ⟨m, leads'⟩ := root'
  exact (leads.unique leads').2

theorem Leads.rootOf {x r : α} {n : Nat} (leads : Leads parent x n r) : RootOf parent x r :=
  ⟨n, leads⟩

/-! ## The length of a chain -/

/-- The points of a chain, all of them distinct and in the set. -/
theorem Leads.path {points : List α} (closed : ∀ x ∈ points, ∀ y, parent x = some y → y ∈ points)
    {x r : α} {n : Nat} (leads : Leads parent x n r) (mem : x ∈ points) :
    ∃ path : List α, path.length = n + 1 ∧ path.Nodup ∧
      ∀ y ∈ path, y ∈ points ∧ ∃ m ≤ n, Leads parent y m r := by
  induction leads with
  | @root r self =>
      refine ⟨[r], rfl, List.nodup_singleton r, fun y listed => ?_⟩
      cases List.mem_singleton.1 listed
      exact ⟨mem, 0, Nat.le_refl 0, .root self⟩
  | @step x y r n edge proper tail ih =>
      obtain ⟨path, length, distinct, each⟩ := ih (closed x mem y edge)
      have leads : Leads parent x (n + 1) r := .step edge proper tail
      refine ⟨x :: path, by rw [List.length_cons, length], ?_, fun z listed => ?_⟩
      · refine List.nodup_cons.2 ⟨fun again => ?_, distinct⟩
        obtain ⟨-, m, le, leads'⟩ := each x again
        have same := (leads.unique leads').1
        omega
      · rcases List.mem_cons.1 listed with rfl | later
        · exact ⟨mem, n + 1, Nat.le_refl _, leads⟩
        · obtain ⟨inside, m, le, leads'⟩ := each z later
          exact ⟨inside, m, Nat.le_succ_of_le le, leads'⟩

/-- A chain has fewer steps than there are points. -/
theorem Leads.lt_length {points : List α}
    (closed : ∀ x ∈ points, ∀ y, parent x = some y → y ∈ points) {x r : α} {n : Nat}
    (leads : Leads parent x n r) (mem : x ∈ points) : n < points.length := by
  obtain ⟨path, length, distinct, each⟩ := leads.path closed mem
  have subset : path ⊆ points := fun y listed => (each y listed).1
  have le := (distinct.subperm subset).length_le
  omega

/-! ## Changing a pointer -/

variable [DecidableEq α]

/-- Pointing a root at another root moves its class there. -/
theorem leads_link {a b : α} (rootA : parent a = some a) (rootB : parent b = some b)
    (apart : a ≠ b) {x r : α} {n : Nat} (leads : Leads parent x n r) :
    RootOf (Function.update parent a (some b)) x (if r = a then b else r) := by
  have lastB : Function.update parent a (some b) b = some b := by
    rw [Function.update_of_ne apart.symm, rootB]
  induction leads with
  | @root r self =>
      by_cases here : r = a
      · subst here
        rw [if_pos rfl]
        exact ⟨1, .step (Function.update_self r (some b) parent) apart.symm (.root lastB)⟩
      · rw [if_neg here]
        exact ⟨0, .root (by rw [Function.update_of_ne here, self])⟩
  | @step x y r n edge proper _ ih =>
      have other : x ≠ a := by
        rintro rfl
        rw [rootA] at edge
        exact proper (Option.some.inj edge).symm
      obtain ⟨m, tail⟩ := ih
      exact ⟨m + 1, .step (by rw [Function.update_of_ne other, edge]) proper tail⟩

/-- A chain that does not pass a point is the same after that point is changed. -/
theorem leads_aside {x p r : α} {n : Nat} (far : Leads parent x n r) {y : α} {m : Nat}
    (leads : Leads parent y m r) (near : m < n) : Leads (Function.update parent x (some p)) y m r := by
  induction leads with
  | @root r self =>
      have other : r ≠ x := by
        rintro rfl
        have same := (far.unique (.root self)).1
        omega
      exact .root (by rw [Function.update_of_ne other, self])
  | @step y z r m edge proper tail ih =>
      have other : y ≠ x := by
        rintro rfl
        have same := (far.unique (.step edge proper tail)).1
        omega
      exact .step (by rw [Function.update_of_ne other, edge]) proper
        (ih far (Nat.lt_of_succ_lt near))

/-- Pointing a point at its own root changes no class. -/
theorem leads_shortcut {x r : α} {n : Nat} (far : Leads parent x (n + 1) r) {y s : α} {m : Nat}
    (leads : Leads parent y m s) : RootOf (Function.update parent x (some r)) y s := by
  have last : Leads (Function.update parent x (some r)) r 0 r :=
    leads_aside far (.root far.is_root) (Nat.succ_pos n)
  have proper : r ≠ x := by
    rintro rfl
    exact absurd (far.unique (.root far.is_root)).1 (Nat.succ_ne_zero n)
  induction leads with
  | @root s self =>
      have other : s ≠ x := by
        rintro rfl
        exact absurd (far.unique (.root self)).1 (Nat.succ_ne_zero n)
      exact ⟨0, .root (by rw [Function.update_of_ne other, self])⟩
  | @step y z s m edge differs tail ih =>
      by_cases here : y = x
      · subst here
        obtain ⟨-, rfl⟩ := far.unique (.step edge differs tail)
        exact ⟨1, .step (Function.update_self y (some r) parent) proper last⟩
      · obtain ⟨m', tail'⟩ := ih
        exact ⟨m' + 1, .step (by rw [Function.update_of_ne here, edge]) differs tail'⟩

end Enfold.Theory
