/-
# Theory.Mirror -- a copy of a keyed relation, kept beside it

`Mirror source copy` says that a key held on both sides holds the same value on both.  It
says nothing about a key held on one side only, so it survives every deletion on either side
(`Mirror.mono`); a write keeps it when it goes to both sides, or when the other side holds no
other value under the key (`Mirror.put_both`, `Mirror.put_source`, `Mirror.put_copy`).

A reader that compares the two sets of keys learns from `Mirror` that the copy is exact
(`Mirror.exact_of_keys`).
-/
import Mathlib.Logic.Basic

namespace Enfold.Theory

set_option autoImplicit false

variable {K V : Type} {source source' copy copy' : K → V → Prop} {k : K} {x : V}

/-- A key held on both sides holds the same value. -/
def Mirror (source copy : K → V → Prop) : Prop :=
  ∀ k v w, source k v → copy k w → v = w

/-- After the write `k ↦ x` a key holds `x`, or what it held before. -/
def Puts (k : K) (x : V) (before after : K → V → Prop) : Prop :=
  ∀ k' v, after k' v → k' = k ∧ v = x ∨ k' ≠ k ∧ before k' v

namespace Mirror

/-- Whatever is removed on either side, the rest still agrees. -/
theorem mono (mirror : Mirror source copy) (kept : ∀ k v, source' k v → source k v)
    (copied : ∀ k v, copy' k v → copy k v) : Mirror source' copy' :=
  fun k v w here there => mirror k v w (kept k v here) (copied k w there)

/-- A relation with one value a key mirrors itself. -/
theorem of_functional (unique : ∀ k v w, source k v → source k w → v = w)
    (copied : ∀ k v, copy k v → source k v) : Mirror source copy :=
  fun k v w here there => unique k v w here (copied k w there)

theorem put_both (mirror : Mirror source copy) (put : Puts k x source source')
    (copied : Puts k x copy copy') : Mirror source' copy' := by
  intro k' v w here there
  obtain ⟨same, rfl⟩ | ⟨other, here⟩ := put k' v here
  · obtain ⟨-, rfl⟩ | ⟨other, -⟩ := copied k' w there
    · rfl
    · exact absurd same other
  · obtain ⟨same, -⟩ | ⟨-, there⟩ := copied k' w there
    · exact absurd same other
    · exact mirror k' v w here there

theorem put_source (mirror : Mirror source copy) (put : Puts k x source source')
    (held : ∀ w, copy k w → w = x) : Mirror source' copy := by
  intro k' v w here there
  obtain ⟨rfl, rfl⟩ | ⟨-, here⟩ := put k' v here
  · exact (held w there).symm
  · exact mirror k' v w here there

theorem put_copy (mirror : Mirror source copy) (copied : Puts k x copy copy')
    (held : ∀ v, source k v → v = x) : Mirror source copy' := by
  intro k' v w here there
  obtain ⟨rfl, rfl⟩ | ⟨-, there⟩ := copied k' w there
  · exact held v here
  · exact mirror k' v w here there

/-- With the same keys on both sides the copy is exact. -/
theorem exact_of_keys (mirror : Mirror source copy)
    (missing : ∀ k v, source k v → ∃ w, copy k w) (extra : ∀ k w, copy k w → ∃ v, source k v)
    (k : K) (v : V) : copy k v ↔ source k v := by
  constructor
  · intro there
    obtain ⟨w, here⟩ := extra k v there
    rw [← mirror k w v here there]
    exact here
  · intro here
    obtain ⟨w, there⟩ := missing k v here
    rw [mirror k v w here there]
    exact there

end Mirror

end Enfold.Theory
