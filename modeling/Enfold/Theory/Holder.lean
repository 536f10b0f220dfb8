/-
# Theory.Holder -- a lock with one holder, and who claims it

A lock records its holder, or that it is free.  Where the parties stand says which of them have
it; `Agrees` says that the record and the parties tell the same.  Then no two parties have the lock
(`Agrees.unique`), and a step keeps the agreement when it changes no claim (`keep`), when the free
lock goes to the one new claim (`take`), and when one claim goes and the holder's record with it
(`give`).
-/
import Mathlib.Logic.Basic

namespace Enfold.Theory

set_option autoImplicit false

variable {Party : Type}

/-- A lock is held by the one party that claims it, or by nobody. -/
def Agrees (lock : Option Party) (claims : Party → Prop) : Prop :=
  ∀ party, lock = some party ↔ claims party

section Release

variable [DecidableEq Party]

/-- The lock after the party has given it back; another holder stays. -/
def freed (party : Party) (lock : Option Party) : Option Party :=
  if lock = some party then none else lock

@[simp] theorem freed_self (party : Party) : freed party (some party) = none := if_pos rfl

theorem freed_eq_some {party other : Party} {lock : Option Party} :
    freed party lock = some other ↔ lock = some other ∧ other ≠ party := by
  unfold freed
  split
  · next held =>
    rw [held]
    constructor
    · intro none
      cases none
    · rintro ⟨same, apart⟩
      exact absurd (Option.some.inj same).symm apart
  · next elsewhere =>
    constructor
    · intro held
      refine ⟨held, fun same => elsewhere ?_⟩
      rw [held, same]
    · intro held
      exact held.1

end Release

namespace Agrees

variable {lock : Option Party} {claims claims' : Party → Prop} {party : Party}

theorem unique (agrees : Agrees lock claims) {other : Party} (mine : claims party)
    (theirs : claims other) : party = other :=
  Option.some.inj (((agrees party).2 mine).symm.trans ((agrees other).2 theirs))

theorem keep (agrees : Agrees lock claims) (same : ∀ other, claims' other ↔ claims other) :
    Agrees lock claims' :=
  fun other => (agrees other).trans (same other).symm

theorem take (agrees : Agrees lock claims) (free : lock = none) (mine : claims' party)
    (others : ∀ other, other ≠ party → (claims' other ↔ claims other)) :
    Agrees (some party) claims' := by
  intro other
  by_cases same : other = party
  · rw [same]
    exact ⟨fun _ => mine, fun _ => rfl⟩
  · rw [others other same, ← agrees other, free]
    constructor
    · intro taken
      exact absurd (Option.some.inj taken).symm same
    · intro held
      cases held

theorem give [DecidableEq Party] (agrees : Agrees lock claims) (gone : ¬ claims' party)
    (others : ∀ other, other ≠ party → (claims' other ↔ claims other)) :
    Agrees (freed party lock) claims' := by
  intro other
  rw [freed_eq_some]
  by_cases same : other = party
  · rw [same]
    exact ⟨fun held => absurd rfl held.2, fun mine => absurd mine gone⟩
  · rw [others other same, ← agrees other]
    exact ⟨fun held => held.1, fun held => ⟨held, same⟩⟩

end Agrees

end Enfold.Theory
