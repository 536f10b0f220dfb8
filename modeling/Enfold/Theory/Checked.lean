/-
# Theory.Checked -- computations that may raise

A routine that may raise is a value of `Except ε`.  It is written as a `do` block
over `require` (the guard that raises) and other such routines, and it is read
back with the inversion lemmas here: a block that returned went through each of
its steps.  No proof elsewhere unfolds `bind`.

`commit` is the boundary of a transaction: the state a routine leaves behind is
the one it returns, or the one it started from when it raises.
-/
import Mathlib.Data.List.Forall2
import Mathlib.Logic.Basic

namespace Enfold.Theory

set_option autoImplicit false

universe u v w

variable {ε : Type u} {α : Type v} {β : Type v}

/-- Raise `e` unless `c` holds. -/
def require (c : Prop) [Decidable c] (e : ε) : Except ε PUnit.{v + 1} :=
  if c then .ok ⟨⟩ else .error e

@[simp] theorem require_eq_ok {c : Prop} [Decidable c] {e : ε} {r : PUnit.{v + 1}} :
    require c e = .ok r ↔ c := by
  unfold require
  split <;> simp_all

theorem require_of {c : Prop} [Decidable c] {e : ε} (holds : c) :
    (require c e : Except ε PUnit.{v + 1}) = .ok ⟨⟩ := by
  simp [holds]

/-- Raise `e` unless `c` holds, and hand the proof to what follows. -/
def checked (c : Prop) [Decidable c] (e : ε) : Except ε (PLift c) :=
  if holds : c then .ok ⟨holds⟩ else .error e

theorem checked_of {c : Prop} [Decidable c] {e : ε} (holds : c) : checked c e = .ok ⟨holds⟩ := by
  dsimp only [checked]
  exact dif_pos holds

/-- A block that returned ran its first step to a value and the rest from it. -/
theorem bind_eq_ok {x : Except ε α} {f : α → Except ε β} {b : β} :
    (x >>= f) = .ok b ↔ ∃ a, x = .ok a ∧ f a = .ok b := by
  cases x with
  | error e => simp [bind, Except.bind]
  | ok a => simp [bind, Except.bind]

/-- A block that returned passed its guard. -/
theorem require_bind_eq_ok {c : Prop} [Decidable c] {e : ε} {f : PUnit.{v + 1} → Except ε β}
    {b : β} : (require c e >>= f) = .ok b ↔ c ∧ f ⟨⟩ = .ok b := by
  rw [bind_eq_ok]
  constructor
  · rintro ⟨⟨⟩, passed, rest⟩
    exact ⟨require_eq_ok.1 passed, rest⟩
  · rintro ⟨holds, rest⟩
    exact ⟨⟨⟩, require_of holds, rest⟩

@[simp] theorem pure_eq_ok {a b : α} : (pure a : Except ε α) = .ok b ↔ a = b := by
  simp [pure, Except.pure]

@[simp] theorem ok_bind {a : α} {f : α → Except ε β} : (.ok a >>= f : Except ε β) = f a := rfl

@[simp] theorem error_bind {e : ε} {f : α → Except ε β} :
    (.error e >>= f : Except ε β) = .error e := rfl

/-- Two blocks with the same first step agree when they agree after each of its results. -/
theorem bind_congr_ok {x : Except ε α} {f g : α → Except ε β}
    (rest : ∀ a, x = .ok a → f a = g a) : (x >>= f) = (x >>= g) := by
  cases x with
  | error e => rfl
  | ok a => exact rest a rfl

/-- A routine with a result attached to its state. -/
theorem map_eq_ok {x : Except ε α} {f : α → β} {b : β} :
    x.map f = .ok b ↔ ∃ a, x = .ok a ∧ f a = b := by
  cases x with
  | error e => simp [Except.map]
  | ok a => simp [Except.map]

/-- Every result of a traversal comes from an element. -/
theorem mem_of_mapM_eq_ok {f : α → Except ε β} {xs : List α} {ys : List β}
    (done : xs.mapM f = .ok ys) : ∀ y ∈ ys, ∃ x ∈ xs, f x = .ok y := by
  induction xs generalizing ys with
  | nil =>
      cases pure_eq_ok.1 done
      simp
  | cons x xs ih =>
      rw [List.mapM_cons] at done
      obtain ⟨first, here, done⟩ := bind_eq_ok.1 done
      obtain ⟨rest, others, done⟩ := bind_eq_ok.1 done
      cases pure_eq_ok.1 done
      intro y mem
      rcases List.mem_cons.1 mem with rfl | mem
      · exact ⟨x, List.mem_cons_self, here⟩
      · obtain ⟨x', mem', there⟩ := ih others y mem
        exact ⟨x', List.mem_cons_of_mem _ mem', there⟩

/-- Related lists have related elements at every place. -/
theorem forall₂_getElem? {γ : Type v} {R : α → γ → Prop} {xs : List α} {ys : List γ}
    (related : List.Forall₂ R xs ys) {i : Nat} {x : α} (here : xs[i]? = some x) :
    ∃ y, ys[i]? = some y ∧ R x y := by
  induction related generalizing i with
  | nil => cases here
  | cons first _ ih =>
      cases i with
      | zero =>
          cases here
          exact ⟨_, rfl, first⟩
      | succ i => exact ih here

/-- Lists of one length with related elements at every place are related. -/
theorem forall₂_of_getElem? {γ : Type v} {R : α → γ → Prop} {xs : List α} {ys : List γ}
    (length : xs.length = ys.length)
    (related : ∀ (i : Nat) x y, xs[i]? = some x → ys[i]? = some y → R x y) :
    List.Forall₂ R xs ys := by
  refine List.forall₂_iff_get.2 ⟨length, fun i left right => ?_⟩
  exact related i _ _ (by simp [left]) (by simp [right])

/-- A traversal succeeds when every element does, and then its results are in order. -/
theorem mapM_eq_ok {f : α → Except ε β} {xs : List α} {ys : List β} :
    xs.mapM f = .ok ys ↔ List.Forall₂ (fun x y => f x = .ok y) xs ys := by
  induction xs generalizing ys with
  | nil =>
      rw [List.mapM_nil, pure_eq_ok, List.forall₂_nil_left_iff]
      exact eq_comm
  | cons x xs ih =>
      rw [List.mapM_cons, List.forall₂_cons_left_iff]
      constructor
      · intro done
        obtain ⟨first, here, done⟩ := bind_eq_ok.1 done
        obtain ⟨rest, others, done⟩ := bind_eq_ok.1 done
        exact ⟨first, rest, here, ih.1 others, (pure_eq_ok.1 done).symm⟩
      · rintro ⟨first, rest, here, others, rfl⟩
        rw [here, ok_bind, ih.2 others]
        rfl

/-- A traversal whose results are images of those of another. -/
theorem mapM_map_of {γ : Type v} {f : α → Except ε β} {f' : α → Except ε γ} {g : β → γ}
    {xs : List α} (same : ∀ x ∈ xs, f' x = (f x).map g) :
    xs.mapM f' = (xs.mapM f).map (List.map g) := by
  induction xs with
  | nil => rfl
  | cons x xs ih =>
      rw [List.mapM_cons, List.mapM_cons, same x List.mem_cons_self,
        ih fun x' mem => same x' (List.mem_cons_of_mem _ mem)]
      cases f x with
      | error e => rfl
      | ok y =>
          cases xs.mapM f with
          | error e => rfl
          | ok ys => rfl

/-- A traversal fails as the first element that fails. -/
theorem mapM_eq_error {f : α → Except ε β} {xs : List α} {e : ε} :
    xs.mapM f = .error e ↔ ∃ (i : Nat) (x : α), xs[i]? = some x ∧ f x = .error e ∧
      ∀ j < i, ∀ y, xs[j]? = some y → ∃ b, f y = .ok b := by
  induction xs with
  | nil => simp [pure, Except.pure]
  | cons x xs ih =>
      rw [List.mapM_cons]
      cases here : f x with
      | error e' =>
          rw [error_bind]
          constructor
          · rintro ⟨⟩
            exact ⟨0, x, rfl, here, by simp⟩
          · rintro ⟨i, y, at_i, failed, before⟩
            cases i with
            | zero =>
                cases at_i
                rw [here] at failed
                cases failed
                rfl
            | succ i =>
                obtain ⟨b, done⟩ := before 0 (Nat.succ_pos i) x rfl
                rw [here] at done
                cases done
      | ok b =>
          rw [ok_bind]
          constructor
          · intro failed
            cases rest : xs.mapM f with
            | ok ys =>
                rw [rest] at failed
                cases failed
            | error e' =>
                rw [rest, error_bind] at failed
                cases failed
                obtain ⟨i, y, at_i, failed, before⟩ := ih.1 rest
                refine ⟨i + 1, y, at_i, failed, ?_⟩
                intro j less z at_j
                cases j with
                | zero =>
                    cases at_j
                    exact ⟨b, here⟩
                | succ j => exact before j (Nat.lt_of_succ_lt_succ less) z at_j
          · rintro ⟨i, y, at_i, failed, before⟩
            cases i with
            | zero =>
                cases at_i
                rw [here] at failed
                cases failed
            | succ i =>
                rw [ih.2 ⟨i, y, at_i, failed, fun j less z at_j =>
                  before (j + 1) (Nat.succ_lt_succ less) z at_j⟩]
                rfl

/-! ## What a routine raises -/

/-- Whatever the routine raises satisfies `P`. -/
def Raises (P : ε → Prop) (x : Except ε α) : Prop := ∀ e, x = .error e → P e

namespace Raises

variable {P : ε → Prop}

theorem ok (a : α) : Raises P (.ok a : Except ε α) := by
  intro e raised
  cases raised

theorem error {e : ε} (holds : P e) : Raises P (.error e : Except ε α) := by
  rintro _ ⟨⟩
  exact holds

theorem bind {x : Except ε α} {f : α → Except ε β} (first : Raises P x)
    (rest : ∀ a, x = .ok a → Raises P (f a)) : Raises P (x >>= f) := by
  cases x with
  | error e =>
      rintro _ ⟨⟩
      exact first e rfl
  | ok a => exact rest a rfl

theorem mapM {f : α → Except ε β} {xs : List α} (each : ∀ x ∈ xs, Raises P (f x)) :
    Raises P (xs.mapM f) := by
  induction xs with
  | nil => exact ok _
  | cons x xs ih =>
      rw [List.mapM_cons]
      refine (each x List.mem_cons_self).bind fun y _ => ?_
      exact (ih fun x' mem => each x' (List.mem_cons_of_mem _ mem)).bind fun ys _ => ok _

theorem foldlM {σ : Type v} {f : σ → α → Except ε σ} {xs : List α}
    (each : ∀ s, ∀ x ∈ xs, Raises P (f s x)) (s : σ) : Raises P (xs.foldlM f s) := by
  induction xs generalizing s with
  | nil => exact ok _
  | cons x xs ih =>
      rw [List.foldlM_cons]
      refine (each s x List.mem_cons_self).bind fun s' _ => ?_
      exact ih (fun s x' mem => each s x' (List.mem_cons_of_mem _ mem)) s'

end Raises

/-! ## Commits -/

/-- The state committed by a routine: what it returned, or the old state. -/
def commit {σ : Type v} (old : σ) (r : Except ε (σ × α)) : σ :=
  match r with
  | .ok (new, _) => new
  | .error _ => old

@[simp] theorem commit_ok {σ : Type v} (old new : σ) (a : α) :
    commit (ε := ε) old (.ok (new, a)) = new := rfl

/-- A property of the old state that every returned state has too is kept by the commit. -/
theorem commit_induction {σ : Type v} {P : σ → Prop} {old : σ} {r : Except ε (σ × α)}
    (start : P old) (returned : ∀ new a, r = .ok (new, a) → P new) : P (commit old r) := by
  cases r with
  | error e => exact start
  | ok pair => exact returned pair.1 pair.2 rfl

end Enfold.Theory
