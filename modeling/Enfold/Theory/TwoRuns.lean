/-
# Theory.TwoRuns -- one routine on two states

A routine does not depend on a part of its state when it answers alike on two states that
differ only there.  `Both R x y` compares two runs: both raise the same error, or both
return and the results are related by `R`.  The rules follow the shape of a routine
(`Both.bind`, `Both.require`), so that a two-run proof reads like the routine.

For tables, `SameOn p t u` says that two tables hold the same rows among those with `p`.
Every statement whose condition stays within `p` then selects, counts and rewrites the same
rows in both (`SameOn.select_perm`, `SameOn.rowcount_eq`, `SameOn.update`).
-/
import Enfold.Theory.Checked
import Enfold.Theory.Table
import Mathlib.Data.List.Sort

namespace Enfold.Theory

set_option autoImplicit false

universe u v

/-! ## Results -/

/-- Both runs raise the same error, or return related results. -/
def Both {ε : Type u} {α β : Type v} (R : α → β → Prop) : Except ε α → Except ε β → Prop
  | .ok a, .ok b => R a b
  | .error e, .error e' => e = e'
  | _, _ => False

namespace Both

variable {ε : Type u} {α β γ δ : Type v} {R : α → β → Prop} {S : γ → δ → Prop}

theorem ok {a : α} {b : β} (related : R a b) : Both (ε := ε) R (.ok a) (.ok b) := related

theorem isOk_eq {x : Except ε α} {y : Except ε β} (both : Both R x y) : x.isOk = y.isOk := by
  cases x <;> cases y <;> first | rfl | exact both.elim

theorem error (e : ε) : Both R (.error e) (.error e) := Eq.refl e

theorem pure {a : α} {b : β} (related : R a b) :
    Both R (Pure.pure a : Except ε α) (Pure.pure b : Except ε β) := related

/-- The same run twice. -/
theorem same (x : Except ε α) : Both Eq x x := by
  cases x with
  | ok a => exact Eq.refl a
  | error e => exact Eq.refl e

theorem of_eq {x y : Except ε α} (equal : x = y) : Both Eq x y := equal ▸ same x

theorem mono {R' : α → β → Prop} {x : Except ε α} {y : Except ε β} (both : Both R x y)
    (weaker : ∀ a b, R a b → R' a b) : Both R' x y := by
  cases x with
  | ok a =>
      cases y with
      | ok b => exact weaker a b both
      | error e => exact both
  | error e =>
      cases y with
      | ok b => exact both
      | error e' => exact both

/-- A block answers alike when its first step does and the rest does from related
results. -/
theorem bind {x : Except ε α} {y : Except ε β} {f : α → Except ε γ} {g : β → Except ε δ}
    (first : Both R x y)
    (rest : ∀ a b, x = .ok a → y = .ok b → R a b → Both S (f a) (g b)) :
    Both S (x >>= f) (y >>= g) := by
  cases x with
  | ok a =>
      cases y with
      | ok b => exact rest a b rfl rfl first
      | error e => exact first.elim
  | error e =>
      cases y with
      | ok b => exact first.elim
      | error e' => exact first

/-- A first step that is the same in both runs. -/
theorem bind_same {x : Except ε α} {f : α → Except ε γ} {g : α → Except ε δ}
    (rest : ∀ a, x = .ok a → Both S (f a) (g a)) : Both S (x >>= f) (x >>= g) := by
  cases x with
  | ok a => exact rest a rfl
  | error e => exact Eq.refl e

/-- A guard that both runs pass or both fail. -/
theorem require {c c' : Prop} [Decidable c] [Decidable c'] {e : ε}
    {f : PUnit.{v + 1} → Except ε γ} {g : PUnit.{v + 1} → Except ε δ} (iff : c ↔ c')
    (rest : c → c' → Both S (f ⟨⟩) (g ⟨⟩)) :
    Both S (Theory.require c e >>= f) (Theory.require c' e >>= g) := by
  by_cases holds : c
  · have holds' := iff.1 holds
    simp only [Theory.require, if_pos holds, if_pos holds', ok_bind]
    exact rest holds holds'
  · have fails : ¬ c' := fun holds' => holds (iff.2 holds')
    simp only [Theory.require, if_neg holds, if_neg fails, error_bind]
    exact Eq.refl e

end Both

/-- A loop whose body does the same for every item. -/
theorem mapM_congr_mem {ε : Type u} {α β : Type v} {xs : List α} {f g : α → Except ε β}
    (same : ∀ x ∈ xs, f x = g x) : xs.mapM f = xs.mapM g := by
  induction xs with
  | nil => rfl
  | cons x xs ih =>
      rw [List.mapM_cons, List.mapM_cons, same x List.mem_cons_self,
        ih fun y mem => same y (List.mem_cons_of_mem x mem)]

/-! ## Tables -/

variable {K R : Type} {key : R → K}

/-- The tables hold the same rows among those with `p`. -/
def SameOn (p : R → Prop) (t u : Table K R key) : Prop := ∀ r, p r → (r ∈ t ↔ r ∈ u)

/-- The tables hold the same rows. -/
abbrev SameRows (t u : Table K R key) : Prop := SameOn (fun _ => True) t u

namespace SameOn

variable {p : R → Prop} {t u t' u' : Table K R key}

theorem refl (p : R → Prop) (t : Table K R key) : SameOn p t t := fun _ _ => Iff.rfl

theorem symm (same : SameOn p t u) : SameOn p u t := fun r holds => (same r holds).symm

theorem trans {v : Table K R key} (same : SameOn p t u) (same' : SameOn p u v) : SameOn p t v :=
  fun r holds => (same r holds).trans (same' r holds)

theorem rows (same : SameRows t u) {r : R} : r ∈ t ↔ r ∈ u := same r trivial

/-- A query for the rows with `p` shows them all. -/
theorem of_select_eq [DecidablePred p] (equal : t.select p = u.select p) : SameOn p t u := by
  intro r holds
  have both : r ∈ t.select p ↔ r ∈ u.select p := by rw [equal]
  rwa [Table.mem_select, Table.mem_select, and_iff_left holds, and_iff_left holds] at both

/-- A lookup restricted to `p`. -/
theorem get?_filter [DecidableEq K] [DecidablePred p] (same : SameOn p t u) (k : K) :
    ((t.get? k).filter fun r => p r) = (u.get? k).filter fun r => p r := by
  ext r
  simp only [Option.filter_eq_some_iff, Table.get?_eq_some, decide_eq_true_eq]
  constructor
  · rintro ⟨⟨mem, here⟩, holds⟩
    exact ⟨⟨(same r holds).1 mem, here⟩, holds⟩
  · rintro ⟨⟨mem, here⟩, holds⟩
    exact ⟨⟨(same r holds).2 mem, here⟩, holds⟩

/-- A lookup that finds a row with `p` in one table finds it in the other. -/
theorem get?_of [DecidableEq K] (same : SameOn p t u) {k : K} {r : R} (found : t.get? k = some r)
    (holds : p r) : u.get? k = some r := by
  obtain ⟨mem, here⟩ := Table.get?_eq_some.1 found
  exact Table.get?_eq_some.2 ⟨(same r holds).1 mem, here⟩

theorem get?_eq [DecidableEq K] (same : SameRows t u) (k : K) : t.get? k = u.get? k := by
  ext r
  rw [Table.get?_eq_some, Table.get?_eq_some, same r trivial]

theorem insert? [DecidableEq K] (same : SameOn p t u) {r : R} (inserted : t.insert? r = some t')
    (inserted' : u.insert? r = some u') : SameOn p t' u' := by
  intro r' holds
  rw [Table.mem_of_insert? inserted, Table.mem_of_insert? inserted', same r' holds]

/-- Two rows go into two tables alike when their keys are taken alike. -/
theorem insert?_isSome [DecidableEq K] {r r' : R}
    (iff : (∃ x ∈ t, key x = key r) ↔ ∃ x ∈ u, key x = key r') :
    (t.insert? r).isSome = (u.insert? r').isSome := by
  have taken : ∀ (t : Table K R key) (r : R), key r ∈ t.rows.map key ↔ ∃ x ∈ t, key x = key r :=
    fun t r => List.mem_map
  unfold Table.insert?
  by_cases free : key r ∉ t.rows.map key
  · rw [dif_pos free, dif_pos fun mem => free ((taken t r).2 (iff.2 ((taken u r').1 mem)))]
    rfl
  · rw [dif_neg free,
      dif_neg fun mem => free fun mem' => mem ((taken u r').2 (iff.1 ((taken t r).1 mem')))]

/-- An update whose condition stays within `p`. -/
theorem update (same : SameOn p t u) {q : R → Prop} [DecidablePred q] {f : R → R}
    {keeps : ∀ r, key (f r) = key r} (inside : ∀ r ∈ t, q r → p r) (inside' : ∀ r ∈ u, q r → p r) :
    SameOn p (t.update q f keeps) (u.update q f keeps) := by
  intro r' holds
  rw [Table.mem_update, Table.mem_update]
  constructor
  · rintro ⟨r, mem, image⟩
    by_cases touched : q r
    · exact ⟨r, (same r (inside r mem touched)).1 mem, image⟩
    · rw [if_neg touched] at image
      subst image
      exact ⟨r, (same r holds).1 mem, if_neg touched⟩
  · rintro ⟨r, mem, image⟩
    by_cases touched : q r
    · exact ⟨r, (same r (inside' r mem touched)).2 mem, image⟩
    · rw [if_neg touched] at image
      subst image
      exact ⟨r, (same r holds).2 mem, if_neg touched⟩

/-- A query whose condition stays within `p` selects the same rows. -/
theorem select_perm (same : SameOn p t u) {q : R → Prop} [DecidablePred q]
    (inside : ∀ r ∈ t, q r → p r) (inside' : ∀ r ∈ u, q r → p r) :
    (t.select q).Perm (u.select q) := by
  refine (List.perm_ext_iff_of_nodup (t.nodup_select q) (u.nodup_select q)).2 fun r => ?_
  rw [Table.mem_select, Table.mem_select]
  constructor
  · rintro ⟨mem, holds⟩
    exact ⟨(same r (inside r mem holds)).1 mem, holds⟩
  · rintro ⟨mem, holds⟩
    exact ⟨(same r (inside' r mem holds)).2 mem, holds⟩

/-- Ordered by an order that tells the selected rows apart, it returns the same list. -/
theorem ordered_select_eq (same : SameOn p t u) {q : R → Prop} [DecidablePred q]
    {le : R → R → Prop} [DecidableRel le] [Std.Total le] [IsTrans R le]
    (inside : ∀ r ∈ t, q r → p r) (inside' : ∀ r ∈ u, q r → p r)
    (apart : ∀ r ∈ t, q r → ∀ r' ∈ t, q r' → le r r' → le r' r → r = r') :
    (t.select q).insertionSort le = (u.select q).insertionSort le := by
  have perm := same.select_perm inside inside'
  have perm' := (List.perm_insertionSort le _).trans
    (perm.trans (List.perm_insertionSort le (u.select q)).symm)
  refine perm'.eq_of_pairwise ?_ (List.pairwise_insertionSort le _)
    (List.pairwise_insertionSort le _)
  intro r r' mem mem' first second
  obtain ⟨here, holds⟩ := Table.mem_select.1 ((List.perm_insertionSort le _).mem_iff.1 mem)
  have there := perm.mem_iff.2 ((List.perm_insertionSort le _).mem_iff.1 mem')
  obtain ⟨here', holds'⟩ := Table.mem_select.1 there
  exact apart r here holds r' here' holds' first second

/-- The same for an order that tells all rows of the table apart. -/
theorem sorted_select_eq (same : SameOn p t u) {q : R → Prop} [DecidablePred q]
    {le : R → R → Prop} [DecidableRel le] [Std.Total le] [IsTrans R le]
    (inside : ∀ r ∈ t, q r → p r) (inside' : ∀ r ∈ u, q r → p r)
    (apart : ∀ r ∈ t, ∀ r' ∈ t, le r r' → le r' r → r = r') :
    (t.select q).insertionSort le = (u.select q).insertionSort le :=
  same.ordered_select_eq inside inside' fun r mem _ r' mem' _ => apart r mem r' mem'

/-- A part of a query that finds nothing outside `p`. -/
theorem filterMap_perm {β : Type} (same : SameOn p t u) {f g : R → Option β}
    (outside : ∀ r ∈ t, ¬ p r → f r = none) (outside' : ∀ r ∈ u, ¬ p r → g r = none)
    (agree : ∀ r, p r → f r = g r) : (t.rows.filterMap f).Perm (u.rows.filterMap g) := by
  classical
  have narrowed : ∀ {v : Table K R key} {h : R → Option β}, (∀ r ∈ v, ¬ p r → h r = none) →
      v.rows.filterMap h = (v.select p).filterMap h := by
    intro v h nothing
    unfold Table.select
    rw [List.filterMap_filter]
    refine List.filterMap_congr fun r mem => ?_
    by_cases holds : p r
    · rw [if_pos (decide_eq_true holds)]
    · rw [if_neg (by simpa using holds), nothing r mem holds]
  rw [narrowed outside, narrowed outside']
  have alike : (u.select p).filterMap f = (u.select p).filterMap g :=
    List.filterMap_congr fun r mem => agree r (Table.mem_select.1 mem).2
  rw [← alike]
  exact (same.select_perm (fun _ _ holds => holds) fun _ _ holds => holds).filterMap f

theorem rowcount_eq (same : SameOn p t u) {q : R → Prop} [DecidablePred q]
    (inside : ∀ r ∈ t, q r → p r) (inside' : ∀ r ∈ u, q r → p r) :
    t.rowcount q = u.rowcount q := by
  have lengths := (same.select_perm inside inside').length_eq
  unfold Table.select at lengths
  unfold Table.rowcount
  rw [List.countP_eq_length_filter, List.countP_eq_length_filter]
  exact lengths

end SameOn

end Enfold.Theory
