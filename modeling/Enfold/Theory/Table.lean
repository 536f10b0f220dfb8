/-
# Theory.Table -- tables whose primary key cannot be violated

A `Table` is a list of rows, in insertion order, whose keys are pairwise
distinct; the distinctness is a field, so no operation can leave it.  The
operations are the statements a relational store executes on one table: insert,
update where, delete where, select by key, and the row count of a condition.

Every operation has a membership lemma (`mem_insert`, `mem_update`,
`mem_delete`), and two rows with the same key are the same row (`eq_of_key`).
Proofs about stores use only these.
-/
import Mathlib.Data.List.Nodup
import Mathlib.Data.List.Perm.Subperm

namespace Enfold.Theory

set_option autoImplicit false

/-- Rows of type `R` with pairwise distinct keys. -/
structure Table (K R : Type) (key : R → K) where
  rows : List R
  nodup : (rows.map key).Nodup

namespace Table

variable {K R : Type} {key : R → K}

@[ext] theorem ext {t u : Table K R key} (same : t.rows = u.rows) : t = u := by
  cases t
  cases u
  simp_all

instance [DecidableEq R] : DecidableEq (Table K R key) := fun t u =>
  decidable_of_iff (t.rows = u.rows) ⟨ext, congrArg rows⟩

instance : Membership R (Table K R key) := ⟨fun t r => r ∈ t.rows⟩

theorem mem_rows {t : Table K R key} {r : R} : r ∈ t.rows ↔ r ∈ t := Iff.rfl

def empty : Table K R key := ⟨[], List.nodup_nil⟩

@[simp] theorem not_mem_empty (r : R) : r ∉ (empty : Table K R key) := List.not_mem_nil

/-- Two rows with one key are one row. -/
theorem eq_of_key {t : Table K R key} {r r' : R} (mem : r ∈ t) (mem' : r' ∈ t)
    (same : key r = key r') : r = r' :=
  List.inj_on_of_nodup_map t.nodup mem mem' same

/-! ## Insert -/

/-- Insert a row whose key is fresh. -/
def insert (t : Table K R key) (r : R) (fresh : key r ∉ t.rows.map key) : Table K R key where
  rows := t.rows ++ [r]
  nodup := by
    rw [List.map_append]
    exact t.nodup.append (by simp) (by simpa using fresh)

@[simp] theorem mem_insert {t : Table K R key} {r r' : R} {fresh : key r ∉ t.rows.map key} :
    r' ∈ t.insert r fresh ↔ r' ∈ t ∨ r' = r := by
  show r' ∈ t.rows ++ [r] ↔ _
  simp [mem_rows]

/-- Insert a row; `none` when its key is taken. -/
def insert? [DecidableEq K] (t : Table K R key) (r : R) : Option (Table K R key) :=
  if fresh : key r ∉ t.rows.map key then some (t.insert r fresh) else none

theorem insert?_eq_some [DecidableEq K] {t u : Table K R key} {r : R} :
    t.insert? r = some u ↔ ∃ fresh : key r ∉ t.rows.map key, u = t.insert r fresh := by
  unfold insert?
  split
  · rename_i fresh
    simp only [Option.some.injEq, eq_comm, exists_prop_of_true fresh]
  · rename_i taken
    simp only [reduceCtorEq, false_iff, not_exists]
    exact fun fresh => absurd fresh taken

theorem mem_of_insert? [DecidableEq K] {t u : Table K R key} {r r' : R}
    (inserted : t.insert? r = some u) : r' ∈ u ↔ r' ∈ t ∨ r' = r := by
  obtain ⟨fresh, rfl⟩ := insert?_eq_some.1 inserted
  exact mem_insert

/-- The key of an inserted row was not in the table. -/
theorem fresh_of_insert? [DecidableEq K] {t u : Table K R key} {r r' : R}
    (inserted : t.insert? r = some u) (mem : r' ∈ t) : key r' ≠ key r := by
  obtain ⟨fresh, rfl⟩ := insert?_eq_some.1 inserted
  exact fun same => fresh (List.mem_map.2 ⟨r', mem, same⟩)

theorem rows_of_insert? [DecidableEq K] {t u : Table K R key} {r : R}
    (inserted : t.insert? r = some u) : u.rows = t.rows ++ [r] := by
  obtain ⟨fresh, rfl⟩ := insert?_eq_some.1 inserted
  rfl

/-! ## Update -/

/-- `UPDATE … WHERE p`: rewrite the rows that satisfy `p`, keeping their keys. -/
def update (t : Table K R key) (p : R → Prop) [DecidablePred p] (f : R → R)
    (keeps : ∀ r, key (f r) = key r) : Table K R key where
  rows := t.rows.map fun r => if p r then f r else r
  nodup := by
    have same : key ∘ (fun r => if p r then f r else r) = key := by
      funext r
      simp only [Function.comp]
      split
      · exact keeps r
      · rfl
    rw [List.map_map, same]
    exact t.nodup

theorem mem_update {t : Table K R key} {p : R → Prop} [DecidablePred p] {f : R → R}
    {keeps : ∀ r, key (f r) = key r} {r : R} :
    r ∈ t.update p f keeps ↔ ∃ r₀ ∈ t, (if p r₀ then f r₀ else r₀) = r := by
  show r ∈ t.rows.map _ ↔ _
  rw [List.mem_map]
  rfl

/-- A row that the condition passes over stays. -/
theorem mem_update_of_not {t : Table K R key} {p : R → Prop} [DecidablePred p] {f : R → R}
    {keeps : ∀ r, key (f r) = key r} {r : R} (mem : r ∈ t) (outside : ¬ p r) :
    r ∈ t.update p f keeps :=
  mem_update.2 ⟨r, mem, if_neg outside⟩

theorem mem_update_of {t : Table K R key} {p : R → Prop} [DecidablePred p] {f : R → R}
    {keeps : ∀ r, key (f r) = key r} {r : R} (mem : r ∈ t) (inside : p r) :
    f r ∈ t.update p f keeps :=
  mem_update.2 ⟨r, mem, if_pos inside⟩

@[simp] theorem keys_update {t : Table K R key} {p : R → Prop} [DecidablePred p] {f : R → R}
    {keeps : ∀ r, key (f r) = key r} :
    (t.update p f keeps).rows.map key = t.rows.map key := by
  simp only [update, List.map_map]
  refine List.map_congr_left fun r _ => ?_
  simp only [Function.comp]
  split
  · exact keeps r
  · rfl

/-- An update whose condition no row satisfies changes nothing. -/
theorem update_of_none {t : Table K R key} {p : R → Prop} [DecidablePred p] {f : R → R}
    {keeps : ∀ r, key (f r) = key r} (outside : ∀ r ∈ t, ¬ p r) : t.update p f keeps = t := by
  refine ext ?_
  show t.rows.map _ = t.rows
  conv_rhs => rw [← List.map_id t.rows]
  exact List.map_congr_left fun r mem => if_neg (outside r mem)

/-! ## Delete, select, count -/

/-- `DELETE … WHERE p`. -/
def delete (t : Table K R key) (p : R → Prop) [DecidablePred p] : Table K R key where
  rows := t.rows.filter fun r => ¬ p r
  nodup := t.nodup.sublist (List.filter_sublist.map key)

@[simp] theorem mem_delete {t : Table K R key} {p : R → Prop} [DecidablePred p] {r : R} :
    r ∈ t.delete p ↔ r ∈ t ∧ ¬ p r := by
  show r ∈ t.rows.filter _ ↔ _
  simp [mem_rows]

/-- `INSERT OR REPLACE`: the row under the key of `r`, if any, gives way to `r`. -/
def replace [DecidableEq K] (t : Table K R key) (r : R) : Table K R key :=
  (t.delete fun old => key old = key r).insert r fun taken => by
    obtain ⟨old, mem, same⟩ := List.mem_map.1 taken
    exact (mem_delete.1 mem).2 same

@[simp] theorem mem_replace [DecidableEq K] {t : Table K R key} {r r' : R} :
    r' ∈ t.replace r ↔ (r' ∈ t ∧ key r' ≠ key r) ∨ r' = r := by
  rw [replace, mem_insert, mem_delete]

/-- `executemany INSERT`: `none` when a key is taken. -/
def insertAll? [DecidableEq K] (t : Table K R key) (rs : List R) : Option (Table K R key) :=
  rs.foldlM insert? t

theorem rows_of_insertAll? [DecidableEq K] {t u : Table K R key} {rs : List R}
    (inserted : t.insertAll? rs = some u) : u.rows = t.rows ++ rs := by
  induction rs generalizing t with
  | nil =>
      cases inserted
      exact (List.append_nil _).symm
  | cons r rs ih =>
      obtain ⟨next, first, rest⟩ := Option.bind_eq_some_iff.1 inserted
      rw [ih rest, rows_of_insert? first, List.append_assoc, List.singleton_append]

/-- `SELECT … WHERE p`. -/
def select (t : Table K R key) (p : R → Prop) [DecidablePred p] : List R :=
  t.rows.filter fun r => p r

@[simp] theorem mem_select {t : Table K R key} {p : R → Prop} [DecidablePred p] {r : R} :
    r ∈ t.select p ↔ r ∈ t ∧ p r := by
  simp [select, mem_rows]

theorem nodup_rows (t : Table K R key) : t.rows.Nodup := t.nodup.of_map key

theorem nodup_select (t : Table K R key) (p : R → Prop) [DecidablePred p] :
    (t.select p).Nodup :=
  t.nodup_rows.filter _

/-- The row with a given key. -/
def get? [DecidableEq K] (t : Table K R key) (k : K) : Option R :=
  t.rows.find? fun r => key r = k

theorem get?_eq_some [DecidableEq K] {t : Table K R key} {k : K} {r : R} :
    t.get? k = some r ↔ r ∈ t ∧ key r = k := by
  constructor
  · intro found
    exact ⟨List.mem_of_find?_eq_some found, by simpa using List.find?_some found⟩
  · rintro ⟨mem, rfl⟩
    cases found : t.get? (key r) with
    | none =>
        have := List.find?_eq_none.1 found r mem
        simp at this
    | some r' =>
        have same : key r' = key r := by simpa using List.find?_some found
        rw [eq_of_key (List.mem_of_find?_eq_some found) mem same]

theorem get?_eq_none [DecidableEq K] {t : Table K R key} {k : K} :
    t.get? k = none ↔ ∀ r ∈ t, key r ≠ k := by
  unfold get?
  rw [List.find?_eq_none]
  simp [mem_rows]

/-- The row with a key after an update. -/
theorem get?_update [DecidableEq K] {t : Table K R key} {p : R → Prop} [DecidablePred p]
    {f : R → R} {keeps : ∀ r, key (f r) = key r} {k : K} :
    (t.update p f keeps).get? k = (t.get? k).map fun r => if p r then f r else r := by
  cases found : t.get? k with
  | none =>
      refine get?_eq_none.2 fun r mem => ?_
      obtain ⟨r₀, mem₀, rfl⟩ := mem_update.1 mem
      have absent := get?_eq_none.1 found r₀ mem₀
      split
      · rwa [keeps]
      · exact absent
  | some r =>
      obtain ⟨mem, here⟩ := get?_eq_some.1 found
      refine get?_eq_some.2 ⟨mem_update.2 ⟨r, mem, rfl⟩, ?_⟩
      dsimp only
      split
      · rwa [keeps]
      · exact here


/-- After a loop of replacements a key holds the value every row of the loop gives it. -/
theorem get?_foldl_replace [DecidableEq K] {t : Table K R key} {rs : List R} {r : R}
    (only : ∀ r' ∈ rs, key r' = key r → r' = r) (held : r ∈ t ∨ r ∈ rs) :
    (rs.foldl replace t).get? (key r) = some r := by
  induction rs generalizing t with
  | nil =>
      obtain held | held := held
      · exact get?_eq_some.2 ⟨held, rfl⟩
      · cases held
  | cons first rs ih =>
      refine ih (fun r' mem => only r' (List.mem_cons_of_mem _ mem)) ?_
      by_cases same : key first = key r
      · rw [only first List.mem_cons_self same]
        exact .inl (mem_replace.2 (.inr rfl))
      · obtain held | held := held
        · exact .inl (mem_replace.2 (.inl ⟨held, Ne.symm same⟩))
        · obtain rfl | later := List.mem_cons.1 held
          · exact absurd rfl same
          · exact .inr later

/-- The number of rows an `UPDATE … WHERE p` or a `DELETE … WHERE p` touches. -/
def rowcount (t : Table K R key) (p : R → Prop) [DecidablePred p] : Nat :=
  t.rows.countP fun r => p r

/-- A condition that fixes the key and touches one row has found that row. -/
theorem exists_of_rowcount_eq_one {t : Table K R key} {p : R → Prop} [DecidablePred p]
    (one : t.rowcount p = 1) : ∃ r ∈ t, p r := by
  have pos : 0 < t.rows.countP fun r => p r := by unfold rowcount at one; omega
  obtain ⟨r, mem, holds⟩ := List.countP_pos_iff.1 pos
  exact ⟨r, mem, by simpa using holds⟩

/-- A condition whose rows are exactly those of the distinct keys `ks` touches one
row for each of them. -/
theorem rowcount_eq_length [DecidableEq K] {t : Table K R key} {p : R → Prop} [DecidablePred p]
    {ks : List K} (distinct : ks.Nodup) (found : ∀ k ∈ ks, ∃ r ∈ t, key r = k ∧ p r)
    (only : ∀ r ∈ t, p r → key r ∈ ks) : t.rowcount p = ks.length := by
  have keys : ((t.rows.filter fun r => p r).map key).Perm ks := by
    refine (List.perm_ext_iff_of_nodup ?_ distinct).2 fun k => ?_
    · exact t.nodup.sublist (List.filter_sublist.map key)
    · simp only [List.mem_map, List.mem_filter, decide_eq_true_eq]
      constructor
      · rintro ⟨r, ⟨mem, holds⟩, rfl⟩
        exact only r mem holds
      · intro mem
        obtain ⟨r, inTable, same, holds⟩ := found k mem
        exact ⟨r, ⟨inTable, holds⟩, same⟩
  unfold rowcount
  rw [List.countP_eq_length_filter, ← keys.length_eq, List.length_map]

/-- A condition that touches as many rows as there are keys in `ks`, and no others, has
found a row for each of them. -/
theorem exists_of_rowcount_eq_length {t : Table K R key} {p : R → Prop} [DecidablePred p]
    {ks : List K} (count : t.rowcount p = ks.length) (only : ∀ r ∈ t, p r → key r ∈ ks) :
    ∀ k ∈ ks, ∃ r ∈ t, key r = k ∧ p r := by
  have distinct : ((t.select p).map key).Nodup := t.nodup.sublist (List.filter_sublist.map key)
  have inside : (t.select p).map key ⊆ ks := by
    intro k mem
    obtain ⟨r, selected, rfl⟩ := List.mem_map.1 mem
    obtain ⟨inTable, holds⟩ := mem_select.1 selected
    exact only r inTable holds
  have long : ks.length ≤ ((t.select p).map key).length := by
    rw [← count, List.length_map, rowcount, List.countP_eq_length_filter]
    exact Nat.le_refl _
  have same := (distinct.subperm inside).perm_of_length_le long
  intro k mem
  obtain ⟨r, selected, here⟩ := List.mem_map.1 (same.mem_iff.2 mem)
  obtain ⟨inTable, holds⟩ := mem_select.1 selected
  exact ⟨r, inTable, here, holds⟩

/-- A condition on one key that some row satisfies touches exactly one row. -/
theorem rowcount_eq_one [DecidableEq K] {t : Table K R key} {p : R → Prop} [DecidablePred p]
    {r : R} (mem : r ∈ t) (holds : p r) (only : ∀ r' ∈ t, p r' → key r' = key r) :
    t.rowcount p = 1 := by
  have single : t.rowcount p = [key r].length :=
    rowcount_eq_length (List.nodup_singleton _)
      (fun _ inKeys => ⟨r, mem, (List.mem_singleton.1 inKeys).symm, holds⟩)
      (fun r' mem' holds' => List.mem_singleton.2 (only r' mem' holds'))
  exact single

/-! ## Maps -/

/-- The rows of `u` are the rows of `t`, each rewritten by `g`. -/
def Maps (t u : Table K R key) (g : R → R) : Prop := ∀ r', r' ∈ u ↔ ∃ r ∈ t, g r = r'

namespace Maps

variable {t u v : Table K R key} {g h : R → R}

theorem refl (t : Table K R key) : Maps t t id := by
  intro r
  simp

theorem of_mem (maps : Maps t u g) {r : R} (mem : r ∈ t) : g r ∈ u := (maps _).2 ⟨r, mem, rfl⟩

theorem of_update {p : R → Prop} [DecidablePred p] {f : R → R} (keeps : ∀ r, key (f r) = key r) :
    Maps t (t.update p f keeps) (fun r => if p r then f r else r) :=
  fun _ => mem_update

theorem trans (first : Maps t u g) (second : Maps u v h) : Maps t v (h ∘ g) := by
  intro x
  rw [second x]
  constructor
  · rintro ⟨r', mem, rfl⟩
    obtain ⟨r, old, rfl⟩ := (first r').1 mem
    exact ⟨r, old, rfl⟩
  · rintro ⟨r, old, rfl⟩
    exact ⟨g r, first.of_mem old, rfl⟩

/-- The rewriting matters on the rows of the table only. -/
theorem congr (maps : Maps t u g) (same : ∀ r ∈ t, g r = h r) : Maps t u h := by
  intro x
  rw [maps x]
  constructor
  · rintro ⟨r, mem, rfl⟩
    exact ⟨r, mem, (same r mem).symm⟩
  · rintro ⟨r, mem, rfl⟩
    exact ⟨r, mem, same r mem⟩

end Maps

/-! ## Patches -/

/-- `u` is `t` with the rows of `patch` added, or put in the place of the rows with their
keys. -/
def Patches (t u : Table K R key) (patch : List R) : Prop :=
  ∀ r, r ∈ u ↔ r ∈ patch ∨ r ∈ t ∧ key r ∉ patch.map key

namespace Patches

variable {t u v : Table K R key} {patch patch' : List R}

theorem of_mem (patched : Patches t u patch) {r : R} (mem : r ∈ patch) : r ∈ u :=
  (patched r).2 (.inl mem)

/-- A row whose key is not patched is in both tables or in neither. -/
theorem mem_iff (patched : Patches t u patch) {r : R} (outside : key r ∉ patch.map key) :
    r ∈ u ↔ r ∈ t := by
  rw [patched r]
  constructor
  · rintro (mem | ⟨mem, -⟩)
    · exact absurd (List.mem_map_of_mem mem) outside
    · exact mem
  · exact fun mem => .inr ⟨mem, outside⟩

theorem of_insert {r : R} {fresh : key r ∉ t.rows.map key} : Patches t (t.insert r fresh) [r] := by
  intro r'
  rw [mem_insert]
  simp only [List.mem_singleton, List.map_cons, List.map_nil]
  constructor
  · rintro (mem | rfl)
    · exact .inr ⟨mem, fun same => fresh (same ▸ List.mem_map_of_mem mem)⟩
    · exact .inl rfl
  · rintro (rfl | ⟨mem, -⟩)
    · exact .inr rfl
    · exact .inl mem

/-- An update of the one row that satisfies the condition. -/
theorem of_update {p : R → Prop} [DecidablePred p] {f : R → R} {keeps : ∀ r, key (f r) = key r}
    {r : R} (mem : r ∈ t) (holds : p r) (only : ∀ r' ∈ t, p r' → key r' = key r) :
    Patches t (t.update p f keeps) [f r] := by
  intro r'
  rw [mem_update]
  simp only [List.mem_singleton, List.map_cons, List.map_nil, keeps]
  constructor
  · rintro ⟨r₀, mem₀, rfl⟩
    by_cases here : p r₀
    · rw [if_pos here, eq_of_key mem₀ mem (only r₀ mem₀ here)]
      exact .inl rfl
    · rw [if_neg here]
      refine .inr ⟨mem₀, fun same => here ?_⟩
      rwa [eq_of_key mem₀ mem same]
  · rintro (rfl | ⟨mem', other⟩)
    · exact ⟨r, mem, if_pos holds⟩
    · exact ⟨r', mem', if_neg fun here => other (only r' mem' here)⟩

/-- A row patched and then patched again keeps its last value. -/
theorem trans_same {r r' : R} (first : Patches t u [r]) (second : Patches u v [r'])
    (same : key r = key r') : Patches t v [r'] := by
  intro x
  rw [second x]
  simp only [List.mem_singleton, List.map_cons, List.map_nil]
  constructor
  · rintro (rfl | ⟨mem, other⟩)
    · exact .inl rfl
    · exact .inr ⟨(first.mem_iff (by simpa [same] using other)).1 mem, other⟩
  · rintro (rfl | ⟨mem, other⟩)
    · exact .inl rfl
    · exact .inr ⟨(first.mem_iff (by simpa [same] using other)).2 mem, other⟩

/-- The first row of a patch, patched again. -/
theorem trans_head {r r' : R} (first : Patches t u (r :: patch)) (second : Patches u v [r'])
    (same : key r' = key r) (apart : key r' ∉ patch.map key) : Patches t v (r' :: patch) := by
  intro x
  rw [second x, first x]
  simp only [List.map_cons, List.map_nil, List.mem_cons, List.not_mem_nil, or_false, same]
  constructor
  · rintro (rfl | ⟨(rfl | mem) | ⟨mem, outside⟩, other⟩)
    · exact .inl (.inl rfl)
    · exact absurd rfl other
    · exact .inl (.inr mem)
    · exact .inr ⟨mem, outside⟩
  · rintro ((rfl | mem) | ⟨mem, outside⟩)
    · exact .inl rfl
    · refine .inr ⟨.inl (.inr mem), fun here => apart ?_⟩
      rw [same, ← here]
      exact List.mem_map_of_mem mem
    · exact .inr ⟨.inr ⟨mem, outside⟩, fun here => outside (.inl here)⟩

/-- Patches at different keys add up. -/
theorem trans_disjoint (first : Patches t u patch) (second : Patches u v patch')
    (apart : ∀ r ∈ patch, key r ∉ patch'.map key) : Patches t v (patch ++ patch') := by
  intro x
  rw [second x, first x]
  simp only [List.mem_append, List.map_append]
  constructor
  · rintro (mem | ⟨mem | ⟨mem, outside⟩, outside'⟩)
    · exact .inl (.inr mem)
    · exact .inl (.inl mem)
    · exact .inr ⟨mem, fun inside => inside.elim outside outside'⟩
  · rintro ((mem | mem) | ⟨mem, outside⟩)
    · exact .inr ⟨.inl mem, apart x mem⟩
    · exact .inl mem
    · exact .inr ⟨.inr ⟨mem, fun inside => outside (.inl inside)⟩, fun inside => outside (.inr inside)⟩

end Patches

end Table

end Enfold.Theory
