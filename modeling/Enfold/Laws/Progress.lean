/-
# Laws.Progress -- statements that cannot fail

SQLite refuses an `UPDATE facts` that violates the index over current slots or leaves a
dangling `superseded_by`.  Here is when it does not: an update that puts no row into the
index and points at rows that exist goes through.
-/
import Enfold.Laws.FactSteps

namespace Enfold.Laws

open Enfold.Theory Enfold.Model

set_option autoImplicit false

/-- A row with a fresh key is inserted. -/
theorem insertRow_ok {K R : Type} {key : R → K} [DecidableEq K] (t : Table K R key) (r : R)
    (columns : String) (fresh : ∀ r' ∈ t, key r' ≠ key r) : ∃ u, insertRow t r columns = .ok u := by
  have free : key r ∉ t.rows.map key := by
    intro taken
    obtain ⟨r', mem, same⟩ := List.mem_map.1 taken
    exact fresh r' mem same
  exact ⟨_, insertRow_eq_ok.2 (Table.insert?_eq_some.2 ⟨free, rfl⟩)⟩

section Update

variable {s : Store} {p : FactRow → Prop} [DecidablePred p] {f : FactRow → FactRow}
  {keeps : ∀ r, (f r).factId = r.factId}

/-- An update whose rows meet the constraints returns. -/
theorem updateFacts_ok (slots : UniqueSlots (s.facts.table.update p f keeps).rows)
    (links : Linked (s.facts.table.update p f keeps).rows) :
    ∃ s', updateFacts s p f keeps = .ok s' := by
  simp only [updateFacts, Facts.update, Facts.checkRows_of slots links, ok_bind]
  exact ⟨_, rfl⟩

/-- Two rows of the index after an update: rewritten or old. -/
theorem uniqueSlots_update
    (rewritten : ∀ r ∈ s.facts, p r → ∀ k, (f r).Indexed k → ∀ r' ∈ s.facts,
      (if p r' then f r' else r').Indexed k → r'.factId = r.factId) :
    UniqueSlots (s.facts.table.update p f keeps).rows := by
  have sameId : ∀ r, (if p r then f r else r).factId = r.factId := by
    intro r
    split
    · exact keeps r
    · rfl
  intro x mem y mem' k slot indexed indexed'
  obtain ⟨r, old, rfl⟩ := Table.mem_update.1 mem
  obtain ⟨r', old', rfl⟩ := Table.mem_update.1 mem'
  rw [sameId, sameId]
  by_cases here : p r
  · rw [if_pos here] at indexed
    exact (rewritten r old here k indexed r' old' indexed').symm
  · by_cases there : p r'
    · rw [if_pos there] at indexed'
      exact rewritten r' old' there k indexed' r old indexed
    · rw [if_neg here] at indexed
      rw [if_neg there] at indexed'
      exact congrArg FactRow.factId (Facts.eq_of_indexed old old' indexed indexed')

/-- An update that takes its rows out of the index. -/
theorem uniqueSlots_dropped (dropped : ∀ r ∈ s.facts, p r → ∀ k, ¬ (f r).Indexed k) :
    UniqueSlots (s.facts.table.update p f keeps).rows :=
  uniqueSlots_update fun r mem here k indexed => absurd indexed (dropped r mem here k)

/-- An update that points at rows that exist. -/
theorem linked_update
    (target : ∀ r ∈ s.facts, p r → ∀ k ∈ (f r).supersededBy,
      k ∈ r.supersededBy ∨ ∃ r' ∈ s.facts, r'.factId = k) :
    Linked (s.facts.table.update p f keeps).rows := by
  intro x mem k link
  rw [Table.keys_update]
  obtain ⟨r, old, rfl⟩ := Table.mem_update.1 mem
  by_cases here : p r
  · rw [if_pos here] at link
    rcases target r old here k link with same | ⟨r', mem', rfl⟩
    · exact s.facts.links r old k same
    · exact List.mem_map_of_mem mem'
  · rw [if_neg here] at link
    exact s.facts.links r old k link

end Update

/-- Superseding rows by a fact that exists goes through. -/
theorem supersede_ok {s : Store} {p : FactRow → Prop} [DecidablePred p] {moment : String}
    {survivor : Nat} (target : ∃ r ∈ s.facts, r.factId = survivor) :
    ∃ s', updateFacts s p (fun r => supersededRow r moment survivor) (fun _ => rfl) = .ok s' := by
  refine updateFacts_ok (uniqueSlots_dropped fun r mem here k indexed => ?_)
    (linked_update fun r mem here k link => ?_)
  · cases indexed.2.1.1
  · cases link
    exact .inr target

end Enfold.Laws
