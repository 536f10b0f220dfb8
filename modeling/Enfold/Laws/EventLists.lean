/-
# Laws.EventLists -- the events of a set of scopes

The rows of the query are the settled events of the scopes (`mem_factEvents`).  Kind, time and fact
tell them apart (`factEvents_distinguished`), so ordered by its key they have one order, the
chronicle, and the scan sees its end (`newestEvents_eq`).
-/
import Enfold.Model.Projections

namespace Enfold.Laws

open Enfold.Theory Enfold.Model

set_option autoImplicit false

/-- A settled event of the scopes. -/
def SettledEvent (s : Store) (scopes : List String) (e : EventRow) : Prop :=
  (e.fact ∈ s.facts ∧ e.fact.scope ∈ scopes) ∧
    match e.kind with
    | .created => e.fact.conflictGroup = none ∧ e.fact.createdAt = e.changedAt
    | .superseded => e.fact.supersededBy ≠ none ∧ e.fact.invalidAt = some e.changedAt
    | .resolved => ∃ c ∈ s.conflicts, c.resolutionFactId = some e.fact.factId ∧
        c.resolvedAt = some e.changedAt

theorem mem_factEvents {s : Store} {scopes : List String} {e : EventRow} :
    e ∈ factEvents s scopes ↔ SettledEvent s scopes e := by
  unfold factEvents SettledEvent
  rw [List.mem_append, List.mem_append]
  constructor
  · rintro ((mem | mem) | mem)
    · obtain ⟨f, held, made⟩ := List.mem_filterMap.1 mem
      split at made
      · rename_i listed
        cases made
        exact ⟨⟨held, listed.1⟩, listed.2, rfl⟩
      · cases made
    · obtain ⟨f, held, made⟩ := List.mem_filterMap.1 mem
      split at made
      · rename_i listed
        obtain ⟨changedAt, invalid, rfl⟩ := Option.map_eq_some_iff.1 made
        exact ⟨⟨held, listed.1⟩, listed.2, invalid⟩
      · cases made
    · obtain ⟨c, held, made⟩ := List.mem_filterMap.1 mem
      obtain ⟨factId, chosen, made⟩ := Option.bind_eq_some_iff.1 made
      obtain ⟨f, found, made⟩ := Option.bind_eq_some_iff.1 made
      obtain ⟨changedAt, resolved, made⟩ := Option.bind_eq_some_iff.1 made
      obtain ⟨here, same⟩ := Facts.get?_eq_some.1 found
      split at made
      · rename_i listed
        cases made
        exact ⟨⟨here, listed⟩, c, held, by rw [chosen, same], resolved⟩
      · cases made
  · rintro ⟨⟨here, listed⟩, cause⟩
    obtain ⟨kind, changedAt, f⟩ := e
    cases kind with
    | created =>
        obtain ⟨settled, written⟩ := cause
        refine .inl (.inl (List.mem_filterMap.2 ⟨f, here, ?_⟩))
        dsimp only at listed settled written
        rw [if_pos ⟨listed, settled⟩, written]
    | superseded =>
        obtain ⟨replaced, invalid⟩ := cause
        refine .inl (.inr (List.mem_filterMap.2 ⟨f, here, ?_⟩))
        dsimp only at listed replaced invalid
        rw [if_pos ⟨listed, replaced⟩, invalid]
        rfl
    | resolved =>
        obtain ⟨c, held, chosen, resolved⟩ := cause
        refine .inr (List.mem_filterMap.2 ⟨c, held, ?_⟩)
        dsimp only at listed chosen resolved
        have found : s.facts.get? f.factId = some f := Facts.get?_eq_some.2 ⟨here, rfl⟩
        simp [chosen, found, resolved, listed]

section Events

variable {J : Type} [LinearOrder J] (julianday : String → Option J)

omit [LinearOrder J] in
theorem factEvents_distinguished (s : Store) (scopes : List String) :
    Distinguished (EventRow.key julianday) (factEvents s scopes) := by
  rintro ⟨kind, changedAt, f⟩ mem ⟨kind', changedAt', f'⟩ mem' same
  obtain ⟨⟨here, -⟩, -⟩ := mem_factEvents.1 mem
  obtain ⟨⟨here', -⟩, -⟩ := mem_factEvents.1 mem'
  have parts := congrArg ofLex (congrArg (fun k => (ofLex k).2) same)
  have times : changedAt = changedAt' := congrArg Prod.fst parts
  have rest := congrArg ofLex (congrArg Prod.snd parts)
  have kinds : kind.order = kind'.order := congrArg Prod.fst rest
  have ids : f.factId = f'.factId := congrArg Prod.snd rest
  have facts : f = f' := Facts.eq_of_id here here' ids
  have kinds' : kind = kind' := by
    revert kinds
    cases kind <;> cases kind' <;> decide
  rw [times, facts, kinds']

/-- All events, oldest first. -/
def chronicle (s : Store) (scopes : List String) : List EventRow :=
  ascending (EventRow.key julianday) (factEvents s scopes)

variable {julianday}

theorem mem_chronicle {s : Store} {scopes : List String} {e : EventRow} :
    e ∈ chronicle julianday s scopes ↔ SettledEvent s scopes e :=
  mem_ascending.trans mem_factEvents

/-- The event is in the window, if there is one. -/
def windowed (julianday : String → Option J) (window : Option (String × String)) (e : EventRow) :
    Bool :=
  match window with
  | none => true
  | some (since, until') => inWindow julianday since until' e

/-- The events of the window, oldest first. -/
def windowEvents (julianday : String → Option J) (s : Store) (scopes : List String)
    (window : Option (String × String)) : List EventRow :=
  (chronicle julianday s scopes).filter (windowed julianday window)

theorem mem_windowEvents {s : Store} {scopes : List String} {window : Option (String × String)}
    {e : EventRow} : e ∈ windowEvents julianday s scopes window ↔
      SettledEvent s scopes e ∧ windowed julianday window e = true :=
  List.mem_filter.trans (and_congr_left fun _ => mem_chronicle)

theorem windowEvents_none (s : Store) (scopes : List String) :
    windowEvents julianday s scopes none = chronicle julianday s scopes :=
  List.filter_eq_self.2 fun _ _ => rfl

/-- The scan sees the end of the chronicle. -/
theorem newestEvents_eq {s : Store} {scopes : List String} (p : EventRow → Bool) :
    newestEvents julianday ((factEvents s scopes).filter p) =
      ((chronicle julianday s scopes).filter p).drop
        (((chronicle julianday s scopes).filter p).length - projectionScanLimit) := by
  have distinct := factEvents_distinguished julianday s scopes
  have inside : Distinguished (EventRow.key julianday) ((factEvents s scopes).filter p) :=
    distinct.subset (List.filter_subset_self _)
  have sorted := filter_ascending distinct p
  have count : (ascending (EventRow.key julianday) ((factEvents s scopes).filter p)).length =
      ((factEvents s scopes).filter p).length := length_ascending _
  rw [newestEvents, ascending_take_descending inside, ← count, sorted]
  rfl

/-- The scan sees the newest events of the window, and tells when its limit is reached. -/
theorem eventRows_eq (s : Store) (scopes : List String) (window : Option (String × String)) :
    eventRows julianday s scopes window =
      ((windowEvents julianday s scopes window).drop
          ((windowEvents julianday s scopes window).length - projectionScanLimit),
        decide (projectionScanLimit ≤ (windowEvents julianday s scopes window).length)) := by
  have rows : (eventRows julianday s scopes window).1 =
      (windowEvents julianday s scopes window).drop
        ((windowEvents julianday s scopes window).length - projectionScanLimit) := by
    cases window with
    | none =>
        have all := @newestEvents_eq J _ julianday s scopes (windowed julianday none)
        have whole : (factEvents s scopes).filter (windowed julianday none) = factEvents s scopes :=
          List.filter_eq_self.2 fun _ _ => rfl
        rwa [whole] at all
    | some w => exact newestEvents_eq _
  refine Prod.ext rows ?_
  show decide ((eventRows julianday s scopes window).1.length = projectionScanLimit) = _
  rw [rows, List.length_drop]
  exact decide_eq_decide.2 (by omega)

end Events

end Enfold.Laws
