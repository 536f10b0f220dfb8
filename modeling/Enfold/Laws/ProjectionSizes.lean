/-
# Laws.ProjectionSizes -- how long a projection is

A list takes two characters more than its items and their separators (`jsonChars_arr`), so the
budget of `bounded` is a bound on the length of a projection.  A dossier has three lists and is
shortened item by item; `shrink_spec` says where that stops.
-/
import Enfold.Laws.ChangeWindows

namespace Enfold.Laws

open Enfold.Theory Enfold.Model

set_option autoImplicit false

variable {α : Type} {toJson : α → Json}

theorem length_dumpItems (count : Nat) (items : List α) :
    (Json.dumpItems .unicode (items.map toJson)).length =
      1 + cost (fun item => jsonChars (toJson item)) (count + 1) items := by
  induction items generalizing count with
  | nil => rfl
  | cons item items ih =>
      rw [List.map_cons, Json.dumpItems, List.length_cons, List.length_append, ih (count + 1), cost,
        itemCost, if_pos (Nat.succ_pos count), jsonChars]
      omega

theorem jsonChars_arr (items : List α) :
    jsonChars (.arr (items.map toJson)) = 2 + cost (fun item => jsonChars (toJson item)) 0 items := by
  cases items with
  | nil => rfl
  | cons item items =>
      rw [List.map_cons, jsonChars, Json.dump, List.length_cons, List.length_append,
        length_dumpItems 0, cost, itemCost, if_neg (Nat.lt_irrefl 0), jsonChars]
      omega

def flagChars (flag : Bool) : Nat := if flag then 4 else 5

theorem jsonChars_bool (flag : Bool) : jsonChars (.bool flag) = flagChars flag := by
  cases flag <;> rfl

/-- A projection of one list. -/
theorem jsonChars_page (key : String) (items : List α) (flag : Bool) :
    jsonChars (.obj [(key, .arr (items.map toJson)), ("truncated", .bool flag)]) =
      jsonChars (.str key) + 2 + cost (fun item => jsonChars (toJson item)) 0 items + 16 +
        flagChars flag := by
  have list := @jsonChars_arr α toJson items
  have truncated := jsonChars_bool flag
  have label : (Json.quote .unicode "truncated").length = 11 := by decide +kernel
  unfold jsonChars at list truncated ⊢
  simp only [Json.dump, Json.dumpMembers, List.length_cons, List.length_append, List.length_nil] at *
  rw [label]
  omega

theorem bounded_cost (items : List α) (limit : Nat) :
    2 + cost (fun item => jsonChars (toJson item)) 0 (bounded toJson items limit).1 ≤
      itemsCharBudget :=
  fill_cost (by decide) items

/-! ## Texts -/

theorem length_escapeChar (c : Char) : (Json.escapeChar .unicode c).length ≤ 6 := by
  unfold Json.escapeChar
  split <;> try decide
  split <;> try decide
  split <;> try decide
  split <;> try decide
  split <;> try decide
  split <;> try decide
  split <;> try decide
  split
  · rename_i control
    rw [Json.escapeCode, if_pos (by omega)]
    exact Nat.le_refl 6
  · exact Nat.succ_pos 5

/-- Escaping makes a character at most six times as long. -/
theorem jsonChars_str (text : String) : jsonChars (.str text) ≤ 2 + 6 * text.length := by
  have escaped : (text.toList.flatMap (Json.escapeChar .unicode)).length ≤ 6 * text.toList.length := by
    generalize text.toList = cs
    induction cs with
    | nil => exact Nat.le_refl 0
    | cons c cs ih =>
        have first := length_escapeChar c
        rw [List.flatMap_cons, List.length_append, List.length_cons]
        omega
  rw [jsonChars, Json.dump, Json.quote, List.length_cons, List.length_append, List.length_singleton]
  rw [String.length_toList] at escaped
  omega

/-! ## Dossiers -/

section Dossiers

variable {columns : FactColumns}

def factChars (columns : FactColumns) (f : FactRow) : Nat := jsonChars (projectionFact columns f)

def eventChars (columns : FactColumns) (e : EventRow) : Nat := jsonChars (e.toJson columns)

def conflictChars (columns : FactColumns) (c : DossierConflict) : Nat := jsonChars (c.toJson columns)

theorem jsonChars_dossier (d : Dossier) :
    jsonChars (d.toJson columns) = jsonChars (.str d.entity) +
      cost (factChars columns) 0 d.currentFacts + cost (eventChars columns) 0 d.recentChanges +
      cost (conflictChars columns) 0 d.openConflicts + flagChars d.truncated + 83 := by
  have facts := @jsonChars_arr _ (projectionFact columns) d.currentFacts
  have events := @jsonChars_arr _ (EventRow.toJson columns) d.recentChanges
  have conflicts := @jsonChars_arr _ (DossierConflict.toJson columns) d.openConflicts
  have truncated := jsonChars_bool d.truncated
  have labels : (Json.quote .unicode "entity").length = 8 ∧
      (Json.quote .unicode "current_facts").length = 15 ∧
      (Json.quote .unicode "recent_changes").length = 16 ∧
      (Json.quote .unicode "open_conflicts").length = 16 ∧
      (Json.quote .unicode "truncated").length = 11 := by decide +kernel
  obtain ⟨entityLabel, factsLabel, eventsLabel, conflictsLabel, flagLabel⟩ := labels
  unfold Dossier.toJson
  unfold jsonChars at facts events conflicts truncated ⊢
  simp only [Json.dump, Json.dumpMembers, List.length_cons, List.length_append, List.length_nil]
  rw [facts, events, conflicts, truncated, entityLabel, factsLabel, eventsLabel, conflictsLabel,
    flagLabel]
  unfold factChars eventChars conflictChars jsonChars
  omega

/-- A dossier without lists fits. -/
theorem bare_dossier_short {d : Dossier} (named : d.entity.length ≤ maxEntityChars)
    (facts : d.currentFacts = []) (events : d.recentChanges = []) (conflicts : d.openConflicts = []) :
    jsonChars (d.toJson columns) ≤ maxOutputChars := by
  have entity := jsonChars_str d.entity
  have flag : flagChars d.truncated ≤ 5 := by
    cases d.truncated <;> decide
  rw [jsonChars_dossier, facts, events, conflicts]
  unfold maxEntityChars at named
  unfold maxOutputChars
  simp only [cost]
  omega

/-- What every cut keeps, the loop keeps. -/
theorem shrink_preserves {P : Dossier → Prop}
    (cutChange : ∀ d, P d → P { d with recentChanges := d.recentChanges.dropLast, truncated := true })
    (cutFact : ∀ d, P d → P { d with currentFacts := d.currentFacts.dropLast, truncated := true })
    (cutConflict :
      ∀ d, P d → P { d with openConflicts := d.openConflicts.dropLast, truncated := true })
    {d : Dossier} (holds : P d) : P (Dossier.shrink columns d) := by
  fun_induction Dossier.shrink columns d with
  | case1 d fits => exact holds
  | case2 d long some' ih => exact ih (cutChange d holds)
  | case3 d long none some' ih => exact ih (cutFact d holds)
  | case4 d long none none' some' ih => exact ih (cutConflict d holds)
  | case5 d long none none' none'' => exact holds

/-- The loop ends with a dossier that fits, unless nothing is left to drop; it drops nothing
without saying so. -/
theorem shrink_spec (d : Dossier) :
    (Dossier.shrink columns d).entity = d.entity ∧
      (jsonChars ((Dossier.shrink columns d).toJson columns) ≤ maxOutputChars ∨
        (Dossier.shrink columns d).currentFacts = [] ∧ (Dossier.shrink columns d).recentChanges = [] ∧
          (Dossier.shrink columns d).openConflicts = []) ∧
      ((Dossier.shrink columns d).truncated = false → Dossier.shrink columns d = d) := by
  have flagged : ∀ d' : Dossier, d'.truncated = true →
      (Dossier.shrink columns d').truncated = true := fun d' flag =>
    shrink_preserves (P := fun d => d.truncated = true) (fun _ _ => rfl) (fun _ _ => rfl)
      (fun _ _ => rfl) flag
  fun_induction Dossier.shrink columns d with
  | case1 d fits => exact ⟨rfl, .inl fits, fun _ => rfl⟩
  | case2 d long some' ih =>
      refine ⟨ih.1, ih.2.1, fun none => ?_⟩
      rw [flagged _ rfl] at none
      cases none
  | case3 d long none some' ih =>
      refine ⟨ih.1, ih.2.1, fun none => ?_⟩
      rw [flagged _ rfl] at none
      cases none
  | case4 d long none none' some' ih =>
      refine ⟨ih.1, ih.2.1, fun none => ?_⟩
      rw [flagged _ rfl] at none
      cases none
  | case5 d long none none' none'' =>
      exact ⟨rfl, .inr ⟨List.length_eq_zero_iff.1 (by omega), List.length_eq_zero_iff.1 (by omega),
        List.length_eq_zero_iff.1 (by omega)⟩, fun _ => rfl⟩

end Dossiers

end Enfold.Laws
