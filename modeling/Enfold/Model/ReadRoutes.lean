/-
# Model.ReadRoutes -- reading a scope (`service.py`)

A read route narrows what it returns to the scopes of its connection, or to the one the request
names.  `historyRoute` is `memory.history`: the facts of a slot in the order of their stored
starts, or the chain of a fact that has no slot.
-/
import Enfold.Model.Requests
import Enfold.Model.Temporal
import Mathlib.Data.Prod.Lex

namespace Enfold.Model

open Enfold.Theory

set_option autoImplicit false

/-! ## Parameters -/

/-- `_limit`, with its default maximum. -/
def limitParam (value : Json) (default : Nat) : Py Nat :=
  match value with
  | .null => .ok default
  | value => do
      let result ← positiveInt value "limit"
      require (result ≤ 200) (invalidParams "limit must not exceed 200")
      return result

/-- `_requested_scopes`. -/
def requestedScopes (context : ConnectionContext) (requested : Json) : Py (List String) :=
  match requested with
  | .null => .ok context.accessScopes
  | requested => do
      let text ← textParam requested "scope"
      match validateScope text with
      | .error e => throw (invalidParams e.message)
      | .ok scope =>
          require (scope ∈ context.accessScopes)
            (serviceRequestError "access_denied" "requested memory scope is not authorized")
          return [scope]

/-! ## History -/

/-- `_historical_fact`. -/
def historicalFact (s : Store) (factId : Nat) (scopes : List String) : Py (Option FactRow) := do
  let factId ← SQLite.integer factId
  return (s.facts.get? factId).filter fun r => r.scope ∈ scopes

/-- `COALESCE(valid_from, created_at)`, as it was written. -/
def FactRow.startText (r : FactRow) : String := r.validFrom.getD r.createdAt

/-- `COALESCE(valid_from, created_at)`, as it is stored: both are `TIMESTAMP` columns, which have
numeric affinity. -/
def FactRow.startKey (r : FactRow) : NumericColumn.Number ⊕ₗ String :=
  (NumericColumn.stored r.startText).key

/-- `ORDER BY COALESCE(valid_from, created_at), fact_id`. -/
def slotOrder (a b : FactRow) : Prop :=
  a.startKey < b.startKey ∨ a.startKey = b.startKey ∧ a.factId ≤ b.factId

instance : DecidableRel slotOrder := fun _ _ => inferInstanceAs (Decidable (_ ∨ _ ∧ _))

theorem slotOrder_iff {a b : FactRow} :
    slotOrder a b ↔ toLex (a.startKey, a.factId) ≤ toLex (b.startKey, b.factId) := by
  rw [Prod.Lex.toLex_le_toLex]
  rfl

instance : Std.Total slotOrder where
  total a b := by
    rw [slotOrder_iff, slotOrder_iff]
    exact le_total _ _

instance : IsTrans FactRow slotOrder where
  trans a b c := by
    rw [slotOrder_iff, slotOrder_iff, slotOrder_iff]
    exact le_trans

/-- The facts `_slot_history` selects. -/
def FactRow.InHistory (scopes : List String) (subject predicate : String) (r : FactRow) : Prop :=
  r.scope ∈ scopes ∧ r.subjectKey = some subject ∧ r.predicateKey = some predicate

instance (scopes : List String) (subject predicate : String) (r : FactRow) :
    Decidable (r.InHistory scopes subject predicate) :=
  inferInstanceAs (Decidable (_ ∧ _ ∧ _))

/-- `_slot_history`. -/
def slotHistory (s : Store) (scopes : List String) (subject predicate : String) (limit : Nat) :
    List FactRow :=
  ((s.facts.table.select fun r => r.InHistory scopes subject predicate).insertionSort
    slotOrder).take limit

/-- `_history`. -/
def historyRoute (s : Store) (context : ConnectionContext) (params : Json) : Py (List FactRow) := do
  checkKeys params [] ["fact_id", "limit", "predicate_key", "scope", "subject_key"]
  let names := memberNames params
  let byId : Bool := "fact_id" ∈ names
  let bySlot : Bool := "subject_key" ∈ names ∨ "predicate_key" ∈ names ∨ "scope" ∈ names
  require (byId ≠ bySlot)
    (invalidParams "history requires either fact_id or subject_key and predicate_key")
  let limit ← limitParam (field "limit" params) 100
  if byId then
    let factId ← positiveInt (field "fact_id" params) "fact_id"
    match ← historicalFact s factId context.accessScopes with
    | none => throw (serviceRequestError "not_found" "fact was not found")
    | some anchor =>
        match anchor.subjectKey.filter (· ≠ ""), anchor.predicateKey.filter (· ≠ "") with
        | some subject, some predicate =>
            return slotHistory s [anchor.scope] subject predicate limit
        | _, _ =>
            return ((factHistory s.facts.table factId).filter fun r =>
              r.scope ∈ context.accessScopes).take limit
  else
    require ("subject_key" ∈ names ∧ "predicate_key" ∈ names)
      (invalidParams "subject_key and predicate_key are both required")
    let scopes ← requestedScopes context (field "scope" params)
    let subject ← textParam (field "subject_key" params) "subject_key"
    let predicate ← textParam (field "predicate_key" params) "predicate_key"
    return slotHistory s scopes subject predicate limit

end Enfold.Model
