/-
# Model.CoreStore -- inserting facts (`core_store.py`)

`insertFact` validates and inserts one row; the `facts_ai` trigger adds it to the
full-text index.  The transaction belongs to the caller.
-/
import Enfold.Model.Schema

namespace Enfold.Model

open Enfold.Theory

set_option autoImplicit false

/-- What the caller of `insert_fact` gives; `createdAt` is the column default. -/
structure NewFact where
  content : String
  category : String
  tags : String
  trustScore : Decimal
  createdAt : String
  memoryKind : Option String := none
  subjectKey : Option String := none
  predicateKey : Option String := none
  objectValue : Option String := none
  sourceAuthority : Option Decimal := none
  scope : String
  sensitivity : String
  validFrom : Option String := none

/-- The trigger `facts_ai`. -/
def indexFact (s : Store) (factId : Nat) (content tags : String) : Store :=
  { s with factsFts := insertOrIgnore s.factsFts ⟨factId, content, tags⟩ }

def insertFact (s : Store) (fact : NewFact) : Py (Store × Nat) := do
  let content ← required fact.content "content"
  let category ← required fact.category "category"
  let scope ← required fact.scope "scope"
  let sensitivity ← required fact.sensitivity "sensitivity"
  require (InUnit fact.trustScore) (valueError "trust_score must be between 0 and 1")
  require (∀ x ∈ fact.sourceAuthority, InUnit x)
    (valueError "source_authority must be between 0 and 1")
  let facts ← s.facts.insert
    { factId := 0, content, category, tags := fact.tags, trustScore := fact.trustScore,
      createdAt := fact.createdAt, validFrom := fact.validFrom, invalidAt := none,
      supersededBy := none, memoryKind := fact.memoryKind, subjectKey := fact.subjectKey,
      predicateKey := fact.predicateKey, objectValue := fact.objectValue,
      sourceAuthority := fact.sourceAuthority, scope, sensitivity, correctionStatus := none,
      conflictGroup := none }
  return (indexFact { s with facts } s.facts.nextId content fact.tags, s.facts.nextId)

end Enfold.Model
