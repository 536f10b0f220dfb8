/-
# Model.SearchRoutes -- bounded answers to searches (`service.py`)

`memory.search` returns the ranked rows, `memory.context` a prompt packed from them.  Both cut the
rows at a cap, shorten long contents, and drop rows from the end until the answer is short enough;
when no row is left to drop they drop the metadata of the retriever.

The retriever and the attribution of a fact are inputs.
-/
import Enfold.Model.ContextPack
import Enfold.Model.ReadRoutes

namespace Enfold.Model

open Enfold.Theory

set_option autoImplicit false

/-! ## Bounds -/

/-- `OutputBounds`: its fields hold what its constructor checks. -/
structure OutputBounds {F : Type} (floats : Floats F) where
  defaultMinTrust : Decimal
  searchMaxResults : Nat
  contextMaxResults : Nat
  maxFactChars : Nat
  searchMaxTotalChars : Nat
  contextMaxTotalChars : Nat
  contextMmrLambda : F
  trustValid : InUnit defaultMinTrust
  resultsPositive : 1 ≤ searchMaxResults ∧ 1 ≤ contextMaxResults
  markerFits : truncationMarker.length ≤ maxFactChars
  charsEnough : 512 ≤ searchMaxTotalChars ∧ 512 ≤ contextMaxTotalChars
  lambdaValid : floats.finite contextMmrLambda ∧ floats.atMost floats.zero contextMmrLambda ∧
    floats.atMost contextMmrLambda floats.one

/-- `_serialized_chars`. -/
def serializedChars (value : Json) : Nat := (Json.dump .unicode value).length

/-- `_truncate_fact_content`: the fact, and whether its content was shortened. -/
def truncateFactContent (fact : FactRecord) (maximum : Nat) : FactRecord × Bool :=
  match fact.get "content" with
  | .str content =>
      if content.length ≤ maximum then (fact, false)
      else
        let shortened := trimmedPrefix content (maximum - truncationMarker.length) ++
          truncationMarker
        (FactRecord.set (FactRecord.set fact "content" (.str shortened)) "content_truncated"
          (.bool true), true)
  | _ => (fact, false)

/-! ## Rows -/

def factFields : List String :=
  ["fact_id", "content", "category", "tags", "trust_score", "retrieval_count", "helpful_count",
    "created_at", "updated_at", "valid_from", "invalid_at", "superseded_by", "memory_kind",
    "subject_key", "predicate_key", "object_value", "object_entity_id", "confidence",
    "source_authority", "scope", "sensitivity", "correction_status", "schema_version",
    "conflict_group"]

def scoreFields : List String :=
  ["score", "fts_score", "jaccard_score", "dense_score", "trust_score_component",
    "memory_kind_score", "recency_score"]

/-- `fact[key] = row[key]`, when the row has the key. -/
def copyField (row fact : FactRecord) (key : String) : FactRecord :=
  match row.get? key with
  | some entry => FactRecord.set fact key entry.2
  | none => fact

/-- `_safe_fact`: the listed fields of a row that it has. -/
def safeFact (row : FactRecord) : FactRecord :=
  (factFields ++ scoreFields).foldl (copyField row) Table.empty

/-- A dictionary as JSON. -/
def FactRecord.toJson (fact : FactRecord) : Json := .obj fact.rows

/-- What a route asks of the store: the rows of a search with the metadata it left, and
`_authorized_attribution(int(fact["fact_id"]), scopes)`. -/
structure Retrieval where
  search : List String → String → Option String → Decimal → Nat →
    Py (List FactRecord × List (String × Json))
  attribution : List String → FactRecord → Py Json

section Routes

variable {F : Type} {floats : Floats F}

/-! ## Search -/

/-- A row of the answer, and whether its content was shortened. -/
def searchedFact (retrieval : Retrieval) (scopes : List String) (maxFactChars : Nat)
    (row : FactRecord) : Py (FactRecord × Bool) := do
  let fact := safeFact row
  let attribution ← retrieval.attribution scopes fact
  return truncateFactContent (FactRecord.set fact "attribution" attribution) maxFactChars

def searchResponse (facts : List FactRecord) (metadata : List (String × Json)) (truncated : Bool) :
    Json :=
  .obj [("facts", .arr (facts.map FactRecord.toJson)), ("retrieval", .obj metadata),
    ("output_truncated", .bool truncated)]

/-- The loop of `_search`: drop the last fact while the answer is too long. -/
def shrinkSearch (maxChars : Nat) (metadata : List (String × Json)) (facts : List FactRecord)
    (truncated : Bool) : List FactRecord × Bool :=
  if 0 < facts.length ∧ maxChars < serializedChars (searchResponse facts metadata truncated) then
    shrinkSearch maxChars metadata facts.dropLast true
  else (facts, truncated)
termination_by facts.length
decreasing_by
  rw [List.length_dropLast]
  omega

/-- The end of `_search`: metadata that does not fit is replaced by a note, and then dropped. -/
def finishSearch (maxChars : Nat) (metadata : List (String × Json)) (facts : List FactRecord)
    (truncated : Bool) : Json :=
  let note := [("output_truncated", Json.bool true)]
  if serializedChars (searchResponse facts metadata truncated) ≤ maxChars then
    searchResponse facts metadata truncated
  else if serializedChars (searchResponse facts note truncated) ≤ maxChars then
    searchResponse facts note truncated
  else searchResponse facts [] truncated

/-- `_search`. -/
def searchRoute (bounds : OutputBounds floats) (retrieval : Retrieval) (context : ConnectionContext)
    (params : Json) : Py Json := do
  checkKeys params ["query"] ["category", "min_trust", "limit"]
  let query ← textParam (field "query" params) "query"
  let category ← optionalTextParam (field "category" params) "category"
  let minTrust ← numberParam (field "min_trust" params) "min_trust" bounds.defaultMinTrust
  let requestedLimit ← limitParam (field "limit" params) 20
  let limit := min requestedLimit bounds.searchMaxResults
  let (rows, metadata) ← retrieval.search context.accessScopes query category minTrust (limit + 1)
  let facts ← (rows.take limit).mapM
    (searchedFact retrieval context.accessScopes bounds.maxFactChars)
  let truncated := facts.any Prod.snd || limit < requestedLimit || limit < rows.length
  let (facts, truncated) :=
    shrinkSearch bounds.searchMaxTotalChars metadata (facts.map Prod.fst) truncated
  return finishSearch bounds.searchMaxTotalChars metadata facts truncated

/-! ## Context -/

/-- `_token_budget`. -/
def tokenBudgetParam (value : Json) : Py Nat :=
  match value with
  | .null => .ok 256
  | .int n =>
      if 16 ≤ n ∧ n ≤ 4096 then .ok n.toNat
      else .error (invalidParams "token_budget must be between 16 and 4096")
  | _ => .error (invalidParams "token_budget must be an integer")

/-- A candidate of the packer. -/
def contextCandidate (retrieval : Retrieval) (scopes : List String) (row : FactRecord) :
    Py FactRecord := do
  let fact := copyField row (safeFact row) "_mmr_embedding"
  let attribution ← retrieval.attribution scopes fact
  return FactRecord.set fact "attribution" attribution

/-- `ContextPack.as_dict`, with the members that `_context` adds. -/
def contextResponse (pack : ContextPack) (metadata : List (String × Json)) (truncated : Bool) :
    Json :=
  .obj [("markdown", .str pack.markdown), ("facts", .arr (pack.facts.map FactRecord.toJson)),
    ("abstained", .bool pack.abstained),
    ("token_estimate", .obj
      [("method", .str "unicode_chars_divided_by_four"), ("budget", .int pack.tokenBudget),
        ("used", .int pack.tokenEstimate)]),
    ("omitted_fact_count", .int pack.omittedFactCount),
    ("unsafe_fact_count", .int pack.unsafeFactCount), ("retrieval", .obj metadata),
    ("output_truncated", .bool truncated)]

/-- `bool(fact.get("context_truncated"))`; packing makes it a boolean. -/
def contextTruncated (fact : FactRecord) : Bool :=
  match fact.get "context_truncated" with
  | .bool b => b
  | _ => false

/-- The loop of `_context`: pack again without the last candidate while the answer is too long. -/
def contextLoop (bounds : OutputBounds floats) (tokenBudget : Nat)
    (metadata : List (String × Json)) (candidates : List FactRecord) (truncated : Bool) :
    Py Json := do
  let pack ← packContext floats candidates tokenBudget (some bounds.maxFactChars)
    (some bounds.contextMaxResults) bounds.contextMmrLambda
  let truncated := truncated || pack.facts.any contextTruncated
  let note := [("output_truncated", Json.bool true)]
  if serializedChars (contextResponse pack metadata truncated) ≤ bounds.contextMaxTotalChars then
    return contextResponse pack metadata truncated
  else if 0 < candidates.length then
    contextLoop bounds tokenBudget metadata candidates.dropLast true
  else if serializedChars (contextResponse pack note truncated) ≤ bounds.contextMaxTotalChars then
    return contextResponse pack note truncated
  else return contextResponse pack [] truncated
termination_by candidates.length
decreasing_by
  rw [List.length_dropLast]
  omega

/-- `_context`. -/
def contextRoute (bounds : OutputBounds floats) (retrieval : Retrieval)
    (context : ConnectionContext) (params : Json) : Py Json := do
  checkKeys params ["query", "token_budget"] ["scope", "min_trust"]
  let query ← textParam (field "query" params) "query"
  let tokenBudget ← tokenBudgetParam (field "token_budget" params)
  let minTrust ← numberParam (field "min_trust" params) "min_trust" bounds.defaultMinTrust
  let scopes ← requestedScopes context (field "scope" params)
  let candidateCap := bounds.contextMaxResults * 4
  let (rows, metadata) ← retrieval.search scopes query none minTrust (candidateCap + 1)
  let candidates ← (rows.take candidateCap).mapM (contextCandidate retrieval scopes)
  contextLoop bounds tokenBudget metadata candidates (candidateCap < rows.length)

end Routes

end Enfold.Model
