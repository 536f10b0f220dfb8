/-
# Model.Reflection -- insights and the facts they cite (`reflection.py`)

An insight names the facts it was drawn from in its tags, as `source_facts:` and the ids.
`citedIds` reads them back with a pattern, and `invalidateInsightsCiting` ends the active
insights that cite a fact when that fact is superseded.
-/
import Enfold.Theory.Regex
import Enfold.Model.Erasure

namespace Enfold.Model

open Enfold.Theory

set_option autoImplicit false

/-! ## Citations -/

def citationMarker : List Char := "source_facts:".toList

/-- `[0-9,]`. -/
def isCitationChar (c : Char) : Bool := isAsciiDigit c || c == ','

/-- The tags that `run_reflection` writes for an insight. -/
def insightTags (sourceIds : List Nat) : String :=
  "source_facts:" ++ ",".intercalate (sourceIds.map natText)

/-- `_SOURCE_FACTS_RE.search`: the group of the leftmost match of `source_facts:([0-9,]+)`. -/
def citationGroup : List Char → Option (List Char)
  | [] => none
  | c :: cs =>
      let group := ((c :: cs).drop citationMarker.length).takeWhile isCitationChar
      if citationMarker.isPrefixOf (c :: cs) ∧ group ≠ [] then some group else citationGroup cs

/-- `_cited_ids`. -/
def citedIds (tags : String) : Py (List Nat) :=
  match citationGroup tags.toList with
  | none => .ok []
  | some group =>
      ((splitAt ',' (String.ofList group)).filter fun t => isDigitText (strip t)).mapM intOf

/-! ## Invalidation -/

/-- The active insights that cite the source. -/
def staleInsights (facts : Facts) (sourceFactId : Nat) : Py (List Nat) := do
  let cited ← (facts.table.select fun r => r.category = "insight" ∧ r.invalidAt = none).mapM
    fun r => do return (r.factId, ← citedIds r.tags)
  return (cited.filter fun entry => sourceFactId ∈ entry.2).map Prod.fst

theorem invalidated_factId (time : String) (r : FactRow) :
    ({ r with invalidAt := some time } : FactRow).factId = r.factId := rfl

/-- `invalidate_insights_citing`: the store afterwards, and the number of stale insights. -/
def invalidateInsightsCiting (s : Store) (sourceFactId : Nat) (currentTimestamp : String) :
    Py (Store × Nat) := do
  let staleIds ← staleInsights s.facts sourceFactId
  if staleIds.isEmpty then return (s, 0)
  let s ← updateFacts s (fun r => r.factId ∈ staleIds)
    (fun r => { r with invalidAt := some currentTimestamp }) (invalidated_factId currentTimestamp)
  return (s, staleIds.length)

end Enfold.Model
