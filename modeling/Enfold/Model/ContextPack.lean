/-
# Model.ContextPack -- packing facts into a prompt (`context.py`)

`packContext` reorders the ranked facts when there are too many (`mmrSelect`), then takes
them one by one: a fact that is not current, whose slot is taken, or whose line does not fit
the budget is counted and skipped.

A record is a dict with string keys.  Floating point is a parameter (`Floats`): nothing is
assumed of it, so comparisons may fail both ways and conversions may raise.
-/
import Enfold.Model.ClusterMerge

namespace Enfold.Model

open Enfold.Theory

set_option autoImplicit false

/-! ## Fact records -/

/-- A fact as the service hands it over. -/
abbrev FactRecord := Table String (String × Json) Prod.fst

namespace FactRecord

/-- `fact.get(key)`: `None` when the key is absent. -/
def get (fact : FactRecord) (key : String) : Json :=
  ((fact.get? key).map Prod.snd).getD .null

/-- `fact[key] = value`: a key that is there keeps its place. -/
def set (fact : FactRecord) (key : String) (value : Json) : FactRecord :=
  if fresh : key ∉ fact.rows.map Prod.fst then fact.insert (key, value) fresh
  else fact.update (fun entry => entry.1 = key) (fun entry => (entry.1, value)) fun _ => rfl

/-- `fact.pop(key, None)`. -/
def pop (fact : FactRecord) (key : String) : FactRecord := fact.delete fun entry => entry.1 = key

end FactRecord

/-- `value is None`. -/
def isNone : Json → Bool
  | .null => true
  | _ => false

/-- `_text`. -/
def textOf : Json → String
  | .str text => text
  | _ => ""

/-! ## Floating point -/

/-- The floats of the runtime, and how it prints values. -/
structure Floats (F : Type) where
  /-- `float(value)`. -/
  read : Json → Py F
  zero : F
  one : F
  minusOne : F
  sub : F → F → F
  mul : F → F → F
  div : F → F → F
  sqrt : F → F
  sum : List F → F
  /-- The quotient of two counts. -/
  ratio : Nat → Nat → F
  less : F → F → Bool
  atMost : F → F → Bool
  same : F → F → Bool
  finite : F → Bool
  /-- `f"{x:.3f}"`. -/
  fixed : F → String
  /-- `str(value)`. -/
  str : Json → String

/-- What `except (TypeError, ValueError)` catches. -/
def Handled (raised : Raised) : Prop := raised.kind = .typeError ∨ raised.kind = .valueError

instance (raised : Raised) : Decidable (Handled raised) := inferInstanceAs (Decidable (_ ∨ _))

section Packing

variable {F : Type} (floats : Floats F)

namespace Floats

/-- `max(values, default=0.0)`: the first of the greatest. -/
def largest : List F → F
  | [] => floats.zero
  | x :: xs => xs.foldl (fun best y => if floats.less best y then y else best) x

/-- `max(-1.0, min(1.0, x))`. -/
def clamp (x : F) : F :=
  let low := if floats.less x floats.one then x else floats.one
  if floats.less floats.minusOne low then low else floats.minusOne

/-- `(float(value) for value in values)`. -/
def components : Json → Py (List F)
  | .arr items => items.mapM floats.read
  | .obj members => (members.map fun member => Json.str member.1).mapM floats.read
  | _ => .error ⟨.typeError, "object is not iterable"⟩

end Floats

/-! ## Tokens -/

/-- `estimate_tokens`: four characters a token, rounded up. -/
def estimateTokens (text : String) : Nat := (text.length + 3) / 4

def header : String := "## Enfold Memory\n"

def ellipsis : String := "…"

def truncationMarker : String := "… [truncated]"

/-! ## Similarity -/

/-- `_jaccard_similarity`. -/
def jaccardSimilarity (left right : String) : F :=
  let leftTokens := (tokens left).dedup
  let rightTokens := (tokens right).dedup
  let union := (leftTokens ++ rightTokens).dedup
  if union = [] then floats.zero
  else floats.ratio (leftTokens.filter (· ∈ rightTokens)).length union.length

/-- `_embedding_similarity`: `none` unless both are complete finite vectors of one length. -/
def embeddingSimilarity (left right : Json) : Py (Option F) :=
  match left, right with
  | .str _, _ => .ok none
  | _, .str _ => .ok none
  | left, right =>
      match (do return (← floats.components left, ← floats.components right) : Py _) with
      | .error raised => if Handled raised then .ok none else .error raised
      | .ok (leftValues, rightValues) =>
          .ok <|
            if leftValues.length = 0 ∨ leftValues.length ≠ rightValues.length then none
            else if (leftValues ++ rightValues).any fun value => !floats.finite value then none
            else
              let leftNorm := floats.sqrt (floats.sum (leftValues.map fun x => floats.mul x x))
              let rightNorm := floats.sqrt (floats.sum (rightValues.map fun x => floats.mul x x))
              if floats.same leftNorm floats.zero || floats.same rightNorm floats.zero then none
              else
                some (floats.clamp (floats.div
                  (floats.sum (List.zipWith floats.mul leftValues rightValues))
                  (floats.mul leftNorm rightNorm)))

/-- `_similarity`. -/
def similarity (left right : FactRecord) : Py F := do
  match (← embeddingSimilarity floats (left.get "_mmr_embedding") (right.get "_mmr_embedding")) with
  | some dense => return dense
  | none =>
      return jaccardSimilarity floats (textOf (left.get "content")) (textOf (right.get "content"))

/-! ## Maximal marginal relevance -/

/-- The score of a fact; what is not a number counts as zero. -/
def relevance (fact : FactRecord) : Py F :=
  match floats.read (fact.get "score") with
  | .ok score => .ok score
  | .error raised => if Handled raised then .ok floats.zero else .error raised

/-- `objective`, without the negated index that breaks ties. -/
def objective (mmrLambda : F) (selected : List FactRecord) (fact : FactRecord) : Py F := do
  let relevance ← relevance floats fact
  let redundancy ← selected.mapM (similarity floats fact)
  return floats.sub (floats.mul mmrLambda relevance)
    (floats.mul (floats.sub floats.one mmrLambda) (floats.largest redundancy))

/-- A candidate: its place in the input, the record and the objective. -/
abbrev Candidate (F : Type) := (Nat × FactRecord) × F

/-- The tuple comparison `(value, -index) > (best_value, -best_index)`. -/
def Candidate.better (best candidate : Candidate F) : Bool :=
  if floats.same candidate.2 best.2 then candidate.1.1 < best.1.1
  else floats.less best.2 candidate.2

/-- `max(remaining, key=objective)`. -/
def bestCandidate (first : Candidate F) (rest : List (Candidate F)) : Candidate F :=
  rest.foldl (fun best candidate =>
    if Candidate.better floats best candidate then candidate else best) first

/-- The loop of `_mmr_select`; `needed` facts are still to be chosen. -/
def mmrLoop (mmrLambda : F) :
    Nat → List (Nat × FactRecord) → List FactRecord → Py (List FactRecord)
  | 0, _, selected => .ok selected
  | needed + 1, remaining, selected => do
      let scored ← remaining.mapM fun item => do
        return (item, ← objective floats mmrLambda selected item.2)
      match scored with
      | [] => return selected
      | first :: rest =>
          let best := bestCandidate floats first rest
          mmrLoop mmrLambda needed (remaining.eraseP fun item => item.1 = best.1.1)
            (selected ++ [best.1.2])

/-- `_mmr_select`. -/
def mmrSelect (facts : List FactRecord) (maxFacts : Option Nat) (mmrLambda : F) :
    Py (List FactRecord) :=
  match maxFacts with
  | none => .ok facts
  | some limit =>
      if facts.length ≤ limit then .ok facts
      else mmrLoop floats mmrLambda limit (facts.zipIdx.map Prod.swap) []

/-! ## Lines -/

/-- `_safe_candidate`: nothing says the fact is not current. -/
def SafeCandidate (fact : FactRecord) : Prop :=
  isNone (fact.get "invalid_at") ∧ isNone (fact.get "superseded_by") ∧
    isNone (fact.get "conflict_group")

instance (fact : FactRecord) : Decidable (SafeCandidate fact) :=
  inferInstanceAs (Decidable (_ ∧ _ ∧ _))

/-- `_state_slot`: scope, subject and predicate. -/
def stateSlot (fact : FactRecord) : Option (String × String × String) :=
  match fact.get "memory_kind" with
  | .str "state" =>
      let subject := textOf (fact.get "subject_key")
      let predicate := textOf (fact.get "predicate_key")
      if subject = "" ∨ predicate = "" then none
      else some (textOf (fact.get "scope"), subject, predicate)
  | _ => none

/-- `_compact_source`. -/
def compactSource (attribution : Json) : String :=
  let named := ["performed_by", "agent_id", "source_type"].map fun key =>
    textOf ((attribution.get? key).getD .null)
  match named.find? (· ≠ "") with
  | none => "unknown"
  | some value =>
      String.ofList (value.toList.take 64) ++ if 64 < value.length then ellipsis else ""

/-- The score of a fact with three decimals. -/
def scoreText (fact : FactRecord) : Py String :=
  match floats.read (fact.get "score") with
  | .ok score => .ok (floats.fixed score)
  | .error raised => if Handled raised then .ok "n/a" else .error raised

/-- `_line_prefix`. -/
def linePrefix (fact : FactRecord) : Py String := do
  let score ← scoreText floats fact
  let attribution := fact.get "attribution"
  let evidence := match (attribution.get? "evidence_count").getD .null with
    | .int count => " evidence:" ++ String.ofList (Json.intText count)
    | .bool b => " evidence:" ++ if b then "True" else "False"
    | _ => ""
  return "- [fact:" ++ floats.str (fact.get "fact_id") ++ " score:" ++ score ++ " by:" ++
    compactSource attribution ++ evidence ++ "] "

/-! ## Truncation -/

/-- `text[:n].rstrip()`. -/
def trimmedPrefix (text : String) (n : Nat) : String :=
  String.ofList ((text.toList.take n).rdropWhile isSpace)

/-- The binary search of `_truncate_to_budget`; `stop` is one past the source's `high`. -/
def longestFit (text : String) (budget : Int) (low stop : Nat) (best : String) : String :=
  if low < stop then
    let midpoint := (low + stop - 1) / 2
    let candidate := trimmedPrefix text midpoint ++ ellipsis
    if (estimateTokens candidate : Int) ≤ budget then
      longestFit text budget (midpoint + 1) stop candidate
    else longestFit text budget low midpoint best
  else best
termination_by stop - low

/-- `_truncate_to_budget`. -/
def truncateToBudget (text : String) (budget : Int) : String × Bool :=
  if budget ≤ 0 then ("", text ≠ "")
  else if (estimateTokens text : Int) ≤ budget then (text, false)
  else if budget < (estimateTokens ellipsis : Int) then ("", true)
  else (longestFit text budget 0 (text.length + 1) "", true)

/-- `_truncate_to_chars`. -/
def truncateToChars (text : String) (maximum : Nat) : String × Bool :=
  if text.length ≤ maximum then (text, false)
  else (trimmedPrefix text (maximum - truncationMarker.length) ++ truncationMarker, true)

/-! ## Packing -/

/-- `ContextPack`. -/
structure ContextPack where
  markdown : String
  facts : List FactRecord
  abstained : Bool
  tokenBudget : Nat
  tokenEstimate : Nat
  omittedFactCount : Nat
  unsafeFactCount : Nat

/-- The variables of the packing loop. -/
structure PackState where
  markdown : String
  selected : List FactRecord
  selectedSlots : List (String × String × String)
  omitted : Nat
  discarded : Nat

/-- `len(content.rstrip("…").rstrip()) < 8`. -/
def TooShort (content : String) : Prop :=
  (((content.toList.rdropWhile fun c => c = '…').rdropWhile isSpace)).length < 8

instance (content : String) : Decidable (TooShort content) := inferInstanceAs (Decidable (_ < _))

/-- The content a fact is packed with, and which of the two truncations shortened it. -/
def packedContent (tokenBudget : Nat) (maxFactChars : Option Nat) (markdown linePrefix : String)
    (fact : FactRecord) : String × Bool × Bool :=
  let available : Int :=
    (tokenBudget : Int) - estimateTokens markdown - estimateTokens linePrefix - 1
  let content := textOf (fact.get "content")
  let shortened := match maxFactChars with
    | none => (content, false)
    | some maximum => truncateToChars content maximum
  let fitted := truncateToBudget shortened.1 available
  (fitted.1, shortened.2, fitted.2)

/-- The record of a packed fact. -/
def packedRecord (fact : FactRecord) (content : String) (contentTruncated budgetTruncated : Bool) :
    FactRecord :=
  let fact := FactRecord.set (FactRecord.set fact "content" (.str content)) "context_truncated"
    (.bool (contentTruncated || budgetTruncated))
  if contentTruncated then FactRecord.set fact "content_truncated" (.bool true) else fact

/-- One round of the packing loop. -/
def packOne (tokenBudget : Nat) (maxFactChars : Option Nat) (state : PackState)
    (rawFact : FactRecord) : Py PackState := do
  let fact := FactRecord.pop rawFact "_mmr_embedding"
  if ¬ SafeCandidate fact then return { state with discarded := state.discarded + 1 }
  else
    let slot := stateSlot fact
    if ∃ k ∈ slot, k ∈ state.selectedSlots then return { state with omitted := state.omitted + 1 }
    else
      let linePrefix ← linePrefix floats fact
      let (content, contentTruncated, budgetTruncated) :=
        packedContent tokenBudget maxFactChars state.markdown linePrefix fact
      let line := linePrefix ++ content ++ "\n"
      if (budgetTruncated ∧ TooShort content) ∨ content = "" ∨
          tokenBudget < estimateTokens (state.markdown ++ line) then
        return { state with omitted := state.omitted + 1 }
      else
        return { state with
          markdown := state.markdown ++ line
          selected := state.selected ++ [packedRecord fact content contentTruncated budgetTruncated]
          selectedSlots := state.selectedSlots ++ slot.toList }

/-- `pack_context`. -/
def packContext (facts : List FactRecord) (tokenBudget : Int) (maxFactChars maxFacts : Option Int)
    (mmrLambda : F) : Py ContextPack := do
  require (0 < tokenBudget) (valueError "token_budget must be positive")
  require (∀ maximum ∈ maxFactChars, (truncationMarker.length : Int) ≤ maximum)
    (valueError "max_fact_chars is too small for the truncation marker")
  require (∀ limit ∈ maxFacts, 1 ≤ limit) (valueError "max_facts must be a positive integer")
  require (floats.finite mmrLambda ∧ floats.atMost floats.zero mmrLambda ∧
      floats.atMost mmrLambda floats.one)
    (valueError "mmr_lambda must be between 0 and 1")
  let tokenBudget := tokenBudget.toNat
  let maxFactChars := maxFactChars.map Int.toNat
  if tokenBudget < estimateTokens header then
    return ⟨"", [], true, tokenBudget, 0, facts.length, 0⟩
  else
    let rankedFacts ← mmrSelect floats facts (maxFacts.map Int.toNat) mmrLambda
    let state ← rankedFacts.foldlM (packOne floats tokenBudget maxFactChars)
      ⟨header, [], [], facts.length - rankedFacts.length, 0⟩
    if state.selected = [] then
      return ⟨"", [], true, tokenBudget, 0, state.omitted, state.discarded⟩
    else
      return ⟨state.markdown, state.selected, false, tokenBudget, estimateTokens state.markdown,
        state.omitted, state.discarded⟩

end Packing

end Enfold.Model
