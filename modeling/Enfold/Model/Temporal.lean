/-
# Model.Temporal -- the history of a fact (`temporal.py`)

`factHistory` collects a supersession chain in two passes: first every fact that leads to the
given one, then what the collected facts lead to.  The token helpers at the end are the copy
of `Model.NearDuplicate` that the module keeps to stay importable on its own.
-/
import Enfold.Model.ClusterMerge
import Enfold.Theory.Closure
import Mathlib.Data.Finset.Card
import Mathlib.Data.Finset.Union

namespace Enfold.Model

open Enfold.Theory

set_option autoImplicit false

/-- `fact_id → superseded_by`, read backwards: `r` was superseded by `c`. -/
def Supersedes (c r : FactRow) : Prop := r.supersededBy = some c.factId

instance : DecidableRel Supersedes := fun _ _ => inferInstanceAs (Decidable (_ = _))

/-- `r` superseded `c`.  The loop drops a `superseded_by` that is no true value. -/
def SupersededInto (c r : FactRow) : Prop := c.supersededBy = some r.factId ∧ r.factId ≠ 0

instance : DecidableRel SupersededInto := fun _ _ => inferInstanceAs (Decidable (_ ∧ _))

/-- The order of the answer: `(created_at or "", fact_id)`. -/
def historyOrder (a b : FactRow) : Bool :=
  a.createdAt < b.createdAt ∨ a.createdAt = b.createdAt ∧ a.factId ≤ b.factId

/-- `fact_history`. -/
def factHistory (facts : Table Nat FactRow FactRow.factId) (factId : Nat) : List FactRow :=
  match facts.get? factId with
  | none => []
  | some row =>
      let backward := saturate facts Supersedes [row]
      (saturate facts SupersededInto backward).mergeSort historyOrder

/-! ## The mirrored token helpers -/

namespace Temporal

def stopwords : List String :=
  ["a", "an", "the", "is", "are", "was", "were", "be", "been", "being", "am", "of", "to", "in",
    "on", "at", "for", "and", "or", "with", "by", "as", "it", "its", "this", "that", "these",
    "those", "from", "into", "over", "under", "has", "have", "had", "do", "does", "did", "will",
    "would", "can", "could", "should", "may", "might", "must", "not", "no"]

def stateWordGroups : List (List String) :=
  [["enabled", "disabled"], ["active", "inactive", "archived"], ["on", "off"], ["open", "closed"],
    ["paused", "resumed"], ["up", "down"], ["alive", "dead"], ["started", "stopped"]]

def stateWordSet : Finset String := stateWordGroups.flatten.toFinset

def negationWordSet : Finset String := ["not", "no", "never", "without"].toFinset

/-- Lowercased alphanumeric tokens in text order. -/
def normTokenSequence (text : String) : List String := tokens text

def normTokens (text : String) : Finset String := (normTokenSequence text).toFinset

/-- Tokens carrying a concrete value. -/
def valueTokens (text : String) : List String :=
  (normTokenSequence text).filter fun token => token.toList.any isAsciiDigit

/-- Significant (non-function) words. -/
def contentTokens (text : String) : Finset String := normTokens text \ stopwords.toFinset

def stateWords (text : String) : Finset String := contentTokens text ∩ stateWordSet

def negationWords (text : String) : Finset String := normTokens text ∩ negationWordSet

/-- The stems of a token that stay longer than two letters. -/
def stems (token : String) : List String :=
  ["ation", "ing", "ed", "ic", "ion", "s"].filterMap fun suffix =>
    if suffix.toList.isSuffixOf token.toList ∧ suffix.length + 2 < token.length then
      some (String.ofList (token.toList.take (token.length - suffix.length)))
    else none

def subjectishTokens (text : String) : Finset String :=
  let kept := contentTokens text \ stateWordSet
  kept ∪ kept.biUnion fun token => (stems token).toFinset

def hasSubjectishOverlap (content other : String) : Bool :=
  subjectishTokens content ∩ subjectishTokens other ≠ ∅

/-- Opposite state words appear on opposite sides. -/
def hasOpposingStateWords (content other : String) (requireContext : Bool) : Bool :=
  if requireContext && !hasSubjectishOverlap content other then false
  else
    let aStates := stateWords content
    let bStates := stateWords other
    if aStates = ∅ ∨ bStates = ∅ then false
    else
      stateWordGroups.any fun group =>
        let aGroup := aStates ∩ group.toFinset
        let bGroup := bStates ∩ group.toFinset
        aGroup ≠ ∅ ∧ bGroup ≠ ∅ ∧ aGroup ≠ bGroup

/-- One side contains explicit negation and the other does not. -/
def hasNegationMismatch (content other : String) (requireContext : Bool) : Bool :=
  if requireContext && !hasSubjectishOverlap content other then false
  else decide (negationWords content ≠ ∅) != decide (negationWords other ≠ ∅)

/-- The values differ while the other words agree, or the state or the polarity flips in one
context. -/
def isValueUpdate (content other : String) : Bool :=
  let aValues := valueTokens content
  let bValues := valueTokens other
  let flips := hasOpposingStateWords content other true || hasNegationMismatch content other true
  if aValues = bValues then flips
  else if aValues.toFinset = ∅ ∨ bValues.toFinset = ∅ then flips
  else
    (contentTokens content \ aValues.toFinset) \ stateWords content =
      (contentTokens other \ bValues.toFinset) \ stateWords other

end Temporal

end Enfold.Model
