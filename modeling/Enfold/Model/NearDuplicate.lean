/-
# Model.NearDuplicate -- the write-time duplicate checks (`__init__.py`)

Two texts are compared by their values, their polarity, their lifecycle words and the overlap
of their tokens.  `_is_near_duplicate` wants the same content words; `_is_semantic_duplicate`
lets a cosine similarity decide once none of the guards speaks against it.  `temporal.py`
carries a hand-written copy of the token helpers, in `Model.Temporal`.
-/
import Enfold.Model.ClusterMerge
import Enfold.Theory.Binary64
import Mathlib.Data.Finset.Card
import Mathlib.Data.Finset.Union

namespace Enfold.Model.NearDuplicate

open Enfold.Theory

set_option autoImplicit false

/-! ## Floats of a comparison -/

/-- A float, as far as comparing it goes. -/
inductive Score where
  | finite (value : ℚ)
  | infinite (negative : Bool)
  | nan
  deriving DecidableEq

/-- `x < y`; nothing is less than a `nan`, nor it less than anything. -/
def Score.lt : Score → Score → Bool
  | .nan, _ | _, .nan => false
  | .finite x, .finite y => x < y
  | .infinite negative, .finite _ => negative
  | .finite _, .infinite negative => !negative
  | .infinite negative, .infinite other => negative && !other

/-- `x >= y`. -/
def Score.ge : Score → Score → Bool
  | .nan, _ | _, .nan => false
  | .finite x, .finite y => y ≤ x
  | .infinite negative, .finite _ => !negative
  | .finite _, .infinite negative => negative
  | .infinite negative, .infinite other => !negative || other

/-- The float nearest to `num / den`, for a fraction of at most one. -/
def quotient (num den : Nat) : ℚ :=
  match Decimal.toBinary num den with
  | some float => float.mantissa * 2 ^ float.exponent
  | none => 0

/-! ## Tokens -/

/-- Lowercased alphanumeric tokens in text order. -/
def normTokenSequence (text : String) : List String := tokens text

def normTokens (text : String) : Finset String := (normTokenSequence text).toFinset

/-- Tokens carrying a concrete value. -/
def valueTokens (text : String) : List String :=
  (normTokenSequence text).filter fun token => token.toList.any isAsciiDigit

def jaccard (a b : Finset String) : ℚ :=
  if a = ∅ ∨ b = ∅ then 0 else quotient (a ∩ b).card (a ∪ b).card

def stopwords : List String :=
  ["a", "an", "the", "is", "are", "was", "were", "be", "been", "being", "am", "of", "to", "in",
    "on", "at", "for", "and", "or", "with", "by", "as", "it", "its", "this", "that", "these",
    "those", "from", "into", "over", "under", "has", "have", "had", "do", "does", "did", "will",
    "would", "can", "could", "should", "may", "might", "must", "not", "no"]

/-- Significant (non-function) words. -/
def contentTokens (text : String) : Finset String := normTokens text \ stopwords.toFinset

def stateWordGroups : List (List String) :=
  [["enabled", "disabled"], ["active", "inactive", "archived"], ["on", "off"], ["open", "closed"],
    ["paused", "resumed"], ["up", "down"], ["alive", "dead"], ["started", "stopped"]]

def stateWordSet : Finset String := stateWordGroups.flatten.toFinset

def negationWordSet : Finset String := ["not", "no", "never", "without"].toFinset

def stateWords (text : String) : Finset String := contentTokens text ∩ stateWordSet

def negationWords (text : String) : Finset String := normTokens text ∩ negationWordSet

/-! ## Guards -/

/-- The stems of a token that stay longer than two letters. -/
def stems (token : String) : List String :=
  ["ation", "ing", "ed", "ic", "ion", "s"].filterMap fun suffix =>
    if suffix.toList.isSuffixOf token.toList ∧ suffix.length + 2 < token.length then
      some (String.ofList (token.toList.take (token.length - suffix.length)))
    else none

def subjectishTokens (text : String) : Finset String :=
  let kept := contentTokens text \ stateWordSet
  kept ∪ kept.biUnion fun token => (stems token).toFinset

def hasSubjectishOverlap (content other : String) : Bool :=
  subjectishTokens content ∩ subjectishTokens other ≠ ∅

/-- Opposite state words appear on opposite sides. -/
def hasOpposingStateWords (content other : String) (requireContext : Bool) : Bool :=
  if requireContext && !hasSubjectishOverlap content other then false
  else
    let aStates := stateWords content
    let bStates := stateWords other
    if aStates = ∅ ∨ bStates = ∅ then false
    else
      stateWordGroups.any fun group =>
        let aGroup := aStates ∩ group.toFinset
        let bGroup := bStates ∩ group.toFinset
        aGroup ≠ ∅ ∧ bGroup ≠ ∅ ∧ aGroup ≠ bGroup

/-- One side contains explicit negation and the other does not. -/
def hasNegationMismatch (content other : String) (requireContext : Bool) : Bool :=
  if requireContext && !hasSubjectishOverlap content other then false
  else decide (negationWords content ≠ ∅) != decide (negationWords other ≠ ∅)

/-! ## Verdicts -/

def isNearDuplicate (content other : String) (threshold : Score) : Bool :=
  if valueTokens content ≠ valueTokens other then false
  else if hasNegationMismatch content other true then false
  else if (Score.finite (jaccard (normTokens content) (normTokens other))).lt threshold then false
  else contentTokens content = contentTokens other

/-- The literal `0.7`. -/
def restatementJaccard : ℚ := quotient 7 10

/-- Without a cosine the embedder was unavailable. -/
def isSemanticDuplicate (content other : String) (cosine : Option Score) (threshold : Score) :
    Bool :=
  match cosine with
  | none => false
  | some cosine =>
      if valueTokens content ≠ valueTokens other then false
      else if hasOpposingStateWords content other false then false
      else if hasNegationMismatch content other false then false
      else if contentTokens content ≠ contentTokens other ∧
          restatementJaccard ≤ jaccard (normTokens content) (normTokens other) then false
      else cosine.ge threshold

end Enfold.Model.NearDuplicate
