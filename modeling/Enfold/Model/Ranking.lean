/-
# Model.Ranking -- the scores of hybrid retrieval (`hybrid_retrieval.py`)

Weights, gates and the components of a score.  Scores are elements of an ordered field: the
arithmetic is exact.  What the field cannot compute is a parameter (`Numerics`): the cosine of
two vectors, the exponential decay with age, and the distance the vec0 extension reports.

`updated_at` is a column no other part of the model reads; it is passed in beside the row.
-/
import Enfold.Model.ClusterMerge
import Enfold.Model.StateSlots
import Mathlib.Algebra.Order.Field.Basic
import Mathlib.Data.Rat.Cast.Defs

namespace Enfold.Model

open Enfold.Theory

set_option autoImplicit false

variable {F : Type} [Field F] [LinearOrder F]

/-! ## Configuration -/

/-- `math.isclose` with its default tolerance. -/
def IsClose (x y : F) : Prop := |x - y| ≤ max |x| |y| / 10 ^ 9

instance (x y : F) : Decidable (IsClose x y) := inferInstanceAs (Decidable (_ ≤ _))

/-- `RankingConfig`. -/
structure RankingConfig (F : Type) [Field F] [LinearOrder F] where
  ftsWeight : F
  jaccardWeight : F
  denseWeight : F
  trustWeight : F
  memoryKindWeight : F
  recencyWeight : F
  recencyHalfLifeDays : F
  stateKindScore : F
  insightKindScore : F
  untypedKindScore : F
  eventKindScore : F
  scoreFloor : F
  ambiguityMargin : F
  nonnegative : ∀ weight ∈ [ftsWeight, jaccardWeight, denseWeight, trustWeight, memoryKindWeight,
    recencyWeight], 0 ≤ weight
  relevanceSum : IsClose (ftsWeight + jaccardWeight + denseWeight) 1
  priorSum : trustWeight + memoryKindWeight + recencyWeight < 1
  kindUnit : ∀ score ∈ [stateKindScore, insightKindScore, untypedKindScore, eventKindScore],
    0 ≤ score ∧ score ≤ 1
  halfLifePositive : 0 < recencyHalfLifeDays
  gateUnit : ∀ gate ∈ [scoreFloor, ambiguityMargin], 0 ≤ gate ∧ gate ≤ 1

def RankingConfig.relevanceWeight (config : RankingConfig F) : F :=
  1 - config.trustWeight - config.memoryKindWeight - config.recencyWeight

/-- `DEFAULT_RANKING_CONFIG`. -/
def defaultRankingConfig : RankingConfig ℚ where
  ftsWeight := 35 / 100
  jaccardWeight := 25 / 100
  denseWeight := 40 / 100
  trustWeight := 5 / 100
  memoryKindWeight := 2 / 100
  recencyWeight := 3 / 100
  recencyHalfLifeDays := 365
  stateKindScore := 1
  insightKindScore := 3 / 4
  untypedKindScore := 1 / 2
  eventKindScore := 1 / 4
  scoreFloor := 12 / 100
  ambiguityMargin := 5 / 1000
  nonnegative := by decide +kernel
  relevanceSum := by decide +kernel
  priorSum := by decide +kernel
  kindUnit := by decide +kernel
  halfLifePositive := by decide +kernel
  gateUnit := by decide +kernel

/-- What is not field arithmetic. -/
structure Numerics (F : Type) where
  /-- The cosine of two nonzero vectors. -/
  similarity : List Decimal → List Decimal → F
  /-- `exp(-log(2) * x)`. -/
  halving : F → F
  /-- The cosine distance of vec0; `none` is `NULL`. -/
  distance : List Decimal → List Decimal → Option F

/-! ## Tokens -/

/-- `_tokens`. -/
def tokenSet (text : String) : List String := (tokens text).dedup

def isWordStart (c : Char) : Bool := isAsciiUpper c || isAsciiLower c

def isWordPart (c : Char) : Bool := isWordStart c || isAsciiDigit c || c = '_' || c = '-'

/-- The matches of `[A-Za-z][A-Za-z0-9_-]*`; `word` is the current one, reversed. -/
def wordRuns (word : List Char) : List Char → List (List Char)
  | [] => if word.isEmpty then [] else [word.reverse]
  | c :: cs =>
      if (if word.isEmpty then isWordStart c else isWordPart c) then wordRuns (c :: word) cs
      else if word.isEmpty then wordRuns [] cs
      else word.reverse :: wordRuns [] cs

def sentenceOpeners : List String :=
  ["A", "An", "Does", "How", "Is", "The", "What", "When", "Where", "Which", "Who", "Why"]

/-- The capitalized words a result must contain. -/
def namedAnchorTokens (text : String) : List String :=
  let words := (wordRuns [] text.toList).zipIdx
  ((words.filter fun (word, index) =>
    word.head?.any isAsciiUpper && !(index = 0 && String.ofList word ∈ sentenceOpeners)).map
    fun (word, _) => String.ofList (word.flatMap lowerChar)).dedup

/-! ## Components of a score -/

def jaccard (left right : List String) : F :=
  if left = [] ∨ right = [] then 0
  else ((left.filter (· ∈ right)).length : F) / ((left ++ right).dedup.length : F)

/-- The norm is zero. -/
def IsZero (vector : List Decimal) : Prop := ∀ x ∈ vector, x.value = 0

instance (vector : List Decimal) : Decidable (IsZero vector) :=
  inferInstanceAs (Decidable (∀ x ∈ vector, _))

/-- `_cosine`. -/
def cosine (numerics : Numerics F) (left right : List Decimal) : Py F := do
  require (left.length = right.length)
    (valueError "query and document embedding dimensions differ")
  if IsZero left ∨ IsZero right then return 0
  else return numerics.similarity left right

/-- `text.replace("Z", "+00:00")`. -/
def replaceZulu (text : String) : List Char :=
  text.toList.flatMap fun c => if c = 'Z' then "+00:00".toList else [c]

/-- `_as_utc`; a text that is no timestamp counts as absent. -/
def asUtc (value : Option String) : Py (Option Int) :=
  match value.bind fun text => IsoTime.fromIsoformat (replaceZulu (strip text)) with
  | none => .ok none
  | some timestamp =>
      match timestamp.utc with
      | none => .error ⟨.overflowError, "date value out of range"⟩
      | some instant => .ok (some instant)

/-- `_recency_score`; `now` counts microseconds. -/
def recencyScore (numerics : Numerics F) (row : FactRow) (updatedAt : Option String) (now : Int)
    (halfLifeDays : F) : Py F := do
  match (← asUtc updatedAt) with
  | some timestamp => return decay timestamp
  | none =>
      match (← asUtc (some row.createdAt)) with
      | some timestamp => return decay timestamp
      | none => return 0
where
  decay (timestamp : Int) : F :=
    numerics.halving (max 0 (((now - timestamp : Int) : F) / (IsoTime.day : F)) / halfLifeDays)

def memoryKindScore (kind : Option String) (config : RankingConfig F) : F :=
  if kind = some "state" then config.stateKindScore
  else if kind = some "insight" then config.insightKindScore
  else if kind = some "event" then config.eventKindScore
  else config.untypedKindScore

end Enfold.Model
