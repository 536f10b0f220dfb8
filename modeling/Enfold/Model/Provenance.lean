/-
# Model.Provenance -- what crosses the write boundary (`provenance.py`)

The three value objects of a write: the connection it arrives on, the request, and
the outcome.  Their constructors normalize and check every field, so a value that
exists satisfies the checks; here the checks are fields of the structures, and the
constructors (`ConnectionContext.make`, `WriteRequest.make`, `WriteOutcome.make`) are
the routines that establish them.

A column or field that holds canonical JSON text (`metadata_json`, `detail_json`) is kept
as the document; its text is `Json.dumps`, which determines it.
-/
import Enfold.Theory.Checked
import Enfold.Theory.Json
import Mathlib.Data.List.Dedup
import Mathlib.Data.List.Sort

namespace Enfold.Model

open Enfold.Theory

set_option autoImplicit false

/-! ## Raised errors -/

/-- The exception classes the modelled code raises. -/
inductive ErrorClass where
  | valueError
  | typeError
  | runtimeError
  | permissionError
  | overflowError
  | indexError
  | integrityError
  | unknownMemoryClient
  | idempotencyConflict
  | clientIdentityConflict
  | sessionContextConflict
  | stateSlotInvariantError
  | serviceRequestError
  | erasureError
  | leaseLost
  | sqliteVecError
  | migrationError
  | guardRailError
  /-- Anything a collaborator passed in by the caller raises. -/
  | foreign
  deriving DecidableEq, Repr

structure Raised where
  kind : ErrorClass
  message : String
  deriving DecidableEq, Repr

abbrev Py := Except Raised

def valueError (message : String) : Raised := ⟨.valueError, message⟩

def runtimeError (message : String) : Raised := ⟨.runtimeError, message⟩

/-- `int(text)` on a text of digits.  The length is checked before the first digit that is not
decimal is refused. -/
def intOf (text : String) : Py Nat :=
  if maxIntDigits < leadingDigits text then
    .error (valueError
      ("Exceeds the limit (4300 digits) for integer string conversion: value has " ++
        natText (leadingDigits text) ++
        " digits; use sys.set_int_max_str_digits() to increase the limit"))
  else
    match readDigits text with
    | some n => .ok n
    | none => .error (valueError ("invalid literal for int() with base 10: '" ++ text ++ "'"))

/-- `_required`: the stripped text, which must not be empty. -/
def required (value name : String) : Py {text : String // Required text} :=
  if empty : strip value = "" then .error (valueError (name ++ " must not be empty"))
  else .ok ⟨strip value, required_strip empty⟩

/-- A validated text passes validation unchanged. -/
theorem required_of {value name : String} (valid : Required value) :
    required value name = .ok ⟨value, valid⟩ := by
  obtain ⟨stripped, nonempty⟩ := valid
  simp [required, stripped, nonempty]

theorem required_eq_ok {value name : String} {text : {text : String // Required text}}
    (passed : required value name = .ok text) : text.val = strip value := by
  unfold required at passed
  split at passed
  · cases passed
  · cases passed
    rfl

/-- A generated identifier (`str(uuid.uuid4())`). -/
structure Uuid where
  text : String
  valid : Required text

/-- A probability-like float: accepted by `0.0 <= x <= 1.0`. -/
def InUnit (x : Decimal) : Prop := 0 ≤ x.value ∧ x.value ≤ 1

instance (x : Decimal) : Decidable (InUnit x) := inferInstanceAs (Decidable (_ ∧ _))

theorem zero_inUnit : InUnit .zero := by decide +kernel

theorem half_inUnit : InUnit .half := by decide +kernel

theorem none_positive : ∀ k ∈ (none : Option Nat), 0 < k := by simp

/-! ## Connections -/

/-- `tuple(sorted({…}))`. -/
def sortedSet (values : List String) : List String :=
  values.dedup.insertionSort (· ≤ ·)

structure ConnectionContext where
  clientId : String
  surface : String
  agentId : String
  sessionId : String
  displayName : Option String
  parentAgentId : Option String
  projectRoot : Option String
  repository : Option String
  branch : Option String
  commitSha : Option String
  capabilities : List String
  accessScopes : List String
  startedAt : Option String
  clientValid : Required clientId
  surfaceValid : Required surface
  agentValid : Required agentId
  sessionValid : Required sessionId
  scopesNonempty : accessScopes ≠ []

namespace ConnectionContext

/-- The constructor: identity fields are stripped and mandatory, capabilities and
scopes become sorted sets of mandatory texts. -/
def make (clientId surface agentId sessionId : String)
    (displayName parentAgentId projectRoot repository branch commitSha : Option String)
    (capabilities accessScopes : List String) (startedAt : Option String) :
    Py ConnectionContext := do
  let ⟨clientId, clientValid⟩ ← required clientId "client_id"
  let ⟨surface, surfaceValid⟩ ← required surface "surface"
  let ⟨agentId, agentValid⟩ ← required agentId "agent_id"
  let ⟨sessionId, sessionValid⟩ ← required sessionId "session_id"
  let capabilities ← capabilities.mapM (required · "capability")
  let scopes ← accessScopes.mapM (required · "access_scope")
  let accessScopes := sortedSet (scopes.map Subtype.val)
  let ⟨scopesNonempty⟩ ← checked (accessScopes ≠ []) (valueError "access_scopes must not be empty")
  return { clientId, surface, agentId, sessionId, displayName, parentAgentId, projectRoot,
           repository, branch, commitSha, accessScopes, startedAt, clientValid, surfaceValid,
           agentValid, sessionValid, scopesNonempty
           capabilities := sortedSet (capabilities.map Subtype.val) }

end ConnectionContext

/-! ## Requests -/

/-- `_canonical_json_object`, from what decoding the text gave. -/
def canonicalJsonObject (decoded : Option Json) (name : String) :
    Py {document : Json // document.IsObject} :=
  match decoded with
  | some (.obj members) => .ok ⟨.obj members, members, rfl⟩
  | _ => .error (valueError (name ++ " must be a JSON object"))

structure WriteRequest where
  idempotencyKey : String
  content : String
  sourceType : String
  category : String
  tags : String
  trustScore : Decimal
  sourceAuthority : Decimal
  sourceUri : Option String
  observationContent : Option String
  assertedBy : Option String
  performedBy : Option String
  observedAt : Option String
  scope : String
  sensitivity : String
  correctionStatus : Option String
  evidenceExcerpt : Option String
  relation : String
  metadataJson : Json
  supersedeFactId : Option Nat
  operation : String
  keyValid : Required idempotencyKey
  contentValid : Required content
  sourceTypeValid : Required sourceType
  categoryValid : Required category
  scopeValid : Required scope
  sensitivityValid : Required sensitivity
  relationValid : Required relation
  operationValid : Required operation
  trustUnit : InUnit trustScore
  authorityUnit : InUnit sourceAuthority
  supersedePositive : ∀ k ∈ supersedeFactId, 0 < k
  metadataObject : metadataJson.IsObject

namespace WriteRequest

/-- The constructor; `metadata` is what decoding the metadata text gave. -/
def make (idempotencyKey content sourceType category tags : String)
    (trustScore sourceAuthority : Decimal)
    (sourceUri observationContent assertedBy performedBy observedAt : Option String)
    (scope sensitivity : String) (correctionStatus evidenceExcerpt : Option String)
    (relation : String) (metadata : Option Json) (supersedeFactId : Option Nat)
    (operation : String) : Py WriteRequest := do
  let ⟨idempotencyKey, keyValid⟩ ← required idempotencyKey "idempotency_key"
  let ⟨content, contentValid⟩ ← required content "content"
  let ⟨sourceType, sourceTypeValid⟩ ← required sourceType "source_type"
  let ⟨category, categoryValid⟩ ← required category "category"
  let ⟨scope, scopeValid⟩ ← required scope "scope"
  let ⟨sensitivity, sensitivityValid⟩ ← required sensitivity "sensitivity"
  let ⟨relation, relationValid⟩ ← required relation "relation"
  let ⟨operation, operationValid⟩ ← required operation "operation"
  let ⟨trustUnit⟩ ← checked (InUnit trustScore) (valueError "trust_score must be between 0 and 1")
  let ⟨authorityUnit⟩ ← checked (InUnit sourceAuthority)
    (valueError "source_authority must be between 0 and 1")
  let ⟨supersedePositive⟩ ← checked (∀ k ∈ supersedeFactId, 0 < k)
    (valueError "supersede_fact_id must be positive")
  let ⟨metadataJson, metadataObject⟩ ← canonicalJsonObject metadata "metadata_json"
  return { idempotencyKey, content, sourceType, category, tags, trustScore, sourceAuthority,
           sourceUri, observationContent, assertedBy, performedBy, observedAt, scope, sensitivity,
           correctionStatus, evidenceExcerpt, relation, metadataJson, supersedeFactId, operation,
           keyValid, contentValid, sourceTypeValid, categoryValid, scopeValid, sensitivityValid,
           relationValid, operationValid, trustUnit, authorityUnit, supersedePositive,
           metadataObject }

end WriteRequest

/-! ## Outcomes -/

/-- What a write did. -/
inductive Outcome where
  | inserted
  | add
  | dedup
  | supersede
  | conflict
  | nearDedup
  | rejected
  | needsReview
  deriving DecidableEq, Repr

def Outcome.text : Outcome → String
  | .inserted => "inserted"
  | .add => "add"
  | .dedup => "dedup"
  | .supersede => "supersede"
  | .conflict => "conflict"
  | .nearDedup => "near_dedup"
  | .rejected => "rejected"
  | .needsReview => "needs_review"

structure WriteOutcome where
  writeId : String
  outcome : Outcome
  factId : Option Nat
  existingFactId : Option Nat
  observationId : Option Nat
  replayed : Bool
  detailJson : Json
  writeIdValid : Required writeId
  factPositive : ∀ k ∈ factId, 0 < k
  existingPositive : ∀ k ∈ existingFactId, 0 < k
  observationPositive : ∀ k ∈ observationId, 0 < k

/-- The constructor. -/
def WriteOutcome.make (writeId : String) (outcome : Outcome)
    (factId existingFactId observationId : Option Nat) (replayed : Bool) (detailJson : Json) :
    Py WriteOutcome := do
  let ⟨writeId, writeIdValid⟩ ← required writeId "write_id"
  let ⟨factPositive⟩ ← checked (∀ k ∈ factId, 0 < k) (valueError "fact_id must be positive")
  let ⟨existingPositive⟩ ← checked (∀ k ∈ existingFactId, 0 < k)
    (valueError "existing_fact_id must be positive")
  let ⟨observationPositive⟩ ← checked (∀ k ∈ observationId, 0 < k)
    (valueError "observation_id must be positive")
  return { writeId, outcome, factId, existingFactId, observationId, replayed, detailJson,
           writeIdValid, factPositive, existingPositive, observationPositive }

end Enfold.Model
