/-
# Model.Extraction -- proposals, snapshots and what is written from them
(`extraction_processor.py`)

A model proposes memories from a transcript.  `makeSnapshot` checks and normalizes the
proposals and prints them as one canonical document with its digest; the processor persists
that text before any write, and `prepareSnapshot` reads it back, checks it again and makes
one write of each proposal.

What a model returns is dynamically typed: a field of a proposal is a JSON value, and the
code asks for its type.  A permanent failure is kept as its error code, which is all that
the processor records of it.
-/
import Enfold.Model.Policy
import Enfold.Model.StateSlots
import Enfold.Theory.JsonRead

namespace Enfold.Model

open Enfold.Theory

set_option autoImplicit false

/-! ## Dynamic values -/

/-- `dict.get(key)`, with `None` for an absent key. -/
def field (key : String) (value : Json) : Json := (value.get? key).getD .null

theorem canonical_field {value : Json} (canonical : value.Canonical) (key : String) :
    (field key value).Canonical := by
  unfold field
  cases found : value.get? key with
  | none => simp [Json.Canonical]
  | some v => exact Json.canonical_get? canonical found

/-- `key in dict`. -/
def hasField (key : String) (value : Json) : Bool := (value.get? key).isSome

/-- The keys of an object. -/
def memberNames : Json → List String
  | .obj members => members.map Prod.fst
  | _ => []

def isObject : Json → Bool
  | .obj _ => true
  | _ => false

/-- The number of a boolean, an integer or a float. -/
def numeric? : Json → Option ℚ
  | .bool b => some (if b then 1 else 0)
  | .int n => some n
  | .float x => some x.value
  | _ => none

/-- `==` between a scalar and another value. -/
def sameScalar : Json → Json → Bool
  | .null, .null => true
  | .str a, .str b => a = b
  | a, b =>
      match numeric? a, numeric? b with
      | some x, some y => x = y
      | _, _ => false

/-- What is raised while a row is processed. -/
inductive Failure where
  /-- `PermanentExtractionError`, by its `error_code`. -/
  | permanent (errorCode : String)
  /-- An exception of the modelled code that carries no `error_code`. -/
  | raised (e : Raised)
  /-- What the extractor raised, with its `error_code` when it has one. -/
  | extractor (errorCode : Option String)
  deriving DecidableEq

abbrev Processing := Except Failure

def typeError (message : String) : Raised := ⟨.typeError, message⟩

def overflowError (message : String) : Raised := ⟨.overflowError, message⟩

/-! ## Envelopes and proposals -/

def maxExtractedMemories : Nat := 32

/-- `0.8`. -/
def minTypedConfidence : Decimal := ⟨false, ['8'], 0, by decide, by decide, by decide, by decide⟩

/-- `protocol.ClientContext`: a connection as the handshake established it.  The identities
are protocol tokens, the scopes distinct tokens. -/
structure ClientContext where
  clientId : String
  surface : String
  agentId : String
  sessionId : String
  parentAgentId : Option String
  projectRoot : Option String
  repository : Option String
  branch : Option String
  commitSha : Option String
  accessScopes : List String

/-- A decoded envelope; its scope is a supported one of the connection, and not secret. -/
structure ExtractionEnvelope where
  transcript : String
  source : String
  scope : String
  context : ClientContext
  transcriptValid : Required transcript
  sourceValid : Required source
  scopeValid : scope ∈ baseScopes ∨ projectScope.fullmatch scope
  scopeGranted : scope ∈ context.accessScopes
  scopeStorable : scope ≠ "secret"

/-- One proposal of a model, as it comes: `state` holds the typed fields, if any, with its
keys in order. -/
structure ExtractedMemory where
  content : Json
  category : Json := .str "general"
  tags : Json := .str ""
  evidenceExcerpt : Json := .null
  scope : Json := .null
  sensitivity : Json := .str "normal"
  state : Json := .null
  stateValid : state.Canonical := by simp [Json.Canonical]

/-- A configured processor; the identity is that of its extractor. -/
structure ExtractionProcessor where
  identity : String
  workerId : String
  maxAttempts : Nat
  identityValid : strip identity ≠ ""
  attemptsPositive : 0 < maxAttempts

/-! ## Typed fields -/

inductive TypedKind where
  | state
  | preference
  | commitment
  | event
  deriving DecidableEq, Repr

namespace TypedKind

def text : TypedKind → String
  | .state => "state"
  | .preference => "preference"
  | .commitment => "commitment"
  | .event => "event"

def all : List TypedKind := [.state, .preference, .commitment, .event]

/-- `kind in _TYPED_KINDS`: a list or an object has no hash. -/
def read : Json → Processing (Option TypedKind)
  | .str text => .ok (all.find? fun kind => kind.text = text)
  | .arr _ => .error (.raised (typeError "unhashable type: 'list'"))
  | .obj _ => .error (.raised (typeError "unhashable type: 'dict'"))
  | _ => .ok none

end TypedKind

def typedFieldNames : List String :=
  ["kind", "subject", "predicate", "object", "value", "occurred_at", "valid_from", "negation",
    "confidence"]

/-- `float(n)`, or nothing when the integer is too large. -/
def floatOfInt (n : Int) : Option Decimal :=
  (Decimal.ofNumeral ⟨n < 0, Nat.toDigits 10 n.natAbs, [], none⟩).bind Decimal.nearest

/-- `float(value)` of a number that is no boolean; nothing for other values. -/
def floatOf : Json → Processing (Option Decimal)
  | .int n =>
      match floatOfInt n with
      | some x => .ok (some x)
      | none => .error (.raised (overflowError "int too large to convert to float"))
  | .float x => .ok (some x)
  | _ => .ok none

/-- The confidence of a typed proposal, at least `0.8`. -/
def typedConfidence (value : Json) : Processing (Option Decimal) := do
  let confidence ← floatOf value
  return confidence.filter fun x => minTypedConfidence.value ≤ x.value ∧ x.value ≤ 1

/-- A nonblank text. -/
def nonblank : Json → Option String
  | .str text => if strip text = "" then none else some text
  | _ => none

/-- The object of a proposal: none when it is a negation, else a nonblank text. -/
def typedObject (negation : Bool) (value : Json) : Option (Option String) :=
  if negation then
    match value with
    | .null => some none
    | _ => none
  else (nonblank value).map fun text => some (strip text)

/-- The timestamp of a proposal: absent, or a nonblank text. -/
def typedTimestamp (value : Json) : Option (Option String) :=
  match value with
  | .null => some none
  | value => (nonblank value).map some

structure TypedFields where
  confidence : Decimal
  kind : TypedKind
  negation : Bool
  objectValue : Option String
  predicateKey : String
  subjectKey : String
  validFrom : Option String

def TypedFields.toJson (typed : TypedFields) : Json :=
  .obj
    [("confidence", .float typed.confidence), ("kind", .str typed.kind.text),
      ("negation", .bool typed.negation), ("object_value", Json.ofText typed.objectValue),
      ("predicate_key", .str typed.predicateKey), ("subject_key", .str typed.subjectKey),
      ("valid_from", Json.ofText typed.validFrom)]

/-- What the typed fields of a proposal say before the keys and the timestamp are checked. -/
structure TypedParts where
  confidence : Decimal
  kind : TypedKind
  negation : Bool
  objectValue : Option String
  validFrom : Option String
  deriving DecidableEq

/-- `negation`, which is `False` when absent. -/
def typedNegation (value : Json) : Option Bool :=
  match value.get? "negation" with
  | none => some false
  | some (.bool negation) => some negation
  | some _ => none

/-- The object is one of two members, the timestamp too, and neither pair occurs together. -/
def typedParts (value : Json) : Processing (Option TypedParts) := do
  match ← TypedKind.read (field "kind" value) with
  | none => return none
  | some kind =>
      match ← typedConfidence (field "confidence" value) with
      | none => return none
      | some confidence =>
          match typedNegation value with
          | none => return none
          | some negation =>
              if hasField "object" value ∧ hasField "value" value then return none
              else if hasField "occurred_at" value ∧ hasField "valid_from" value then return none
              else
                let object := (value.get? "object").getD (field "value" value)
                let time := (value.get? "valid_from").getD (field "occurred_at" value)
                match typedObject negation object, typedTimestamp time with
                | some objectValue, some validFrom =>
                    return some { confidence, kind, negation, objectValue, validFrom }
                | _, _ => return none

/-- The keys of the slot and the check of the timestamp, which is that of a state
candidate. -/
def typedKeys (value : Json) (parts : TypedParts) (content : String) : Py (String × String) := do
  let subjectKey ← normalizeSubjectKey (field "subject" value)
  let predicateKey ← normalizePredicateKey (field "predicate" value)
  let _ ← StateCandidate.make content subjectKey predicateKey parts.objectValue .half
    parts.validFrom "state" "private"
  return (subjectKey, predicateKey)

/-- `_normalize_typed_fields`: the typed payload, or nothing when a part is missing or
malformed.  Value and type errors of the keys and the timestamp count as malformed. -/
def normalizeTypedFields (value : Json) (content : String) : Processing (Option TypedFields) :=
  match value with
  | .obj members =>
      if members = [] ∨ ∃ m ∈ members, m.1 ∉ typedFieldNames then .ok none
      else do
        match ← typedParts value with
        | none => return none
        | some parts =>
            match typedKeys value parts content with
            | .ok (subjectKey, predicateKey) =>
                return some
                  { confidence := parts.confidence, kind := parts.kind, negation := parts.negation
                    objectValue := parts.objectValue, predicateKey, subjectKey
                    validFrom := parts.validFrom.map strip }
            | .error e =>
                if e.kind = .valueError ∨ e.kind = .typeError then return none
                else .error (.raised e)
  | _ => .ok none

/-- `_is_normalized_typed_fields`: normalizing the fields again gives them back. -/
def isNormalizedTypedFields (value : Json) : Processing Bool :=
  match value with
  | .obj members =>
      if members.map Prod.fst = ["confidence", "kind", "negation", "object_value",
          "predicate_key", "subject_key", "valid_from"] then do
        let again : Json := .obj
          [("confidence", field "confidence" value), ("kind", field "kind" value),
            ("negation", field "negation" value), ("predicate", field "predicate_key" value),
            ("subject", field "subject_key" value), ("valid_from", field "valid_from" value),
            ("value", field "object_value" value)]
        match ← normalizeTypedFields again "snapshot validation" with
        | none => return false
        | some typed =>
            return members.all fun m => sameScalar (field m.1 typed.toJson) m.2
      else .ok false
  | _ => .ok false

/-! ## Snapshots -/

def permittedSensitivities : List String := ["normal", "sensitive"]

/-- A proposal as the snapshot keeps it. -/
structure SnapshotItem where
  category : String
  content : String
  evidenceExcerpt : Option String
  sensitivity : String
  tags : String
  typed : Option TypedFields
  categoryValid : Required category
  contentValid : Required content
  sensitivityValid : sensitivity ∈ permittedSensitivities

def SnapshotItem.toJson (item : SnapshotItem) : Json :=
  .obj <|
    [("category", .str item.category), ("content", .str item.content),
      ("evidence_excerpt", Json.ofText item.evidenceExcerpt),
      ("sensitivity", .str item.sensitivity), ("tags", .str item.tags)] ++
    match item.typed with
    | some typed => [("typed", typed.toJson)]
    | none => []

/-- The scope of a proposal is absent or that of the envelope. -/
def checkProposalScope (envelope : ExtractionEnvelope) (scope : Json) : Processing Unit :=
  match scope with
  | .null => .ok ()
  | .str text =>
      match validateScope text with
      | .ok requested =>
          if requested = envelope.scope then .ok ()
          else .error (.permanent "proposal_scope_rejected")
      | .error _ => .error (.permanent "proposal_scope_rejected")
  | _ => .error (.permanent "proposal_scope_rejected")

/-- `value in {"normal", "sensitive"}`. -/
def proposalSensitivity : Json → Processing {text : String // text ∈ permittedSensitivities}
  | .str text =>
      if permitted : text ∈ permittedSensitivities then .ok ⟨text, permitted⟩
      else .error (.permanent "proposal_sensitivity_rejected")
  | .arr _ => .error (.raised (typeError "unhashable type: 'list'"))
  | .obj _ => .error (.raised (typeError "unhashable type: 'dict'"))
  | _ => .error (.permanent "proposal_sensitivity_rejected")

def invalidProposal {α : Type} : Processing α := .error (.permanent "invalid_proposal")

/-- A nonblank text, stripped. -/
def proposalText : Json → Processing {text : String // Required text}
  | .str text =>
      if empty : strip text = "" then invalidProposal
      else .ok ⟨strip text, required_strip empty⟩
  | _ => invalidProposal

def proposalTags : Json → Processing String
  | .str tags => .ok tags
  | _ => invalidProposal

def proposalExcerpt : Json → Processing (Option String)
  | .null => .ok none
  | .str excerpt => .ok (some excerpt)
  | _ => invalidProposal

/-- One proposal of `_make_snapshot`. -/
def snapshotItem (envelope : ExtractionEnvelope) (proposal : ExtractedMemory) :
    Processing SnapshotItem := do
  let ⟨content, contentValid⟩ ← proposalText proposal.content
  checkProposalScope envelope proposal.scope
  let ⟨sensitivity, sensitivityValid⟩ ← proposalSensitivity proposal.sensitivity
  let ⟨category, categoryValid⟩ ← proposalText proposal.category
  let tags ← proposalTags proposal.tags
  let evidenceExcerpt ← proposalExcerpt proposal.evidenceExcerpt
  let typed ← normalizeTypedFields proposal.state content
  return { category, content, evidenceExcerpt, sensitivity, tags, typed, categoryValid, contentValid,
           sensitivityValid }

def snapshotDocument (identity : String) (items : List SnapshotItem) : Json :=
  .obj
    [("extractor_identity", .str identity), ("proposals", .arr (items.map SnapshotItem.toJson)),
      ("version", .int 1)]

/-- The proposals of a snapshot, checked in order. -/
def snapshotItems (proposals : List ExtractedMemory) (envelope : ExtractionEnvelope) :
    Processing (List SnapshotItem) := do
  require (proposals.length ≤ maxExtractedMemories) (.permanent "proposal_limit")
  proposals.mapM (snapshotItem envelope)

/-- `_make_snapshot`: the text of the snapshot and its digest. -/
def makeSnapshot (host : Host) (processor : ExtractionProcessor)
    (proposals : List ExtractedMemory) (envelope : ExtractionEnvelope) :
    Processing (String × String) := do
  let items ← snapshotItems proposals envelope
  let text := Json.dumps .unicode (snapshotDocument processor.identity items)
  return (text, host.sha256 text)

/-! ## Preparing the writes -/

/-- A proposal read from a snapshot; its typed fields are kept as they are. -/
structure SnapshotProposal where
  category : String
  content : String
  evidenceExcerpt : Option String
  sensitivity : String
  tags : String
  typed : Option Json

def baseFieldNames : List String :=
  ["category", "content", "evidence_excerpt", "sensitivity", "tags"]

def invalidSnapshot {α : Type} : Processing α := .error (.permanent "invalid_snapshot")

/-- A nonempty text. -/
def nonempty : Json → Processing String
  | .str text => if text = "" then invalidSnapshot else .ok text
  | _ => invalidSnapshot

def snapshotTags : Json → Processing String
  | .str tags => .ok tags
  | _ => invalidSnapshot

/-- An excerpt is absent or nonempty. -/
def snapshotExcerpt : Json → Processing (Option String)
  | .null => .ok none
  | excerpt => (nonempty excerpt).map some

def snapshotSensitivity : Json → Processing String
  | .str text => if text ∈ permittedSensitivities then .ok text else invalidSnapshot
  | .arr _ => .error (.raised (typeError "unhashable type: 'list'"))
  | .obj _ => .error (.raised (typeError "unhashable type: 'dict'"))
  | _ => invalidSnapshot

/-- The typed fields of a proposal, which must be normalized. -/
def readTyped (typed : Json) : Processing (Option Json) :=
  match typed with
  | .null => .ok none
  | typed => do
      require (← isNormalizedTypedFields typed) (.permanent "invalid_snapshot")
      return some typed

/-- The fields of one proposal of a snapshot.  A sensitivity without a hash raises where the
others are malformed. -/
def readProposal (proposal : Json) : Processing SnapshotProposal := do
  match proposal with
  | .obj members =>
      require ((∀ name ∈ baseFieldNames, name ∈ members.map Prod.fst) ∧
          ∀ m ∈ members, m.1 ∈ baseFieldNames ∨ m.1 = "typed")
        (.permanent "invalid_snapshot")
      let content ← nonempty (field "content" proposal)
      let category ← nonempty (field "category" proposal)
      let tags ← snapshotTags (field "tags" proposal)
      let evidenceExcerpt ← snapshotExcerpt (field "evidence_excerpt" proposal)
      let sensitivity ← snapshotSensitivity (field "sensitivity" proposal)
      let typed ← readTyped (field "typed" proposal)
      return { category, content, evidenceExcerpt, sensitivity, tags, typed }
  | _ => invalidSnapshot

/-- The proposals of a snapshot text and the identity of its extractor. -/
def readSnapshot (host : Host) (proposalJson proposalHash : String) :
    Processing (String × List Json) := do
  require (host.sha256 proposalJson = proposalHash) (.permanent "snapshot_hash_mismatch")
  match Json.loads proposalJson with
  | none => invalidSnapshot
  | some snapshot =>
      match snapshot with
      | .obj _ =>
          require (Json.dumps .unicode snapshot = proposalJson ∧
              sameScalar (field "version" snapshot) (.int 1))
            (.permanent "invalid_snapshot")
          match field "extractor_identity" snapshot, field "proposals" snapshot with
          | .str identity, .arr proposals =>
              require (strip identity ≠ "") (.permanent "invalid_snapshot")
              require (proposals.length ≤ maxExtractedMemories) (.permanent "proposal_limit")
              return (identity, proposals)
          | _, _ => invalidSnapshot
      | _ => invalidSnapshot

/-- A queued row as far as its writes name it. -/
structure RowIdentity where
  id : Nat
  digest : String

/-- The metadata of a write, in key order. -/
def extractionMetadata (identity proposalHash : String) (envelope : ExtractionEnvelope)
    (row : RowIdentity) (typed : Option Json) : Json :=
  .obj <|
    (match typed with
      | some typed =>
          [("extracted_confidence", field "confidence" typed),
            ("extracted_kind", field "kind" typed), ("extracted_negation", field "negation" typed)]
      | none => []) ++
    [("extraction_payload_sha256", .str row.digest), ("extraction_queue_id", .int row.id),
      ("extraction_source", .str envelope.source), ("extractor_identity", .str identity),
      ("proposal_snapshot_sha256", .str proposalHash)]

/-- `f"extract:{digest}:{proposal_hash[:24]}:{index}"`. -/
def extractionKey (digest proposalHash : String) (index : Nat) : String :=
  "extract:" ++ digest ++ ":" ++ String.ofList (proposalHash.toList.take 24) ++ ":" ++
    String.ofList (Nat.toDigits 10 index)

/-- The write request of a proposal. -/
def proposalRequest (identity proposalHash : String) (envelope : ExtractionEnvelope)
    (row : RowIdentity) (index : Nat) (proposal : SnapshotProposal) : Py WriteRequest :=
  WriteRequest.make (extractionKey row.digest proposalHash index) proposal.content
    "automatic_extraction" proposal.category proposal.tags .half .half none
    (some envelope.transcript) (some identity) none none envelope.scope proposal.sensitivity none
    proposal.evidenceExcerpt "derived_from"
    (some (extractionMetadata identity proposalHash envelope row proposal.typed)) none "add_fact"

/-- `typed["kind"] == "state"`. -/
def isState (typed : Json) : Bool := sameScalar (field "kind" typed) (.str "state")

/-- The state parameter of a write, for typed fields of that kind. -/
def stateParams (typed : Option Json) : List (String × Json) :=
  match typed with
  | some typed =>
      if isState typed then
        [("state", .obj
          [("object_value", field "object_value" typed),
            ("predicate_key", field "predicate_key" typed),
            ("subject_key", field "subject_key" typed), ("valid_from", field "valid_from" typed)])]
      else []
  | none => []

/-- The parameters of a write, in key order. -/
def writeParams (request : WriteRequest) (typed : Option Json) : Json :=
  .obj <|
    [("asserted_by", Json.ofText request.assertedBy), ("category", .str request.category),
      ("content", .str request.content),
      ("evidence_excerpt", Json.ofText request.evidenceExcerpt),
      ("idempotency_key", .str request.idempotencyKey), ("metadata", request.metadataJson),
      ("observation_content", Json.ofText request.observationContent),
      ("relation", .str request.relation), ("scope", .str request.scope),
      ("sensitivity", .str request.sensitivity), ("source_authority", .float request.sourceAuthority),
      ("source_type", .str request.sourceType)] ++ stateParams typed ++
    [("tags", .str request.tags), ("trust_score", .float request.trustScore)]

/-- One proposal of `_prepare_snapshot`: its checks, the screen, and the parameters of its
write. -/
def prepareProposal (identity proposalHash : String) (envelope : ExtractionEnvelope)
    (row : RowIdentity) (index : Nat) (proposal : Json) : Processing Json := do
  let proposal ← readProposal proposal
  match proposalRequest identity proposalHash envelope row index proposal with
  | .error _ => invalidProposal
  | .ok request =>
      require (defaultCredentialScreen request []).isNone
        (.permanent "proposal_credential_rejected")
      return writeParams request proposal.typed

/-- `_prepare_snapshot`: the parameters of one write for each proposal. -/
def prepareSnapshot (host : Host) (proposalJson proposalHash : String)
    (envelope : ExtractionEnvelope) (row : RowIdentity) : Processing (List Json) := do
  let (identity, proposals) ← readSnapshot host proposalJson proposalHash
  proposals.zipIdx.mapM fun (proposal, index) =>
    prepareProposal identity proposalHash envelope row index proposal

end Enfold.Model
