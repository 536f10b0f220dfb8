/-
# Model.Requests -- writes and extraction jobs as requests (`service.py`)

A request is a method with JSON parameters on an established connection.  The service rejects
parameters that try to restate the connection's identity, narrows the connection to its
granted scopes, and routes the request.  `writeRoute` is `memory.write`: it reads the
parameters into a `WriteRequest` and an optional state candidate and calls the write service.
`enqueueRoute` is `memory.extraction.enqueue`.

A name that an error message lists is quoted as it is; the runtime also escapes characters
that do not print.
-/
import Enfold.Model.Extraction
import Enfold.Model.ExtractionQueue
import Enfold.Model.Service

namespace Enfold.Model

open Enfold.Theory

set_option autoImplicit false

/-! ## Parameters -/

def invalidParams (message : String) : Raised := serviceRequestError "invalid_params" message

/-- The text of a list of names. -/
def listText (names : List String) : String :=
  "[" ++ ", ".intercalate (names.map fun name => "'" ++ name ++ "'") ++ "]"

/-- `_check_keys`. -/
def checkKeys (params : Json) (required optional : List String) : Py Unit := do
  let missing := (required.filter fun name => name ∉ memberNames params).insertionSort (· ≤ ·)
  let unknown := ((memberNames params).filter fun name => name ∉ required ∧ name ∉ optional)
  require (missing = []) (invalidParams ("missing parameters: " ++ listText missing))
  require (unknown = []) (invalidParams ("unknown parameters: " ++ listText unknown))

def immutableContextFields : List String :=
  ["access_scopes", "agent_id", "branch", "client_id", "commit_sha", "parent_agent_id",
    "project_root", "repository", "session_id", "surface"]

mutual

/-- `_reject_nested_identity`. -/
def rejectNestedIdentity (path : String) : Json → Py Unit
  | .obj members => do
      let forbidden := immutableContextFields.filter fun name => name ∈ members.map Prod.fst
      require (forbidden = []) (invalidParams
        (path ++ " cannot contain connection identity fields: " ++ listText forbidden))
      rejectInMembers path members
  | .arr items => rejectInItems path 0 items
  | _ => .ok ()

def rejectInItems (path : String) (index : Nat) : List Json → Py Unit
  | [] => .ok ()
  | item :: items => do
      rejectNestedIdentity
        (path ++ "[" ++ String.ofList (Nat.toDigits 10 index) ++ "]") item
      rejectInItems path (index + 1) items

def rejectInMembers (path : String) : List (String × Json) → Py Unit
  | [] => .ok ()
  | (key, value) :: members => do
      rejectNestedIdentity (path ++ "." ++ key) value
      rejectInMembers path members

end

/-- `_text`. -/
def textParam (value : Json) (name : String) : Py String :=
  match value with
  | .str text =>
      if strip text = "" then .error (invalidParams (name ++ " must be a non-empty string"))
      else .ok (strip text)
  | _ => .error (invalidParams (name ++ " must be a non-empty string"))

/-- `_optional_text`. -/
def optionalTextParam (value : Json) (name : String) : Py (Option String) :=
  match value with
  | .null => .ok none
  | value => (textParam value name).map some

/-- A text parameter with a default, which also an explicit null does not replace. -/
def defaultedText (params : Json) (key default : String) : Py String :=
  textParam ((params.get? key).getD (.str default)) key

/-- `_number`. -/
def numberParam (value : Json) (name : String) (default : Decimal) : Py Decimal :=
  match value with
  | .null => .ok default
  | .int n =>
      match floatOfInt n with
      | none => .error (overflowError "int too large to convert to float")
      | some x =>
          if InUnit x then .ok x
          else .error (invalidParams (name ++ " must be between 0 and 1"))
  | .float x =>
      if InUnit x then .ok x else .error (invalidParams (name ++ " must be between 0 and 1"))
  | _ => .error (invalidParams (name ++ " must be a number"))

/-- `_positive_int`. -/
def positiveInt (value : Json) (name : String) : Py Nat :=
  match value with
  | .int n =>
      if 0 < n then .ok n.toNat
      else .error (invalidParams (name ++ " must be a positive integer"))
  | _ => .error (invalidParams (name ++ " must be a positive integer"))

/-- `_json_object`. -/
def jsonObject (value : Json) (name : String) : Py Json :=
  match value with
  | .null => .ok (.obj [])
  | .obj members => .ok (.obj members)
  | _ => .error (invalidParams (name ++ " must be an object"))

/-! ## The connection -/

/-- `_protocol_context`. -/
def protocolContext (context : ClientContext) : Py ConnectionContext :=
  ConnectionContext.make context.clientId context.surface context.agentId context.sessionId none
    context.parentAgentId context.projectRoot context.repository context.branch context.commitSha []
    context.accessScopes none

/-- `_authorize`. -/
def authorize (policy : MemoryPolicy) (context : ClientContext) : Py ConnectionContext :=
  match protocolContext context >>= policy.authorizeContext with
  | .ok effective => .ok effective
  | .error e =>
      match e.kind with
      | .unknownMemoryClient =>
          .error (serviceRequestError "access_denied" "memory client is not authorized")
      | .permissionError =>
          .error (serviceRequestError "access_denied" "no requested memory scope is authorized")
      | .valueError => .error (serviceRequestError "invalid_context" e.message)
      | _ => .error e

/-! ## Writes -/

def tagsParam (value : Json) : Py String :=
  match value with
  | .str tags => .ok tags
  | _ => .error (invalidParams "tags must be a string")

def supersedeParam (value : Json) : Py (Option Nat) :=
  match value with
  | .null => .ok none
  | value => (positiveInt value "supersede_fact_id").map some

/-- The write request of the parameters; the performing agent is that of the connection. -/
def writeRequest (context : ConnectionContext) (params : Json) : Py WriteRequest := do
  let metadata ← jsonObject (field "metadata" params) "metadata"
  let idempotencyKey ← textParam (field "idempotency_key" params) "idempotency_key"
  let content ← textParam (field "content" params) "content"
  let sourceType ← textParam (field "source_type" params) "source_type"
  let category ← defaultedText params "category" "general"
  let tags ← tagsParam ((params.get? "tags").getD (.str ""))
  let trustScore ← numberParam (field "trust_score" params) "trust_score" .half
  let sourceAuthority ← numberParam (field "source_authority" params) "source_authority" .half
  let sourceUri ← optionalTextParam (field "source_uri" params) "source_uri"
  let observationContent ←
    optionalTextParam (field "observation_content" params) "observation_content"
  let assertedBy ← optionalTextParam (field "asserted_by" params) "asserted_by"
  let observedAt ← optionalTextParam (field "observed_at" params) "observed_at"
  let scope ← defaultedText params "scope" "private"
  let sensitivity ← defaultedText params "sensitivity" "normal"
  let correctionStatus ← optionalTextParam (field "correction_status" params) "correction_status"
  let evidenceExcerpt ← optionalTextParam (field "evidence_excerpt" params) "evidence_excerpt"
  let relation ← defaultedText params "relation" "supports"
  let supersedeFactId ← supersedeParam (field "supersede_fact_id" params)
  WriteRequest.make idempotencyKey content sourceType category tags trustScore sourceAuthority
    sourceUri observationContent assertedBy (some context.agentId) observedAt scope sensitivity
    correctionStatus evidenceExcerpt relation (some metadata) supersedeFactId "add_fact"

/-- `_state_candidate`. -/
def stateCandidate (request : WriteRequest) (value : Json) : Py (Option StateCandidate) :=
  match value with
  | .null => .ok none
  | .obj members => do
      checkKeys (.obj members) ["subject_key", "predicate_key"] ["object_value", "valid_from"]
      let subjectKey ← textParam (field "subject_key" (.obj members)) "state.subject_key"
      let predicateKey ← textParam (field "predicate_key" (.obj members)) "state.predicate_key"
      let objectValue ← optionalTextParam (field "object_value" (.obj members)) "state.object_value"
      let validFrom ← optionalTextParam (field "valid_from" (.obj members)) "state.valid_from"
      let candidate ← StateCandidate.make request.content subjectKey predicateKey objectValue
        request.sourceAuthority validFrom "state" request.scope
      return some candidate
  | _ => .error (invalidParams "state must be an object")

/-- The exceptions that `_write` turns into request errors. -/
def asWriteError {α : Type} (result : Py α) : Py α :=
  match result with
  | .ok a => .ok a
  | .error e =>
      match e.kind with
      | .serviceRequestError => .error e
      | .idempotencyConflict => .error (serviceRequestError "idempotency_conflict" e.message)
      | .valueError | .permissionError | .unknownMemoryClient | .clientIdentityConflict
      | .sessionContextConflict => .error (invalidParams e.message)
      | _ => .error e

def writeRequired : List String := ["idempotency_key", "content", "source_type"]

def writeOptional : List String :=
  ["category", "tags", "trust_score", "source_authority", "source_uri", "observation_content",
    "asserted_by", "observed_at", "scope", "sensitivity", "correction_status", "evidence_excerpt",
    "relation", "metadata", "supersede_fact_id", "state"]

/-- `_write`. -/
def writeRoute (host : Host) (service : MemoryWriteService) (tick : Tick)
    (context : ConnectionContext) (params : Json) (s : Store) : Py (Store × WriteOutcome) := do
  checkKeys params writeRequired writeOptional
  asWriteError do
    let request ← writeRequest context params
    let candidate ← stateCandidate request (field "state" params)
    write host service tick context request candidate s

/-- `EnfoldService.handle` for `memory.write`. -/
def handleWrite (host : Host) (service : MemoryWriteService) (tick : Tick)
    (context : ClientContext) (params : Json) (s : Store) : Py (Store × WriteOutcome) := do
  rejectNestedIdentity "params" params
  let effective ← authorize service.policy context
  writeRoute host service tick effective params s

/-! ## Extraction jobs -/

/-- The answer to an enqueue request. -/
inductive EnqueueAnswer where
  | rejected (reason : String)
  | queued (result : ExtractionEnqueueResult)

/-- `_enqueue_extraction`, with an enqueuer configured: secrets and credential-shaped
transcripts are rejected without a row. -/
def enqueueRoute (host : Host) (context : ConnectionContext) (params : Json) (s : Store) :
    Py (Store × EnqueueAnswer) := do
  checkKeys params ["transcript", "source"] ["scope", "metadata"]
  let scope ← defaultedText params "scope" "private"
  let scope ←
    match validateScope scope with
    | .ok scope => Except.ok scope
    | .error e => Except.error (invalidParams e.message)
  require (scope ∈ context.accessScopes)
    (serviceRequestError "access_denied" "extraction scope is not authorized")
  if scope = "secret" then
    return (s, .rejected "secret durable extraction payloads are disabled")
  else
    let transcript ← textParam (field "transcript" params) "transcript"
    let source ← textParam (field "source" params) "source"
    let metadata ← jsonObject (field "metadata" params) "metadata"
    let screened ← WriteRequest.make "extraction-screen" transcript "conversation_transcript"
      "general" "" .half .half none none none none none scope "normal" none none "supports"
      (some metadata) none "add_fact"
    match defaultCredentialScreen screened [] with
    | some decision => return (s, .rejected decision.reason)
    | none =>
        let members :=
          match metadata with
          | .obj members => members
          | _ => []
        let (s, result) ← enqueueAfterCommit host context transcript source scope members s
        return (s, .queued result)

end Enfold.Model
