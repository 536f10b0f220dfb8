/-
# Model.ExtractionProcessor -- processing one job (`extraction_processor.py`)

A worker claims a row, decodes its envelope, and either finds the snapshot of an earlier
attempt or asks the extractor and persists one.  Then it writes the proposals of the snapshot
one after the other, each in its own transaction, and completes the row.  An exception on the
way is recorded on the row as a failure, permanent or not.

`processOne` is the whole course of one worker that nobody interferes with.  The extractor,
the clock and the random source are inputs.
-/
import Enfold.Model.Protocol
import Enfold.Model.Requests

namespace Enfold.Model

open Enfold.Theory

set_option autoImplicit false

/-! ## Decoding the envelope (`protocol.py`) -/

/-- `_required_string` of a token; `none` is a raised error, here and below. -/
def tokenText : Json → Option String
  | .str text =>
      if strip text ≠ "" ∧ protocolToken.fullmatch (strip text) then some (strip text) else none
  | _ => none

/-- `_optional_string`. -/
def optionalText : Json → Option (Option String)
  | .null => some none
  | .str text => if strip text ≠ "" then some (some (strip text)) else none
  | _ => none

/-- `_string_tuple`, not empty. -/
def tokenTuple : Json → Option (List String)
  | .arr items => do
      let tokens ← items.mapM tokenText
      if tokens ≠ [] ∧ tokens.Nodup then some tokens else none
  | _ => none

def contextRequired : List String :=
  ["client_id", "surface", "agent_id", "session_id", "access_scopes"]

def contextOptional : List String :=
  ["parent_agent_id", "project_root", "repository", "branch", "commit_sha"]

/-- `ClientContext.from_dict`. -/
def ClientContext.fromDict (data : Json) : Option ClientContext := do
  guard ((∀ name ∈ contextRequired, name ∈ memberNames data) ∧
    ∀ name ∈ memberNames data, name ∈ contextRequired ∨ name ∈ contextOptional)
  let accessScopes ← tokenTuple (field "access_scopes" data)
  return {
    clientId := ← tokenText (field "client_id" data)
    surface := ← tokenText (field "surface" data)
    agentId := ← tokenText (field "agent_id" data)
    sessionId := ← tokenText (field "session_id" data)
    parentAgentId := ← optionalText (field "parent_agent_id" data)
    projectRoot := ← optionalText (field "project_root" data)
    repository := ← optionalText (field "repository" data)
    branch := ← optionalText (field "branch" data)
    commitSha := ← optionalText (field "commit_sha" data)
    accessScopes }

/-- `str(value)` of a scalar.  The text of a list or an object is not modelled; no payload
has one there. -/
def scalarText : Json → Option String
  | .null => some "None"
  | .bool true => some "True"
  | .bool false => some "False"
  | .int n => some (String.ofList (Json.intText n))
  | .float x => some (String.ofList x.text)
  | .str text => some text
  | _ => none

/-- The scope of an envelope; a value that is no text is no supported scope either. -/
def envelopeScope (payload : Json) : Option String :=
  match payload.get? "scope" with
  | none => some "private"
  | some (.str scope) => some scope
  | some _ => none

def readEnvelope (payload : Json) : Option ExtractionEnvelope := do
  guard (isObject payload ∧ sameScalar (field "version" payload) (.int 1))
  let provenance ← payload.get? "provenance"
  guard (isObject provenance ∧ isObject ((payload.get? "metadata").getD (.obj [])))
  let scope ← envelopeScope payload
  let context ← ClientContext.fromDict provenance
  let transcript ← (payload.get? "transcript").bind scalarText
  let source ← (payload.get? "source").bind scalarText
  if valid : (scope ∈ baseScopes ∨ projectScope.fullmatch scope) ∧ scope ∈ context.accessScopes ∧
      scope ≠ "secret" ∧ strip transcript ≠ "" ∧ strip source ≠ "" then
    some
      { transcript := strip transcript, source := strip source, scope, context
        transcriptValid := required_strip valid.2.2.2.1
        sourceValid := required_strip valid.2.2.2.2
        scopeValid := valid.1
        scopeGranted := valid.2.1
        scopeStorable := valid.2.2.1 }
  else none

/-- `_decode_envelope`. -/
def decodeEnvelope (payload : Json) : Processing ExtractionEnvelope :=
  match readEnvelope payload with
  | some envelope => .ok envelope
  | none => .error (.permanent "invalid_envelope")

/-! ## The steps of a worker -/

/-- The digest of a claimed row, computed when the row has none. -/
def rowDigest (host : Host) (row : QueueRow) : String :=
  (row.payloadHash.filter (· ≠ "")).getD (host.sha256 (Json.dumps .unicode row.payload))

/-- `_load_snapshot`: the text and the digest of the snapshot, when there is one. -/
def loadSnapshot (id : Nat) (lease : Lease) (s : Store) : Processing (Option (String × String)) :=
  match s.extractQueue.select fun q => q.id = id ∧ q.HeldBy lease with
  | [] => .error (.raised (runtimeError "extraction lease was lost before snapshot load"))
  | row :: _ =>
      match row.proposalJson, row.proposalHash with
      | none, none => .ok none
      | some proposals, some hash => .ok (some (Json.dumps .unicode proposals, hash))
      | _, _ => .error (.permanent "invalid_snapshot")

/-- The document of `_make_snapshot`; `makeSnapshot` is its text and digest. -/
def snapshotOf (processor : ExtractionProcessor) (proposals : List ExtractedMemory)
    (envelope : ExtractionEnvelope) : Processing Json := do
  return snapshotDocument processor.identity (← snapshotItems proposals envelope)

/-- Outcomes that stop a batch. -/
def Outcome.Refuses (outcome : Outcome) : Prop := outcome = .rejected ∨ outcome = .needsReview

instance (outcome : Outcome) : Decidable outcome.Refuses :=
  inferInstanceAs (Decidable (_ ∨ _))

/-- `_safe_error_code`. -/
def safeErrorCodes : List String :=
  ["adapter_exit", "adapter_cleanup_failed", "adapter_input_too_large", "adapter_invalid_output",
    "adapter_output_too_large", "adapter_timeout", "adapter_unavailable", "extractor_failed",
    "invalid_envelope", "invalid_proposal", "invalid_snapshot", "proposal_credential_rejected",
    "proposal_limit", "proposal_scope_rejected", "proposal_sensitivity_rejected",
    "snapshot_hash_mismatch", "write_policy_rejected"]

def Failure.safeErrorCode (failure : Failure) : String :=
  let candidate :=
    match failure with
    | .permanent code => some code
    | .raised _ => none
    | .extractor code => code
  (candidate.filter (· ∈ safeErrorCodes)).getD "extractor_failed"

def Failure.Permanent : Failure → Prop
  | .permanent _ => True
  | _ => False

instance : (failure : Failure) → Decidable failure.Permanent
  | .permanent _ => isTrue trivial
  | .raised _ => isFalse id
  | .extractor _ => isFalse id

/-! ## One job -/

/-- What the surroundings deliver while one job is processed. -/
structure JobInput where
  service : MemoryWriteService
  lease : Lease
  claimedAt : Decimal
  leaseUntil : Decimal
  /-- Clock readings and lease ends of the heartbeats during the model call. -/
  heartbeats : List (Decimal × Decimal)
  /-- The extractor's proposals, or the `error_code` of its exception. -/
  extraction : Except (Option String) (List ExtractedMemory)
  writeTick : Nat → Tick
  retryAt : Decimal

inductive ProcessOutcome where
  | idle
  | completed
  | retry
  | dead
  deriving DecidableEq, Repr

structure ProcessResult where
  outcome : ProcessOutcome
  queueId : Option Nat
  writes : Nat
  attempts : Nat
  error : Option String

/-- A step of a job leaves the store as its commits left it, also when it raises. -/
structure JobState (α : Type) where
  store : Store
  /-- The outcomes of the writes so far. -/
  written : List WriteOutcome
  result : Processing α

/-- The heartbeats of the model call. -/
def beat (id : Nat) (lease : Lease) : List (Decimal × Decimal) → Store → Store × Processing Unit
  | [], s => (s, .ok ())
  | (now, leaseUntil) :: later, s =>
      match renew.{0} id lease now leaseUntil s with
      | .ok (s', _) => beat id lease later s'
      | .error e => (s, .error (.raised e))

/-- Ask the extractor, and persist the snapshot of its proposals. -/
def extractSnapshot (host : Host) (processor : ExtractionProcessor) (input : JobInput) (id : Nat)
    (envelope : ExtractionEnvelope) (s : Store) : Store × Processing (String × String) :=
  match beat id input.lease input.heartbeats s with
  | (s, .error failure) => (s, .error failure)
  | (s, .ok _) =>
      match input.extraction with
      | .error code => (s, .error (.extractor code))
      | .ok proposals =>
          match snapshotOf processor proposals envelope with
          | .error failure => (s, .error failure)
          | .ok document =>
              match persistSnapshot.{0} host id input.lease document s with
              | .error e => (s, .error (.raised e))
              | .ok (s, _) =>
                  (s, .ok (Json.dumps .unicode document,
                    host.sha256 (Json.dumps .unicode document)))

/-- The snapshot of the row, made on the first attempt. -/
def jobSnapshot (host : Host) (processor : ExtractionProcessor) (input : JobInput) (id : Nat)
    (envelope : ExtractionEnvelope) (s : Store) : Store × Processing (String × String) :=
  match loadSnapshot id input.lease s with
  | .error failure => (s, .error failure)
  | .ok (some snapshot) => (s, .ok snapshot)
  | .ok none => extractSnapshot host processor input id envelope s

/-- The writes of a batch, up to the first that raises or is refused. -/
def applyWrites (host : Host) (input : JobInput) (context : ClientContext) :
    Nat → List Json → Store → JobState Unit
  | _, [], s => ⟨s, [], .ok ()⟩
  | index, params :: rest, s =>
      match handleWrite host input.service (input.writeTick index) context params s with
      | .error e => ⟨s, [], .error (.raised e)⟩
      | .ok (s, outcome) =>
          if outcome.outcome.Refuses then
            ⟨s, [outcome], .error (.permanent "write_policy_rejected")⟩
          else
            let later := applyWrites host input context (index + 1) rest s
            ⟨later.store, outcome :: later.written, later.result⟩

/-- The body of `process_one` after the claim. -/
def runJob (host : Host) (processor : ExtractionProcessor) (input : JobInput) (row : QueueRow)
    (s : Store) : JobState Unit :=
  match decodeEnvelope row.payload with
  | .error failure => ⟨s, [], .error failure⟩
  | .ok envelope =>
      match jobSnapshot host processor input row.id envelope s with
      | (s, .error failure) => ⟨s, [], .error failure⟩
      | (s, .ok (text, hash)) =>
          match prepareSnapshot host text hash envelope ⟨row.id, rowDigest host row⟩ with
          | .error failure => ⟨s, [], .error failure⟩
          | .ok prepared =>
              let applied := applyWrites host input envelope.context 0 prepared s
              match applied.result with
              | .error failure => ⟨applied.store, applied.written, .error failure⟩
              | .ok _ =>
                  match complete.{0} row.id input.lease applied.store with
                  | .error e => ⟨applied.store, applied.written, .error (.raised e)⟩
                  | .ok (s, _) => ⟨s, applied.written, .ok ()⟩

/-- The number of writes that counted; the one that is refused does not. -/
def countWrites (written : List WriteOutcome) : Nat :=
  (written.filter fun o => ¬ o.outcome.Refuses).length

/-- `process_one`: the store it leaves, and its result or the exception it raises. -/
def processOne (host : Host) (processor : ExtractionProcessor) (input : JobInput) (s : Store) :
    Store × Py ProcessResult :=
  match claim processor.maxAttempts input.lease input.claimedAt input.leaseUntil s with
  | .error e => (s, .error e)
  | .ok (s, none) => (s, .ok ⟨.idle, none, 0, 0, none⟩)
  | .ok (s, some row) =>
      let job := runJob host processor input row s
      let writes := countWrites job.written
      match job.result with
      | .ok _ => (job.store, .ok ⟨.completed, some row.id, writes, row.attempts + 1, none⟩)
      | .error failure =>
          let code := failure.safeErrorCode
          match fail processor.maxAttempts row.id input.lease code failure.Permanent input.retryAt
              job.store with
          | .error e => (job.store, .error e)
          | .ok (s, attempts) =>
              let outcome :=
                if failure.Permanent ∨ processor.maxAttempts ≤ attempts then .dead else .retry
              (s, .ok ⟨outcome, some row.id, writes, attempts, some code⟩)

/-! ## Many jobs -/

/-- The loop of `drain`; the `n`-th call meets the `n`-th input. -/
def drainFrom (host : Host) (processor : ExtractionProcessor) (input : Nat → JobInput) :
    Nat → Nat → Store → Store × Py (List ProcessResult)
  | _, 0, s => (s, .ok [])
  | n, left + 1, s =>
      match processOne host processor (input n) s with
      | (s, .error e) => (s, .error e)
      | (s, .ok result) =>
          if result.outcome = .idle then (s, .ok [])
          else
            match drainFrom host processor input (n + 1) left s with
            | (s, .error e) => (s, .error e)
            | (s, .ok results) => (s, .ok (result :: results))

/-- `drain`: process at most `limit` jobs, or stop at the first call that finds none. -/
def ExtractionProcessor.drain (host : Host) (processor : ExtractionProcessor) (limit : Int)
    (input : Nat → JobInput) (s : Store) : Store × Py (List ProcessResult) :=
  if limit ≤ 0 then (s, .error (valueError "limit must be positive"))
  else drainFrom host processor input 0 limit.toNat s

end Enfold.Model
