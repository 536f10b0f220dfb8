/-
# Model.ExtractionQueue -- the durable extraction queue
(`extraction_enqueue.py`, `extraction_processor.py`)

`enqueueAfterCommit` appends an attributed transcript.  A worker claims a due row under a
lease, persists the snapshot of its proposals, writes them through the write service, and
completes (deletes) the row or records the failure.  Lease times are what the clock and
the configured durations add up to.
-/
import Enfold.Model.Schema
import Mathlib.Algebra.Ring.Nat

namespace Enfold.Model

open Enfold.Theory

set_option autoImplicit false

/-! ## Enqueueing -/

def maxExtractionPayloadBytes : Nat := 12 * 1024

/-- `len(text.encode("utf-8"))`. -/
def utf8Length (text : String) : Nat := (text.toList.map Char.utf8Size).sum

structure ExtractionEnqueueResult where
  queueId : Nat
  payloadSha256 : String
  replayed : Bool

/-- The envelope of a queued transcript. -/
def extractionEnvelope (context : ConnectionContext) (transcript source scope : String)
    (metadata : List (String × Json)) : Json :=
  .obj
    [("metadata", .obj metadata),
      ("provenance", .obj
        [("access_scopes", .arr (context.accessScopes.map Json.str)),
          ("agent_id", .str context.agentId), ("branch", Json.ofText context.branch),
          ("client_id", .str context.clientId), ("commit_sha", Json.ofText context.commitSha),
          ("parent_agent_id", Json.ofText context.parentAgentId),
          ("project_root", Json.ofText context.projectRoot),
          ("repository", Json.ofText context.repository), ("session_id", .str context.sessionId),
          ("surface", .str context.surface)]),
      ("scope", .str scope), ("source", .str source), ("transcript", .str transcript),
      ("version", .int 1)]

/-- `enqueue_after_commit`; an active row with the same payload is reused. -/
def enqueueAfterCommit (host : Host) (context : ConnectionContext)
    (transcript source scope : String) (metadata : List (String × Json)) (s : Store) :
    Py (Store × ExtractionEnqueueResult) := do
  let transcript := strip transcript
  let source := strip source
  let scope := strip scope
  require (transcript ≠ "" ∧ source ≠ "" ∧ scope ≠ "")
    (valueError "transcript, source, and scope must be non-empty")
  require (scope ∈ context.accessScopes)
    (valueError "extraction scope must be present in context access scopes")
  let payload := extractionEnvelope context transcript source scope metadata
  require (utf8Length (Json.dumps .unicode payload) ≤ maxExtractionPayloadBytes)
    (valueError "canonical extraction payload exceeds size limit")
  let digest := host.sha256 (Json.dumps .unicode payload)
  let active := s.extractQueue.select fun q => q.payloadHash = some digest ∧ q.status ≠ .dead
  match (active.map QueueRow.id).insertionSort (· ≤ ·) with
  | existing :: _ => return (s, ⟨existing, digest, true⟩)
  | [] =>
      let id := s.queueSequence + 1
      let extractQueue ← insertRow s.extractQueue
        { id, payload, attempts := 0, lastError := none, status := .pending, notBefore := none
          leaseOwner := none, leaseUntil := none, leaseToken := none, payloadHash := some digest
          proposalJson := none, proposalHash := none }
        "extract_queue.id"
      return ({ s with extractQueue, queueSequence := id }, ⟨id, digest, false⟩)

/-! ## Processing -/

/-- A worker and its lease on a row. -/
structure Lease where
  workerId : String
  token : String

/-- The row is held under the lease. -/
def QueueRow.HeldBy (q : QueueRow) (lease : Lease) : Prop :=
  q.status = .processing ∧ q.leaseOwner = some lease.workerId ∧ q.leaseToken = some lease.token

instance (q : QueueRow) (lease : Lease) : Decidable (q.HeldBy lease) :=
  inferInstanceAs (Decidable (_ ∧ _ ∧ _))

/-- The lease of a processing row has run out. -/
def QueueRow.Expired (q : QueueRow) (now : Decimal) : Prop :=
  q.status = .processing ∧ ∃ t ∈ q.leaseUntil, t.value ≤ now.value

instance (q : QueueRow) (now : Decimal) : Decidable (q.Expired now) :=
  inferInstanceAs (Decidable (_ ∧ _))

/-- `_claim`: bury exhausted rows, then lease the first due one. -/
def claim (maxAttempts : Nat) (lease : Lease) (now leaseUntil : Decimal) (s : Store) :
    Py (Store × Option QueueRow) := do
  let buried := s.extractQueue.update (fun q => q.Expired now ∧ maxAttempts ≤ q.attempts)
    (fun q =>
      { q with
        status := .dead
        lastError := some "attempts_exhausted"
        leaseOwner := none
        leaseUntil := none
        leaseToken := none })
    (fun _ => rfl)
  let due := buried.select fun q =>
    q.attempts < maxAttempts ∧ (∀ t ∈ q.notBefore, t.value ≤ now.value) ∧
      (q.status = .pending ∨ q.Expired now)
  match due.insertionSort (fun q q' => q.id ≤ q'.id) with
  | [] => return ({ s with extractQueue := buried }, none)
  | row :: _ =>
      let extractQueue := buried.update (fun q => q.id = row.id ∧ q.attempts < maxAttempts)
        (fun q =>
          { q with
            status := .processing
            attempts := row.attempts + 1
            leaseOwner := some lease.workerId
            leaseUntil := some leaseUntil
            leaseToken := some lease.token })
        (fun _ => rfl)
      return ({ s with extractQueue }, some row)

/-- `_renew`. -/
def renew (id : Nat) (lease : Lease) (now leaseUntil : Decimal) (s : Store) :
    Py (Store × PUnit) := do
  let held := fun q : QueueRow =>
    q.id = id ∧ q.HeldBy lease ∧ ∃ t ∈ q.leaseUntil, now.value < t.value
  let extractQueue := s.extractQueue.update held (fun q => { q with leaseUntil := some leaseUntil })
    (fun _ => rfl)
  require (s.extractQueue.rowcount held = 1)
    (runtimeError "extraction lease was lost before renewal")
  return ({ s with extractQueue }, ⟨⟩)

/-- `_persist_snapshot`. -/
def persistSnapshot (host : Host) (id : Nat) (lease : Lease) (proposals : Json) (s : Store) :
    Py (Store × PUnit) := do
  let held := fun q : QueueRow =>
    q.id = id ∧ q.HeldBy lease ∧ q.proposalJson.isNone ∧ q.proposalHash = none
  let extractQueue := s.extractQueue.update held
    (fun q =>
      { q with
        proposalJson := some proposals
        proposalHash := some (host.sha256 (Json.dumps .unicode proposals)) })
    (fun _ => rfl)
  require (s.extractQueue.rowcount held = 1)
    (runtimeError "extraction lease was lost before snapshot persistence")
  return ({ s with extractQueue }, ⟨⟩)

/-- `_complete`. -/
def complete (id : Nat) (lease : Lease) (s : Store) : Py (Store × PUnit) := do
  let held := fun q : QueueRow => q.id = id ∧ q.HeldBy lease
  require (s.extractQueue.rowcount held = 1)
    (runtimeError "extraction lease was lost before completion")
  return ({ s with extractQueue := s.extractQueue.delete held }, ⟨⟩)

/-- `_fail`: back to pending until the retry time, or dead. -/
def fail (maxAttempts id : Nat) (lease : Lease) (errorCode : String) (permanent : Bool)
    (retryAt : Decimal) (s : Store) : Py (Store × Nat) := do
  match s.extractQueue.select fun q => q.id = id ∧ q.HeldBy lease with
  | [] => throw (runtimeError "extraction lease was lost while recording failure")
  | row :: _ =>
      let dead := permanent ∨ maxAttempts ≤ row.attempts
      let extractQueue := s.extractQueue.update
        (fun q => q.id = id ∧ q.leaseOwner = some lease.workerId ∧ q.leaseToken = some lease.token)
        (fun q =>
          { q with
            lastError := some errorCode
            status := if dead then .dead else .pending
            notBefore := if dead then none else some retryAt
            leaseOwner := none
            leaseUntil := none
            leaseToken := none })
        (fun _ => rfl)
      return ({ s with extractQueue }, row.attempts)

end Enfold.Model
