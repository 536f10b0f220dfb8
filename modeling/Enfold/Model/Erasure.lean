/-
# Model.Erasure -- privacy erasure of one fact (`erasure.py`)

`eraseFact` scrubs the copies of a fact's text in one transaction: the linked
observations, the evidence, the fact and its full-text entry, its vectors and jobs, the
queue payloads and the write log.  It invalidates the insights that cite the fact, takes
the fact out of its conflicts and settles those left with at most one member.

The optional vector index is not configured.
-/
import Enfold.Model.StateSlots

namespace Enfold.Model

open Enfold.Theory

set_option autoImplicit false

structure ErasureReport where
  erasureId : String
  factId : Nat
  affectedObservations : Nat
  affectedEmbeddings : Nat
  affectedQueueRows : Nat
  invalidatedInsights : Nat
  resolvedConflicts : Nat

def erasureError (message : String) : Raised := ⟨.erasureError, message⟩

/-- What the clock and the random source deliver during one erasure. -/
structure ErasureTick where
  erasureId : Uuid
  erasedAt : String

/-- `[PRIVACY ERASED fact:…]`. -/
def placeholder (factId : Nat) : String := "[PRIVACY ERASED fact:" ++ natText factId ++ "]"

def erasedContent : String := "[PRIVACY ERASED]"

/-- `\x7b"privacy_erased":true\x7d`. -/
def erasedDetail : Json := .obj [("privacy_erased", .bool true)]

/-- The replacement of a queue payload. -/
def erasedPayload (queueId : Nat) : Json :=
  .obj [("privacy_erased", .bool true), ("queue_id", .int queueId)]

/-! ## What is linked to the fact -/

/-- The observations that support the fact. -/
def linkedObservations (s : Store) (factId : Nat) : List Nat :=
  ((s.provenance.select fun p => p.factId = factId).map ProvenanceRow.observationId).dedup

/-- An `int`, which a `bool` also is. -/
def jsonInt : Json → Option Int
  | .int n => some n
  | .bool b => some (if b then 1 else 0)
  | _ => none

/-- The queue row an observation was extracted from. -/
def linkedQueueId (metadata : Json) : Option Int :=
  ((metadata.get? "extraction_queue_id").bind jsonInt).filter (0 < ·)

/-- The digest of the payload an observation was extracted from. -/
def linkedPayloadHash (metadata : Json) : Option String :=
  match metadata.get? "extraction_payload_sha256" with
  | some (.str hash) => if hash = "" then none else some hash
  | _ => none

/-- The metadata of the linked observations. -/
def linkedMetadata (s : Store) (observationIds : List Nat) : List Json :=
  (s.observations.select fun o => o.observationId ∈ observationIds).map ObservationRow.metadataJson

/-! ## Observations, provenance and the fact -/

/-- The unique columns of an observation besides its id. -/
def ObservationRow.digestKey (o : ObservationRow) : String × String × String × String :=
  (o.clientId, o.contentSha256, o.sessionId, o.sourceType)

def eraseObservations (s : Store) (tick : ErasureTick) (observationIds : List Nat) : Py Store := do
  let observations := s.observations.update (fun o => o.observationId ∈ observationIds)
    (fun o =>
      { o with
        sourceUri := none
        content := erasedContent
        contentSha256 := "erased:" ++ tick.erasureId.text ++ ":" ++ natText o.observationId
        assertedBy := none
        metadataJson := .obj []
        redactedAt := some tick.erasedAt })
    (fun _ => rfl)
  require (observations.rows.map ObservationRow.digestKey).Nodup
    (SQLite.unique ("observations.client_id, observations.content_sha256, " ++
      "observations.session_id, observations.source_type"))
  return { s with observations }

def eraseEvidence (s : Store) (factId : Nat) : Store :=
  { s with
    provenance := s.provenance.update (fun p => p.factId = factId)
      (fun p => { p with evidenceExcerpt := none }) (fun _ => rfl) }

/-- Scrub the row; the trigger `facts_au` follows with the full-text entry. -/
def scrubFact (s : Store) (tick : ErasureTick) (factId : Nat) : Py Store := do
  let s ← updateFacts s (fun r => r.factId = factId)
    (fun r =>
      { r with
        content := placeholder factId
        tags := ""
        invalidAt := r.invalidAt <|> some tick.erasedAt
        conflictGroup := none
        objectValue := none
        subjectKey := none
        predicateKey := none
        memoryKind := some "fact" })
  let factsFts := s.factsFts.update (fun e => e.rowid = factId)
    (fun e => { e with content := placeholder factId, tags := "" }) (fun _ => rfl)
  return { s with factsFts }

def deleteEmbeddings (s : Store) (factId : Nat) : Store :=
  { s with factEmbeddings := s.factEmbeddings.delete fun e => e.factId = factId }

def settleJobs (s : Store) (tick : ErasureTick) (factId : Nat) : Store :=
  { s with
    embeddingJobs := s.embeddingJobs.update (fun j => j.factId = factId)
      (fun j =>
        { j with
          contentSha256 := "erased:" ++ tick.erasureId.text ++ ":" ++ natText factId
          status := .completed
          leaseToken := none
          leaseOwner := none
          leaseExpiresAt := none
          lastError := some "privacy_erased"
          completedAt := some tick.erasedAt
          updatedAt := tick.erasedAt })
      (fun _ => rfl) }

/-! ## The extraction queue -/

def QueueRow.payloadText (q : QueueRow) : String := Json.dumps .unicode q.payload

/-- The row is linked to an erased observation. -/
def QueueRow.Linked (host : Host) (metadata : List Json) (q : QueueRow) : Prop :=
  (∃ document ∈ metadata, linkedQueueId document = some (q.id : Int)) ∨
    (∃ document ∈ metadata, linkedPayloadHash document = some (host.sha256 q.payloadText)) ∨
    ∃ hash ∈ q.payloadHash, hash ≠ "" ∧
      ∃ document ∈ metadata, linkedPayloadHash document = some hash

instance (host : Host) (metadata : List Json) (q : QueueRow) : Decidable (q.Linked host metadata) :=
  inferInstanceAs (Decidable (_ ∨ _ ∨ _))

/-- The erasure replaces the payload of the row. -/
def QueueRow.Erased (host : Host) (metadata : List Json) (original : String) (q : QueueRow) :
    Prop :=
  q.Linked host metadata ∨ original ≠ "" ∧ occursIn original q.payloadText

instance (host : Host) (metadata : List Json) (original : String) (q : QueueRow) :
    Decidable (q.Erased host metadata original) :=
  inferInstanceAs (Decidable (_ ∨ _ ∧ _))

/-- The digests under the partial unique index over active queue rows. -/
def activeHashes (rows : List QueueRow) : List String :=
  (rows.filter fun q => q.status ≠ .dead).filterMap QueueRow.payloadHash

def eraseQueue (host : Host) (s : Store) (metadata : List Json) (original : String) :
    Py Store := do
  let extractQueue := s.extractQueue.update (fun q => q.Erased host metadata original)
    (fun q =>
      { q with
        payload := erasedPayload q.id
        payloadHash := some (host.sha256 (Json.dumps .ascii (erasedPayload q.id)))
        lastError := none })
    (fun _ => rfl)
  require (activeHashes extractQueue.rows).Nodup (SQLite.unique "extract_queue.payload_hash")
  return { s with extractQueue }

/-! ## Insights -/

/-- The fact ids an insight cites in its tags. -/
def citedFacts (tags : String) : Py (List Nat) :=
  match afterMarker "source_facts:".toList tags.toList with
  | none => .ok []
  | some rest =>
      match splitWords (String.ofList rest) with
      | [] => .error ⟨.indexError, "list index out of range"⟩
      | word :: _ => ((splitAt ',' (stripOf ',' word)).filter isDigitText).mapM intOf

/-- The active insights that cite the fact. -/
def citingInsights (facts : Facts) (factId : Nat) : Py (List Nat) := do
  let cited ← (facts.table.select fun r => r.category = "insight" ∧ r.invalidAt = none).mapM
    fun r => do return (r.factId, ← citedFacts r.tags)
  return (cited.filter fun entry => factId ∈ entry.2).map Prod.fst

def invalidateInsights (s : Store) (insights : List Nat) (erasedAt : String) : Py Store :=
  updateFacts s (fun r => r.factId ∈ insights) fun r => { r with invalidAt := some erasedAt }

/-! ## Conflicts -/

/-- The members left in a conflict. -/
def remainingMembers (s : Store) (conflictId : String) : List Nat :=
  (s.conflictMembers.select fun m => m.conflictId = conflictId).map MemberRow.factId

/-- `UPDATE facts SET conflict_group = NULL` for the last member of a conflict. -/
def ungroup (s : Store) (winner : Option Nat) : Py Store :=
  match winner with
  | none => .ok s
  | some x =>
      updateFacts s (fun r => r.factId = x) (fun r => { r with conflictGroup := none })
        ungrouping_keeps

/-- One round of the clean-up loop: a conflict left with at most one member is settled.
The flag tells whether it was. -/
def cleanConflict (tick : ErasureTick) (requestedBy : String) (s : Store) (conflictId : String) :
    Py (Store × Bool) := do
  match remainingMembers s conflictId with
  | _ :: _ :: _ => return (s, false)
  | remaining =>
      let winner := remaining.head?
      let s ← ungroup s winner
      let conflicts := s.conflicts.update (fun c => c.conflictId = conflictId ∧ c.Unresolved)
        (fun c =>
          { c with
            resolvedAt := some tick.erasedAt
            resolutionFactId := winner
            resolvedBy := some requestedBy
            resolutionReason := some "privacy erasure removed a conflict member" })
        (fun _ => rfl)
      return ({ s with conflicts }, true)

/-- The clean-up loop over the conflicts of the fact, counting those settled. -/
def cleanConflicts (tick : ErasureTick) (requestedBy : String) :
    Store → List String → Py (Store × Nat)
  | s, [] => .ok (s, 0)
  | s, conflictId :: rest => do
      let (s, settled) ← cleanConflict tick requestedBy s conflictId
      let (s, count) ← cleanConflicts tick requestedBy s rest
      return (s, if settled then count + 1 else count)

/-- The conflicts the fact is a member of. -/
def conflictsOf (s : Store) (factId : Nat) : List String :=
  (s.conflictMembers.select fun m => m.factId = factId).map MemberRow.conflictId

def leaveConflicts (s : Store) (factId : Nat) : Store :=
  { s with conflictMembers := s.conflictMembers.delete fun m => m.factId = factId }

/-! ## The write log -/

def WriteLogRow.detailText (l : WriteLogRow) : String := Json.dumps .ascii l.detailJson

/-- The log row is about the fact, or about an erased observation. -/
def WriteLogRow.About (factId : Nat) (observationIds : List Nat) (l : WriteLogRow) : Prop :=
  l.factId = some factId ∨ ∃ k ∈ l.observationId, k ∈ observationIds

instance (factId : Nat) (observationIds : List Nat) (l : WriteLogRow) :
    Decidable (l.About factId observationIds) :=
  inferInstanceAs (Decidable (_ ∨ _))

def eraseLog (s : Store) (factId : Nat) (observationIds : List Nat) (original : String) : Store :=
  let scrub := fun l : WriteLogRow => { l with detailJson := erasedDetail }
  let writeLog := s.writeLog.update (fun l => l.About factId observationIds) scrub (fun _ => rfl)
  { s with
    writeLog := writeLog.update (fun l => original ≠ "" ∧ occursIn original l.detailText) scrub
      (fun _ => rfl) }

/-! ## Checks at the end -/

/-- `PRAGMA foreign_key_check` finds nothing. -/
def ForeignKeysHold (s : Store) : Prop :=
  (∀ p ∈ s.provenance.rows,
    s.facts.get? p.factId ≠ none ∧ s.observations.get? p.observationId ≠ none) ∧
  (∀ o ∈ s.observations.rows, s.sessions.get? (o.clientId, o.sessionId) ≠ none) ∧
  (∀ x ∈ s.sessions.rows, s.clients.get? x.clientId ≠ none) ∧
  (∀ l ∈ s.writeLog.rows, s.clients.get? l.clientId ≠ none ∧
    (∀ k ∈ l.factId, s.facts.get? k ≠ none) ∧ (∀ k ∈ l.existingFactId, s.facts.get? k ≠ none) ∧
    ∀ k ∈ l.observationId, s.observations.get? k ≠ none) ∧
  (∀ c ∈ s.conflicts.rows, ∀ k ∈ c.resolutionFactId, s.facts.get? k ≠ none) ∧
  (∀ m ∈ s.conflictMembers.rows,
    s.conflicts.get? m.conflictId ≠ none ∧ s.facts.get? m.factId ≠ none) ∧
  (∀ x ∈ s.conflictResolutions.rows, s.conflicts.get? x.conflictId ≠ none ∧
    s.facts.get? x.resolutionFactId ≠ none ∧
    s.sessions.get? (x.resolverClientId, x.resolverSessionId) ≠ none) ∧
  (∀ e ∈ s.erasureLog.rows, s.facts.get? e.factId ≠ none) ∧
  (∀ j ∈ s.embeddingJobs.rows, s.facts.get? j.factId ≠ none) ∧
  ∀ e ∈ s.factEmbeddings.rows, s.facts.get? e.factId ≠ none

instance (s : Store) : Decidable (ForeignKeysHold s) :=
  inferInstanceAs (Decidable (_ ∧ _ ∧ _ ∧ _ ∧ _ ∧ _ ∧ _ ∧ _ ∧ _ ∧ _))

/-- The content of the full-text entry, which an external-content index reads from the
fact. -/
def indexedContent (s : Store) (factId : Nat) : Option String :=
  (s.factsFts.get? factId).bind fun _ => (s.facts.get? factId).map FactRow.content

/-! ## The erasure -/

/-- `erase_fact`. -/
def eraseFact (host : Host) (tick : ErasureTick) (factId : Nat) (requestedBy reason : String)
    (s : Store) : Py (Store × ErasureReport) := do
  require (0 < factId) (valueError "fact_id must be a positive integer")
  let requestedBy := strip requestedBy
  let reason := strip reason
  require (requestedBy ≠ "" ∧ reason ≠ "")
    (valueError "requested_by and reason must not be empty")
  match s.facts.get? factId with
  | none => throw (erasureError "fact was not found")
  | some row =>
      let original := row.content
      let observationIds := linkedObservations s factId
      let metadata := linkedMetadata s observationIds
      let s ← eraseObservations s tick observationIds
      let s := eraseEvidence s factId
      let s ← scrubFact s tick factId
      let embeddings := s.factEmbeddings.rowcount fun e => e.factId = factId
      let s := deleteEmbeddings s factId
      let s := settleJobs s tick factId
      let queueRows := s.extractQueue.rowcount fun q => q.Erased host metadata original
      let s ← eraseQueue host s metadata original
      let insights ← citingInsights s.facts factId
      let s ← invalidateInsights s insights tick.erasedAt
      let conflictIds := conflictsOf s factId
      let s := leaveConflicts s factId
      let (s, resolvedConflicts) ← cleanConflicts tick requestedBy s conflictIds
      let s := eraseLog s factId observationIds original
      let erasureLog ← insertRow s.erasureLog
        ⟨tick.erasureId.text, factId, requestedBy, reason, tick.erasedAt, observationIds.length,
          embeddings, queueRows⟩
        "privacy_erasure_log.erasure_id"
      let s := { s with erasureLog }
      require (ForeignKeysHold s) (erasureError "privacy erasure would violate foreign keys")
      require (∀ content ∈ indexedContent s factId, content = placeholder factId)
        (erasureError "FTS content did not follow privacy erasure")
      return (s, ⟨tick.erasureId.text, factId, observationIds.length, embeddings, queueRows,
        insights.length, resolvedConflicts⟩)

end Enfold.Model
