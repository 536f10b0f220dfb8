/-
# Model.WriteService -- one complete durable write (`write_service.py`)

`write` is `MemoryWriteService.write` as one function from a store to a store and an
outcome: it authorizes the connection, answers a replay from the log, evaluates the
policies, and otherwise records the observation, mutates the facts along one of its
branches, links the provenance and appends the log row.  Raising leaves no store; the
transaction around it is `commit`.

What the clock and the random source deliver during one call is the argument `tick`.
The body is cut where the source calls a method or takes a branch:

* `decide` -- the policy decision and the state decision;
* `applyDecision` -- the branch that writes facts;
* `finish` -- scope check, provenance, explicit supersession and the log.
-/
import Enfold.Model.ClusterMerge
import Enfold.Model.CoreStore
import Enfold.Model.EmbeddingJobs
import Enfold.Model.Policy
import Enfold.Model.StateSlots

namespace Enfold.Model

open Enfold.Theory

set_option autoImplicit false

/-! ## Configuration -/

structure NearDedupConfig where
  enabled : Bool
  cosineThreshold : Decimal
  candidateLimit : Nat
  embeddingIdentity : Option String
  thresholdUnit : InUnit cosineThreshold
  limitPositive : 0 < candidateLimit
  identityStated : ∀ identity ∈ embeddingIdentity, strip identity ≠ ""

structure MemoryWriteService where
  policy : MemoryPolicy
  nearDedup : NearDedupConfig
  /-- The embedding outbox of the enqueue callback. -/
  outbox : Option EmbeddingSpec
  queryEmbedder : Option (String → Embedded)

/-- The clock and the random source during one call. -/
structure Tick where
  /-- `_now()`. -/
  recordedAt : String
  /-- `CURRENT_TIMESTAMP`. -/
  createdAt : String
  writeId : Uuid
  conflictId : Uuid

/-! ## Request digests -/

/-- `asdict(request)`. -/
def requestDict (request : WriteRequest) : Json :=
  .obj
    [("asserted_by", Json.ofText request.assertedBy), ("category", .str request.category),
      ("content", .str request.content), ("correction_status", Json.ofText request.correctionStatus),
      ("evidence_excerpt", Json.ofText request.evidenceExcerpt),
      ("idempotency_key", .str request.idempotencyKey),
      ("metadata_json", .str (Json.dumps .ascii request.metadataJson)),
      ("observation_content", Json.ofText request.observationContent),
      ("observed_at", Json.ofText request.observedAt), ("operation", .str request.operation),
      ("performed_by", Json.ofText request.performedBy), ("relation", .str request.relation),
      ("scope", .str request.scope), ("sensitivity", .str request.sensitivity),
      ("source_authority", .float request.sourceAuthority),
      ("source_type", .str request.sourceType), ("source_uri", Json.ofText request.sourceUri),
      ("supersede_fact_id", (request.supersedeFactId.map fun k => Json.int k).getD .null),
      ("tags", .str request.tags), ("trust_score", .float request.trustScore)]

/-- `asdict(state_candidate)`. -/
def candidateDict (candidate : StateCandidate) : Json :=
  .obj
    [("content", .str candidate.content), ("memory_kind", .str candidate.memoryKind),
      ("object_value", Json.ofText candidate.objectValue),
      ("predicate_key", .str candidate.predicateKey), ("scope", .str candidate.scope),
      ("source_authority", .float candidate.sourceAuthority),
      ("subject_key", .str candidate.subjectKey), ("valid_from", Json.ofText candidate.validFrom)]

def requestPayload (context : ConnectionContext) (request : WriteRequest)
    (candidate : Option StateCandidate) : Json :=
  .obj
    [("client_id", .str context.clientId), ("request", requestDict request),
      ("session_id", .str context.sessionId),
      ("state_candidate", (candidate.map candidateDict).getD .null)]

/-- `_request_sha256`. -/
def requestSha256 (host : Host) (context : ConnectionContext) (request : WriteRequest)
    (candidate : Option StateCandidate) : String :=
  host.sha256 (Json.dumps .unicode (requestPayload context request candidate))

/-- `request.observation_content or request.content`. -/
def observedText (request : WriteRequest) : String :=
  orElse request.observationContent request.content

def observationPayload (context : ConnectionContext) (request : WriteRequest) : Json :=
  .obj
    [("asserted_by", Json.ofText request.assertedBy), ("branch", Json.ofText context.branch),
      ("commit_sha", Json.ofText context.commitSha), ("content", .str (observedText request)),
      ("metadata_json", .str (Json.dumps .ascii request.metadataJson)),
      ("observed_at", Json.ofText request.observedAt), ("performed_by", Json.ofText request.performedBy),
      ("project_root", Json.ofText context.projectRoot), ("repository", Json.ofText context.repository),
      ("scope", .str request.scope), ("sensitivity", .str request.sensitivity),
      ("source_type", .str request.sourceType), ("source_uri", Json.ofText request.sourceUri)]

/-- `_observation_sha256`. -/
def observationSha256 (host : Host) (context : ConnectionContext) (request : WriteRequest) :
    String :=
  host.sha256 (Json.dumps .unicode (observationPayload context request))

/-! ## Registration -/

/-- `_register_client`. -/
def registerClient (s : Store) (context : ConnectionContext) (now : String) : Py Store := do
  let clients := insertOrIgnore s.clients
    ⟨context.clientId, context.surface, context.displayName, now, none⟩
  match clients.get? context.clientId with
  | none => throw (runtimeError "failed to register memory client")
  | some row =>
      require (row.surface = context.surface)
        ⟨.clientIdentityConflict, "client_id is already registered to a different surface"⟩
      require (row.disabledAt = none) ⟨.permissionError, "memory client is disabled"⟩
      return { s with clients }

/-- The columns of a session that may not change. -/
def SessionRow.Matches (row : SessionRow) (context : ConnectionContext) : Prop :=
  row.agentId = context.agentId ∧ row.parentAgentId = context.parentAgentId ∧
    row.projectRoot = context.projectRoot ∧ row.repository = context.repository ∧
    row.capabilities = context.capabilities ∧ row.accessScopes = context.accessScopes

instance (row : SessionRow) (context : ConnectionContext) : Decidable (row.Matches context) :=
  inferInstanceAs (Decidable (_ ∧ _ ∧ _ ∧ _ ∧ _ ∧ _))

/-- `_register_session`: branch and commit follow the connection, the rest is fixed. -/
def registerSession (s : Store) (context : ConnectionContext) (now : String) : Py Store := do
  require (s.clients.get? context.clientId ≠ none) SQLite.foreignKey
  let inserted := insertOrIgnore s.sessions
    { clientId := context.clientId, sessionId := context.sessionId, agentId := context.agentId
      parentAgentId := context.parentAgentId, projectRoot := context.projectRoot
      repository := context.repository, branch := context.branch, commitSha := context.commitSha
      capabilities := context.capabilities, accessScopes := context.accessScopes
      startedAt := orElse context.startedAt now }
  let sessions := inserted.update
    (fun row => row.clientId = context.clientId ∧ row.sessionId = context.sessionId)
    (fun row => { row with branch := context.branch, commitSha := context.commitSha })
    (fun _ => rfl)
  match sessions.get? (context.clientId, context.sessionId) with
  | none =>
      throw ⟨.sessionContextConflict,
        "client_id/session_id was reused with different connection context"⟩
  | some row =>
      require (row.Matches context) ⟨.sessionContextConflict,
        "client_id/session_id was reused with different connection context"⟩
      return { s with sessions }

/-! ## The log -/

/-- `_load_prior`. -/
def loadPrior (s : Store) (clientId idempotencyKey : String) : Option WriteLogRow :=
  s.writeLog.get? (clientId, idempotencyKey)

/-- `_outcome_from_row`. -/
def outcomeFromRow (row : WriteLogRow) (replayed : Bool) : Py WriteOutcome :=
  WriteOutcome.make row.writeId row.outcome row.factId row.existingFactId row.observationId
    replayed row.detailJson

/-- A fact id that a log row names refers to a fact. -/
def factExists (s : Store) (factId : Option Nat) : Prop := ∀ k ∈ factId, s.facts.get? k ≠ none

instance (s : Store) (factId : Option Nat) : Decidable (factExists s factId) :=
  inferInstanceAs (Decidable (∀ k ∈ factId, _))

/-- `INSERT INTO memory_write_log`. -/
def appendLog (s : Store) (row : WriteLogRow) : Py Store := do
  require (∀ old ∈ s.writeLog.rows, old.writeId ≠ row.writeId)
    (SQLite.unique "memory_write_log.write_id")
  require (s.clients.get? row.clientId ≠ none ∧ factExists s row.factId ∧
    factExists s row.existingFactId ∧ ∀ k ∈ row.observationId, s.observations.get? k ≠ none)
    SQLite.foreignKey
  let writeLog ← insertRow s.writeLog row
    "memory_write_log.client_id, memory_write_log.idempotency_key"
  return { s with writeLog }

/-- `_record_factless_decision`. -/
def recordFactlessDecision (s : Store) (tick : Tick) (context : ConnectionContext)
    (request : WriteRequest) (requestHash : String) (decision : PolicyDecision) :
    Py (Store × WriteOutcome) := do
  let detailJson := Json.obj [("policy_reason", .str decision.reason)]
  let s ← appendLog s
    { writeId := tick.writeId.text, idempotencyKey := request.idempotencyKey
      clientId := context.clientId, sessionId := context.sessionId
      operation := request.operation, outcome := decision.outcome, factId := none
      existingFactId := none, observationId := none, recordedAt := tick.recordedAt
      requestSha256 := requestHash, detailJson }
  let outcome ← WriteOutcome.make tick.writeId.text decision.outcome none none none false detailJson
  return (s, outcome)

/-! ## Decisions -/

/-- `_supersession_policy`: automation does not silently replace protected truth. -/
def supersessionPolicy (s : Store) (request : WriteRequest) (targetId : Option Nat)
    (candidateAuthority : Option Decimal) : Py (Option PolicyDecision) := do
  match targetId <|> request.supersedeFactId with
  | none => return none
  | some target =>
      let target ← SQLite.integer target
      match (s.facts.get? target).filter fun r => r.scope = request.scope with
      | none => return some (review "supersession target is unavailable")
      | some row =>
          if request.supersedeFactId ≠ none ∧ row.memoryKind = some "state" then
            return some (review "typed state requires state-slot supersession")
          else if request.supersedeFactId ≠ none ∧ row.conflictGroup ≠ none then
            return some (review "open-conflict members cannot be explicitly superseded")
          else if (∃ status ∈ row.correctionStatus, status ∈ humanStatuses) ∧
              ¬ ClaimsCorrection request then
            return some (review "target is protected by human correction")
          else if (candidateAuthority.getD request.sourceAuthority).value <
              (row.sourceAuthority.getD Decimal.half).value then
            return some (review "target has higher source authority")
          else return none

/-- `_validate_state_candidate`. -/
def validateStateCandidate (request : WriteRequest) (candidate : Option StateCandidate) :
    Py Unit := do
  match candidate with
  | none => return ⟨⟩
  | some candidate =>
      require (candidate.memoryKind = "state")
        (valueError "state_candidate must have memory_kind='state'")
      require (candidate.content = request.content)
        (valueError "state candidate content must match the write request")
      require (candidate.scope = request.scope)
        (valueError "state candidate scope must match the write request")
      require (candidate.sourceAuthority.value = request.sourceAuthority.value)
        (valueError "state candidate authority must match the write request")
      require (request.supersedeFactId = none)
        (valueError "typed state writes derive supersession from the exact slot")

/-- The fields of a candidate the credential screen also sees. -/
def sensitiveFields (candidate : Option StateCandidate) : List String :=
  match candidate with
  | none => []
  | some candidate =>
      [candidate.subjectKey, candidate.predicateKey, candidate.objectValue.getD ""].filter (· ≠ "")

/-- The candidate with its validity time filled in. -/
def effectiveCandidate (tick : Tick) (request : WriteRequest) (candidate : Option StateCandidate) :
    Py (Option StateCandidate) := do
  match candidate with
  | none => return none
  | some candidate =>
      if candidate.validFrom = none then
        return some (← candidate.withValidFrom (some (orElse request.observedAt tick.recordedAt)))
      else return some candidate

/-- What `write` has decided before it records anything. -/
inductive Decided where
  /-- Stop without touching a fact. -/
  | factless (decision : PolicyDecision)
  /-- Write, with the effective candidate and its slot decision for a typed write. -/
  | proceed (state : Option (StateCandidate × SlotDecision))

/-- The policy decision before the slot is looked at. -/
def policyDecision (service : MemoryWriteService) (s : Store) (context : ConnectionContext)
    (request : WriteRequest) (candidate : Option StateCandidate) : Py (Option PolicyDecision) := do
  match ← service.policy.evaluateWrite request (some context.clientId)
      (sensitiveFields candidate) with
  | some decision => return some decision
  | none =>
      if request.scope ∉ context.accessScopes then
        return some (reject "requested write scope is not server-authorized")
      else supersessionPolicy s request none none

def decide (service : MemoryWriteService) (s : Store) (tick : Tick) (context : ConnectionContext)
    (request : WriteRequest) (candidate : Option StateCandidate) : Py Decided := do
  let decision ← policyDecision service s context request candidate
  let effective ← effectiveCandidate tick request candidate
  match decision, effective with
  | some decision, _ => return .factless decision
  | none, none => return .proceed none
  | none, some effective =>
      let state ← decideStateWrite s effective
      if state.action = .supersede then
        match ← supersessionPolicy s request state.targetFactId
            (some effective.sourceAuthority) with
        | some decision => return .factless decision
        | none => return .proceed (some (effective, state))
      else return .proceed (some (effective, state))

/-! ## Observations and provenance -/

/-- `_record_observation`: an observation with the same digest is reused. -/
def recordObservation (host : Host) (s : Store) (context : ConnectionContext)
    (request : WriteRequest) (now : String) : Py (Store × Nat) := do
  let contentHash := observationSha256 host context request
  let same := fun row : ObservationRow =>
    row.clientId = context.clientId ∧ row.contentSha256 = contentHash ∧
      row.sessionId = context.sessionId ∧ row.sourceType = request.sourceType
  match s.observations.select same with
  | row :: _ => return (s, row.observationId)
  | [] =>
      require (s.sessions.get? (context.clientId, context.sessionId) ≠ none) SQLite.foreignKey
      let observationId := nextRowId (s.observations.rows.map ObservationRow.observationId)
      let observations ← insertRow s.observations
        { observationId, clientId := context.clientId, sessionId := context.sessionId
          sourceType := request.sourceType, sourceUri := request.sourceUri
          projectRoot := context.projectRoot, repository := context.repository
          branch := context.branch, commitSha := context.commitSha
          content := observedText request, contentSha256 := contentHash
          assertedBy := request.assertedBy, performedBy := request.performedBy
          observedAt := request.observedAt, recordedAt := now, scope := request.scope
          sensitivity := request.sensitivity, redactedAt := none
          metadataJson := request.metadataJson }
        "observations.observation_id"
      return ({ s with observations }, observationId)

/-- `_attach_provenance`. -/
def attachProvenance (s : Store) (factId observationId : Nat) (request : WriteRequest)
    (now : String) : Py Store := do
  require (s.facts.get? factId ≠ none ∧ s.observations.get? observationId ≠ none) SQLite.foreignKey
  let provenance := insertOrIgnore s.provenance
    ⟨factId, observationId, request.relation, request.evidenceExcerpt, now⟩
  return { s with provenance }

/-! ## Duplicates -/

/-- `_find_untyped_exact_duplicate`. -/
def findUntypedExactDuplicate (s : Store) (request : WriteRequest) : Option Nat :=
  ((orderById (s.facts.table.select fun r =>
    r.scope = request.scope ∧ r.content = request.content ∧ r.Current ∧
      r.conflictGroup = none)).head?).map FactRow.factId

/-- `(item.trust_score, item.created_at, item.fact_id)`, compared as Python compares
tuples. -/
def NearDuplicateCandidate.lt (a b : NearDuplicateCandidate) : Prop :=
  a.trustScore.value < b.trustScore.value ∨ a.trustScore.value = b.trustScore.value ∧
    (a.createdAt < b.createdAt ∨ a.createdAt = b.createdAt ∧ a.factId < b.factId)

instance (a b : NearDuplicateCandidate) : Decidable (a.lt b) :=
  inferInstanceAs (Decidable (_ ∨ _ ∧ (_ ∨ _ ∧ _)))

/-- `max` by the key: the first of the greatest. -/
def strongest : List NearDuplicateCandidate → Option NearDuplicateCandidate
  | [] => none
  | c :: cs => some (cs.foldl (fun best c => if best.lt c then c else best) c)

theorem mem_strongest {cs : List NearDuplicateCandidate} {c : NearDuplicateCandidate}
    (found : strongest cs = some c) : c ∈ cs := by
  cases cs with
  | nil => cases found
  | cons first rest =>
      have kept : ∀ (rest : List NearDuplicateCandidate) (best : NearDuplicateCandidate),
          rest.foldl (fun best c => if best.lt c then c else best) best ∈ best :: rest := by
        intro rest
        induction rest with
        | nil => intro best; simp
        | cons next rest ih =>
            intro best
            rw [List.foldl_cons]
            by_cases better : best.lt next
            · rw [if_pos better]
              exact List.mem_cons_of_mem _ (ih next)
            · rw [if_neg better]
              rcases List.mem_cons.1 (ih best) with same | mem
              · rw [same]
                exact List.mem_cons_self
              · exact List.mem_cons_of_mem _ (List.mem_cons_of_mem _ mem)
      cases found
      exact kept rest first

/-- `_find_untyped_near_duplicate`. -/
def findUntypedNearDuplicate (host : Host) (service : MemoryWriteService) (s : Store)
    (request : WriteRequest) : Py (Option NearDuplicateCandidate) :=
  match service.nearDedup.enabled, service.queryEmbedder, service.nearDedup.embeddingIdentity with
  | true, some embedder, some identity =>
      match embedder request.content with
      | .raised e => .error e
      | .unavailable => .ok none
      | .notFinite => .ok none
      | .vector vector =>
          .ok (strongest (findWriteNearDuplicates host s request.content request.scope vector
            service.nearDedup.cosineThreshold service.nearDedup.candidateLimit (some identity)))
  | _, _, _ => .ok none

/-! ## Writing facts -/

/-- `FactWriteResult`. -/
structure FactWriteResult where
  factId : Nat
  outcome : Outcome
  existingFactId : Option Nat

/-- `UPDATE facts SET correction_status` when the request states one. -/
def setCorrectionStatus (s : Store) (factId : Nat) (status : Option String) : Py Store :=
  match status with
  | none => .ok s
  | some status =>
      updateFacts s (fun r => r.factId = factId)
        fun r => { r with correctionStatus := some status }

/-- `_fact_writer`: insert the fact and set its correction status. -/
def factWriter (s : Store) (tick : Tick) (request : WriteRequest) : Py (Store × FactWriteResult) := do
  let (s, factId) ← insertFact s
    { content := request.content, category := request.category, tags := request.tags
      trustScore := request.trustScore, createdAt := tick.createdAt
      sourceAuthority := some request.sourceAuthority, scope := request.scope
      sensitivity := request.sensitivity }
  let s ← setCorrectionStatus s factId request.correctionStatus
  return (s, ⟨factId, .inserted, none⟩)

/-- An `UPDATE facts` of one row that must find it. -/
def updateOne (s : Store) (p : FactRow → Prop) [DecidablePred p] (f : FactRow → FactRow)
    (missing : Raised) (keeps : ∀ r, (f r).factId = r.factId := by intro; rfl) : Py Store := do
  let updated ← updateFacts s p f keeps
  require (s.facts.table.rowcount p = 1) missing
  return updated

/-- `_supersede_near_duplicate`. -/
def supersedeNearDuplicate (s : Store) (loserId survivorId : Nat) (recordedAt : String) : Py Store :=
  updateOne s (fun r => r.factId = loserId ∧ r.Current)
    (fun r => { r with invalidAt := some recordedAt, supersededBy := some survivorId })
    (runtimeError "near-duplicate candidate is no longer active")
    (superseding_keeps recordedAt survivorId)

/-- `(request.trust_score, recorded_at) > (candidate.trust_score, candidate.created_at)`. -/
def IncomingWins (request : WriteRequest) (recordedAt : String) (c : NearDuplicateCandidate) :
    Prop :=
  c.trustScore.value < request.trustScore.value ∨
    c.trustScore.value = request.trustScore.value ∧ c.createdAt < recordedAt

instance (request : WriteRequest) (recordedAt : String) (c : NearDuplicateCandidate) :
    Decidable (IncomingWins request recordedAt c) :=
  inferInstanceAs (Decidable (_ ∨ _ ∧ _))

/-- `_merge_near_duplicate`: one of the two facts stays active; the second result is the
fact to enqueue for embedding. -/
def mergeNearDuplicate (s : Store) (inserted : FactWriteResult) (c : NearDuplicateCandidate)
    (request : WriteRequest) (recordedAt : String) : Py (Store × FactWriteResult × Option Nat) := do
  if IncomingWins request recordedAt c then
    let s ← supersedeNearDuplicate s c.factId inserted.factId recordedAt
    return (s, ⟨inserted.factId, .nearDedup, some c.factId⟩, some inserted.factId)
  else
    let s ← supersedeNearDuplicate s inserted.factId c.factId recordedAt
    return (s, ⟨c.factId, .nearDedup, some c.factId⟩, none)

/-- `_prepare_state_mutation`: make room in the slot for the new fact; the result is the
conflict it joins. -/
def prepareStateMutation (s : Store) (tick : Tick) (decision : SlotDecision) :
    Py (Store × Option String) := do
  match decision.action with
  | .supersede =>
      match decision.targetFactId with
      | none => throw (runtimeError "supersession decision has no target")
      | some target =>
          let s ← updateOne s
            (fun r => r.factId = target ∧ r.scope = decision.scope ∧ r.Current ∧
              r.conflictGroup = none)
            (fun r => { r with invalidAt := some tick.recordedAt })
            (runtimeError "state supersession target is no longer current")
          return (s, none)
  | .conflict =>
      let groups := ((s.facts.table.select fun r => r.factId ∈ decision.currentFactIds).filterMap
        FactRow.conflictGroup).dedup
      match groups with
      | [group] => return (s, some group)
      | _ :: _ :: _ => throw (runtimeError "state slot spans multiple unresolved conflicts")
      | [] =>
          let (s, conflict) ← openStateConflict s tick.conflictId decision.subjectKey
            decision.predicateKey decision.currentFactIds decision.scope tick.recordedAt
            (.obj [("reason", .str decision.reason)])
          return (s, some conflict.conflictId)
  | _ => return (s, none)

/-- `_persist_state_candidate`. -/
def persistStateCandidate (s : Store) (result : FactWriteResult) (candidate : StateCandidate)
    (conflictId : Option String) : Py Store := do
  require (result.existingFactId = none ∧ (result.outcome = .inserted ∨ result.outcome = .add))
    (runtimeError "typed state creation requires the fact writer to insert a new fact")
  updateOne s (fun r => r.factId = result.factId ∧ r.Current)
    (fun r =>
      { r with
        memoryKind := some "state"
        subjectKey := some candidate.subjectKey
        predicateKey := some candidate.predicateKey
        objectValue := candidate.objectValue
        sourceAuthority := some candidate.sourceAuthority
        validFrom := candidate.validFrom
        scope := candidate.scope
        conflictGroup := conflictId })
    (runtimeError "fact writer returned an unusable state fact")

/-- `_finish_state_supersession`. -/
def finishStateSupersession (s : Store) (oldFactId : Option Nat) (newFactId : Nat) : Py Store := do
  match oldFactId with
  | none => throw (runtimeError "supersession decision has no target")
  | some old =>
      updateOne s (fun r => r.factId = old ∧ r.invalidAt ≠ none ∧ r.supersededBy = none)
        (fun r => { r with supersededBy := some newFactId })
        (runtimeError "could not finalize state supersession")

/-- The last step of a typed insert: finish the supersession, or join the conflict. -/
def settleState (s : Store) (decision : SlotDecision) (conflictId : Option String)
    (newFactId : Nat) : Py Store :=
  match decision.action with
  | .supersede => finishStateSupersession s decision.targetFactId newFactId
  | .conflict =>
      match conflictId with
      | none => .error (runtimeError "state conflict group was not established")
      | some conflict => addConflictMember s conflict newFactId
  | _ => .ok s

/-- What a branch of the write leaves behind. -/
structure Applied where
  store : Store
  result : FactWriteResult
  conflictId : Option String
  enqueue : Option Nat

def DecisionAction.outcome : DecisionAction → Outcome
  | .add => .add
  | .dedup => .dedup
  | .supersede => .supersede
  | .conflict => .conflict

/-- `str(row[0]) if row and row[0] else None` for the group of a fact. -/
def groupOf (s : Store) (factId : Nat) : Option String :=
  ((s.facts.get? factId).bind FactRow.conflictGroup).filter (· ≠ "")

/-- A typed write that inserts a fact into the slot. -/
def insertState (s : Store) (tick : Tick) (request : WriteRequest) (candidate : StateCandidate)
    (decision : SlotDecision) : Py Applied := do
  let (s, conflictId) ← prepareStateMutation s tick decision
  let (s, inserted) ← factWriter s tick request
  let s ← persistStateCandidate s inserted candidate conflictId
  let s ← settleState s decision conflictId inserted.factId
  return ⟨s, ⟨inserted.factId, decision.action.outcome, inserted.existingFactId⟩, conflictId,
    some inserted.factId⟩

/-- The typed branches: repeat a fact of the slot, or insert one. -/
def applyState (s : Store) (tick : Tick) (request : WriteRequest) (candidate : StateCandidate)
    (decision : SlotDecision) : Py Applied :=
  match decision.action, decision.targetFactId with
  | .dedup, some target => .ok ⟨s, ⟨target, .dedup, some target⟩, none, none⟩
  | .conflict, some target => .ok ⟨s, ⟨target, .conflict, some target⟩, groupOf s target, none⟩
  | _, _ => insertState s tick request candidate decision

/-- An untyped write that inserts a fact, and merges it with its near duplicate. -/
def insertUntyped (s : Store) (tick : Tick) (request : WriteRequest)
    (near : Option NearDuplicateCandidate) : Py Applied := do
  let (s, inserted) ← factWriter s tick request
  match near with
  | none => return ⟨s, inserted, none, some inserted.factId⟩
  | some c =>
      let (s, result, enqueue) ← mergeNearDuplicate s inserted c request tick.recordedAt
      return ⟨s, result, none, enqueue⟩

/-- The untyped branches: repeat a fact of the scope, or insert one. -/
def applyUntyped (s : Store) (tick : Tick) (request : WriteRequest) (duplicate : Option Nat)
    (near : Option NearDuplicateCandidate) : Py Applied :=
  match duplicate with
  | some target => .ok ⟨s, ⟨target, .dedup, some target⟩, none, none⟩
  | none => insertUntyped s tick request near

/-- The branch the decisions lead to. -/
def applyDecision (s : Store) (tick : Tick) (request : WriteRequest)
    (state : Option (StateCandidate × SlotDecision)) (near : Option NearDuplicateCandidate) :
    Py Applied :=
  match state with
  | some (candidate, decision) => applyState s tick request candidate decision
  | none => applyUntyped s tick request (findUntypedExactDuplicate s request) near

/-! ## Finishing -/

/-- `_authorize_fact_scope`. -/
def authorizeFactScope (s : Store) (factId : Nat) (requestedScope : String) : Py Unit := do
  match s.facts.get? factId with
  | none => throw (runtimeError "fact writer returned a missing fact")
  | some row =>
      require (row.scope = requestedScope)
        ⟨.permissionError, "fact writer persisted a different memory scope"⟩

/-- `_supersede_if_requested`. -/
def supersedeIfRequested (s : Store) (oldFactId : Option Nat) (newFactId : Nat) (now : String) :
    Py (Store × Bool) := do
  match oldFactId with
  | none => return (s, false)
  | some old =>
      require (old ≠ newFactId) (valueError "a fact cannot supersede itself")
      match s.facts.get? newFactId with
      | none => throw (runtimeError "replacement fact is unavailable")
      | some replacement =>
          match (s.facts.get? old).filter fun r => r.scope = replacement.scope with
          | none => throw (valueError "superseded fact is unavailable or no longer current")
          | some target =>
              require (target.memoryKind ≠ some "state" ∧ target.conflictGroup = none)
                (valueError "typed or conflicted facts require their dedicated resolution path")
              let s ← updateOne s
                (fun r => r.factId = old ∧ r.scope = replacement.scope ∧ r.Current)
                (fun r => { r with invalidAt := some now, supersededBy := some newFactId })
                (valueError "superseded fact is unavailable or no longer current")
                (superseding_keeps now newFactId)
              return (s, true)

/-- A fact id as a JSON member. -/
def idMember (name : String) (factId : Option Nat) : List (String × Json) :=
  [(name, (factId.map fun k => Json.int k).getD .null)]

/-- `detail_json`, in key order. -/
def detailOf (host : Host) (request : WriteRequest)
    (near : Option NearDuplicateCandidate) (state : Option SlotDecision) (applied : Applied)
    (superseded : Bool) : Json :=
  .obj <|
    (match state, applied.conflictId with
      | some _, some conflict => [("conflict_id", .str conflict)]
      | _, _ => []) ++
    (match near with
      | some c =>
          [("near_duplicate", .obj
            [("candidate_fact_id", .int c.factId), ("cosine", .float (host.round6 c.cosine)),
              ("survivor_fact_id", .int applied.result.factId)])]
      | none => []) ++
    (match state with
      | some decision =>
          [("state_action", .str decision.action.outcome.text),
            ("state_slot", .obj
              [("predicate_key", .str decision.predicateKey), ("scope", .str decision.scope),
                ("subject_key", .str decision.subjectKey)])]
      | none => []) ++
    (match state with
      | some decision =>
          if decision.action = .supersede then idMember "superseded_fact_id" decision.targetFactId
          else if superseded then idMember "superseded_fact_id" request.supersedeFactId else []
      | none => if superseded then idMember "superseded_fact_id" request.supersedeFactId else [])

/-- The embedding callback, when there is one and the write left a fact to embed. -/
def enqueueEmbedding (host : Host) (service : MemoryWriteService) (now : String) (s : Store)
    (factId : Option Nat) : Py Store :=
  match factId, service.outbox with
  | some factId, some spec => enqueueInTransaction host spec now s factId
  | _, _ => .ok s

/-- Only an untyped write supersedes by id. -/
def explicitTarget (request : WriteRequest) (state : Option SlotDecision) : Option Nat :=
  match state with
  | none => request.supersedeFactId
  | some _ => none

/-- Everything after the facts are written. -/
def finish (host : Host) (service : MemoryWriteService) (tick : Tick) (context : ConnectionContext)
    (request : WriteRequest) (requestHash : String) (observationId : Nat)
    (near : Option NearDuplicateCandidate) (state : Option SlotDecision) (applied : Applied) :
    Py (Store × WriteOutcome) := do
  let s ← enqueueEmbedding host service tick.recordedAt applied.store applied.enqueue
  authorizeFactScope s applied.result.factId request.scope
  let s ← attachProvenance s applied.result.factId observationId request tick.recordedAt
  let (s, superseded) ← supersedeIfRequested s (explicitTarget request state)
    applied.result.factId tick.recordedAt
  let detailJson := detailOf host request near state applied superseded
  let s ← appendLog s
    { writeId := tick.writeId.text, idempotencyKey := request.idempotencyKey
      clientId := context.clientId, sessionId := context.sessionId
      operation := request.operation, outcome := applied.result.outcome
      factId := some applied.result.factId, existingFactId := applied.result.existingFactId
      observationId := some observationId, recordedAt := tick.recordedAt
      requestSha256 := requestHash, detailJson }
  let outcome ← WriteOutcome.make tick.writeId.text applied.result.outcome
    (some applied.result.factId) applied.result.existingFactId (some observationId) false detailJson
  return (s, outcome)

/-! ## The write -/

/-- The near duplicate an untyped write looks for. -/
def nearDuplicate (host : Host) (service : MemoryWriteService) (s : Store) (request : WriteRequest)
    (typed : Bool) : Py (Option NearDuplicateCandidate) :=
  if typed ∨ request.supersedeFactId ≠ none ∨ findUntypedExactDuplicate s request ≠ none then
    .ok none
  else findUntypedNearDuplicate host service s request

/-- A write whose decisions let it pass. -/
def persist (host : Host) (service : MemoryWriteService) (s : Store) (tick : Tick)
    (context : ConnectionContext) (request : WriteRequest) (requestHash : String)
    (state : Option (StateCandidate × SlotDecision)) : Py (Store × WriteOutcome) := do
  let (s, observationId) ← recordObservation host s context request tick.recordedAt
  let near ← nearDuplicate host service s request state.isSome
  let applied ← applyDecision s tick request state near
  finish host service tick context request requestHash observationId near (state.map Prod.snd) applied

/-- A write after its replay check. -/
def writeNew (host : Host) (service : MemoryWriteService) (s : Store) (tick : Tick)
    (context : ConnectionContext) (request : WriteRequest) (candidate : Option StateCandidate)
    (requestHash : String) : Py (Store × WriteOutcome) := do
  let s ← registerSession s context tick.recordedAt
  match ← decide service s tick context request candidate with
  | .factless decision => recordFactlessDecision s tick context request requestHash decision
  | .proceed state => persist host service s tick context request requestHash state

/-- `MemoryWriteService.write`. -/
def write (host : Host) (service : MemoryWriteService) (tick : Tick) (context : ConnectionContext)
    (request : WriteRequest) (candidate : Option StateCandidate) (s : Store) :
    Py (Store × WriteOutcome) := do
  let context ← service.policy.authorizeContext context
  let _ ← validateStateCandidate request candidate
  let requestHash := requestSha256 host context request candidate
  let s ← registerClient s context tick.recordedAt
  match loadPrior s context.clientId request.idempotencyKey with
  | some prior =>
      require (prior.requestSha256 = requestHash)
        ⟨.idempotencyConflict, "idempotency key was already used for a different request"⟩
      let outcome ← outcomeFromRow prior true
      return (s, outcome)
  | none => writeNew host service s tick context request candidate requestHash

end Enfold.Model
