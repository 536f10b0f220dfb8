/-
# Model.Runs -- the store under any sequence of calls

An operation is one call with its arguments and what the clock and the random source
deliver during it.  Every call runs in a transaction: `step` commits what it returns, or
rolls back to the store it found.  The policy, the embedder and the outbox may differ from
call to call; the digest, the full-text ranking and the vector arithmetic (`Host`) do not.

`Reached ok s` says that some run of operations that all satisfy `ok` leads from the empty
store to `s`.
-/
import Enfold.Model.Erasure
import Enfold.Model.ExtractionQueue
import Enfold.Model.Service
import Enfold.Theory.Run

namespace Enfold.Model

open Enfold.Theory

set_option autoImplicit false

/-- The arguments of `MemoryWriteService.write`. -/
structure WriteCall where
  service : MemoryWriteService
  tick : Tick
  context : ConnectionContext
  request : WriteRequest
  candidate : Option StateCandidate

/-- The arguments of `resolve_state_conflict`. -/
structure ResolveCall where
  now : String
  conflictId : String
  resolutionFactId : Nat
  resolvedBy : String
  reason : String
  resolvedAt : Option String
  resolverClientId : Option String
  resolverSessionId : Option String
  resolverAgentId : Option String

/-- The arguments of `erase_fact`. -/
structure EraseCall where
  tick : ErasureTick
  factId : Nat
  requestedBy : String
  reason : String

def WriteCall.apply (host : Host) (call : WriteCall) (s : Store) : Py (Store × WriteOutcome) :=
  write host call.service call.tick call.context call.request call.candidate s

def ResolveCall.apply (call : ResolveCall) (s : Store) : Py (Store × ConflictResolution) :=
  resolveStateConflict s call.now call.conflictId call.resolutionFactId call.resolvedBy call.reason
    call.resolvedAt call.resolverClientId call.resolverSessionId call.resolverAgentId

def EraseCall.apply (host : Host) (call : EraseCall) (s : Store) : Py (Store × ErasureReport) :=
  eraseFact host call.tick call.factId call.requestedBy call.reason s

inductive Op where
  | write (call : WriteCall)
  | resolve (call : ResolveCall)
  /-- A resolution through the service. -/
  | resolveConflict (service : MemoryWriteService) (resolvedAt : String)
      (context : ConnectionContext) (conflictId : String) (resolutionFactId : Nat) (reason : String)
  /-- A vector prepared by the embedding worker. -/
  | storeEmbedding (spec : EmbeddingSpec) (factId : Nat) (embedding : List Decimal)
  | erase (call : EraseCall)
  | enqueueExtraction (context : ConnectionContext) (transcript source scope : String)
      (metadata : List (String × Json))
  | claim (maxAttempts : Nat) (lease : Lease) (now leaseUntil : Decimal)
  | renew (id : Nat) (lease : Lease) (now leaseUntil : Decimal)
  | persistSnapshot (id : Nat) (lease : Lease) (proposals : Json)
  | complete (id : Nat) (lease : Lease)
  | fail (maxAttempts id : Nat) (lease : Lease) (errorCode : String) (permanent : Bool)
      (retryAt : Decimal)

/-- One call in its transaction. -/
def step (host : Host) (op : Op) (s : Store) : Store :=
  match op with
  | .write call => commit s (call.apply host s)
  | .resolve call => commit s (call.apply s)
  | .resolveConflict service resolvedAt context conflictId resolutionFactId reason =>
      commit s (Model.resolveConflict host service resolvedAt context conflictId resolutionFactId
        reason s)
  | .storeEmbedding spec factId embedding =>
      commit s ((upsertInTransaction spec s factId embedding).map fun new => (new, PUnit.unit))
  | .erase call => commit s (call.apply host s)
  | .enqueueExtraction context transcript source scope metadata =>
      commit s (enqueueAfterCommit host context transcript source scope metadata s)
  | .claim maxAttempts lease now leaseUntil =>
      commit s (Model.claim maxAttempts lease now leaseUntil s)
  | .renew id lease now leaseUntil => commit s (Model.renew id lease now leaseUntil s)
  | .persistSnapshot id lease proposals =>
      commit s (Model.persistSnapshot host id lease proposals s)
  | .complete id lease => commit s (Model.complete id lease s)
  | .fail maxAttempts id lease errorCode permanent retryAt =>
      commit s (Model.fail maxAttempts id lease errorCode permanent retryAt s)

namespace Op

/-- Writes, conflict resolutions and the vectors that make near duplicates visible. -/
def Mutates : Op → Prop
  | .write _ | .resolve _ | .resolveConflict .. | .storeEmbedding .. => True
  | _ => False

def Erases : Op → Prop
  | .erase _ => True
  | _ => False

end Op

/-- Some run of operations that meet `ok` reaches the store. -/
def Reached (host : Host) (ok : Op → Store → Prop) (s : Store) : Prop :=
  Reachable (step host) ok Store.empty s

/-! ## Sample calls

The inputs of the concrete runs in this development: two clients of one deployment, plain
requests, and candidates for one slot. -/

namespace Sample

/-- Every text of the samples, checked at once. -/
theorem texts_required : ∀ text ∈ ["agent-a", "agent-b", "agent-c", "1", "2", "the door opens",
    "the door opened", "the door is red", "the door is blue"], Required text := by
  decide +kernel

/-- The identities of the sample connections. -/
theorem names_required : ∀ name ∈ ["codex", "cli", "a1", "s1"], Required name := by
  decide +kernel

theorem codex_required : Required "codex" := names_required _ (by simp)
theorem cli_required : Required "cli" := names_required _ (by simp)
theorem a1_required : Required "a1" := names_required _ (by simp)
theorem s1_required : Required "s1" := names_required _ (by simp)
theorem work_nonempty : ["work"] ≠ [] := List.cons_ne_nil _ _
theorem private_nonempty : ["private"] ≠ [] := List.cons_ne_nil _ _
theorem agentA_required : Required "agent-a" := texts_required _ (by simp)
theorem agentB_required : Required "agent-b" := texts_required _ (by simp)
theorem agentC_required : Required "agent-c" := texts_required _ (by simp)
theorem first_required : Required "1" := texts_required _ (by simp)
theorem second_required : Required "2" := texts_required _ (by simp)
theorem opens_required : Required "the door opens" := texts_required _ (by simp)
theorem opened_required : Required "the door opened" := texts_required _ (by simp)
theorem red_required : Required "the door is red" := texts_required _ (by simp)
theorem blue_required : Required "the door is blue" := texts_required _ (by simp)

/-- On one-dimensional positive vectors, which is all the samples store, the norm is the
component and every cosine is one; an entry matches a query that shares a word with it. -/
def host : Host where
  sha256 text := "sha256:" ++ text
  bm25 terms _ entry := if (tokens entry.content).any (· ∈ terms) then some .zero else none
  norm vector := vector.headD .zero
  cosine _ _ := some .one
  round6 x := x
  vec0Replaces := false

def spec : EmbeddingSpec := ⟨"sample", "1", 1⟩

def service : MemoryWriteService where
  policy := ⟨[("agent-a", ["work"]), ("agent-b", ["work"]), ("agent-c", ["work"])], [],
    ["agent-a"], ["agent-a"]⟩
  nearDedup := ⟨true, .half, 5, some "sample", by decide +kernel, by decide, by decide +kernel⟩
  outbox := none
  queryEmbedder := some fun _ => .vector [.one]

def context (client : String)
    (valid : Required client := by
      with_reducible first
        | exact Sample.agentA_required
        | exact Sample.agentB_required
        | exact Sample.agentC_required
        | decide +kernel) :
    ConnectionContext where
  clientId := client
  surface := "cli"
  agentId := "agent"
  sessionId := "session"
  displayName := none
  parentAgentId := none
  projectRoot := none
  repository := none
  branch := none
  commitSha := none
  capabilities := []
  accessScopes := ["work"]
  startedAt := none
  clientValid := valid
  surfaceValid := by decide +kernel
  agentValid := by decide +kernel
  sessionValid := by decide +kernel
  scopesNonempty := by decide

def request (content : String)
    (valid : Required content := by
      with_reducible first
        | exact Sample.opens_required
        | exact Sample.opened_required
        | exact Sample.red_required
        | exact Sample.blue_required
        | decide +kernel) : WriteRequest where
  idempotencyKey := "key"
  content := content
  sourceType := "agent"
  category := "general"
  tags := ""
  trustScore := .half
  sourceAuthority := .half
  sourceUri := none
  observationContent := none
  assertedBy := none
  performedBy := none
  observedAt := none
  scope := "work"
  sensitivity := "normal"
  correctionStatus := none
  evidenceExcerpt := none
  relation := "supports"
  metadataJson := .obj []
  supersedeFactId := none
  operation := "write"
  keyValid := by decide +kernel
  contentValid := valid
  sourceTypeValid := by decide +kernel
  categoryValid := by decide +kernel
  scopeValid := by decide +kernel
  sensitivityValid := by decide +kernel
  relationValid := by decide +kernel
  operationValid := by decide +kernel
  trustUnit := half_inUnit
  authorityUnit := half_inUnit
  supersedePositive := none_positive
  metadataObject := ⟨[], rfl⟩

def slot : Slot := ⟨"work", "door", "color"⟩

/-- A value for the sample slot. -/
def candidate (content : String) (value : Option String)
    (valid : Required content := by
      with_reducible first
        | exact Sample.opens_required
        | exact Sample.opened_required
        | exact Sample.red_required
        | exact Sample.blue_required
        | decide +kernel) : StateCandidate where
  content := content
  subjectKey := "door"
  predicateKey := "color"
  objectValue := value
  sourceAuthority := .half
  validFrom := some "2026-01-01"
  memoryKind := "state"
  scope := "work"
  contentValid := valid
  scopeValid := by decide +kernel
  subjectValid := by decide +kernel
  predicateValid := by decide +kernel
  kindValid := by decide +kernel
  authorityUnit := by decide +kernel
  validFromParses := ⟨_, rfl⟩

/-- The `n`-th call; ids and times are numbered. -/
def tick (n : String)
    (valid : Required n := by
      with_reducible first
        | exact Sample.first_required
        | exact Sample.second_required
        | decide +kernel) : Tick :=
  ⟨"2026-01-0" ++ n ++ "T00:00:00+00:00", "2026-01-0" ++ n ++ " 00:00:00", ⟨n, valid⟩, ⟨n, valid⟩⟩

/-- One client says that the door is red. -/
def red : WriteCall :=
  ⟨service, tick "1", context "agent-a", request "the door is red",
    some (candidate "the door is red" (some "red"))⟩

/-- Another says that it is blue. -/
def blue : WriteCall :=
  ⟨service, tick "2", context "agent-b", request "the door is blue",
    some (candidate "the door is blue" (some "blue"))⟩

def dispute : List Op := [.write red, .write blue]

/-- A plain fact and its vector, then a near duplicate. -/
def merge : List Op :=
  [.write ⟨service, tick "1", context "agent-a", request "the door opens", none⟩,
    .storeEmbedding spec 1 [.one],
    .write ⟨service, tick "2", context "agent-b", request "the door opened", none⟩]

/-- The first fact is erased. -/
def erasure : EraseCall :=
  ⟨⟨⟨"9", by decide +kernel⟩, "2026-01-09T00:00:00+00:00"⟩, 1, "agent-a", "asked to"⟩

end Sample

end Enfold.Model
