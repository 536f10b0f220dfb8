/-
# Model.EmbeddingProcessor -- backfill and leased embedding workers (`embedding_jobs.py`)

A worker claims a job, reads its fact, runs the model outside any transaction, and commits the
vector after checking the lease, the lifecycle of the fact and its content again.  Each of these
is a function of the store; `EmbeddingSystem` runs any number of workers over one store, step by
step, between the calls of `Op`.

Clock readings are stamps; the model's answer is what the configured embedder returns for the
prefixed content.  A worker that crashes, or whose call raises, forgets its claim.
-/
import Enfold.Model.Runs

namespace Enfold.Model

open Enfold.Theory

set_option autoImplicit false

/-- `invalid_at`, `superseded_by` and `conflict_group` are all `NULL`. -/
def FactRow.Active (r : FactRow) : Prop := r.Current ∧ r.conflictGroup = none

instance (r : FactRow) : Decidable r.Active := inferInstanceAs (Decidable (_ ∧ _))

abbrev JobTable := Table (Nat × String) JobRow fun r => (r.factId, r.documentIdentity)

/-! ## Backfill -/

/-- The row that `enqueue_backfill` inserts for a fact. -/
def backfillJob (host : Host) (spec : EmbeddingSpec) (now : String) (jobs : JobTable)
    (fact : FactRow) : JobRow where
  jobId := nextRowId (jobs.rows.map JobRow.jobId)
  factId := fact.factId
  documentIdentity := spec.documentIdentity
  embeddingVersion := spec.embeddingVersion
  dimensions := spec.dimensions
  contentSha256 := host.sha256 fact.content
  status := .pending
  attempts := 0
  availableAt := now
  leaseToken := none
  leaseOwner := none
  leaseExpiresAt := none
  lastError := none
  createdAt := now
  updatedAt := now
  completedAt := none

/-- One round of the backfill loop: insert the job, or restart a completed one.  The flag tells
whether a row changed. -/
def backfillOne (host : Host) (spec : EmbeddingSpec) (now : String) (jobs : JobTable)
    (fact : FactRow) : JobTable × Bool :=
  let job := backfillJob host spec now jobs fact
  match jobs.insert? job with
  | some jobs => (jobs, true)
  | none =>
      let completed := fun old : JobRow =>
        old.factId = fact.factId ∧ old.documentIdentity = spec.documentIdentity ∧
          old.status = .completed
      (jobs.update completed
        (fun old => { job with jobId := old.jobId, factId := old.factId
                               documentIdentity := old.documentIdentity
                               createdAt := old.createdAt })
        (fun _ => rfl), if 0 < jobs.rowcount completed then true else false)

def backfillRows (host : Host) (spec : EmbeddingSpec) (now : String) :
    JobTable → List FactRow → JobTable × Nat
  | jobs, [] => (jobs, 0)
  | jobs, fact :: facts =>
      let (jobs, changed) := backfillOne host spec now jobs fact
      let (jobs, count) := backfillRows host spec now jobs facts
      (jobs, if changed then count + 1 else count)

/-- `enqueue_backfill`: queue every active fact that has no vector. -/
def enqueueBackfill (host : Host) (spec : EmbeddingSpec) (now : String) (s : Store) :
    Store × Nat :=
  let rows := orderById (s.facts.table.select fun r => r.Active ∧ ¬ HasVector s spec r.factId)
  let (embeddingJobs, changed) := backfillRows host spec now s.embeddingJobs rows
  ({ s with embeddingJobs }, changed)

/-! ## Claims -/

structure ClaimedEmbeddingJob where
  jobId : Nat
  factId : Nat
  contentSha256 : String
  attempts : Nat
  leaseToken : String
  deriving DecidableEq, Repr

namespace JobRow

def OfSpec (spec : EmbeddingSpec) (j : JobRow) : Prop :=
  j.documentIdentity = spec.documentIdentity ∧ j.embeddingVersion = spec.embeddingVersion ∧
    j.dimensions = spec.dimensions

instance (spec : EmbeddingSpec) (j : JobRow) : Decidable (j.OfSpec spec) :=
  inferInstanceAs (Decidable (_ ∧ _))

/-- The job has used up its attempts and nobody works on it. -/
def Exhausted (spec : EmbeddingSpec) (maxAttempts : Nat) (now : String) (j : JobRow) : Prop :=
  j.OfSpec spec ∧ maxAttempts ≤ j.attempts ∧
    (j.status = .pending ∨ j.status = .processing ∧ ∀ t ∈ j.leaseExpiresAt, t ≤ now)

instance (spec : EmbeddingSpec) (maxAttempts : Nat) (now : String) (j : JobRow) :
    Decidable (j.Exhausted spec maxAttempts now) :=
  inferInstanceAs (Decidable (_ ∧ _))

/-- The job may be claimed. -/
def Due (spec : EmbeddingSpec) (maxAttempts : Nat) (now : String) (j : JobRow) : Prop :=
  j.OfSpec spec ∧ j.attempts < maxAttempts ∧
    (j.status = .pending ∧ j.availableAt ≤ now ∨
      j.status = .processing ∧ ∃ t ∈ j.leaseExpiresAt, t ≤ now)

instance (spec : EmbeddingSpec) (maxAttempts : Nat) (now : String) (j : JobRow) :
    Decidable (j.Due spec maxAttempts now) :=
  inferInstanceAs (Decidable (_ ∧ _))

/-- The row is leased under the token of the claim. -/
def HeldFor (job : ClaimedEmbeddingJob) (j : JobRow) : Prop :=
  j.jobId = job.jobId ∧ j.status = .processing ∧ j.leaseToken = some job.leaseToken

instance (job : ClaimedEmbeddingJob) (j : JobRow) : Decidable (j.HeldFor job) :=
  inferInstanceAs (Decidable (_ ∧ _))

end JobRow

namespace EmbeddingJobProcessor

/-- The first statement of `claim`: bury the exhausted jobs. -/
def buryExhausted (spec : EmbeddingSpec) (maxAttempts : Nat) (now : String) (jobs : JobTable) :
    JobTable :=
  jobs.update (fun j => j.Exhausted spec maxAttempts now)
    (fun j =>
      { j with
        status := .deadLetter
        leaseToken := none
        leaseOwner := none
        leaseExpiresAt := none
        lastError := some "attempts_exhausted"
        updatedAt := now })
    (fun _ => rfl)

/-- The last statement of `claim`: lease a job. -/
def leaseJob (row : JobRow) (workerId token now leaseUntil : String) (jobs : JobTable) : JobTable :=
  jobs.update (fun j => j.jobId = row.jobId)
    (fun j =>
      { j with
        status := .processing
        attempts := row.attempts + 1
        leaseToken := some token
        leaseOwner := some workerId
        leaseExpiresAt := some leaseUntil
        updatedAt := now })
    (fun _ => rfl)

/-- `claim`: bury exhausted jobs, then lease the first due one. -/
def claim (spec : EmbeddingSpec) (maxAttempts : Nat) (workerId token now leaseUntil : String)
    (s : Store) : Store × Option ClaimedEmbeddingJob :=
  let buried := buryExhausted spec maxAttempts now s.embeddingJobs
  let due := buried.select fun j => j.Due spec maxAttempts now
  match due.insertionSort (fun j j' => j.jobId ≤ j'.jobId) with
  | [] => ({ s with embeddingJobs := buried }, none)
  | row :: _ =>
      ({ s with embeddingJobs := leaseJob row workerId token now leaseUntil buried },
        some ⟨row.jobId, row.factId, row.contentSha256, row.attempts + 1, token⟩)

/-! ## Processing a claimed job -/

/-- What `process_one` reports of a job. -/
inductive Outcome where
  | requeuedActive
  | skippedInactive
  | skippedStale
  | requeuedChanged
  | embedded
  | pending
  | deadLetter
  deriving DecidableEq, Repr

/-- The content of the fact, when it is there and active. -/
def activeContent (s : Store) (factId : Nat) : Option String :=
  ((s.facts.get? factId).filter fun r => r.Active).map FactRow.content

/-- Free the lease and make the job pending again, for a given content. -/
def requeued (digest now : String) (j : JobRow) : JobRow :=
  { j with
    status := .pending
    contentSha256 := digest
    availableAt := now
    leaseToken := none
    leaseOwner := none
    leaseExpiresAt := none
    updatedAt := now }

/-- Free the lease and end the job. -/
def finished (error : Option String) (now : String) (j : JobRow) : JobRow :=
  { j with
    status := .completed
    leaseToken := none
    leaseOwner := none
    leaseExpiresAt := none
    lastError := error
    completedAt := some now
    updatedAt := now }

/-- `_settle_inactive`: skip a job whose fact is not active, or put it back if it is. -/
def settleInactive (host : Host) (now : String) (job : ClaimedEmbeddingJob) (s : Store) :
    Py (Store × Outcome) := do
  let lost := runtimeError "embedding job lease was lost while settling"
  match activeContent s job.factId with
  | some content =>
      let embeddingJobs := s.embeddingJobs.update (fun j => j.HeldFor job)
        (requeued (host.sha256 content) now) (fun _ => rfl)
      require (s.embeddingJobs.rowcount (fun j => j.HeldFor job) = 1) lost
      return ({ s with embeddingJobs }, .requeuedActive)
  | none =>
      let embeddingJobs := s.embeddingJobs.update (fun j => j.HeldFor job)
        (finished (some "skipped_inactive") now) (fun _ => rfl)
      require (s.embeddingJobs.rowcount (fun j => j.HeldFor job) = 1) lost
      return ({ s with embeddingJobs }, .skippedInactive)

/-- `_commit_prepared`: check the lease and the fact again, then store the vector. -/
def commitPrepared (host : Host) (spec : EmbeddingSpec) (now : String) (job : ClaimedEmbeddingJob)
    (expectedHash : String) (embedding : List Decimal) (s : Store) : Py (Store × Outcome) := do
  require (∃ j ∈ s.embeddingJobs.rows, j.HeldFor job ∧ j.OfSpec spec)
    (runtimeError "embedding job lease was lost after model call")
  match activeContent s job.factId with
  | none =>
      let embeddingJobs := s.embeddingJobs.update (fun j => j.jobId = job.jobId)
        (finished (some "skipped_stale") now) (fun _ => rfl)
      return ({ s with embeddingJobs }, .skippedStale)
  | some content =>
      if host.sha256 content ≠ expectedHash then
        let embeddingJobs := s.embeddingJobs.update (fun j => j.jobId = job.jobId)
          (requeued (host.sha256 content) now) (fun _ => rfl)
        return ({ s with embeddingJobs }, .requeuedChanged)
      else
        let s ← upsertInTransaction spec s job.factId embedding
        let embeddingJobs := s.embeddingJobs.update (fun j => j.jobId = job.jobId)
          (fun j => { finished none now j with contentSha256 := host.sha256 content })
          (fun _ => rfl)
        return ({ s with embeddingJobs }, .embedded)

/-- `_fail`: retry later, or give up. -/
def fail (maxAttempts : Nat) (now available errorType : String) (job : ClaimedEmbeddingJob)
    (s : Store) : Py (Store × Outcome) := do
  let embeddingJobs := s.embeddingJobs.update (fun j => j.HeldFor job)
    (fun j =>
      { j with
        status := if maxAttempts ≤ job.attempts then .deadLetter else .pending
        availableAt := available
        leaseToken := none
        leaseOwner := none
        leaseExpiresAt := none
        lastError := some errorType
        updatedAt := now })
    (fun _ => rfl)
  require (s.embeddingJobs.rowcount (fun j => j.HeldFor job) = 1)
    (runtimeError "embedding job lease was lost before failure handling")
  return ({ s with embeddingJobs },
    if maxAttempts ≤ job.attempts then .deadLetter else .pending)

end EmbeddingJobProcessor

/-- What a call of the configured embedder does with a prefixed content. -/
abbrev DocumentModel := String → Option (List Decimal)

/-- `embed_document`; the error is the type name of the exception. -/
def embedDocument (model : DocumentModel) (spec : EmbeddingSpec) (content : String) :
    Except String (List Decimal) :=
  match model content with
  | none => .error "StoredEmbeddingError"
  | some vector =>
      if vector.length = spec.dimensions then .ok vector else .error "StoredEmbeddingError"

/-! ## Workers over one store -/

namespace EmbeddingSystem

/-- Where a worker stands in `process_one`. -/
inductive Phase where
  | claimed (job : ClaimedEmbeddingJob)
  /-- Its read found the fact missing or not active. -/
  | inactive (job : ClaimedEmbeddingJob)
  | prepared (job : ClaimedEmbeddingJob) (currentHash : String) (embedding : List Decimal)
  /-- Its model call raised. -/
  | failed (job : ClaimedEmbeddingJob) (errorType : String)

def Phase.job : Phase → ClaimedEmbeddingJob
  | .claimed job | .inactive job | .prepared job _ _ | .failed job _ => job

/-- What all workers share. -/
structure Setting where
  host : Host
  spec : EmbeddingSpec
  maxAttempts : Nat
  model : DocumentModel

structure State where
  store : Store
  workers : Nat → Option Phase
  /-- The tokens of all claims so far. -/
  issued : List String

def State.initial : State := ⟨Store.empty, fun _ => none, []⟩

inductive Action where
  /-- A call on the store. -/
  | call (op : Op)
  | backfill (now : String)
  | claim (worker : Nat) (workerId token now leaseUntil : String)
  /-- Read the fact and, when it is active, run the model; `raised` is the type of an exception
  of the model call. -/
  | embed (worker : Nat) (raised : Option String)
  | settle (worker : Nat) (now : String)
  | commit (worker : Nat) (now : String)
  | fail (worker : Nat) (now available : String)
  | crash (worker : Nat)

def State.setWorker (state : State) (worker : Nat) (phase : Option Phase) : State :=
  { state with workers := Function.update state.workers worker phase }

/-- The read of `process_one` and the model call. -/
def embedPhase (setting : Setting) (raised : Option String) (s : Store)
    (job : ClaimedEmbeddingJob) : Phase :=
  match EmbeddingJobProcessor.activeContent s job.factId with
  | none => .inactive job
  | some content =>
      match raised with
      | some errorType => .failed job errorType
      | none =>
          match embedDocument setting.model setting.spec content with
          | .error errorType => .failed job errorType
          | .ok embedding => .prepared job (setting.host.sha256 content) embedding

/-- The last call of `process_one`, in its transaction; the worker is idle after it. -/
def finishWith {α : Type} (state : State) (worker : Nat) (result : Py (Store × α)) : State :=
  { state.setWorker worker none with store := Theory.commit state.store result }

/-- One step of the system.  A worker that is not where the action needs it does nothing. -/
def advance (setting : Setting) (action : Action) (state : State) : State :=
  match action with
  | .call op => { state with store := Model.step setting.host op state.store }
  | .backfill now =>
      { state with store := (enqueueBackfill setting.host setting.spec now state.store).1 }
  | .claim worker workerId token now leaseUntil =>
      match state.workers worker with
      | some _ => state
      | none =>
          let (store, job) := EmbeddingJobProcessor.claim setting.spec setting.maxAttempts workerId
            token now leaseUntil state.store
          { store, workers := Function.update state.workers worker (job.map .claimed)
            issued := token :: state.issued }
  | .embed worker raised =>
      match state.workers worker with
      | some (.claimed job) =>
          state.setWorker worker (some (embedPhase setting raised state.store job))
      | _ => state
  | .settle worker now =>
      match state.workers worker with
      | some (.inactive job) =>
          finishWith state worker
            (EmbeddingJobProcessor.settleInactive setting.host now job state.store)
      | _ => state
  | .commit worker now =>
      match state.workers worker with
      | some (.prepared job currentHash embedding) =>
          finishWith state worker
            (EmbeddingJobProcessor.commitPrepared setting.host setting.spec now job currentHash
              embedding state.store)
      | _ => state
  | .fail worker now available =>
      match state.workers worker with
      | some (.failed job errorType) =>
          finishWith state worker
            (EmbeddingJobProcessor.fail setting.maxAttempts now available errorType job state.store)
      | _ => state
  | .crash worker => state.setWorker worker none

/-- Tokens are never issued twice. -/
def FreshToken : Action → State → Prop
  | .claim _ _ token _ _, state => token ∉ state.issued
  | _, _ => True

end EmbeddingSystem

/-! ## Sample runs -/

namespace Sample

/-- The sample service with an outbox. -/
def outboxService : MemoryWriteService := { service with outbox := some spec }

/-- One attempt for every job, and one vector for every content. -/
def setting : EmbeddingSystem.Setting := ⟨host, spec, 1, fun _ => some [.one]⟩

/-- A fact is written, claimed and embedded. -/
def embedding : List EmbeddingSystem.Action :=
  [.call (.write ⟨outboxService, tick "1", context "agent-a", request "the door opens", none⟩),
    .claim 0 "worker" "token" "2026-01-02" "2026-01-03", .embed 0 none, .commit 0 "2026-01-02"]

/-- Two facts in conflict are enqueued, and both jobs are skipped. -/
def skippedDispute : List EmbeddingSystem.Action :=
  [.call (.write { red with service := outboxService }),
    .call (.write { blue with service := outboxService }),
    .claim 0 "worker" "first" "2026-01-03" "2026-01-04", .embed 0 none, .settle 0 "2026-01-03",
    .claim 0 "worker" "second" "2026-01-03" "2026-01-04", .embed 0 none, .settle 0 "2026-01-03"]

end Sample

end Enfold.Model
