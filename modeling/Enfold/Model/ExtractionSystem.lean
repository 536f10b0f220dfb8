/-
# Model.ExtractionSystem -- extraction workers over one queue (`extraction_processor.py`)

`processOne` is one worker that nobody interferes with.  Here any number of workers share a store.
A worker's call of `process_one` is cut at its commits: it claims a row, opens it, renews its
lease while the model runs, persists the snapshot, issues the writes one by one, and completes
the row or records its failure.  Between any two of these steps other workers and the calls of
other clients may run, and the worker may crash.

The state keeps a journal beside the store: the claims, the snapshots that were persisted, and the
writes that were issued with their answers.  No step reads it.
-/
import Enfold.Model.ExtractionProcessor
import Enfold.Model.Runs
import Mathlib.Logic.Function.Basic

namespace Enfold.Model

open Enfold.Theory

set_option autoImplicit false

namespace ExtractionSystem

/-! ## Workers -/

/-- What `_claim` hands to the rest of `process_one`: the row as it was, and the lease on it. -/
structure Claim where
  row : QueueRow
  lease : Lease

def Claim.identity (host : Host) (job : Claim) : RowIdentity := ⟨job.row.id, rowDigest host job.row⟩

/-- Where a worker stands in `process_one`. -/
inductive Phase where
  | claimed (job : Claim)
  /-- The row has no snapshot; the model runs. -/
  | extracting (job : Claim) (envelope : ExtractionEnvelope)
  | extracted (job : Claim) (envelope : ExtractionEnvelope) (document : Json)
  /-- The batch is prepared and the writes before `index` are done. -/
  | writing (job : Claim) (envelope : ExtractionEnvelope) (prepared : List Json) (index : Nat)
  /-- An exception is about to be recorded. -/
  | failing (job : Claim) (failure : Failure)

def Phase.job : Phase → Claim
  | .claimed job | .extracting job _ | .extracted job _ _ | .writing job _ _ _ | .failing job _ => job

/-- A `memory.write` that a worker issued, and its outcome when it did not raise. -/
structure IssuedWrite where
  job : Claim
  envelope : ExtractionEnvelope
  index : Nat
  params : Json
  answer : Option WriteOutcome

structure State where
  store : Store
  workers : Nat → Option Phase
  /-- All claims so far, the newest first. -/
  claims : List Claim
  /-- The snapshots that were persisted, each with the id of its row. -/
  persisted : List (Nat × Json)
  /-- The writes that were issued, the newest first. -/
  writes : List IssuedWrite

def State.initial : State := ⟨Store.empty, fun _ => none, [], [], []⟩

def State.setWorker (state : State) (worker : Nat) (phase : Option Phase) : State :=
  { state with workers := Function.update state.workers worker phase }

/-- What all workers share: the digest, and the configuration of each. -/
structure Setting where
  host : Host
  processor : Nat → ExtractionProcessor

/-! ## Steps -/

inductive Action where
  /-- A call of some client. -/
  | call (op : Op)
  | claim (worker : Nat) (lease : Lease) (now leaseUntil : Decimal)
  /-- Decode the envelope and look for a snapshot. -/
  | load (worker : Nat)
  /-- A heartbeat during the model call. -/
  | beat (worker : Nat) (now leaseUntil : Decimal)
  /-- The model returns, or raises with an `error_code`. -/
  | answer (worker : Nat) (extraction : Except (Option String) (List ExtractedMemory))
  | persist (worker : Nat)
  | write (worker : Nat) (service : MemoryWriteService) (tick : Tick)
  | complete (worker : Nat)
  | fail (worker : Nat) (retryAt : Decimal)
  /-- A statement of the worker raises, as on a locked database. -/
  | interrupt (worker : Nat) (e : Raised)
  | crash (worker : Nat)

/-- A batch that is prepared is written from its first proposal on. -/
def preparePhase (host : Host) (job : Claim) (envelope : ExtractionEnvelope) (text hash : String) :
    Phase :=
  match prepareSnapshot host text hash envelope (job.identity host) with
  | .error failure => .failing job failure
  | .ok prepared => .writing job envelope prepared 0

/-- `_decode_envelope`, then `_load_snapshot`. -/
def loadPhase (host : Host) (job : Claim) (s : Store) : Phase :=
  match decodeEnvelope job.row.payload with
  | .error failure => .failing job failure
  | .ok envelope =>
      match loadSnapshot job.row.id job.lease s with
      | .error failure => .failing job failure
      | .ok (some (text, hash)) => preparePhase host job envelope text hash
      | .ok none => .extracting job envelope

/-- `_make_snapshot` of what the model returned. -/
def answerPhase (processor : ExtractionProcessor) (job : Claim) (envelope : ExtractionEnvelope)
    (extraction : Except (Option String) (List ExtractedMemory)) : Phase :=
  match extraction with
  | .error code => .failing job (.extractor code)
  | .ok proposals =>
      match snapshotOf processor proposals envelope with
      | .error failure => .failing job failure
      | .ok document => .extracted job envelope document

/-- One step of the system.  A worker that is not where the action needs it does nothing. -/
def advance (setting : Setting) (action : Action) (state : State) : State :=
  match action with
  | .call op => { state with store := Model.step setting.host op state.store }
  | .claim worker lease now leaseUntil =>
      match state.workers worker with
      | some _ => state
      | none =>
          match Model.claim (setting.processor worker).maxAttempts lease now leaseUntil
              state.store with
          | .error _ => state
          | .ok (store, none) => { state with store }
          | .ok (store, some row) =>
              { state.setWorker worker (some (.claimed ⟨row, lease⟩)) with
                store, claims := ⟨row, lease⟩ :: state.claims }
  | .load worker =>
      match state.workers worker with
      | some (.claimed job) =>
          state.setWorker worker (some (loadPhase setting.host job state.store))
      | _ => state
  | .beat worker now leaseUntil =>
      match state.workers worker with
      | some (.extracting job _) =>
          match renew.{0} job.row.id job.lease now leaseUntil state.store with
          | .error e => state.setWorker worker (some (.failing job (.raised e)))
          | .ok (store, _) => { state with store }
      | _ => state
  | .answer worker extraction =>
      match state.workers worker with
      | some (.extracting job envelope) =>
          state.setWorker worker
            (some (answerPhase (setting.processor worker) job envelope extraction))
      | _ => state
  | .persist worker =>
      match state.workers worker with
      | some (.extracted job envelope document) =>
          match persistSnapshot.{0} setting.host job.row.id job.lease document state.store with
          | .error e => state.setWorker worker (some (.failing job (.raised e)))
          | .ok (store, _) =>
              let text := Json.dumps .unicode document
              { state.setWorker worker
                  (some (preparePhase setting.host job envelope text (setting.host.sha256 text))) with
                store, persisted := (job.row.id, document) :: state.persisted }
      | _ => state
  | .write worker service tick =>
      match state.workers worker with
      | some (.writing job envelope prepared index) =>
          match prepared[index]? with
          | none => state
          | some params =>
              match handleWrite setting.host service tick envelope.context params state.store with
              | .error e =>
                  { state.setWorker worker (some (.failing job (.raised e))) with
                    writes := ⟨job, envelope, index, params, none⟩ :: state.writes }
              | .ok (store, outcome) =>
                  let phase :=
                    if outcome.outcome.Refuses then
                      .failing job (.permanent "write_policy_rejected")
                    else .writing job envelope prepared (index + 1)
                  { state.setWorker worker (some phase) with
                    store, writes := ⟨job, envelope, index, params, some outcome⟩ :: state.writes }
      | _ => state
  | .complete worker =>
      match state.workers worker with
      | some (.writing job _ prepared index) =>
          if prepared.length ≤ index then
            match Model.complete.{0} job.row.id job.lease state.store with
            | .error e => state.setWorker worker (some (.failing job (.raised e)))
            | .ok (store, _) => { state.setWorker worker none with store }
          else state
      | _ => state
  | .fail worker retryAt =>
      match state.workers worker with
      | some (.failing job failure) =>
          { state.setWorker worker none with
            store := Theory.commit state.store
              (Model.fail (setting.processor worker).maxAttempts job.row.id job.lease
                failure.safeErrorCode failure.Permanent retryAt state.store) }
      | _ => state
  | .interrupt worker e =>
      match state.workers worker with
      | some phase => state.setWorker worker (some (.failing phase.job (.raised e)))
      | none => state
  | .crash worker => state.setWorker worker none

/-- Calls that only a worker makes. -/
def WorkerCall : Op → Prop
  | .claim .. | .renew .. | .persistSnapshot .. | .complete .. | .fail .. => True
  | _ => False

/-- Other clients write, resolve, erase and enqueue; they do not act as workers.  Tokens are
never issued twice. -/
def Admitted : Action → State → Prop
  | .call op, _ => ¬ WorkerCall op
  | .claim _ lease _ _, state => ∀ job ∈ state.claims, job.lease.token ≠ lease.token
  | _, _ => True

end ExtractionSystem

end Enfold.Model
