/-
# Model.Workers -- the supervised worker threads (`extraction_worker.py`, `embedding_jobs.py`)

A daemon runs the extraction processor and the embedding processor each in a thread of its own.  The
two threads run one loop: test the stop flag, drain a few jobs with a test before each, wait.  They
differ in what they do with a result.  A step is what the thread does between two points where the
flag may be set, so a call may begin although the flag was set right after its test.
-/
import Enfold.Model.EmbeddingProcessor
import Enfold.Model.ExtractionProcessor

namespace Enfold.Model

open Enfold.Theory

set_option autoImplicit false

/-- What a worker does with the result of a call. -/
structure Verdict where
  /-- The new `_last_error`, where it is assigned. -/
  error : Option (Option String)
  /-- `_last_success` is assigned. -/
  success : Bool
  /-- The drain is over. -/
  breaks : Bool
  deriving DecidableEq

structure SupervisedWorker (R : Type) where
  drainLimit : Int
  limitPositive : 1 ≤ drainLimit
  verdict : R → Verdict
  /-- `_last_error` after an exception of this class. -/
  failure : String → String
  /-- The heartbeat is set after a call as well. -/
  pulses : Bool

namespace SupervisedWorker

variable {R : Type}

/-- The constructor both classes have. -/
def make (verdict : R → Verdict) (failure : String → String) (pulses : Bool) (pollSeconds : Decimal)
    (drainLimit : Int) : Py (SupervisedWorker R) :=
  if limitPositive : 1 ≤ drainLimit then
    if 0 < pollSeconds.value then .ok ⟨drainLimit, limitPositive, verdict, failure, pulses⟩
    else .error (valueError "worker polling configuration is invalid")
  else .error (valueError "worker polling configuration is invalid")

/-! ## The two workers -/

def jobError (error : Option String) (outcome : String) : String :=
  match error with
  | some text => if text = "" then "job_" ++ outcome else text
  | none => "job_" ++ outcome

/-- `SupervisedExtractionWorker._run` on a result. -/
def extractionVerdict (result : ProcessResult) : Verdict :=
  match result.outcome with
  | .idle => ⟨some none, false, true⟩
  | .completed => ⟨some none, true, false⟩
  | .retry => ⟨some (some (jobError result.error "retry")), false, false⟩
  | .dead => ⟨some (some (jobError result.error "dead")), false, false⟩

def extractionWorker (pollSeconds : Decimal) (drainLimit : Int) :
    Py (SupervisedWorker ProcessResult) :=
  make extractionVerdict (fun _ => "worker_failure") true pollSeconds drainLimit

/-- `SupervisedEmbeddingWorker._run` on a result; without one it asks whether the outbox has rows
that are not completed. -/
def embeddingVerdict : Option EmbeddingJobProcessor.Outcome × Bool → Verdict
  | (none, true) => ⟨none, false, true⟩
  | (none, false) => ⟨some none, false, true⟩
  | (some .embedded, _) => ⟨some none, true, false⟩
  | (some .pending, _) => ⟨some (some "job_pending"), false, false⟩
  | (some .deadLetter, _) => ⟨some (some "job_dead_letter"), false, false⟩
  | (some _, _) => ⟨some none, false, false⟩

def embeddingWorker (pollSeconds : Decimal) (drainLimit : Int) :
    Py (SupervisedWorker (Option EmbeddingJobProcessor.Outcome × Bool)) :=
  make embeddingVerdict id false pollSeconds drainLimit

/-! ## The thread -/

/-- Where the thread stands. -/
inductive Phase where
  | notStarted
  /-- Before the test of the loop. -/
  | loop
  /-- Before the test of a drain with this many calls left. -/
  | drain (left : Nat)
  /-- The flag was not set; the call comes next. -/
  | ready (left : Nat)
  | calling (left : Nat)
  | waiting
  | ended
  deriving DecidableEq, Repr

structure State where
  phase : Phase
  stopping : Bool
  heartbeat : Option Nat
  lastSuccess : Option Nat
  lastError : Option String
  /-- The calls that have begun since the flag was set. -/
  late : Nat

def State.initial : State := ⟨.notStarted, false, none, none, none, 0⟩

inductive Action (R : Type) where
  /-- `start`; a second one raises. -/
  | start
  /-- `stop` sets the flag. -/
  | stop
  /-- The next step of the thread outside a call. -/
  | run (now : Nat)
  /-- The end of a call. -/
  | returns (result : R) (now : Nat)
  | raises (className : String)

/-- What is written down of a result. -/
def recorded (worker : SupervisedWorker R) (result : R) (now : Nat) (state : State) : State :=
  { state with
    heartbeat := if worker.pulses then some now else state.heartbeat
    lastSuccess := if (worker.verdict result).success then some now else state.lastSuccess
    lastError := (worker.verdict result).error.getD state.lastError }

def runStep (worker : SupervisedWorker R) (now : Nat) (state : State) : State :=
  match state.phase with
  | .loop =>
      if state.stopping then { state with phase := .ended }
      else { state with heartbeat := some now, phase := .drain worker.drainLimit.toNat }
  | .drain 0 => { state with phase := .waiting }
  | .drain (left + 1) => { state with phase := if state.stopping then .waiting else .ready left }
  | .ready left =>
      { state with
        phase := .calling left
        late := if state.stopping then state.late + 1 else state.late }
  | .waiting => { state with phase := .loop }
  | .notStarted | .calling _ | .ended => state

def advance (worker : SupervisedWorker R) : Action R → State → State
  | .start, state =>
      match state.phase with
      | .notStarted => { state with phase := .loop }
      | _ => state
  | .stop, state => { state with stopping := true }
  | .run now, state => worker.runStep now state
  | .returns result now, state =>
      match state.phase with
      | .calling left =>
          { worker.recorded result now state with
            phase := if (worker.verdict result).breaks then .waiting else .drain left }
      | _ => state
  | .raises className, state =>
      match state.phase with
      | .calling _ => { state with lastError := some (worker.failure className), phase := .waiting }
      | _ => state

end SupervisedWorker

end Enfold.Model
