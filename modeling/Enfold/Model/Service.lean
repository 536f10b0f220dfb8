/-
# Model.Service -- conflict resolution as a request (`service.py`)

`resolveConflict` is the authorized path to `resolveStateConflict`: the client must be
allowed to resolve, the conflict must be open and in one of the connection's scopes, and
the resolver is registered and recorded.
-/
import Enfold.Model.WriteService

namespace Enfold.Model

open Enfold.Theory

set_option autoImplicit false

def serviceRequestError (code message : String) : Raised :=
  ⟨.serviceRequestError, code ++ ": " ++ message⟩

/-- Value and runtime errors of a resolution become a request error. -/
def asInvalidResolution {α : Type} (result : Py α) : Py α :=
  match result with
  | .ok a => .ok a
  | .error e =>
      match e.kind with
      | .typeError | .integrityError | .overflowError | .indexError | .permissionError
      | .unknownMemoryClient | .serviceRequestError | .guardRailError | .foreign => .error e
      | _ => .error (serviceRequestError "invalid_resolution" e.message)

/-- `EnfoldService._resolve_conflict`. -/
def resolveConflict (host : Host) (service : MemoryWriteService) (resolvedAt : String)
    (context : ConnectionContext) (conflictId : String) (resolutionFactId : Nat) (reason : String)
    (s : Store) : Py (Store × ConflictResolution) := do
  require (service.policy.canResolveConflicts context.clientId)
    (serviceRequestError "access_denied" "memory client is not authorized to resolve conflicts")
  let conflictId := strip conflictId
  let reason := strip reason
  require (conflictId ≠ "")
    (serviceRequestError "invalid_params" "conflict_id must be a non-empty string")
  require (0 < resolutionFactId)
    (serviceRequestError "invalid_params" "resolution_fact_id must be a positive integer")
  require (reason ≠ "") (serviceRequestError "invalid_params" "reason must be a non-empty string")
  require (∃ c ∈ s.conflicts.get? conflictId, c.scope ∈ context.accessScopes ∧ c.Unresolved)
    (serviceRequestError "not_found" "conflict was not found")
  asInvalidResolution do
    let s ← registerClient s context resolvedAt
    let s ← registerSession s context resolvedAt
    let (s, resolution) ← resolveStateConflict s resolvedAt conflictId resolutionFactId
      context.agentId reason (some resolvedAt) (some context.clientId) (some context.sessionId)
      (some context.agentId)
    let s ← enqueueEmbedding host service resolvedAt s (some resolutionFactId)
    return (s, resolution)

end Enfold.Model
