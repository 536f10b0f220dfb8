/-
# Model.Envelope -- the text of a queued transcript (`protocol.py`, `extraction_processor.py`)

The constructor of a client context, which every context of the wire went through, and the reader
of the payload of a queue row, from its text.
-/
import Enfold.Model.ExtractionProcessor

namespace Enfold.Model

open Enfold.Theory

set_option autoImplicit false

/-- `ClientContext(…)`: identities are stripped tokens, the other texts are absent or stripped and
not empty, and the scopes are distinct tokens. -/
def ClientContext.make (clientId surface agentId sessionId : String)
    (parentAgentId projectRoot repository branch commitSha : Option String)
    (accessScopes : List String) : Option ClientContext := do
  return {
    clientId := ← tokenText (.str clientId)
    surface := ← tokenText (.str surface)
    agentId := ← tokenText (.str agentId)
    sessionId := ← tokenText (.str sessionId)
    parentAgentId := ← optionalText (Json.ofText parentAgentId)
    projectRoot := ← optionalText (Json.ofText projectRoot)
    repository := ← optionalText (Json.ofText repository)
    branch := ← optionalText (Json.ofText branch)
    commitSha := ← optionalText (Json.ofText commitSha)
    accessScopes := ← tokenTuple (.arr (accessScopes.map .str)) }

/-- A dictionary of JSON values; the order of its keys is no part of it. -/
structure JsonObject where
  members : List (String × Json)
  canonical : (Json.obj members).Canonical

/-- The fields of the wire context that an effective context carries. -/
def ConnectionContext.wire (context : ConnectionContext) : ClientContext where
  clientId := context.clientId
  surface := context.surface
  agentId := context.agentId
  sessionId := context.sessionId
  parentAgentId := context.parentAgentId
  projectRoot := context.projectRoot
  repository := context.repository
  branch := context.branch
  commitSha := context.commitSha
  accessScopes := context.accessScopes

/-- `_decode_envelope`, from the text of the payload: the envelope, and its metadata. -/
def decodePayload (payload : String) : Processing (ExtractionEnvelope × Json) :=
  match Json.loads payload with
  | none => .error (.permanent "invalid_envelope")
  | some data => do
      let envelope ← decodeEnvelope data
      return (envelope, (data.get? "metadata").getD (.obj []))

end Enfold.Model
