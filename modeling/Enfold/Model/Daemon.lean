/-
# Model.Daemon -- one connection of the daemon (`daemon.py`)

`serveClient` is the loop of a connection: it collects received bytes in a buffer, cuts frames
off at newlines and hands each to a handler, which says whether the connection stays open.
`handleFrame` is the daemon's handler: it decodes the frame, negotiates the handshake of a new
connection, and after that passes requests on to the application.

The application, the socket and the interpreter are inputs.  An exception that no clause
catches ends the thread of the connection, which closes it.
-/
import Enfold.Model.Protocol

namespace Enfold.Model

open Enfold.Theory

set_option autoImplicit false

/-! ## The receive loop -/

/-- What happens when the loop asks the socket for bytes.  An empty chunk is the end of the
stream. -/
inductive Received where
  | chunk (bytes : List UInt8)
  | timeout
  | failed
  /-- The daemon is shutting down. -/
  | stopped

/-- How a connection ends. -/
inductive Ending where
  | frameTooLarge
  | requestTimeout
  | closed
  | endOfStream
  | socketFailed
  | stopped
  deriving DecidableEq, Repr

def newline : UInt8 := 10

/-- The bytes before the first newline and those after it. -/
def cutLine : List UInt8 → Option (List UInt8 × List UInt8)
  | [] => none
  | byte :: rest =>
      if byte = newline then some ([], rest)
      else (cutLine rest).map fun p => (byte :: p.1, p.2)

theorem cutLine_eq_some {buffer line rest : List UInt8} :
    cutLine buffer = some (line, rest) ↔ buffer = line ++ newline :: rest ∧ newline ∉ line := by
  induction buffer generalizing line with
  | nil => simp [cutLine]
  | cons byte buffer ih =>
      rw [cutLine]
      by_cases ends : byte = newline
      · rw [if_pos ends]
        constructor
        · intro cut
          cases cut
          simp [ends]
        · rintro ⟨whole, solid⟩
          cases line with
          | nil =>
              cases whole
              rfl
          | cons first line =>
              cases whole
              exact absurd (ends ▸ List.mem_cons_self) solid
      · rw [if_neg ends]
        constructor
        · intro cut
          obtain ⟨⟨line', rest'⟩, inner, same⟩ := Option.map_eq_some_iff.1 cut
          cases same
          obtain ⟨whole, solid⟩ := ih.1 inner
          refine ⟨by rw [whole]; rfl, ?_⟩
          simpa [Ne.symm ends] using solid
        · rintro ⟨whole, solid⟩
          cases line with
          | nil =>
              cases whole
              exact absurd rfl ends
          | cons first line =>
              cases whole
              rw [ih.2 ⟨rfl, fun mem => solid (List.mem_cons_of_mem _ mem)⟩]
              rfl

theorem cutLine_eq_none {buffer : List UInt8} : cutLine buffer = none ↔ newline ∉ buffer := by
  induction buffer with
  | nil => simp [cutLine]
  | cons byte buffer ih =>
      rw [cutLine]
      by_cases ends : byte = newline
      · simp [ends]
      · simp [ends, Ne.symm ends, ih]

theorem cutLine_shorter {buffer line rest : List UInt8} (cut : cutLine buffer = some (line, rest)) :
    rest.length < buffer.length := by
  obtain ⟨rfl, -⟩ := cutLine_eq_some.1 cut
  simp only [List.length_append, List.length_cons]
  omega

section Serve

variable {σ : Type} (maxFrameBytes : Nat) (handle : σ → List UInt8 → Bool × σ)

/-- The frames that were handled, the state they left, and how the inner loop ended: it waits
for more with what is left of the buffer, or the connection has ended. -/
structure Served (σ ρ : Type) where
  frames : List (List UInt8)
  state : σ
  outcome : ρ

/-- The inner loop of `_serve_client`: hand over the complete frames of the buffer. -/
def drain (state : σ) (buffer : List UInt8) : Served σ (Except Ending (List UInt8)) :=
  match _cut : cutLine buffer with
  | none =>
      if maxFrameBytes < buffer.length then ⟨[], state, .error .frameTooLarge⟩
      else ⟨[], state, .ok buffer⟩
  | some (frame, rest) =>
      if maxFrameBytes < frame.length then ⟨[], state, .error .frameTooLarge⟩
      else
        match handle state frame with
        | (false, state) => ⟨[frame], state, .error .closed⟩
        | (true, state) =>
            let later := drain state rest
            ⟨frame :: later.frames, later.state, later.outcome⟩
  termination_by buffer.length
  decreasing_by exact cutLine_shorter _cut

/-- `_serve_client`, from a buffer. -/
def serveFrom (state : σ) (buffer : List UInt8) : List Received → Served σ Ending
  | [] | .chunk [] :: _ => ⟨[], state, .endOfStream⟩
  | .timeout :: _ => ⟨[], state, .requestTimeout⟩
  | .failed :: _ => ⟨[], state, .socketFailed⟩
  | .stopped :: _ => ⟨[], state, .stopped⟩
  | .chunk bytes :: later =>
      match drain maxFrameBytes handle state (buffer ++ bytes) with
      | ⟨frames, state, .error ending⟩ => ⟨frames, state, ending⟩
      | ⟨frames, state, .ok buffer⟩ =>
          let rest := serveFrom state buffer later
          ⟨frames ++ rest.frames, rest.state, rest.outcome⟩

/-- `_serve_client`. -/
def serveClient (state : σ) (received : List Received) : Served σ Ending :=
  serveFrom maxFrameBytes handle state [] received

end Serve

/-! ## Handling a frame -/

namespace Protocol

/-- `DaemonConfig`, as far as a connection depends on it. -/
structure DaemonConfig where
  serverVersion : PyText
  schemaVersion : Nat
  serverCapabilities : List PyText
  maxFrameBytes : Nat
  versionFilled : stripText serverVersion ≠ []
  framesLarge : 512 ≤ maxFrameBytes

/-- `_NegotiatedConnection`. -/
structure NegotiatedConnection where
  context : ClientContext
  capabilities : List String
  protocol : ProtocolVersion
  schemaVersion : Nat

/-- What the application does with a request. -/
inductive HandlerReply where
  | returned (result : PyValue)
  /-- `RequestHandlingError`. -/
  | refused (code message : PyText)
  /-- Any other exception, or a result that is no JSON. -/
  | raised

/-- A call into the application. -/
inductive Invocation where
  | handler (context : ClientContext) (request : Request)
  | healthHook (context : ClientContext)

/-- The daemon and what it calls. -/
structure Daemon where
  config : DaemonConfig
  interpreter : Interpreter
  /-- Whether a health hook is configured. -/
  hasHealthHook : Bool

/-- What happens around one frame. -/
structure Surroundings where
  reply : HandlerReply
  /-- `sendall` succeeds. -/
  sends : Bool

/-- `ProtocolVersion()`. -/
def currentVersion : ProtocolVersion := ⟨1, 0⟩

def emptyPayload : ObjectPayload :=
  ⟨[], by simp [WellFormed, Ordered, WellFormedMembers], by simp [PyValue.height, PyValue.heightMembers]⟩

def nullPayload : Payload := ⟨.null, by simp [WellFormed], by simp [PyValue.height]⟩

/-- `ProtocolError(code, message)`. -/
def ProtocolError.make (code message : PyText) : Decoding ProtocolError := do
  let code ← requiredToken (.str code)
  let message ← requiredString (.str message)
  return { code, message, retryable := false, details := emptyPayload }

def natText (n : Nat) : PyText := (Nat.toDigits 10 n).map .char

/-- A refused handshake. -/
def HandshakeResponse.refusal (serviceVersion : PyText) (schemaVersion : Nat) (code : String)
    (message : PyText) : Decoding HandshakeResponse := do
  let error ← ProtocolError.make (PyText.ofString code) message
  let serviceVersion ← requiredString (.str serviceVersion)
  return { accepted := false, capabilities := ⟨[], List.nodup_nil⟩, serviceVersion
           error := some error, protocol := currentVersion, schemaVersion, consistent := rfl }

/-- `negotiate_handshake`. -/
def negotiateHandshake (config : DaemonConfig) (handshake : Handshake) :
    Decoding HandshakeResponse := do
  let serviceVersion ← requiredString (.str config.serverVersion)
  let server ← stringTuple (.arr (config.serverCapabilities.map .str))
  if handshake.protocol.major ≠ currentVersion.major then
    HandshakeResponse.refusal config.serverVersion config.schemaVersion
      "incompatible_protocol_major"
      (PyText.ofString "client major " ++ natText handshake.protocol.major ++
        PyText.ofString "; server major 1")
  else
    return {
      accepted := true
      capabilities :=
        ⟨server.items.filter fun cap => cap.text ∈ handshake.capabilities.items.map Token.text,
          server.distinct.sublist (List.filter_sublist.map _)⟩
      serviceVersion, error := none, protocol := currentVersion
      schemaVersion := config.schemaVersion, consistent := rfl }

/-- `_negotiate`. -/
def negotiate (config : DaemonConfig) (handshake : Handshake) :
    Decoding (HandshakeResponse × Option NegotiatedConnection) := do
  let response ← negotiateHandshake config handshake
  if response.accepted = false then return (response, none)
  else if currentVersion.minor < handshake.protocol.minor then
    let refusal ← HandshakeResponse.refusal config.serverVersion config.schemaVersion
      "incompatible_protocol_minor"
      (PyText.ofString "client minor " ++ natText handshake.protocol.minor ++
        PyText.ofString "; server minor 0")
    return (refusal, none)
  else if handshake.schemaVersion ≠ config.schemaVersion then
    let refusal ← HandshakeResponse.refusal config.serverVersion config.schemaVersion
      "incompatible_schema"
      (PyText.ofString "client schema " ++ natText handshake.schemaVersion ++
        PyText.ofString "; server schema " ++ natText config.schemaVersion)
    return (refusal, none)
  else
    return (response, some
      { context := handshake.context, capabilities := response.capabilities.items.map Token.text
        protocol := handshake.protocol, schemaVersion := handshake.schemaVersion })

/-- A failed response. -/
def Response.failure (config : DaemonConfig) (requestId : Token) (code message : PyText) :
    Decoding Response := do
  let error ← ProtocolError.make code message
  return { requestId, ok := false, result := nullPayload, error := some error
           protocol := currentVersion, schemaVersion := config.schemaVersion, consistent := rfl
           failed := fun _ => rfl }

/-- The frame that stands in for one that is too large. -/
def fallback (config : DaemonConfig) : Frame → Decoding Frame
  | .response frame => (Response.failure config frame.requestId
      (PyText.ofString "response_too_large") (PyText.ofString "response too large")).map .response
  | _ => (HandshakeResponse.refusal config.serverVersion config.schemaVersion
      "response_too_large" (PyText.ofString "response too large")).map .handshakeResponse

/-- `_send`: whether the message or its fallback went out. -/
def send (config : DaemonConfig) (surroundings : Surroundings) (message : Frame) : Bool :=
  match encodeFrame config.maxFrameBytes message with
  | .ok _ => surroundings.sends
  | .error .frameTooLarge =>
      match fallback config message >>= encodeFrame config.maxFrameBytes with
      | .ok _ => surroundings.sends
      | .error _ => false
  | .error _ => false

/-- The frame that `_send` writes to a socket that takes it. -/
def written (config : DaemonConfig) (message : Frame) : Option Frame :=
  match encodeFrame config.maxFrameBytes message with
  | .ok _ => some message
  | .error .frameTooLarge =>
      match fallback config message with
      | .ok standIn => (encodeFrame config.maxFrameBytes standIn).toOption.map fun _ => standIn
      | .error _ => none
  | .error _ => none

/-- What `_handle_frame` returns, and the call into the application that it made. -/
structure Handled where
  keepOpen : Bool
  connection : Option NegotiatedConnection
  invoked : Option Invocation

/-- `required_capability`; the methods of a request are supported. -/
def requiredCapability (method : String) : String := (methodCapabilities.lookup method).getD ""

/-- The response to a reply of the application; its constructors may raise. -/
def respond (config : DaemonConfig) (request : Request) (reply : HandlerReply) : Decoding Response :=
  let internal := Response.failure config request.requestId (PyText.ofString "internal_error")
    (PyText.ofString "request handler failed")
  match reply with
  | .returned result =>
      match payload result with
      | .ok result => .ok
          { requestId := request.requestId, ok := true, result, error := none
            protocol := currentVersion, schemaVersion := config.schemaVersion, consistent := rfl
            failed := by simp }
      | .error _ => internal
  | .refused code message => Response.failure config request.requestId code message
  | .raised => internal

/-- The call that a request makes: the health hook, or the request handler. -/
def invocation (daemon : Daemon) (connection : NegotiatedConnection) (request : Request) :
    Option Invocation :=
  if request.method.text = "health" then
    if daemon.hasHealthHook then some (.healthHook connection.context) else none
  else some (.handler connection.context request)

/-- A permitted request: the application answers, and the response is sent. -/
def handleRequest (daemon : Daemon) (surroundings : Surroundings)
    (connection : NegotiatedConnection) (request : Request) : Handled :=
  let sent :=
    match respond daemon.config request surroundings.reply with
    | .ok response => send daemon.config surroundings (.response response)
    | .error _ => false
  ⟨sent, some connection, invocation daemon connection request⟩

/-- `_handle_frame`.  Errors that are only reported to the peer end the connection. -/
def handleFrame (daemon : Daemon) (surroundings : Surroundings) (frame : List UInt8)
    (connection : Option NegotiatedConnection) : Handled :=
  match decodeFrame daemon.interpreter daemon.config.maxFrameBytes false (.bytes ⟨frame.toArray⟩),
      connection with
  | .error _, connection => ⟨false, connection, none⟩
  | .ok (.handshake handshake), none =>
      match negotiate daemon.config handshake with
      | .error _ => ⟨false, none, none⟩
      | .ok (response, negotiated) =>
          ⟨send daemon.config surroundings (.handshakeResponse response) && response.accepted,
            negotiated, none⟩
  | .ok _, none => ⟨false, none, none⟩
  | .ok (.request request), some connection =>
      if request.protocol ≠ connection.protocol ∨
          request.schemaVersion ≠ connection.schemaVersion then ⟨false, some connection, none⟩
      else if requiredCapability request.method.text ∉ connection.capabilities then
        ⟨true, some connection, none⟩
      else handleRequest daemon surroundings connection request
  | .ok _, some connection => ⟨false, some connection, none⟩

/-- `_send_handshake_refusal`: the frame that it writes. -/
def writtenRefusal (config : DaemonConfig) (code : String) (message : PyText) : Option Frame :=
  match HandshakeResponse.refusal config.serverVersion config.schemaVersion code message with
  | .ok response => written config (.handshakeResponse response)
  | .error _ => none

/-- What `_handle_frame` writes in answer to the first frame of a connection.  The text of a
decoding error is the complaint. -/
def firstAnswer (daemon : Daemon) (complaint : PyText) (frame : List UInt8) : Option Frame :=
  match decodeFrame daemon.interpreter daemon.config.maxFrameBytes false
      (.bytes ⟨frame.toArray⟩) with
  | .error fault =>
      if fault.IsProtocol then writtenRefusal daemon.config "invalid_frame" complaint else none
  | .ok (.handshake handshake) =>
      match negotiate daemon.config handshake with
      | .error _ => none
      | .ok (response, _) => written daemon.config (.handshakeResponse response)
  | .ok _ => writtenRefusal daemon.config "handshake_required"
      (PyText.ofString "the first connection frame must be a handshake")

/-! ## A connection -/

/-- One frame that was handled, and the call it made. -/
structure Handling where
  frame : List UInt8
  invoked : Option Invocation

structure Connected where
  connection : Option NegotiatedConnection
  /-- The frames handled so far. -/
  log : List Handling

/-- The handler of a connection; the surroundings of its frames are numbered. -/
def Daemon.handle (daemon : Daemon) (surroundings : Nat → Surroundings) (state : Connected)
    (frame : List UInt8) : Bool × Connected :=
  let handled := handleFrame daemon (surroundings state.log.length) frame state.connection
  (handled.keepOpen, ⟨handled.connection, state.log ++ [⟨frame, handled.invoked⟩]⟩)

end Protocol

end Enfold.Model
