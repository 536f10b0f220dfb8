/-
# Model.Client -- one request of a client, and the daemon at the other end (`client.py`)

A request opens a connection, sends the handshake of the client, waits for one frame, sends one
request and waits for one more (`EnfoldClient.request`).  What the socket does is an input (`Wire`).
`Daemon.offers` is what a daemon hands to the socket in return: the answers to the frames it handled,
and a last error when it gives up on the connection.

The two sides are joined by what they read (`Joined`): each reads a beginning of what the other
handed over, in any chunks.
-/
import Enfold.Model.Daemon

namespace Enfold.Model.Protocol

open Enfold.Theory

set_option autoImplicit false

/-! ## The client -/

/-- `ClientConfig`, as far as a request depends on it. -/
structure ClientConfig where
  context : ClientContext
  capabilities : Tokens
  protocol : ProtocolVersion
  schemaVersion : Nat
  maxFrameBytes : Nat
  framesLarge : 512 ≤ maxFrameBytes

inductive ClientError where
  /-- `EnfoldTransportError`. -/
  | transport
  /-- `EnfoldProtocolError`. -/
  | protocol
  /-- `EnfoldHandshakeError`. -/
  | handshake (error : ProtocolError)
  /-- `EnfoldRemoteError`. -/
  | remote (error : ProtocolError) (requestId : Token)
  /-- An exception that the client does not wrap. -/
  | raised (fault : Fault)

/-- The clauses of `request`: `ProtocolValidationError` is wrapped. -/
def wrap (fault : Fault) : ClientError := if fault.IsProtocol then .protocol else .raised fault

/-- What the socket of a request does.  A failed `recv`, also by a timeout, is `none`. -/
structure Wire where
  connects : Bool
  sendsHandshake : Bool
  sendsRequest : Bool
  received : List (Option (List UInt8))

/-- `_receive`, with the bytes read so far. -/
def receive (config : ClientConfig) (interpreter : Interpreter) (data : List UInt8) :
    List (Option (List UInt8)) → Except ClientError Frame × List (Option (List UInt8))
  | [] | none :: _ | some [] :: _ => (.error .transport, [])
  | some chunk :: later =>
      match cutLine (data ++ chunk) with
      | some (_, []) =>
          ((decodeFrame interpreter config.maxFrameBytes true
            (.bytes ⟨(data ++ chunk).toArray⟩)).mapError wrap, later)
      | some _ => (.error .protocol, later)
      | none =>
          if config.maxFrameBytes ≤ (data ++ chunk).length then (.error .protocol, later)
          else receive config interpreter (data ++ chunk) later

/-- `_validate_handshake` of the first frame. -/
def validateHandshake (config : ClientConfig) (capability : String) :
    Frame → Except ClientError Unit
  | .handshakeResponse hello =>
      match hello.error with
      -- a response is refused when it has an error
      | some error => .error (.handshake error)
      | none =>
          require (hello.protocol = config.protocol ∧ hello.schemaVersion = config.schemaVersion ∧
            capability ∈ hello.capabilities.items.map Token.text) .protocol
  | _ => .error .protocol

/-- `_validate_response` of the second frame, and the result it carries. -/
def readResponse (config : ClientConfig) (request : Request) : Frame → Except ClientError PyValue
  | .response response => do
      require (response.requestId.text = request.requestId.text ∧
        response.protocol = config.protocol ∧ response.schemaVersion = config.schemaVersion) .protocol
      match response.error with
      | some error => .error (.remote error response.requestId)
      | none => return response.result.value
  | _ => .error .protocol

/-- The frames that were handed to the socket, and what the caller gets. -/
structure Exchanged where
  handed : List (List UInt8)
  outcome : Except ClientError PyValue

/-- `_send` and `_receive` of a frame, and a check of the answer. -/
def exchangeFrame {α : Type} (config : ClientConfig) (interpreter : Interpreter) (frame : Frame)
    (sends : Bool) (received : List (Option (List UInt8)))
    (check : Frame → Except ClientError α) :
    List (List UInt8) × Except ClientError (α × List (Option (List UInt8))) :=
  match encodeFrame config.maxFrameBytes frame with
  | .error fault => ([], .error (wrap fault))
  | .ok encoded =>
      ([encoded.data.toList],
        if sends = false then .error .transport
        else
          match receive config interpreter [] received with
          | (.error error, _) => .error error
          | (.ok answer, later) => (check answer).map fun a => (a, later))

def ClientConfig.hello (config : ClientConfig) : Handshake where
  context := config.context
  capabilities := config.capabilities
  protocol := config.protocol
  schemaVersion := config.schemaVersion

/-- `request`, from the request that was built. -/
def exchange (config : ClientConfig) (interpreter : Interpreter) (wire : Wire) (request : Request) :
    Exchanged :=
  if requiredCapability request.method.text ∉ config.capabilities.items.map Token.text then
    ⟨[], .error .protocol⟩
  else if wire.connects = false then ⟨[], .error .transport⟩
  else
    match exchangeFrame config interpreter (.handshake config.hello) wire.sendsHandshake wire.received
        (validateHandshake config (requiredCapability request.method.text)) with
    | (hello, .error error) => ⟨hello, .error error⟩
    | (hello, .ok (_, later)) =>
        match exchangeFrame config interpreter (.request request) wire.sendsRequest later
            (readResponse config request) with
        | (body, .error error) => ⟨hello ++ body, .error error⟩
        | (body, .ok (result, _)) => ⟨hello ++ body, .ok result⟩

/-- `Request(request_id, method, params, …)`. -/
def Request.build (requestId method params : PyValue) (protocol : ProtocolVersion)
    (schemaVersion : Nat) : Decoding Request := do
  let requestId ← requiredToken requestId
  let method ← requiredToken method
  if supported : method.text ∈ methodCapabilities.map Prod.fst then
    let params ← objectPayload params
    if unspoofed : Unspoofed params.members then
      .ok { requestId, method, params, protocol, schemaVersion, supported, unspoofed }
    else invalid
  else invalid

/-- `EnfoldClient.request`; the request id is the one given, or a new one. -/
def EnfoldClient.request (config : ClientConfig) (interpreter : Interpreter) (wire : Wire)
    (requestId method params : PyValue) : Exchanged :=
  match Request.build requestId method params config.protocol config.schemaVersion with
  | .error fault => ⟨[], .error (.raised fault)⟩
  | .ok request => exchange config interpreter wire request

/-! ## What the daemon writes -/

theorem invalid_required : stripText (PyText.ofString "invalid") = PyText.ofString "invalid" ∧
    PyText.ofString "invalid" ≠ [] := by decide +kernel

theorem invalid_shape : protocolToken.fullmatch "invalid" = true := by decide +kernel

/-- `_send_response_error`: the frame that it writes. -/
def writtenFailure (config : DaemonConfig) (requestId : Token) (code : String) (message : PyText) :
    Option Frame :=
  match Response.failure config requestId (PyText.ofString code) message with
  | .ok response => written config (.response response)
  | .error _ => none

/-- `_send_protocol_error`: the frame that it writes. -/
def protocolError (config : DaemonConfig) (connection : Option NegotiatedConnection)
    (code : String) (message : PyText) : Option Frame :=
  match connection with
  | none => writtenRefusal config code message
  | some _ => writtenFailure config ⟨"invalid", invalid_required, invalid_shape⟩ code message

/-- What `_handle_frame` writes in answer to a frame. -/
def answer (daemon : Daemon) (reply : HandlerReply) (complaint : PyText) (frame : List UInt8) :
    Option NegotiatedConnection → Option Frame
  | none => firstAnswer daemon complaint frame
  | some connection =>
      match decodeFrame daemon.interpreter daemon.config.maxFrameBytes false
          (.bytes ⟨frame.toArray⟩) with
      | .error fault =>
          if fault.IsProtocol then
            protocolError daemon.config (some connection) "invalid_frame" complaint
          else none
      | .ok (.request request) =>
          if request.protocol ≠ connection.protocol then
            writtenFailure daemon.config request.requestId "connection_protocol_changed"
              (PyText.ofString "request protocol differs from the accepted handshake")
          else if request.schemaVersion ≠ connection.schemaVersion then
            writtenFailure daemon.config request.requestId "connection_schema_changed"
              (PyText.ofString "request schema differs from the accepted handshake")
          else if requiredCapability request.method.text ∉ connection.capabilities then
            writtenFailure daemon.config request.requestId "capability_not_negotiated"
              (PyText.ofString "method requires negotiated capability: " ++
                PyText.ofString (requiredCapability request.method.text))
          else
            match respond daemon.config request reply with
            | .ok response => written daemon.config (.response response)
            | .error _ => none
      | .ok _ =>
          protocolError daemon.config (some connection) "request_required"
            (PyText.ofString "only request frames are allowed after handshake")

/-- What `_serve_client` writes itself when it ends a connection. -/
def farewell (config : DaemonConfig) (connection : Option NegotiatedConnection) :
    Ending → Option Frame
  | .frameTooLarge => protocolError config connection "frame_too_large"
      (PyText.ofString "request frame exceeds configured limit")
  | .requestTimeout => protocolError config connection "request_timeout"
      (PyText.ofString "request timed out")
  | _ => none

def wireBytes (config : DaemonConfig) : Option Frame → List UInt8
  | none => []
  | some frame =>
      match encodeFrame config.maxFrameBytes frame with
      | .ok encoded => encoded.data.toList
      | .error _ => []

/-- The answers to the frames of a connection from the `n`-th on. -/
def answers (daemon : Daemon) (surroundings : Nat → Surroundings) (complaints : Nat → PyText) :
    Nat → Option NegotiatedConnection → List (List UInt8) → List UInt8
  | _, _, [] => []
  | n, connection, frame :: later =>
      wireBytes daemon.config
          (answer daemon (surroundings n).reply (complaints n) frame connection) ++
        answers daemon surroundings complaints (n + 1)
          (handleFrame daemon (surroundings n) frame connection).connection later

/-- The bytes that a daemon hands to the socket of a connection it served.  When the socket fails
it takes a beginning of them. -/
def Daemon.offers (daemon : Daemon) (surroundings : Nat → Surroundings) (complaints : Nat → PyText)
    (served : Served Connected Ending) : List UInt8 :=
  answers daemon surroundings complaints 0 none served.frames ++
    wireBytes daemon.config (farewell daemon.config served.state.connection served.outcome)

/-! ## The two sides together -/

/-- The bytes that arrive before the stream of a client ends. -/
def arrived : List (Option (List UInt8)) → List UInt8
  | [] | none :: _ | some [] :: _ => []
  | some chunk :: later => chunk ++ arrived later

/-- The bytes that arrive at the daemon. -/
def arrivals : List Received → List UInt8
  | .chunk (byte :: bytes) :: later => byte :: bytes ++ arrivals later
  | _ => []

/-- A connection of a client to a daemon: the daemon serves a beginning of what the client hands
over, and the client reads a beginning of what the daemon offers. -/
structure Joined (daemon : Daemon) (surroundings : Nat → Surroundings) (complaints : Nat → PyText)
    (received : List Received) (run : Exchanged) (wire : Wire) : Prop where
  upstream : arrivals received <+: run.handed.flatten
  downstream : arrived wire.received <+: daemon.offers surroundings complaints
    (serveClient daemon.config.maxFrameBytes (daemon.handle surroundings) ⟨none, []⟩ received)

end Enfold.Model.Protocol
