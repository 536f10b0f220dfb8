/-
# Laws.HandshakeAgreement -- what the peer is told, and what the daemon recorded

On the first frame of a connection the daemon writes an answer and either goes on with a
negotiated connection or closes.  The two agree except in one case (`agreement_iff`): an acceptance
that does not fit in a frame is replaced by a refusal that does, and the daemon goes on as if the
acceptance had gone out.

Sizes are those of encoded frames (`frameSize`); the acceptance and the refusal are given in terms
of the configuration and the handshake (`acceptance`, `tooLargeRefusal`).
-/
import Enfold.Laws.FrameCodec
import Enfold.Laws.Connection
import Mathlib.Algebra.GroupWithZero.Nat

namespace Enfold.Laws.Protocol

open Enfold.Theory Enfold.Model Enfold.Model.Protocol

set_option autoImplicit false

/-! ## Sizes of frames -/

/-- The number of bytes of an encoded frame; a frame that has no JSON text has none. -/
def frameSize (frame : Frame) : Option Nat :=
  frame.toDict.toJson?.map fun document =>
    (String.ofList (Json.dump .unicode document ++ ['\n'])).toByteArray.size

section Sizes

variable {maxFrameSize : Nat} {frame : Frame}

theorem encodeFrame_eq_ok_iff (positive : 0 < maxFrameSize) :
    (∃ encoded, encodeFrame maxFrameSize frame = .ok encoded) ↔
      ∃ size, frameSize frame = some size ∧ size ≤ maxFrameSize := by
  rw [encodeFrame, require_of positive, ok_bind, frameSize]
  cases frame.toDict.toJson? with
  | none => simp [invalid]
  | some document =>
      dsimp only
      constructor
      · rintro ⟨encoded, sent⟩
        exact ⟨_, rfl, (require_bind_eq_ok.1 sent).1⟩
      · rintro ⟨size, same, fits⟩
        cases same
        rw [require_of fits, ok_bind]
        exact ⟨_, rfl⟩

theorem encodeFrame_too_large_iff (positive : 0 < maxFrameSize) :
    encodeFrame maxFrameSize frame = .error .frameTooLarge ↔
      ∃ size, frameSize frame = some size ∧ maxFrameSize < size := by
  rw [encodeFrame, require_of positive, ok_bind, frameSize]
  cases frame.toDict.toJson? with
  | none => simp [invalid]
  | some document =>
      dsimp only
      by_cases fits : (String.ofList (Json.dump .unicode document ++ ['\n'])).toByteArray.size
          ≤ maxFrameSize
      · rw [require_of fits, ok_bind]
        constructor
        · intro failed
          cases failed
        · rintro ⟨size, same, large⟩
          cases same
          exact absurd fits (Nat.not_le.2 large)
      · simp only [require, if_neg fits, error_bind, true_iff]
        exact ⟨_, rfl, Nat.lt_of_not_le fits⟩

end Sizes

/-- The size is the sum of the sizes of the characters. -/
theorem frameSize_eq (frame : Frame) :
    frameSize frame = frame.toDict.toJson?.map fun document =>
      ((Json.dump .unicode document).map Char.utf8Size).sum + 1 := by
  have sizes (line : List Char) : (String.ofList (line ++ ['\n'])).toByteArray.size =
      (line.map Char.utf8Size).sum + 1 := by
    have feed : Char.utf8Size '\n' = 1 := by decide
    rw [String.toByteArray_ofList, List.utf8Encode, List.size_toByteArray, List.length_flatMap]
    simp [String.length_utf8EncodeChar, feed]
  rw [frameSize]
  exact congrFun (congrArg _ (funext fun document => sizes (Json.dump .unicode document))) _

/-! ## The two answers to a compatible handshake -/

/-- The service version that the daemon reports. -/
def serviceVersion (config : DaemonConfig) : RequiredText :=
  ⟨stripText config.serverVersion, trim_trim isBlankPoint config.serverVersion,
    config.versionFilled⟩

theorem requiredString_serverVersion (config : DaemonConfig) :
    requiredString (.str config.serverVersion) = .ok (serviceVersion config) := by
  rw [requiredString, dif_neg config.versionFilled]
  rfl

/-- The handshake is for the protocol and the schema of the daemon. -/
def Compatible (config : DaemonConfig) (handshake : Handshake) : Prop :=
  handshake.protocol.major = 1 ∧ handshake.protocol.minor = 0 ∧
    handshake.schemaVersion = config.schemaVersion

/-- The response that grants a handshake the capabilities it shares with the server. -/
def acceptance (config : DaemonConfig) (server : Tokens) (handshake : Handshake) :
    HandshakeResponse where
  accepted := true
  capabilities :=
    ⟨server.items.filter fun cap => cap.text ∈ handshake.capabilities.items.map Token.text,
      server.distinct.sublist (List.filter_sublist.map _)⟩
  serviceVersion := serviceVersion config
  error := none
  protocol := currentVersion
  schemaVersion := config.schemaVersion
  consistent := rfl

def tooLargeError : ProtocolError where
  code := ⟨"response_too_large", by decide +kernel, by decide +kernel⟩
  message := ⟨PyText.ofString "response too large", by decide +kernel, by decide +kernel⟩
  retryable := false
  details := emptyPayload

/-- The refusal that stands in for a handshake response that is too large. -/
def tooLargeRefusal (config : DaemonConfig) : HandshakeResponse where
  accepted := false
  capabilities := ⟨[], List.nodup_nil⟩
  serviceVersion := serviceVersion config
  error := some tooLargeError
  protocol := currentVersion
  schemaVersion := config.schemaVersion
  consistent := rfl

theorem make_tooLargeError :
    ProtocolError.make (PyText.ofString "response_too_large")
      (PyText.ofString "response too large") = .ok tooLargeError := by
  have code : requiredToken (.str (PyText.ofString "response_too_large")) =
      .ok tooLargeError.code := requiredToken_toValue tooLargeError.code
  have message : requiredString (.str (PyText.ofString "response too large")) =
      .ok tooLargeError.message := requiredString_toValue tooLargeError.message
  rw [ProtocolError.make, code, ok_bind, message, ok_bind]
  rfl

theorem fallback_handshakeResponse (config : DaemonConfig) (response : HandshakeResponse) :
    fallback config (.handshakeResponse response) =
      .ok (.handshakeResponse (tooLargeRefusal config)) := by
  rw [fallback, HandshakeResponse.refusal, make_tooLargeError, ok_bind,
    requiredString_serverVersion, ok_bind]
  · rfl
  · simp

/-- A negotiated connection comes with the acceptance, and has its capabilities. -/
theorem negotiate_eq_some_iff {config : DaemonConfig} {handshake : Handshake}
    {response : HandshakeResponse} {connection : NegotiatedConnection} :
    negotiate config handshake = .ok (response, some connection) ↔
      Compatible config handshake ∧ ∃ server,
        stringTuple (.arr (config.serverCapabilities.map .str)) = .ok server ∧
        response = acceptance config server handshake ∧
        connection = ⟨handshake.context, response.capabilities.items.map Token.text,
          handshake.protocol, handshake.schemaVersion⟩ := by
  constructor
  · intro answer
    obtain ⟨first, offered, answer⟩ := bind_eq_ok.1 answer
    split at answer
    · cases pure_eq_ok.1 answer
    · rename_i accepts
      split at answer
      · obtain ⟨refusal, -, answer⟩ := bind_eq_ok.1 answer
        cases pure_eq_ok.1 answer
      · rename_i minor
        split at answer
        · obtain ⟨refusal, -, answer⟩ := bind_eq_ok.1 answer
          cases pure_eq_ok.1 answer
        · rename_i schema
          cases pure_eq_ok.1 answer
          obtain ⟨version, read, offered⟩ := bind_eq_ok.1 offered
          obtain ⟨server, listed, offered⟩ := bind_eq_ok.1 offered
          rw [requiredString_serverVersion] at read
          cases read
          split at offered
          · exact absurd (refusal_refuses offered) accepts
          · rename_i major
            cases pure_eq_ok.1 offered
            exact ⟨⟨not_not.1 major, Nat.le_zero.1 (Nat.not_lt.1 minor), not_not.1 schema⟩,
              server, listed, rfl, rfl⟩
  · rintro ⟨⟨major, minor, schema⟩, server, listed, rfl, rfl⟩
    have sameMajor : ¬ handshake.protocol.major ≠ currentVersion.major := not_not.2 major
    have offered : negotiateHandshake config handshake =
        .ok (acceptance config server handshake) := by
      rw [negotiateHandshake, requiredString_serverVersion, ok_bind, listed, ok_bind,
        if_neg sameMajor]
      rfl
    rw [negotiate, offered, ok_bind, if_neg (by simp [acceptance]),
      if_neg (by rw [minor]; exact Nat.lt_irrefl 0), if_neg (not_not.2 schema)]
    rfl

/-! ## Agreement -/

/-- What happens to the first frame of a connection whose socket takes what is written. -/
def handledFirst (daemon : Daemon) (reply : HandlerReply) (frame : List UInt8) : Handled :=
  handleFrame daemon ⟨reply, true⟩ frame none

/-- The daemon goes on as negotiated, with these capabilities. -/
def Continues (handled : Handled) (capabilities : List String) : Prop :=
  handled.keepOpen = true ∧
    ∃ connection, handled.connection = some connection ∧ connection.capabilities = capabilities

/-- The answer that was written accepts, with these capabilities. -/
def Told (answer : Option Frame) (capabilities : List String) : Prop :=
  ∃ response : HandshakeResponse, answer = some (.handshakeResponse response) ∧
    response.accepted = true ∧ response.capabilities.items.map Token.text = capabilities

/-- The handshake is accepted, but the acceptance does not fit in a frame and the refusal that
stands in for it does. -/
def Misreported (config : DaemonConfig) (handshake : Handshake) : Prop :=
  Compatible config handshake ∧ ∃ server large small,
    stringTuple (.arr (config.serverCapabilities.map .str)) = .ok server ∧
    frameSize (.handshakeResponse (acceptance config server handshake)) = some large ∧
    frameSize (.handshakeResponse (tooLargeRefusal config)) = some small ∧
    small ≤ config.maxFrameBytes ∧ config.maxFrameBytes < large

theorem positive_frames (config : DaemonConfig) : 0 < config.maxFrameBytes :=
  Nat.lt_of_lt_of_le (by decide) config.framesLarge

/-- `_send` reports whether it wrote something. -/
theorem send_eq_isSome (config : DaemonConfig) (reply : HandlerReply) (message : Frame) :
    send config ⟨reply, true⟩ message = (written config message).isSome := by
  unfold send written
  cases encodeFrame config.maxFrameBytes message with
  | ok encoded => rfl
  | error fault =>
      cases fault with
      | frameTooLarge =>
          cases fallback config message with
          | error fault => rfl
          | ok standIn =>
              dsimp only [ok_bind]
              cases encodeFrame config.maxFrameBytes standIn <;> rfl
      | _ => rfl

/-- A handshake response is written as it is, or as the refusal that stands in for it. -/
theorem written_cases {config : DaemonConfig} {response : HandshakeResponse} {answer : Frame}
    (wrote : written config (.handshakeResponse response) = some answer) :
    answer = .handshakeResponse response ∨
      answer = .handshakeResponse (tooLargeRefusal config) ∧
        (∃ size, frameSize (.handshakeResponse response) = some size ∧
          config.maxFrameBytes < size) ∧
        ∃ size, frameSize (.handshakeResponse (tooLargeRefusal config)) = some size ∧
          size ≤ config.maxFrameBytes := by
  rw [written] at wrote
  split at wrote
  · cases wrote
    exact .inl rfl
  · rename_i large
    rw [fallback_handshakeResponse] at wrote
    dsimp only at wrote
    obtain ⟨encoded, sent, same⟩ := Option.map_eq_some_iff.1 wrote
    refine .inr ⟨same.symm, (encodeFrame_too_large_iff (positive_frames config)).1 large,
      (encodeFrame_eq_ok_iff (positive_frames config)).1 ⟨encoded, ?_⟩⟩
    cases standIn : encodeFrame config.maxFrameBytes (.handshakeResponse (tooLargeRefusal config)) with
    | error fault =>
        rw [standIn] at sent
        cases sent
    | ok bytes =>
        rw [standIn] at sent
        cases sent
        rfl
  · cases wrote

theorem written_standIn {config : DaemonConfig} {response : HandshakeResponse} {large small : Nat}
    (size : frameSize (.handshakeResponse response) = some large)
    (refusalSize : frameSize (.handshakeResponse (tooLargeRefusal config)) = some small)
    (exceeds : config.maxFrameBytes < large) (fits : small ≤ config.maxFrameBytes) :
    written config (.handshakeResponse response) =
      some (.handshakeResponse (tooLargeRefusal config)) := by
  obtain ⟨encoded, sent⟩ :=
    (encodeFrame_eq_ok_iff (positive_frames config)).2 ⟨small, refusalSize, fits⟩
  have tooLarge := (encodeFrame_too_large_iff (positive_frames config)).2 ⟨large, size, exceeds⟩
  rw [written, tooLarge]
  dsimp only
  rw [fallback_handshakeResponse]
  dsimp only
  rw [sent]
  rfl

/-- A response that refuses is never told as an acceptance. -/
theorem not_told_of_refused {config : DaemonConfig} {response : HandshakeResponse}
    (refused : response.accepted = false) (capabilities : List String) :
    ¬ Told (written config (.handshakeResponse response)) capabilities := by
  rintro ⟨told, wrote, accepted, -⟩
  rcases written_cases wrote with same | ⟨same, -⟩
  · cases same
    rw [refused] at accepted
    cases accepted
  · cases same
    cases accepted

theorem not_told_refusal (config : DaemonConfig) (code : String) (message : PyText)
    (capabilities : List String) : ¬ Told (writtenRefusal config code message) capabilities := by
  rw [writtenRefusal]
  split
  · rename_i made
    exact not_told_of_refused (refusal_refuses made) capabilities
  · rintro ⟨told, wrote, -⟩
    cases wrote

/-- An acceptance is followed by a connection that the peer was told of, unless the acceptance was
replaced. -/
theorem accepted_agrees_iff (config : DaemonConfig) (server : Tokens) (handshake : Handshake)
    (listed : stringTuple (.arr (config.serverCapabilities.map .str)) = .ok server)
    (compatible : Compatible config handshake) (invoked : Option Invocation) :
    let response := acceptance config server handshake
    let handled : Handled := ⟨(written config (.handshakeResponse response)).isSome,
      some ⟨handshake.context, response.capabilities.items.map Token.text, handshake.protocol,
        handshake.schemaVersion⟩, invoked⟩
    (∀ capabilities, Continues handled capabilities ↔
        Told (written config (.handshakeResponse response)) capabilities) ↔
      ¬ Misreported config handshake := by
  intro response handled
  constructor
  · rintro agrees ⟨-, server', large, small, listed', size, refusalSize, fits, exceeds⟩
    rw [listed] at listed'
    cases listed'
    have wrote := written_standIn size refusalSize exceeds fits
    have goesOn : Continues handled (response.capabilities.items.map Token.text) :=
      ⟨Option.isSome_iff_exists.2 ⟨_, wrote⟩, _, rfl, rfl⟩
    obtain ⟨told, same, accepted, -⟩ := (agrees _).1 goesOn
    rw [wrote] at same
    cases same
    cases accepted
  · intro reported capabilities
    constructor
    · rintro ⟨kept, connection, same, rfl⟩
      cases same
      obtain ⟨answer, wrote⟩ := Option.isSome_iff_exists.1 kept
      rcases written_cases wrote with rfl | ⟨-, ⟨large, size, exceeds⟩, small, refusalSize, fits⟩
      · exact ⟨response, wrote, rfl, rfl⟩
      · exact absurd ⟨compatible, server, large, small, listed, size, refusalSize, fits, exceeds⟩
          reported
    · rintro ⟨told, wrote, accepted, rfl⟩
      refine ⟨Option.isSome_iff_exists.2 ⟨_, wrote⟩, _, rfl, ?_⟩
      rcases written_cases wrote with same | ⟨same, -⟩
      · cases same
        rfl
      · cases same
        cases accepted

/-- The first frame is a compatible handshake: the daemon goes on when it wrote something. -/
theorem handledFirst_compatible {daemon : Daemon} {reply : HandlerReply} {complaint : PyText}
    {frame : List UInt8} {handshake : Handshake} {server : Tokens}
    (first : decoded daemon frame = .ok (.handshake handshake))
    (compatible : Compatible daemon.config handshake)
    (listed : stringTuple (.arr (daemon.config.serverCapabilities.map .str)) = .ok server) :
    let response := acceptance daemon.config server handshake
    firstAnswer daemon complaint frame = written daemon.config (.handshakeResponse response) ∧
      handledFirst daemon reply frame =
        ⟨(written daemon.config (.handshakeResponse response)).isSome,
          some ⟨handshake.context, response.capabilities.items.map Token.text, handshake.protocol,
            handshake.schemaVersion⟩, none⟩ := by
  intro response
  have answer := negotiate_eq_some_iff.2 ⟨compatible, server, listed, rfl, rfl⟩
  rw [decoded] at first
  constructor
  · unfold firstAnswer
    rw [first]
    dsimp only
    rw [answer]
  · unfold handledFirst handleFrame
    rw [first]
    dsimp only
    rw [answer]
    dsimp only
    rw [send_eq_isSome]
    exact congrArg (fun kept => Handled.mk kept _ none) (Bool.and_true _)

/-- Any other first frame closes the connection, and the peer is told of no acceptance. -/
theorem handledFirst_other {daemon : Daemon} (reply : HandlerReply) (complaint : PyText)
    {frame : List UInt8}
    (other : ¬ ∃ handshake server, decoded daemon frame = .ok (.handshake handshake) ∧
      Compatible daemon.config handshake ∧
      stringTuple (.arr (daemon.config.serverCapabilities.map .str)) = .ok server) :
    (handledFirst daemon reply frame).keepOpen = false ∧
      ∀ capabilities, ¬ Told (firstAnswer daemon complaint frame) capabilities := by
  have read : decoded daemon frame = decodeFrame daemon.interpreter daemon.config.maxFrameBytes false
      (.bytes ⟨frame.toArray⟩) := rfl
  unfold handledFirst handleFrame firstAnswer
  rw [← read]
  cases first : decoded daemon frame with
  | error fault =>
      refine ⟨rfl, fun capabilities => ?_⟩
      dsimp only
      split
      · exact not_told_refusal _ _ _ capabilities
      · rintro ⟨told, wrote, -⟩
        cases wrote
  | ok decodedAs =>
      cases decodedAs with
      | handshakeResponse _ | request _ | response _ => exact ⟨rfl, not_told_refusal _ _ _⟩
      | handshake handshake =>
          dsimp only
          cases answer : negotiate daemon.config handshake with
          | error fault =>
              refine ⟨rfl, ?_⟩
              rintro capabilities ⟨told, wrote, -⟩
              cases wrote
          | ok outcome =>
              obtain ⟨response, negotiated⟩ := outcome
              cases accepted : response.accepted with
              | false =>
                  refine ⟨?_, not_told_of_refused accepted⟩
                  dsimp only
                  rw [accepted, Bool.and_false]
              | true =>
                  obtain ⟨connection, rfl, -⟩ := negotiate_accepted answer accepted
                  obtain ⟨compatible, server, listed, -⟩ := negotiate_eq_some_iff.1 answer
                  exact absurd ⟨handshake, server, first, compatible, listed⟩ other

theorem closed_agrees {handled : Handled} {answer : Option Frame} (closed : handled.keepOpen = false)
    (silent : ∀ capabilities, ¬ Told answer capabilities) (capabilities : List String) :
    Continues handled capabilities ↔ Told answer capabilities := by
  refine iff_of_false ?_ (silent capabilities)
  rintro ⟨kept, -⟩
  rw [closed] at kept
  cases kept

/-- On every first frame, the daemon goes on with a connection exactly when it wrote an acceptance,
and with the capabilities of that acceptance, unless the frame is a handshake whose acceptance is
too large for a frame while its refusal is not. -/
theorem agreement_iff (daemon : Daemon) (reply : HandlerReply) (complaint : PyText)
    (frame : List UInt8) :
    (∀ capabilities, Continues (handledFirst daemon reply frame) capabilities ↔
        Told (firstAnswer daemon complaint frame) capabilities) ↔
      ∀ handshake, decoded daemon frame = .ok (.handshake handshake) →
        ¬ Misreported daemon.config handshake := by
  by_cases accepted : ∃ handshake server, decoded daemon frame = .ok (.handshake handshake) ∧
      Compatible daemon.config handshake ∧
      stringTuple (.arr (daemon.config.serverCapabilities.map .str)) = .ok server
  · obtain ⟨handshake, server, first, compatible, listed⟩ := accepted
    obtain ⟨answer, handled⟩ := @handledFirst_compatible daemon reply complaint frame handshake
      server first compatible listed
    rw [answer, handled, first]
    refine (accepted_agrees_iff daemon.config server handshake listed compatible none).trans
      ⟨?_, fun reported => reported handshake rfl⟩
    intro reported same decodedAs
    cases decodedAs
    exact reported
  · have unreported : ∀ handshake, decoded daemon frame = .ok (.handshake handshake) →
        ¬ Misreported daemon.config handshake := by
      rintro handshake first ⟨compatible, server, -, -, listed, -⟩
      exact accepted ⟨handshake, server, first, compatible, listed⟩
    obtain ⟨closed, silent⟩ := handledFirst_other reply complaint accepted
    exact iff_of_true (closed_agrees closed silent) unreported

/-! ## A version text of 220 characters -/

theorem search_required : stripText (PyText.ofString "memory.search") = PyText.ofString "memory.search" ∧
    PyText.ofString "memory.search" ≠ [] := by
  decide +kernel

theorem search_shape : protocolToken.fullmatch "memory.search" = true := by decide +kernel

def allCapabilities : Tokens where
  items :=
    [⟨"health", by decide +kernel, by decide +kernel⟩,
      ⟨"memory.write", by decide +kernel, by decide +kernel⟩,
      ⟨"memory.search", search_required, search_shape⟩,
      ⟨"memory.context", by decide +kernel, by decide +kernel⟩,
      ⟨"memory.evidence", by decide +kernel, by decide +kernel⟩,
      ⟨"memory.history", by decide +kernel, by decide +kernel⟩,
      ⟨"memory.conflicts", by decide +kernel, by decide +kernel⟩,
      ⟨"memory.resolve_conflict", by decide +kernel, by decide +kernel⟩,
      ⟨"memory.extraction.enqueue", by decide +kernel, by decide +kernel⟩]
  distinct := by decide +kernel

def longVersion : DaemonConfig where
  serverVersion := List.replicate 220 (.char 'v')
  schemaVersion := 1
  serverCapabilities := allCapabilities.items.map fun cap => PyText.ofString cap.text
  maxFrameBytes := 512
  versionFilled := by decide +kernel
  framesLarge := Nat.le_refl 512

def sampleContext : ClientContext where
  clientId := ⟨"c", by decide +kernel, by decide +kernel⟩
  surface := ⟨"cli", by decide +kernel, by decide +kernel⟩
  agentId := ⟨"a", by decide +kernel, by decide +kernel⟩
  sessionId := ⟨"s", by decide +kernel, by decide +kernel⟩
  parentAgentId := none
  projectRoot := none
  repository := none
  branch := none
  commitSha := none
  accessScopes := ⟨[⟨"global", by decide +kernel, by decide +kernel⟩], by decide⟩
  scopesFilled := by decide

def fullHandshake : Handshake := ⟨sampleContext, allCapabilities, ⟨1, 0⟩, 1⟩

theorem longVersion_sizes :
    frameSize (.handshakeResponse (acceptance longVersion allCapabilities fullHandshake)) =
        some 534 ∧
      frameSize (.handshakeResponse (tooLargeRefusal longVersion)) = some 458 ∧
      frameSize (.handshake fullHandshake) = some 451 := by
  rw [frameSize_eq, frameSize_eq, frameSize_eq]
  decide +kernel

/-- A frame without its newline is read like the whole. -/
theorem frameLine_bare {maxFrameSize : Nat} {line : List Char} (filled : line ≠ [])
    (printable : Json.Printable line) (positive : 0 < maxFrameSize)
    (fits : (String.ofList line).toByteArray.size ≤ maxFrameSize) :
    frameLine maxFrameSize (.bytes (String.ofList line).toByteArray) = .ok line := by
  have noFeed : '\n' ∉ line := fun mem => absurd (printable _ mem) (by decide)
  have noReturn : '\r' ∉ line := fun mem => absurd (printable _ mem) (by decide)
  have read : utf8Decode (String.ofList line).toByteArray = .ok line := by
    rw [utf8Decode, String.toByteArray_ofList, List.utf8Decode?_utf8Encode]
  have ended : dropLineEnd line = line := by
    have noPair : ¬ (['\r', '\n'].isSuffixOf line) = true := fun suffix =>
      noReturn ((List.isSuffixOf_iff_suffix.1 suffix).mem List.mem_cons_self)
    have noLast : ¬ (['\n'].isSuffixOf line) = true := fun suffix =>
      noFeed ((List.isSuffixOf_iff_suffix.1 suffix).mem List.mem_cons_self)
    rw [dropLineEnd, if_neg noPair, if_neg noLast]
  rw [frameLine, require_of positive, ok_bind, FrameInput.raw, ok_bind, require_of fits, ok_bind,
    read, ok_bind, ended]
  dsimp only
  rw [require_of ⟨filled, noFeed, noReturn⟩]
  rfl

/-- The bytes of a frame without its newline. -/
def frameBytes (frame : Frame) : List UInt8 :=
  match frame.toDict.toJson? with
  | none => []
  | some document => (String.ofList (Json.dump .unicode document)).toByteArray.data.toList

/-- A handshake that fits in a frame arrives as it was sent. -/
theorem decoded_handshake (daemon : Daemon) {handshake : Handshake} {size : Nat}
    (sized : frameSize (.handshake handshake) = some size)
    (fits : size ≤ daemon.config.maxFrameBytes) :
    decoded daemon (frameBytes (.handshake handshake)) = .ok (.handshake handshake) := by
  obtain ⟨document, printed, rfl⟩ := Option.map_eq_some_iff.1 sized
  have bytes : frameBytes (.handshake handshake) =
      (String.ofList (Json.dump .unicode document)).toByteArray.data.toList := by
    rw [frameBytes, printed]
  have filled : Json.dump .unicode document ≠ [] := by
    have shape := Json.shapeOf_dump .unicode document []
    intro empty
    rw [empty] at shape
    cases shape
  have shorter : (String.ofList (Json.dump .unicode document)).toByteArray.size ≤
      daemon.config.maxFrameBytes := by
    refine Nat.le_trans ?_ fits
    rw [String.toByteArray_ofList, String.toByteArray_ofList, List.utf8Encode_append,
      ByteArray.size_append]
    exact Nat.le_add_right _ _
  have lined := frameLine_bare filled (Json.printable_dump document)
    (positive_frames daemon.config) shorter
  obtain ⟨members, object⟩ := toDict_members (.handshake handshake)
  have valid : WellFormed (.obj members) ∧ (PyValue.obj members).height ≤ maxJsonDepth :=
    object ▸ ⟨wellFormed_toDict _, (height_toDict_iff _).2 trivial⟩
  rw [decoded, bytes, Array.toArray_toList, decodeFrame, lined, ok_bind,
    loadFrame_encoded daemon.interpreter printed, ok_bind, object,
    objectPayload_members ⟨members, valid⟩, ok_bind]
  dsimp only
  rw [← object, fromDict_toDict, ok_bind]
  rfl

/-- The connection goes on with every capability, and the peer was told that it was refused. -/
theorem long_version_disagrees :
    ¬ ∀ capabilities,
      Continues (handledFirst ⟨longVersion, sampleInterpreter, false⟩ .raised
          (frameBytes (.handshake fullHandshake))) capabilities ↔
        Told (firstAnswer ⟨longVersion, sampleInterpreter, false⟩ []
          (frameBytes (.handshake fullHandshake))) capabilities := by
  obtain ⟨large, small, sized⟩ := longVersion_sizes
  have first := decoded_handshake ⟨longVersion, sampleInterpreter, false⟩ sized (by decide)
  have compatible : Compatible longVersion fullHandshake := ⟨rfl, rfl, rfl⟩
  have listed : stringTuple (.arr (longVersion.serverCapabilities.map .str)) =
      .ok allCapabilities := by
    have read := stringTuple_toValue allCapabilities
    rwa [Tokens.toValue] at read
  obtain ⟨answer, handled⟩ := @handledFirst_compatible ⟨longVersion, sampleInterpreter, false⟩
    .raised [] _ _ _ first compatible listed
  rw [answer, handled]
  intro agrees
  exact (accepted_agrees_iff longVersion allCapabilities fullHandshake listed compatible none).1
    agrees ⟨compatible, allCapabilities, 534, 458, listed, large, small, by decide, by decide⟩

end Enfold.Laws.Protocol
