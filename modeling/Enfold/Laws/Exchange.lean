/-
# Laws.Exchange -- a client's request and the daemon that serves it

Whatever the two sockets do, a request calls the application at most once, for this very request and
under the context of the client; and a request that returns has called it exactly once, and returns
what the application returned (`request_served_once`).  When nothing fails on the way the request
ends with the daemon's answer, however the two streams are cut into chunks (`request_answered`).

A frame is read back as it was written, with or without its newline, whatever the limits of the two
sides (`decode_line_iff`); so each side knows the first frame of what the other hands over.
-/
import Enfold.Model.Client
import Enfold.Laws.HandshakeAgreement

namespace Enfold.Laws.Protocol

open Enfold.Theory Enfold.Model Enfold.Model.Protocol

set_option autoImplicit false

/-! ## Streams that arrive in part -/

section Arrivals

variable {σ : Type} {maxFrameBytes : Nat} {handle : σ → List UInt8 → Bool × σ}

/-- Bytes that complete no frame are not handled. -/
theorem serveStream_waiting {state : σ} {buffer : List UInt8}
    (waiting : drain maxFrameBytes handle state buffer = ⟨[], state, .ok buffer⟩) :
    [] = (serveStream maxFrameBytes handle state (buffer ++ [])).frames ∧
      state = (serveStream maxFrameBytes handle state (buffer ++ [])).state := by
  rw [List.append_nil, serveStream, waiting]
  exact ⟨rfl, rfl⟩

/-- What was drained of the first bytes comes before what is served of the rest. -/
theorem serveStream_append {state last : σ} {buffer left : List UInt8} {frames : List (List UInt8)}
    (drained : drain maxFrameBytes handle state buffer = ⟨frames, last, .ok left⟩)
    (rest : List UInt8) :
    (serveStream maxFrameBytes handle state (buffer ++ rest)).frames =
        frames ++ (serveStream maxFrameBytes handle last (left ++ rest)).frames ∧
      (serveStream maxFrameBytes handle state (buffer ++ rest)).state =
        (serveStream maxFrameBytes handle last (left ++ rest)).state := by
  have whole := @drain_append _ maxFrameBytes handle state buffer rest
  rw [drained] at whole
  dsimp only at whole
  rw [serveStream, serveStream, whole]
  cases drain maxFrameBytes handle last (left ++ rest) with
  | mk frames' last' outcome => cases outcome <;> exact ⟨rfl, rfl⟩

/-- A daemon handles the frames of the bytes that arrive, however the stream ends. -/
theorem serveFrom_arrivals (received : List Received) (state : σ) {buffer : List UInt8}
    (waiting : drain maxFrameBytes handle state buffer = ⟨[], state, .ok buffer⟩) :
    (serveFrom maxFrameBytes handle state buffer received).frames =
        (serveStream maxFrameBytes handle state (buffer ++ arrivals received)).frames ∧
      (serveFrom maxFrameBytes handle state buffer received).state =
        (serveStream maxFrameBytes handle state (buffer ++ arrivals received)).state := by
  induction received generalizing state buffer with
  | nil => exact serveStream_waiting waiting
  | cons event later ih =>
      cases event with
      | timeout | failed | stopped => exact serveStream_waiting waiting
      | chunk bytes =>
          cases bytes with
          | nil => exact serveStream_waiting waiting
          | cons byte bytes =>
              rw [serveFrom_chunk (List.cons_ne_nil byte bytes), arrivals, ← List.append_assoc]
              cases drained : drain maxFrameBytes handle state (buffer ++ byte :: bytes) with
              | mk frames last outcome =>
                  cases outcome with
                  | error ending =>
                      have whole := @drain_append _ maxFrameBytes handle state
                        (buffer ++ byte :: bytes) (arrivals later)
                      rw [serveStream, whole, drained]
                      exact ⟨rfl, rfl⟩
                  | ok left =>
                      obtain ⟨frames', state'⟩ := ih last (drain_left drained)
                      obtain ⟨whole, ends⟩ := serveStream_append drained (arrivals later)
                      rw [whole, ends, ← frames', ← state']
                      exact ⟨rfl, rfl⟩

/-- The pieces of a beginning are first pieces of the whole. -/
theorem pieces_grow {beginning stream : List UInt8} (start : beginning <+: stream) :
    (pieces beginning).1 <+: (pieces stream).1 := by
  induction size : beginning.length using Nat.strong_induction_on generalizing beginning stream with
  | _ n ih =>
      rcases line_or_none beginning with solid | ⟨line, rest, rfl, solid⟩
      · rw [pieces_of_none solid]
        exact List.nil_prefix
      · obtain ⟨more, rfl⟩ := start
        have shorter : rest.length < n := by
          rw [← size]
          simp only [List.length_append, List.length_cons]
          omega
        rw [List.append_assoc, List.cons_append, pieces_of_line solid, pieces_of_line solid]
        exact List.cons_prefix_cons.2 ⟨rfl, ih rest.length shorter (List.prefix_append _ _) rfl⟩

/-- So it handles some first pieces of what was sent, until it closes. -/
theorem served_beginning (state : σ) (received : List Received) {sent : List UInt8}
    (upstream : arrivals received <+: sent) :
    ∃ admitted, admitted <+: (pieces sent).1 ∧
      (serveClient maxFrameBytes handle state received).frames =
        (handleUntilClosed handle state admitted).frames ∧
      (serveClient maxFrameBytes handle state received).state =
        (handleUntilClosed handle state admitted).state := by
  have waiting : drain maxFrameBytes handle state [] = ⟨[], state, .ok []⟩ := by
    rw [drain_of_none List.not_mem_nil, if_neg (by simp)]
  have served := serveFrom_arrivals received state waiting
  rw [List.nil_append, serveStream_eq_expected] at served
  refine ⟨(pieces (arrivals received)).1.takeWhile fun piece =>
    decide (piece.length ≤ maxFrameBytes), ?_, served.1, served.2⟩
  exact (List.takeWhile_prefix _).trans (pieces_grow upstream)

end Arrivals

/-! ## The bytes of a frame -/

/-- A byte of an encoded character is the character or no ASCII. -/
theorem utf8EncodeChar_bytes {c : Char} {byte : UInt8} (mem : byte ∈ String.utf8EncodeChar c) :
    byte.toNat = c.toNat ∨ 128 ≤ byte.toNat := by
  have shown : c.toNat = c.val.toNat := rfl
  unfold String.utf8EncodeChar at mem
  dsimp only at mem
  split at mem
  · left
    rw [List.mem_singleton.1 mem, UInt8.toNat_ofNat', shown]
    omega
  · right
    split at mem
    · simp only [List.mem_cons, List.not_mem_nil, or_false] at mem
      rcases mem with rfl | rfl <;> rw [UInt8.toNat_ofNat'] <;> omega
    · split at mem
      · simp only [List.mem_cons, List.not_mem_nil, or_false] at mem
        rcases mem with rfl | rfl | rfl <;> rw [UInt8.toNat_ofNat'] <;> omega
      · simp only [List.mem_cons, List.not_mem_nil, or_false] at mem
        rcases mem with rfl | rfl | rfl | rfl <;> rw [UInt8.toNat_ofNat'] <;> omega

/-- The bytes of a printed line have no newline. -/
theorem newline_notMem {line : List Char} (printable : Json.Printable line) :
    newline ∉ (String.ofList line).toByteArray.data.toList := by
  intro mem
  rw [String.toByteArray_ofList, List.utf8Encode, List.data_toByteArray] at mem
  obtain ⟨c, here, byte⟩ := List.mem_flatMap.1 mem
  have shown := printable c here
  have ten : newline.toNat = 10 := rfl
  rcases utf8EncodeChar_bytes byte with same | large <;> omega

section Bytes

variable {maxFrameSize limit : Nat} {frame read : Frame} {encoded : ByteArray}
  {interpreter : Interpreter} {refuse : Bool}

theorem dump_filled (document : Json) : Json.dump .unicode document ≠ [] := by
  have shape := Json.shapeOf_dump .unicode document []
  intro empty
  rw [empty] at shape
  cases shape

/-- An encoded frame is the printed dictionary and a newline. -/
theorem encoded_bytes (sent : encodeFrame maxFrameSize frame = .ok encoded) :
    ∃ document, frame.toDict.toJson? = some document ∧
      encoded = (String.ofList (Json.dump .unicode document ++ ['\n'])).toByteArray ∧
      frameBytes frame = (String.ofList (Json.dump .unicode document)).toByteArray.data.toList ∧
      encoded.data.toList = frameBytes frame ++ [newline] ∧ newline ∉ frameBytes frame ∧
      encoded.size ≤ maxFrameSize := by
  obtain ⟨-, sent⟩ := require_bind_eq_ok.1 sent
  cases printed : frame.toDict.toJson? with
  | none =>
      rw [printed] at sent
      cases sent
  | some document =>
      rw [printed] at sent
      obtain ⟨fits, sent⟩ := require_bind_eq_ok.1 sent
      cases pure_eq_ok.1 sent
      have bytes : frameBytes frame =
          (String.ofList (Json.dump .unicode document)).toByteArray.data.toList := by
        rw [frameBytes, printed]
      refine ⟨document, rfl, rfl, bytes, ?_, ?_, fits⟩
      · rw [bytes, String.toByteArray_ofList, String.toByteArray_ofList, List.utf8Encode_append]
        simp only [ByteArray.data_append, Array.toList_append]
        rfl
      · rw [bytes]
        exact newline_notMem (Json.printable_dump document)

/-- A line that prints a frame is read as that frame, when its payloads leave room. -/
theorem decode_line_iff {input : FrameInput} {document : Json}
    (printed : frame.toDict.toJson? = some document)
    (lined : frameLine limit input = .ok (Json.dump .unicode document)) :
    decodeFrame interpreter limit refuse input = .ok read ↔
      read = frame ∧ Shallow frame ∧ (refuse = true → frame.protocol.major = 1) := by
  obtain ⟨members, object⟩ := toDict_members frame
  rw [decodeFrame, lined, ok_bind, loadFrame_encoded interpreter printed, ok_bind]
  constructor
  · intro decoded
    obtain ⟨data, validated, decoded⟩ := bind_eq_ok.1 decoded
    have shallow := shallow_of_objectPayload validated
    have valid : ValidAt 0 (.obj members) :=
      object ▸ ⟨wellFormed_toDict frame, (height_toDict_iff frame).2 shallow⟩
    rw [object, objectPayload_members ⟨members, valid⟩] at validated
    cases validated
    dsimp only at decoded
    rw [← object, fromDict_toDict, ok_bind] at decoded
    obtain ⟨major, decoded⟩ := require_bind_eq_ok.1 decoded
    cases pure_eq_ok.1 decoded
    exact ⟨rfl, shallow, major⟩
  · rintro ⟨rfl, shallow, major⟩
    have valid : ValidAt 0 (.obj members) :=
      object ▸ ⟨wellFormed_toDict read, (height_toDict_iff read).2 shallow⟩
    rw [object, objectPayload_members ⟨members, valid⟩, ok_bind]
    dsimp only
    rw [← object, fromDict_toDict, ok_bind, require_of major]
    rfl

theorem decode_fits {raw : ByteArray}
    (decoded : decodeFrame interpreter limit refuse (.bytes raw) = .ok read) : raw.size ≤ limit := by
  obtain ⟨line, lined, -⟩ := bind_eq_ok.1 decoded
  obtain ⟨-, lined⟩ := require_bind_eq_ok.1 lined
  obtain ⟨raw', same, lined⟩ := bind_eq_ok.1 lined
  cases same
  exact (require_bind_eq_ok.1 lined).1

/-- An encoded frame is read as itself, by a reader of any limit that it fits. -/
theorem decode_whole_iff (sent : encodeFrame maxFrameSize frame = .ok encoded)
    (positive : 0 < limit) :
    decodeFrame interpreter limit refuse (.bytes encoded) = .ok read ↔
      encoded.size ≤ limit ∧ read = frame ∧ Shallow frame ∧
        (refuse = true → frame.protocol.major = 1) := by
  obtain ⟨document, printed, whole, -, -, -, -⟩ := encoded_bytes sent
  by_cases fits : encoded.size ≤ limit
  · have lined := frameLine_printed (dump_filled document) (Json.printable_dump document) positive
      (whole ▸ fits)
    rw [← whole] at lined
    rw [decode_line_iff printed lined, and_iff_right fits]
  · exact iff_of_false (fun decoded => fits (decode_fits decoded)) fun rest => fits rest.1

/-- So is a frame without its newline. -/
theorem decode_bare_iff (sent : encodeFrame maxFrameSize frame = .ok encoded)
    (positive : 0 < limit) :
    decodeFrame interpreter limit refuse (.bytes ⟨(frameBytes frame).toArray⟩) = .ok read ↔
      (frameBytes frame).length ≤ limit ∧ read = frame ∧ Shallow frame ∧
        (refuse = true → frame.protocol.major = 1) := by
  obtain ⟨document, printed, -, bytes, -, -, -⟩ := encoded_bytes sent
  have same : (⟨(frameBytes frame).toArray⟩ : ByteArray) =
      (String.ofList (Json.dump .unicode document)).toByteArray := by
    rw [bytes, Array.toArray_toList]
  have size : (frameBytes frame).length =
      (String.ofList (Json.dump .unicode document)).toByteArray.size := by
    rw [bytes]
    rfl
  rw [same, size]
  by_cases fits : (String.ofList (Json.dump .unicode document)).toByteArray.size ≤ limit
  · have lined := frameLine_bare (dump_filled document) (Json.printable_dump document) positive fits
    rw [decode_line_iff printed lined, and_iff_right fits]
  · exact iff_of_false (fun decoded => fits (decode_fits decoded)) fun rest => fits rest.1

end Bytes

/-! ## What the client reads -/

/-- The first line of a beginning is the first line of the whole. -/
theorem line_of_prefix {line line' rest rest' : List UInt8} (solid : newline ∉ line)
    (solid' : newline ∉ line')
    (start : line ++ newline :: rest <+: line' ++ newline :: rest') :
    line = line' ∧ rest <+: rest' := by
  obtain ⟨more, same⟩ := start
  have first : cutLine (line' ++ newline :: rest') = some (line, rest ++ more) :=
    cutLine_eq_some.2 ⟨by rw [← same, List.append_assoc, List.cons_append], solid⟩
  rw [cutLine_eq_some.2 ⟨rfl, solid'⟩] at first
  cases first
  exact ⟨rfl, List.prefix_append _ _⟩

section Client

variable {config : ClientConfig} {interpreter : Interpreter}

/-- A frame that the client receives is the first line that arrives. -/
theorem receive_eq_ok {received later : List (Option (List UInt8))} {data : List UInt8}
    {frame : Frame} (solid : newline ∉ data)
    (got : receive config interpreter data received = (.ok frame, later)) :
    ∃ line, newline ∉ line ∧ data ++ arrived received = line ++ newline :: arrived later ∧
      decodeFrame interpreter config.maxFrameBytes true
        (.bytes ⟨(line ++ [newline]).toArray⟩) = .ok frame := by
  induction received generalizing data with
  | nil => cases got
  | cons event rest ih =>
      rcases event with _ | (_ | ⟨byte, chunk⟩)
      · cases got
      · cases got
      · rw [receive.eq_def] at got
        dsimp only at got
        have arrives : arrived (some (byte :: chunk) :: rest) = byte :: chunk ++ arrived rest := rfl
        rw [arrives, ← List.append_assoc]
        split at got
        · rename_i line cut
          obtain ⟨whole, solidLine⟩ := cutLine_eq_some.1 cut
          obtain ⟨read, rfl⟩ := Prod.mk.inj got
          rw [whole] at read ⊢
          refine ⟨line, solidLine, by rw [List.append_assoc]; rfl, ?_⟩
          cases decoded : decodeFrame interpreter config.maxFrameBytes true
              (.bytes ⟨(line ++ [newline]).toArray⟩) with
          | error fault =>
              rw [decoded] at read
              cases read
          | ok frame' =>
              rw [decoded] at read
              cases read
              rfl
        · cases got
        · rename_i cut
          split at got
          · cases got
          · exact ih (cutLine_eq_none.1 cut) got

/-- A frame that was sent and answered. -/
theorem exchangeFrame_eq_ok {α : Type} {frame : Frame} {sends : Bool}
    {received later : List (Option (List UInt8))} {check : Frame → Except ClientError α}
    {handed : List (List UInt8)} {a : α}
    (done : exchangeFrame config interpreter frame sends received check =
      (handed, .ok (a, later))) :
    ((∃ encoded, encodeFrame config.maxFrameBytes frame = .ok encoded) ∧
        handed = [frameBytes frame ++ [newline]]) ∧
      ∃ line reply, newline ∉ line ∧ arrived received = line ++ newline :: arrived later ∧
        decodeFrame interpreter config.maxFrameBytes true
          (.bytes ⟨(line ++ [newline]).toArray⟩) = .ok reply ∧ check reply = .ok a := by
  unfold exchangeFrame at done
  split at done
  · cases done
  · rename_i encoded sent
    obtain ⟨rfl, ended⟩ := Prod.mk.inj done
    obtain ⟨-, -, -, -, bytes, -, -⟩ := encoded_bytes sent
    refine ⟨⟨⟨encoded, sent⟩, by rw [bytes]⟩, ?_⟩
    split at ended
    · cases ended
    · split at ended
      · cases ended
      · rename_i reply later' got
        obtain ⟨a', checked, same⟩ := map_eq_ok.1 ended
        cases same
        obtain ⟨line, solid, whole, decoded⟩ := receive_eq_ok List.not_mem_nil got
        exact ⟨line, reply, solid, whole, decoded, checked⟩

/-- What is handed to the socket for a frame. -/
theorem exchangeFrame_handed {α : Type} {frame : Frame} {sends : Bool}
    {received : List (Option (List UInt8))} {check : Frame → Except ClientError α} :
    (exchangeFrame config interpreter frame sends received check).1 = [] ∨
      (∃ encoded, encodeFrame config.maxFrameBytes frame = .ok encoded) ∧
        (exchangeFrame config interpreter frame sends received check).1 =
          [frameBytes frame ++ [newline]] := by
  unfold exchangeFrame
  split
  · exact .inl rfl
  · rename_i encoded sent
    obtain ⟨-, -, -, -, bytes, -, -⟩ := encoded_bytes sent
    exact .inr ⟨⟨encoded, sent⟩, by rw [bytes]⟩

end Client

/-! ## What the daemon writes -/

/-- A frame that reports an error. -/
def Complains : Frame → Prop
  | .handshakeResponse hello => hello.error.isSome = true
  | .response response => response.error.isSome = true
  | _ => False

section Written

variable {config : DaemonConfig} {answered : Frame}

theorem written_encodes {message : Frame} (wrote : written config message = some answered) :
    ∃ encoded, encodeFrame config.maxFrameBytes answered = .ok encoded := by
  rw [written] at wrote
  split at wrote
  · rename_i encoded sent
    cases wrote
    exact ⟨encoded, sent⟩
  · split at wrote
    · obtain ⟨encoded, sent, same⟩ := Option.map_eq_some_iff.1 wrote
      cases same
      cases again : encodeFrame config.maxFrameBytes answered with
      | error fault =>
          rw [again] at sent
          cases sent
      | ok encoded => exact ⟨encoded, rfl⟩
    · cases wrote
  · cases wrote

theorem complains_of_refused {hello : HandshakeResponse} (refused : hello.accepted = false) :
    Complains (.handshakeResponse hello) := by
  have consistent := hello.consistent
  rw [refused, eq_comm, Option.isNone_eq_false_iff] at consistent
  exact consistent

theorem complains_of_failed {response : Response} (failed : response.ok = false) :
    Complains (.response response) := by
  have consistent := response.consistent
  rw [failed, eq_comm, Option.isNone_eq_false_iff] at consistent
  exact consistent

theorem failure_complains {requestId : Token} {code message : PyText} {response : Response}
    (made : Response.failure config requestId code message = .ok response) :
    Complains (.response response) := by
  obtain ⟨error, -, made⟩ := bind_eq_ok.1 made
  cases pure_eq_ok.1 made
  exact complains_of_failed rfl

/-- A response is written as it is, or another one that complains. -/
theorem written_response {response : Response}
    (wrote : written config (.response response) = some answered) :
    answered = .response response ∨ Complains answered := by
  rw [written] at wrote
  split at wrote
  · cases wrote
    exact .inl rfl
  · split at wrote
    · rename_i standIn made
      obtain ⟨-, -, same⟩ := Option.map_eq_some_iff.1 wrote
      cases same
      rw [fallback] at made
      obtain ⟨failure, failed, same⟩ := map_eq_ok.1 made
      cases same
      exact .inr (failure_complains failed)
    · cases wrote
  · cases wrote

/-- So is a handshake response. -/
theorem written_hello {hello : HandshakeResponse}
    (wrote : written config (.handshakeResponse hello) = some answered) :
    answered = .handshakeResponse hello ∨ Complains answered := by
  rcases written_cases wrote with same | ⟨rfl, -⟩
  · exact .inl same
  · exact .inr (complains_of_refused rfl)

theorem writtenRefusal_complains {code : String} {message : PyText}
    (wrote : writtenRefusal config code message = some answered) :
    Complains answered ∧ ∃ encoded, encodeFrame config.maxFrameBytes answered = .ok encoded := by
  rw [writtenRefusal] at wrote
  split at wrote
  · rename_i made
    refine ⟨?_, written_encodes wrote⟩
    rcases written_hello wrote with rfl | complains
    · exact complains_of_refused (refusal_refuses made)
    · exact complains
  · cases wrote

theorem writtenFailure_complains {requestId : Token} {code : String} {message : PyText}
    (wrote : writtenFailure config requestId code message = some answered) :
    Complains answered ∧ ∃ encoded, encodeFrame config.maxFrameBytes answered = .ok encoded := by
  rw [writtenFailure] at wrote
  split at wrote
  · rename_i made
    refine ⟨?_, written_encodes wrote⟩
    rcases written_response wrote with rfl | complains
    · exact failure_complains made
    · exact complains
  · cases wrote

theorem protocolError_complains {connection : Option NegotiatedConnection} {code : String}
    {message : PyText} (wrote : protocolError config connection code message = some answered) :
    Complains answered ∧ ∃ encoded, encodeFrame config.maxFrameBytes answered = .ok encoded := by
  cases connection with
  | none => exact writtenRefusal_complains wrote
  | some _ => exact writtenFailure_complains wrote

theorem farewell_complains {connection : Option NegotiatedConnection} {ending : Ending}
    (wrote : farewell config connection ending = some answered) :
    Complains answered ∧ ∃ encoded, encodeFrame config.maxFrameBytes answered = .ok encoded := by
  unfold farewell at wrote
  split at wrote
  · exact protocolError_complains wrote
  · exact protocolError_complains wrote
  · cases wrote

end Written

section Answers

variable {daemon : Daemon} {reply : HandlerReply} {complaint : PyText} {frame : List UInt8}
  {answered : Frame}

/-- The answer to a first frame accepts a handshake, or complains. -/
theorem firstAnswer_cases (wrote : firstAnswer daemon complaint frame = some answered) :
    (∃ encoded, encodeFrame daemon.config.maxFrameBytes answered = .ok encoded) ∧
      (Complains answered ∨ ∃ handshake hello connection,
        decoded daemon frame = .ok (.handshake handshake) ∧
        negotiate daemon.config handshake = .ok (hello, some connection) ∧
        answered = .handshakeResponse hello ∧ connection.context = handshake.context) := by
  have read : decoded daemon frame = decodeFrame daemon.interpreter daemon.config.maxFrameBytes false
      (.bytes ⟨frame.toArray⟩) := rfl
  unfold firstAnswer at wrote
  rw [← read] at wrote
  cases first : decoded daemon frame with
  | error fault =>
      rw [first] at wrote
      dsimp only at wrote
      split at wrote
      · exact ⟨(writtenRefusal_complains wrote).2, .inl (writtenRefusal_complains wrote).1⟩
      · cases wrote
  | ok decodedAs =>
      rw [first] at wrote
      cases decodedAs with
      | handshakeResponse _ | request _ | response _ =>
          exact ⟨(writtenRefusal_complains wrote).2, .inl (writtenRefusal_complains wrote).1⟩
      | handshake handshake =>
          dsimp only at wrote
          cases offered : negotiate daemon.config handshake with
          | error fault =>
              rw [offered] at wrote
              cases wrote
          | ok outcome =>
              rw [offered] at wrote
              obtain ⟨hello, negotiated⟩ := outcome
              dsimp only at wrote
              refine ⟨written_encodes wrote, ?_⟩
              rcases written_hello wrote with rfl | complains
              · cases accepted : hello.accepted with
                | false => exact .inl (complains_of_refused accepted)
                | true =>
                    obtain ⟨connection, rfl, context, -⟩ := negotiate_accepted offered accepted
                    exact .inr ⟨handshake, hello, connection, rfl, offered, rfl, context⟩
              · exact .inl complains

/-- A response carries what the application returned, or complains. -/
theorem respond_cases {config : DaemonConfig} {request : Request} {response : Response}
    (made : respond config request reply = .ok response) :
    Complains (.response response) ∨ ∃ value,
      reply = .returned value ∧ payload value = .ok response.result := by
  unfold respond at made
  cases reply with
  | raised => exact .inl (failure_complains made)
  | refused code message => exact .inl (failure_complains made)
  | returned value =>
      dsimp only at made
      split at made
      · rename_i result valid
        cases made
        exact .inr ⟨value, rfl, valid⟩
      · exact .inl (failure_complains made)

/-- The answer to a later frame is a result of the application for the request in the frame, or
complains. -/
theorem answer_cases {connection : NegotiatedConnection}
    (wrote : answer daemon reply complaint frame (some connection) = some answered) :
    (∃ encoded, encodeFrame daemon.config.maxFrameBytes answered = .ok encoded) ∧
      (Complains answered ∨ ∃ request response value,
        decoded daemon frame = .ok (.request request) ∧ answered = .response response ∧
        reply = .returned value ∧ payload value = .ok response.result ∧
        ∀ sends, (handleFrame daemon ⟨reply, sends⟩ frame (some connection)).invoked =
          invocation daemon connection request) := by
  unfold answer at wrote
  dsimp only at wrote
  split at wrote
  · split at wrote
    · exact ⟨(protocolError_complains wrote).2, .inl (protocolError_complains wrote).1⟩
    · cases wrote
  · rename_i request read
    split at wrote
    · exact ⟨(writtenFailure_complains wrote).2, .inl (writtenFailure_complains wrote).1⟩
    · rename_i protocol
      split at wrote
      · exact ⟨(writtenFailure_complains wrote).2, .inl (writtenFailure_complains wrote).1⟩
      · rename_i schema
        split at wrote
        · exact ⟨(writtenFailure_complains wrote).2, .inl (writtenFailure_complains wrote).1⟩
        · rename_i capable
          split at wrote
          · rename_i response made
            refine ⟨written_encodes wrote, ?_⟩
            rcases written_response wrote with rfl | complains
            · rcases respond_cases made with complains | ⟨value, returned, valid⟩
              · exact .inl complains
              · refine .inr ⟨request, response, value, read, rfl, returned, valid, fun sends => ?_⟩
                unfold handleFrame
                rw [read]
                dsimp only
                rw [if_neg (not_or.2 ⟨protocol, schema⟩), if_neg capable]
                rfl
            · exact .inl complains
          · cases wrote
  · exact ⟨(protocolError_complains wrote).2, .inl (protocolError_complains wrote).1⟩

end Answers

/-! ## What the daemon did -/

section Served

variable {daemon : Daemon} {surroundings : Nat → Surroundings}

/-- A first frame calls nothing, and keeps the connection open only when it made one and an answer
to it was written. -/
theorem first_frame (reply : HandlerReply) (sends : Bool) (complaint : PyText) (frame : List UInt8) :
    (handleFrame daemon ⟨reply, sends⟩ frame none).invoked = none ∧
      ((handleFrame daemon ⟨reply, sends⟩ frame none).keepOpen = true →
        ∃ handshake connection, decoded daemon frame = .ok (.handshake handshake) ∧
          (handleFrame daemon ⟨reply, sends⟩ frame none).connection = some connection ∧
          connection.context = handshake.context ∧
          (firstAnswer daemon complaint frame).isSome = true) := by
  have read : decoded daemon frame = decodeFrame daemon.interpreter daemon.config.maxFrameBytes false
      (.bytes ⟨frame.toArray⟩) := rfl
  unfold handleFrame firstAnswer
  rw [← read]
  cases first : decoded daemon frame with
  | error fault => exact ⟨rfl, fun kept => by cases kept⟩
  | ok decodedAs =>
      cases decodedAs with
      | handshakeResponse _ | request _ | response _ => exact ⟨rfl, fun kept => by cases kept⟩
      | handshake handshake =>
          dsimp only
          cases offered : negotiate daemon.config handshake with
          | error fault => exact ⟨rfl, fun kept => by cases kept⟩
          | ok outcome =>
              obtain ⟨hello, negotiated⟩ := outcome
              refine ⟨rfl, fun kept => ?_⟩
              obtain ⟨sent, accepted⟩ := Bool.and_eq_true_iff.1 kept
              obtain ⟨connection, rfl, context, -⟩ := negotiate_accepted offered accepted
              refine ⟨handshake, connection, rfl, rfl, context, ?_⟩
              dsimp only
              cases sends with
              | true => rw [← send_eq_isSome daemon.config reply, sent]
              | false =>
                  unfold send at sent
                  split at sent
                  · cases sent
                  · split at sent <;> cases sent
                  · cases sent

/-- How far a daemon gets with two lines. -/
inductive Got (daemon : Daemon) (surroundings : Nat → Surroundings) (lines : List (List UInt8))
    (first second : List UInt8) (served : Served Connected Ending) : Prop where
  | nothing (frames : served.frames = []) (log : served.state.log = [])
  | first (sent : [first] <+: lines) (frames : served.frames = [first])
      (log : served.state.log = [⟨first, none⟩])
  | both (sent : [first, second] <+: lines) (frames : served.frames = [first, second])
      (kept : (handleFrame daemon (surroundings 0) first none).keepOpen = true)
      (log : served.state.log = [⟨first, none⟩, ⟨second, (handleFrame daemon (surroundings 1) second
        (handleFrame daemon (surroundings 0) first none).connection).invoked⟩])

theorem served_got {received : List Received} {sent first second : List UInt8}
    (upstream : arrivals received <+: sent) (lines : (pieces sent).1 <+: [first, second]) :
    Got daemon surroundings (pieces sent).1 first second (serveClient daemon.config.maxFrameBytes
      (daemon.handle surroundings) ⟨none, []⟩ received) := by
  obtain ⟨admitted, within, frames, state⟩ := @served_beginning Connected
    daemon.config.maxFrameBytes (daemon.handle surroundings) ⟨none, []⟩ received sent upstream
  have silent := (@first_frame daemon (surroundings 0).reply (surroundings 0).sends [] first).1
  have shorter : admitted <+: [first, second] := within.trans lines
  generalize serveClient daemon.config.maxFrameBytes (daemon.handle surroundings) ⟨none, []⟩ received
    = served at frames state ⊢
  have few : admitted = [] ∨ admitted = [first] ∨ admitted = [first, second] := by
    rcases admitted with _ | ⟨a, _ | ⟨b, rest⟩⟩
    · exact .inl rfl
    · obtain ⟨same, -⟩ := List.cons_prefix_cons.1 shorter
      rw [same]
      exact .inr (.inl rfl)
    · obtain ⟨same, later⟩ := List.cons_prefix_cons.1 shorter
      obtain ⟨next, last⟩ := List.cons_prefix_cons.1 later
      rw [same, next, List.prefix_nil.1 last]
      exact .inr (.inr rfl)
  rcases few with rfl | rfl | rfl
  · exact .nothing frames (congrArg Connected.log state)
  · cases kept : (handleFrame daemon (surroundings 0) first none).keepOpen <;>
      simp only [handleUntilClosed, Daemon.handle, List.length_nil, kept, silent, List.nil_append]
        at frames state <;>
      exact .first within frames (congrArg Connected.log state)
  · cases kept : (handleFrame daemon (surroundings 0) first none).keepOpen with
    | false =>
        simp only [handleUntilClosed, Daemon.handle, List.length_nil, kept, silent, List.nil_append]
          at frames state
        exact .first ((List.prefix_append [first] [second]).trans within) frames
          (congrArg Connected.log state)
    | true =>
        cases again : (handleFrame daemon (surroundings 1) second
            (handleFrame daemon (surroundings 0) first none).connection).keepOpen <;>
          simp only [handleUntilClosed, Daemon.handle, List.length_nil, List.length_singleton, kept,
            again, silent, List.nil_append, List.singleton_append] at frames state <;>
          exact .both within frames kept (congrArg Connected.log state)

end Served

/-! ## Both sides -/

/-- What the client hands over are its two frames, as far as it gets. -/
theorem exchange_lines (config : ClientConfig) (interpreter : Interpreter) (wire : Wire)
    (request : Request) :
    let lines := (pieces (exchange config interpreter wire request).handed.flatten).1
    lines = [] ∨
      (∃ encoded, encodeFrame config.maxFrameBytes (.handshake config.hello) = .ok encoded) ∧
        (lines = [frameBytes (.handshake config.hello)] ∨
          (∃ encoded, encodeFrame config.maxFrameBytes (.request request) = .ok encoded) ∧
            lines = [frameBytes (.handshake config.hello), frameBytes (.request request)]) := by
  intro lines
  have one : ∀ frame, (∃ encoded, encodeFrame config.maxFrameBytes frame = .ok encoded) →
      ∀ later, (pieces ((frameBytes frame ++ [newline]) ++ later)).1 =
        frameBytes frame :: (pieces later).1 := by
    rintro frame ⟨encoded, sent⟩ later
    obtain ⟨-, -, -, -, -, solid, -⟩ := encoded_bytes sent
    rw [List.append_assoc, List.singleton_append, pieces_of_line solid]
  unfold lines exchange
  split
  · exact .inl rfl
  · split
    · exact .inl rfl
    · have hello := @exchangeFrame_handed config interpreter Unit (.handshake config.hello)
        wire.sendsHandshake wire.received
        (validateHandshake config (requiredCapability request.method.text))
      split
      · rename_i handed error done
        rw [done] at hello
        rcases hello with rfl | ⟨encodes, rfl⟩
        · exact .inl rfl
        · right
          refine ⟨encodes, .inl ?_⟩
          rw [List.flatten_singleton, ← List.append_nil (_ ++ _), one _ encodes]
          rfl
      · rename_i handed _ later done
        obtain ⟨⟨encodes, rfl⟩, -⟩ := exchangeFrame_eq_ok done
        have body := @exchangeFrame_handed config interpreter PyValue (.request request)
          wire.sendsRequest later (readResponse config request)
        right
        refine ⟨encodes, ?_⟩
        have whole : ∀ body, ([frameBytes (.handshake config.hello) ++ [newline]] ++ body).flatten =
            (frameBytes (.handshake config.hello) ++ [newline]) ++ body.flatten := fun body => rfl
        split
        all_goals
          rename_i handed' _ again
          rw [again] at body
          dsimp only
          rw [whole, one _ encodes]
          rcases body with rfl | ⟨encodes', rfl⟩
          · exact .inl rfl
          · right
            refine ⟨encodes', ?_⟩
            rw [List.flatten_singleton, ← List.append_nil (frameBytes (.request request) ++ _),
              one _ encodes']
            rfl

/-- The call that a request makes under a context. -/
def callsOf (daemon : Daemon) (context : ClientContext) (request : Request) : List Invocation :=
  if request.method.text = "health" then
    if daemon.hasHealthHook then [.healthHook context] else []
  else [.handler context request]

theorem callsOf_invocation {daemon : Daemon} {connection : NegotiatedConnection}
    {context : ClientContext} (under : connection.context = context) (request : Request) :
    callsOf daemon context request = (invocation daemon connection request).toList := by
  unfold callsOf invocation
  rw [under]
  split
  · split <;> rfl
  · rfl

/-- The calls into the application that a connection made. -/
def calls (served : Served Connected Ending) : List Invocation :=
  served.state.log.filterMap Handling.invoked

section Read

variable {interpreter : Interpreter} {limit : Nat} {line rest offered : List UInt8} {reply : Frame}

/-- A reader of a beginning of what was written reads the first frame of it. -/
theorem read_first {config : DaemonConfig} {first : Option Frame}
    (encodes : ∀ frame, first = some frame →
      ∃ encoded, encodeFrame config.maxFrameBytes frame = .ok encoded)
    (solid : newline ∉ line) (start : line ++ newline :: rest <+: wireBytes config first ++ offered)
    (read : decodeFrame interpreter limit true (.bytes ⟨(line ++ [newline]).toArray⟩) = .ok reply)
    (positive : 0 < limit) :
    first = none ∧ line ++ newline :: rest <+: offered ∨ first = some reply ∧ rest <+: offered := by
  cases first with
  | none => exact .inl ⟨rfl, start⟩
  | some frame =>
      obtain ⟨encoded, sent⟩ := encodes frame rfl
      obtain ⟨-, -, -, -, bytes, solid', -⟩ := encoded_bytes sent
      have written : wireBytes config (some frame) = frameBytes frame ++ [newline] := by
        rw [wireBytes, sent, ← bytes]
      rw [written, List.append_assoc, List.singleton_append] at start
      obtain ⟨rfl, later⟩ := line_of_prefix solid solid' start
      have whole : (⟨(frameBytes frame ++ [newline]).toArray⟩ : ByteArray) = encoded := by
        rw [← bytes]
      rw [whole] at read
      obtain ⟨-, rfl, -, -⟩ := (decode_whole_iff sent positive).1 read
      exact .inr ⟨rfl, later⟩

/-- What the daemon writes last complains. -/
theorem read_farewell {config : DaemonConfig} {connection : Option NegotiatedConnection}
    {ending : Ending} (solid : newline ∉ line)
    (start : line ++ newline :: rest <+: wireBytes config (farewell config connection ending))
    (read : decodeFrame interpreter limit true (.bytes ⟨(line ++ [newline]).toArray⟩) = .ok reply)
    (positive : 0 < limit) : Complains reply := by
  rw [← List.append_nil (wireBytes _ _)] at start
  rcases read_first (fun frame wrote => (farewell_complains wrote).2) solid start read positive with
    ⟨-, nothing⟩ | ⟨wrote, -⟩
  · have empty := List.prefix_nil.1 nothing
    simp at empty
  · exact (farewell_complains wrote).1

end Read

theorem validateHandshake_eq_ok {config : ClientConfig} {capability : String} {reply : Frame}
    {u : Unit} (valid : validateHandshake config capability reply = .ok u) : ¬ Complains reply := by
  unfold validateHandshake at valid
  split at valid
  · rename_i hello
    split at valid
    · cases valid
    · rename_i fine
      unfold Complains
      dsimp only
      rw [fine]
      exact Bool.false_ne_true
  · cases valid

theorem readResponse_eq_ok {config : ClientConfig} {request : Request} {reply : Frame}
    {value : PyValue} (read : readResponse config request reply = .ok value) :
    ¬ Complains reply ∧ ∃ response, reply = .response response ∧ response.result.value = value := by
  unfold readResponse at read
  split at read
  · rename_i response
    obtain ⟨-, read⟩ := require_bind_eq_ok.1 read
    split at read
    · cases read
    · rename_i fine
      cases pure_eq_ok.1 read
      refine ⟨?_, response, rfl, rfl⟩
      unfold Complains
      dsimp only
      rw [fine]
      exact Bool.false_ne_true
  · cases read

/-- A request that returned has read two frames. -/
theorem exchange_eq_ok {config : ClientConfig} {interpreter : Interpreter} {wire : Wire}
    {request : Request} {value : PyValue}
    (returned : (exchange config interpreter wire request).outcome = .ok value) :
    ∃ first rest hello second later response, newline ∉ first ∧
      arrived wire.received = first ++ newline :: rest ∧
      decodeFrame interpreter config.maxFrameBytes true
        (.bytes ⟨(first ++ [newline]).toArray⟩) = .ok hello ∧ ¬ Complains hello ∧
      newline ∉ second ∧ rest = second ++ newline :: later ∧
      decodeFrame interpreter config.maxFrameBytes true
        (.bytes ⟨(second ++ [newline]).toArray⟩) = .ok (.response response) ∧
      ¬ Complains (.response response) ∧ response.result.value = value := by
  unfold exchange at returned
  split at returned
  · cases returned
  · split at returned
    · cases returned
    · split at returned
      · cases returned
      · rename_i done
        obtain ⟨-, first, hello, solid, whole, read, valid⟩ := exchangeFrame_eq_ok done
        split at returned
        · cases returned
        · rename_i done'
          obtain ⟨-, second, reply, solid', whole', read', valid'⟩ := exchangeFrame_eq_ok done'
          cases returned
          obtain ⟨fine, response, rfl, result⟩ := readResponse_eq_ok valid'
          exact ⟨first, _, hello, second, _, response, solid, whole, read,
            validateHandshake_eq_ok valid, solid', whole', read', fine, result⟩

section Once

variable {config : ClientConfig} {interpreter : Interpreter} {daemon : Daemon}
  {surroundings : Nat → Surroundings} {complaints : Nat → PyText} {received : List Received}
  {wire : Wire} {request : Request}

theorem client_positive (config : ClientConfig) : 0 < config.maxFrameBytes :=
  Nat.lt_of_lt_of_le (by decide) config.framesLarge

/-- A call for a later frame is the call for the request in it. -/
theorem second_frame {around : Surroundings} {frame : List UInt8}
    {connection : NegotiatedConnection} {call : Invocation}
    (invoked : (handleFrame daemon around frame (some connection)).invoked = some call) :
    ∃ request, decoded daemon frame = .ok (.request request) ∧
      invocation daemon connection request = some call := by
  have read : decoded daemon frame = decodeFrame daemon.interpreter daemon.config.maxFrameBytes false
      (.bytes ⟨frame.toArray⟩) := rfl
  unfold handleFrame at invoked
  rw [← read] at invoked
  cases second : decoded daemon frame with
  | error fault =>
      rw [second] at invoked
      cases invoked
  | ok decodedAs =>
      rw [second] at invoked
      cases decodedAs with
      | handshake _ | handshakeResponse _ | response _ => cases invoked
      | request request =>
          dsimp only at invoked
          split at invoked
          · cases invoked
          · split at invoked
            · cases invoked
            · exact ⟨request, rfl, invoked⟩

/-- A daemon that handled both frames of a client is connected under the client's context, and what
it called is what the request calls. -/
theorem both_handled
    (hello : ∃ encoded, encodeFrame config.maxFrameBytes (.handshake config.hello) = .ok encoded)
    (body : ∃ encoded, encodeFrame config.maxFrameBytes (.request request) = .ok encoded)
    (kept : (handleFrame daemon (surroundings 0) (frameBytes (.handshake config.hello)) none).keepOpen =
      true) :
    ∃ connection, (handleFrame daemon (surroundings 0) (frameBytes (.handshake config.hello))
        none).connection = some connection ∧ connection.context = config.context ∧
      (∀ complaint, (firstAnswer daemon complaint
        (frameBytes (.handshake config.hello))).isSome = true) ∧
      ∀ around, (handleFrame daemon around (frameBytes (.request request))
        (some connection)).invoked.toList <+: callsOf daemon config.context request := by
  obtain ⟨encoded, sent⟩ := hello
  obtain ⟨encoded', sent'⟩ := body
  have opened := fun complaint => (@first_frame daemon (surroundings 0).reply (surroundings 0).sends
    complaint (frameBytes (.handshake config.hello))).2 kept
  obtain ⟨handshake, connection, read, made, context, -⟩ := opened []
  obtain ⟨-, same, -⟩ := (decode_bare_iff sent (positive_frames daemon.config)).1 read
  cases same
  refine ⟨connection, made, context, fun complaint => ?_, fun around => ?_⟩
  · obtain ⟨-, -, -, -, -, wrote⟩ := opened complaint
    exact wrote
  · cases invoked : (handleFrame daemon around (frameBytes (.request request))
        (some connection)).invoked with
    | none => exact List.nil_prefix
    | some call =>
        obtain ⟨request', read, called⟩ := second_frame invoked
        obtain ⟨-, same, -⟩ := (decode_bare_iff sent' (positive_frames daemon.config)).1 read
        cases same
        have under : connection.context = config.context := context
        rw [callsOf_invocation under, called]

/-- Where the daemon answers one frame at most, no request returns: it would have to read two that do
not complain. -/
theorem exchange_unanswered {connection : Option NegotiatedConnection} {ending : Ending}
    {first : Option Frame} {value : PyValue}
    (encodes : ∀ frame, first = some frame →
      ∃ encoded, encodeFrame daemon.config.maxFrameBytes frame = .ok encoded)
    (start : arrived wire.received <+: wireBytes daemon.config first ++
      wireBytes daemon.config (farewell daemon.config connection ending)) :
    (exchange config interpreter wire request).outcome ≠ .ok value := by
  intro returned
  have positive := client_positive config
  obtain ⟨a, rest, hello, b, later, response, solid, whole, read, fine, solid', again, read', fine',
    -⟩ := exchange_eq_ok returned
  rw [whole] at start
  rcases read_first encodes solid start read positive with ⟨-, start⟩ | ⟨-, start⟩
  · exact fine (read_farewell solid start read positive)
  · rw [again] at start
    exact fine' (read_farewell solid' start read' positive)

/-- A request that returned on two answers has made its call, and returns what the application
returned. -/
theorem exchange_returned {connection : NegotiatedConnection} {last : Option NegotiatedConnection}
    {ending : Ending} {reply : HandlerReply} {complaint complaint' : PyText} {value : PyValue}
    (body : ∃ encoded, encodeFrame config.maxFrameBytes (.request request) = .ok encoded)
    (under : connection.context = config.context)
    (spoke : (firstAnswer daemon complaint (frameBytes (.handshake config.hello))).isSome = true)
    (start : arrived wire.received <+:
      wireBytes daemon.config (firstAnswer daemon complaint (frameBytes (.handshake config.hello))) ++
        (wireBytes daemon.config
            (answer daemon reply complaint' (frameBytes (.request request)) (some connection)) ++
          wireBytes daemon.config (farewell daemon.config last ending)))
    (returned : (exchange config interpreter wire request).outcome = .ok value) :
    (∀ sends, (handleFrame daemon ⟨reply, sends⟩ (frameBytes (.request request))
        (some connection)).invoked.toList = callsOf daemon config.context request) ∧
      ∃ returned result, reply = .returned returned ∧ payload returned = .ok result ∧
        result.value = value := by
  have positive := client_positive config
  obtain ⟨a, rest, hello, b, later, response, solid, whole, read, -, solid', again, read', fine',
    result⟩ := exchange_eq_ok returned
  rw [whole] at start
  rcases read_first (fun frame wrote => (firstAnswer_cases wrote).1) solid start read positive
    with ⟨silent, -⟩ | ⟨-, start⟩
  · rw [silent] at spoke
    cases spoke
  rw [again] at start
  rcases read_first (fun frame wrote => (answer_cases wrote).1) solid' start read' positive
    with ⟨-, start⟩ | ⟨answered, -⟩
  · exact absurd (read_farewell solid' start read' positive) fine'
  rcases (answer_cases answered).2 with complains | ⟨request', response', returned', decoded', same,
    replied, valid, invoked⟩
  · exact absurd complains fine'
  cases same
  obtain ⟨encoded, sent⟩ := body
  obtain ⟨-, same, -⟩ := (decode_bare_iff sent (positive_frames daemon.config)).1 decoded'
  cases same
  refine ⟨fun sends => ?_, returned', response.result, replied, valid, result⟩
  rw [callsOf_invocation under]
  exact congrArg Option.toList (invoked sends)

/-- A daemon that got both lines of an exchange got two frames that were encoded. -/
theorem both_encoded {hello body : Frame}
    (sent : [frameBytes hello, frameBytes body] <+: (pieces (exchange config interpreter wire
      request).handed.flatten).1)
    (lines : (pieces (exchange config interpreter wire request).handed.flatten).1 = [] ∨
      (∃ encoded, encodeFrame config.maxFrameBytes hello = .ok encoded) ∧
        ((pieces (exchange config interpreter wire request).handed.flatten).1 = [frameBytes hello] ∨
          (∃ encoded, encodeFrame config.maxFrameBytes body = .ok encoded) ∧
            (pieces (exchange config interpreter wire request).handed.flatten).1 =
              [frameBytes hello, frameBytes body])) :
    (∃ encoded, encodeFrame config.maxFrameBytes hello = .ok encoded) ∧
      ∃ encoded, encodeFrame config.maxFrameBytes body = .ok encoded := by
  have two := sent.length_le
  rcases lines with none | ⟨hello, one | ⟨body, -⟩⟩
  · rw [none] at two
    simp at two
  · rw [one] at two
    simp at two
  · exact ⟨hello, body⟩

/-- What a request calls is at most its own call, and a request that returns has made it. -/
theorem exchange_once
    (joined : Joined daemon surroundings complaints received (exchange config interpreter wire request)
      wire) :
    let served := serveClient daemon.config.maxFrameBytes (daemon.handle surroundings) ⟨none, []⟩
      received
    calls served <+: callsOf daemon config.context request ∧
      ∀ value, (exchange config interpreter wire request).outcome = .ok value →
        calls served = callsOf daemon config.context request ∧
          ∃ returned result, (surroundings 1).reply = .returned returned ∧
            payload returned = .ok result ∧ result.value = value := by
  intro served
  have lines := exchange_lines config interpreter wire request
  have got : Got daemon surroundings (pieces (exchange config interpreter wire request).handed.flatten).1
      (frameBytes (.handshake config.hello)) (frameBytes (.request request)) served :=
    served_got joined.upstream ((by
      rcases lines with none | ⟨-, one | ⟨-, two⟩⟩
      · rw [none]
        exact List.nil_prefix
      · rw [one]
        exact List.prefix_append [_] [_]
      · rw [two]))
  have downstream := joined.downstream
  change arrived wire.received <+: daemon.offers surroundings complaints served at downstream
  cases got with
  | nothing frames log =>
      refine ⟨?_, fun value returned => ?_⟩
      · rw [calls, log]
        exact List.nil_prefix
      · rw [Daemon.offers, frames] at downstream
        exact absurd returned (@exchange_unanswered _ _ _ _ _ _ _ none value (by simp) downstream)
  | first sent frames log =>
      refine ⟨?_, fun value returned => ?_⟩
      · rw [calls, log]
        exact List.nil_prefix
      · rw [Daemon.offers, frames] at downstream
        simp only [answers, List.append_nil] at downstream
        exact absurd returned
          (exchange_unanswered (fun frame wrote => (firstAnswer_cases wrote).1) downstream)
  | both sent frames kept log =>
      obtain ⟨hello, body⟩ := both_encoded sent lines
      obtain ⟨connection, made, context, wrote, called⟩ :=
        @both_handled config daemon surroundings request hello body kept
      rw [made] at log
      have called_by : calls served = (handleFrame daemon (surroundings 1)
          (frameBytes (.request request)) (some connection)).invoked.toList := by
        rw [calls, log]
        cases (handleFrame daemon (surroundings 1) (frameBytes (.request request))
          (some connection)).invoked <;> rfl
      refine ⟨called_by ▸ called (surroundings 1), fun value returned => ?_⟩
      rw [Daemon.offers, frames] at downstream
      simp only [answers, List.append_nil, List.append_assoc, made] at downstream
      obtain ⟨invoked, result⟩ :=
        exchange_returned body context (wrote (complaints 0)) downstream returned
      exact ⟨called_by.trans (invoked (surroundings 1).sends), result⟩

/-- Nothing is handled of nothing. -/
theorem nothing_handled (upstream : arrivals received <+: []) :
    calls (serveClient daemon.config.maxFrameBytes (daemon.handle surroundings) ⟨none, []⟩
      received) = [] := by
  have got := @served_got daemon surroundings received [] [] [] upstream List.nil_prefix
  rw [calls]
  cases got with
  | nothing _ log => rw [log]; rfl
  | first sent _ _ => cases List.prefix_nil.1 sent
  | both sent _ _ _ => cases List.prefix_nil.1 sent

/-- Whatever happens on the two sockets, a request makes at most its own call, under the context of
the client; and a request that returns has made it, and returns what the application returned.  A
health request to a daemon without a health hook has no call of its own (`callsOf`), so it makes
none. -/
theorem request_served_once {requestId method params : PyValue}
    (joined : Joined daemon surroundings complaints received
      (EnfoldClient.request config interpreter wire requestId method params) wire) :
    let run := EnfoldClient.request config interpreter wire requestId method params
    let served := serveClient daemon.config.maxFrameBytes (daemon.handle surroundings) ⟨none, []⟩
      received
    (calls served = [] ∧ ∀ value, run.outcome ≠ .ok value) ∨
      ∃ request, Request.build requestId method params config.protocol config.schemaVersion =
          .ok request ∧
        calls served <+: callsOf daemon config.context request ∧
        ∀ value, run.outcome = .ok value →
          calls served = callsOf daemon config.context request ∧
            ∃ returned result, (surroundings 1).reply = .returned returned ∧
              payload returned = .ok result ∧ result.value = value := by
  intro run served
  unfold EnfoldClient.request at joined
  unfold run EnfoldClient.request
  cases built : Request.build requestId method params config.protocol config.schemaVersion with
  | error fault =>
      rw [built] at joined
      exact .inl ⟨nothing_handled joined.upstream, fun value returned => by cases returned⟩
  | ok request =>
      rw [built] at joined
      obtain ⟨few, once⟩ := exchange_once joined
      exact .inr ⟨request, rfl, few, once⟩

end Once

/-! ## When nothing fails -/

section Answered

variable {config : ClientConfig} {interpreter : Interpreter} {daemon : Daemon}
  {surroundings : Nat → Surroundings} {request : Request} {server : Tokens}

/-- A frame that arrives in chunks is received. -/
theorem receive_chunks {chunks : List (List UInt8)} (filled : ∀ c ∈ chunks, c ≠ [])
    (later : List (Option (List UInt8))) {data line : List UInt8} (solid : newline ∉ data)
    (solidLine : newline ∉ line) (whole : data ++ chunks.flatten = line ++ [newline])
    (fits : (line ++ [newline]).length ≤ config.maxFrameBytes) :
    receive config interpreter data (chunks.map some ++ later) =
      ((decodeFrame interpreter config.maxFrameBytes true
        (.bytes ⟨(line ++ [newline]).toArray⟩)).mapError wrap, later) := by
  induction chunks generalizing data with
  | nil =>
      rw [List.flatten_nil, List.append_nil] at whole
      exact absurd (whole ▸ List.mem_append_right line (List.mem_singleton_self newline)) solid
  | cons chunk chunks ih =>
      obtain ⟨byte, bytes, rfl⟩ := List.exists_cons_of_ne_nil (filled chunk List.mem_cons_self)
      have others : ∀ c ∈ chunks, c ≠ [] := fun c mem => filled c (List.mem_cons_of_mem _ mem)
      rw [List.flatten_cons, ← List.append_assoc] at whole
      rw [List.map_cons, List.cons_append, receive.eq_def]
      dsimp only
      cases cut : cutLine (data ++ byte :: bytes) with
      | none =>
          have before := cutLine_eq_none.1 cut
          have shorter : (data ++ byte :: bytes).length < config.maxFrameBytes := by
            have lengths := congrArg List.length whole
            have some_left : chunks.flatten ≠ [] := by
              intro none
              rw [none, List.append_nil] at whole
              exact before (whole ▸ List.mem_append_right line (List.mem_singleton_self newline))
            have := List.length_pos_of_ne_nil some_left
            rw [List.length_append] at lengths
            omega
          dsimp only
          rw [if_neg (Nat.not_le.2 shorter)]
          exact ih others before whole
      | some p =>
          obtain ⟨line', rest⟩ := p
          obtain ⟨same, solid'⟩ := cutLine_eq_some.1 cut
          have start : line' ++ newline :: (rest ++ chunks.flatten) <+: line ++ newline :: [] := by
            rw [← whole, same, List.append_assoc, List.cons_append]
          obtain ⟨rfl, nothing⟩ := line_of_prefix solid' solidLine start
          obtain ⟨rfl, none⟩ := List.append_eq_nil_iff.1 (List.prefix_nil.1 nothing)
          cases chunks with
          | nil =>
              dsimp only
              rw [same]
              rfl
          | cons c chunks =>
              rw [List.flatten_cons] at none
              exact absurd (List.append_eq_nil_iff.1 none).1 (others c List.mem_cons_self)

/-- A frame that one side writes and the other can read. -/
structure Carried (limit limit' : Nat) (frame : Frame) : Prop where
  encodes : ∃ encoded, encodeFrame limit frame = .ok encoded
  fits : (frameBytes frame ++ [newline]).length ≤ limit'
  shallow : Shallow frame

/-- A frame that is sent and answered. -/
theorem exchangeFrame_of {α : Type} {frame answered : Frame}
    (sent : ∃ encoded, encodeFrame config.maxFrameBytes frame = .ok encoded)
    {check : Frame → Except ClientError α} {limit : Nat}
    (carried : Carried limit config.maxFrameBytes answered) (major : answered.protocol.major = 1)
    {chunks : List (List UInt8)} (filled : ∀ c ∈ chunks, c ≠ [])
    (whole : chunks.flatten = frameBytes answered ++ [newline])
    (later : List (Option (List UInt8))) :
    exchangeFrame config interpreter frame true (chunks.map some ++ later) check =
      ([frameBytes frame ++ [newline]], (check answered).map fun a => (a, later)) := by
  obtain ⟨encoded, sent⟩ := sent
  obtain ⟨-, -, -, -, bytes, -, -⟩ := encoded_bytes sent
  obtain ⟨reply, sent'⟩ := carried.encodes
  obtain ⟨-, -, -, -, bytes', solid', -⟩ := encoded_bytes sent'
  have same : (⟨(frameBytes answered ++ [newline]).toArray⟩ : ByteArray) = reply := by
    rw [← bytes']
  have size : reply.size ≤ config.maxFrameBytes := by
    have fits := carried.fits
    rwa [← bytes'] at fits
  have read : decodeFrame interpreter config.maxFrameBytes true (.bytes reply) = .ok answered :=
    (decode_whole_iff sent' (client_positive config)).2 ⟨size, rfl, carried.shallow, fun _ => major⟩
  have got := @receive_chunks config interpreter chunks filled later [] (frameBytes answered)
    List.not_mem_nil solid' whole carried.fits
  rw [same, read] at got
  unfold exchangeFrame
  rw [sent]
  dsimp only
  rw [if_neg (by decide), got, bytes]
  rfl

theorem failure_fields {daemonConfig : DaemonConfig} {requestId : Token} {code message : PyText}
    {response : Response}
    (made : Response.failure daemonConfig requestId code message = .ok response) :
    response.requestId = requestId ∧ response.protocol = currentVersion ∧
      response.schemaVersion = daemonConfig.schemaVersion := by
  obtain ⟨error, -, made⟩ := bind_eq_ok.1 made
  cases pure_eq_ok.1 made
  exact ⟨rfl, rfl, rfl⟩

/-- What the daemon sends for a request answers that request, under the daemon's own version. -/
theorem respond_fields {daemonConfig : DaemonConfig} {reply : HandlerReply} {response sent : Response}
    (replied : respond daemonConfig request reply = .ok response)
    (wrote : written daemonConfig (.response response) = some (.response sent)) :
    sent.requestId = request.requestId ∧ sent.protocol = currentVersion ∧
      sent.schemaVersion = daemonConfig.schemaVersion := by
  have fields : response.requestId = request.requestId ∧ response.protocol = currentVersion ∧
      response.schemaVersion = daemonConfig.schemaVersion := by
    unfold respond at replied
    cases reply with
    | raised => exact failure_fields replied
    | refused code message => exact failure_fields replied
    | returned value =>
        dsimp only at replied
        split at replied
        · cases replied
          exact ⟨rfl, rfl, rfl⟩
        · exact failure_fields replied
  rw [written] at wrote
  split at wrote
  · cases wrote
    exact fields
  · split at wrote
    · rename_i standIn made
      obtain ⟨-, -, same⟩ := Option.map_eq_some_iff.1 wrote
      cases same
      rw [fallback] at made
      obtain ⟨failure, failed, same⟩ := map_eq_ok.1 made
      cases same
      have standsIn := failure_fields failed
      rwa [fields.1] at standsIn
    · cases wrote
  · cases wrote

/-- The two sides speak one version, and the daemon offers what the request needs. -/
structure Agreed (config : ClientConfig) (daemon : Daemon) (request : Request) (server : Tokens) :
    Prop where
  protocol : config.protocol = currentVersion
  schema : config.schemaVersion = daemon.config.schemaVersion
  ours : request.protocol = config.protocol ∧ request.schemaVersion = config.schemaVersion
  listed : stringTuple (.arr (daemon.config.serverCapabilities.map .str)) = .ok server
  asked : requiredCapability request.method.text ∈ config.capabilities.items.map Token.text
  offered : requiredCapability request.method.text ∈ server.items.map Token.text

/-- The daemon grants the capability of the request. -/
theorem Agreed.granted (agreed : Agreed config daemon request server) :
    requiredCapability request.method.text ∈
      (acceptance daemon.config server config.hello).capabilities.items.map Token.text := by
  obtain ⟨token, mem, same⟩ := List.mem_map.1 agreed.offered
  refine List.mem_map.2 ⟨token, List.mem_filter.2 ⟨mem, decide_eq_true ?_⟩, same⟩
  rw [same]
  exact agreed.asked

theorem Agreed.compatible (agreed : Agreed config daemon request server) :
    Compatible daemon.config config.hello := by
  have version : config.hello.protocol = currentVersion := agreed.protocol
  refine ⟨?_, ?_, agreed.schema⟩ <;> rw [version] <;> rfl

/-- A request that fits its connection is answered, and the connection stays open. -/
theorem request_handled {connection : NegotiatedConnection} {around : Surroundings}
    {frame : List UInt8} (read : decodeFrame daemon.interpreter daemon.config.maxFrameBytes false
      (.bytes ⟨frame.toArray⟩) = .ok (.request request))
    (protocol : request.protocol = connection.protocol)
    (schema : request.schemaVersion = connection.schemaVersion)
    (capable : requiredCapability request.method.text ∈ connection.capabilities)
    (sends : around.sends = true) {response : Response} {sent : Frame}
    (replied : respond daemon.config request around.reply = .ok response)
    (wrote : written daemon.config (.response response) = some sent) (complaint : PyText) :
    answer daemon around.reply complaint frame (some connection) = some sent ∧
      (handleFrame daemon around frame (some connection)).keepOpen = true := by
  have around' : around = ⟨around.reply, true⟩ := by rw [← sends]
  constructor
  · unfold answer
    dsimp only
    rw [read]
    dsimp only
    rw [if_neg (not_not.2 protocol), if_neg (not_not.2 schema), if_neg (not_not.2 capable), replied]
    exact wrote
  · unfold handleFrame
    rw [read]
    dsimp only
    rw [if_neg (not_or.2 ⟨not_not.2 protocol, not_not.2 schema⟩), if_neg (not_not.2 capable),
      handleRequest, replied]
    dsimp only
    rw [around', send_eq_isSome, wrote]
    rfl

/-- A daemon that reads both frames answers both, and waits for more. -/
theorem daemon_answers (agreed : Agreed config daemon request server)
    (hello : Carried config.maxFrameBytes daemon.config.maxFrameBytes (.handshake config.hello))
    (body : Carried config.maxFrameBytes daemon.config.maxFrameBytes (.request request))
    (accepted : Carried daemon.config.maxFrameBytes config.maxFrameBytes
      (.handshakeResponse (acceptance daemon.config server config.hello)))
    (sends : (surroundings 0).sends = true ∧ (surroundings 1).sends = true) {response : Response}
    {sent : Frame} (replied : respond daemon.config request (surroundings 1).reply = .ok response)
    (wrote : written daemon.config (.response response) = some sent) (complaints : Nat → PyText)
    {chunks : List (List UInt8)} (filled : ∀ c ∈ chunks, c ≠ [])
    (whole : chunks.flatten = (frameBytes (.handshake config.hello) ++ [newline]) ++
      (frameBytes (.request request) ++ [newline])) :
    daemon.offers surroundings complaints (serveClient daemon.config.maxFrameBytes
        (daemon.handle surroundings) ⟨none, []⟩ (chunks.map .chunk)) =
      (frameBytes (.handshakeResponse (acceptance daemon.config server config.hello)) ++ [newline]) ++
        (frameBytes sent ++ [newline]) := by
  obtain ⟨_, sentHello⟩ := hello.encodes
  obtain ⟨_, sentBody⟩ := body.encodes
  obtain ⟨_, sentAccepted⟩ := accepted.encodes
  obtain ⟨encoded, sentReply⟩ := written_encodes wrote
  obtain ⟨-, -, -, -, -, solidHello, -⟩ := encoded_bytes sentHello
  obtain ⟨-, -, -, -, -, solidBody, -⟩ := encoded_bytes sentBody
  obtain ⟨-, -, -, -, bytesAccepted, -, -⟩ := encoded_bytes sentAccepted
  obtain ⟨-, -, -, -, bytesReply, -, -⟩ := encoded_bytes sentReply
  have fitsHello : (frameBytes (.handshake config.hello)).length ≤ daemon.config.maxFrameBytes := by
    have fits := hello.fits
    rw [List.length_append] at fits
    omega
  have fitsBody : (frameBytes (.request request)).length ≤ daemon.config.maxFrameBytes := by
    have fits := body.fits
    rw [List.length_append] at fits
    omega
  have first : decoded daemon (frameBytes (.handshake config.hello)) = .ok (.handshake config.hello) :=
    (decode_bare_iff sentHello (positive_frames daemon.config)).2
      ⟨fitsHello, rfl, hello.shallow, fun refuse => by cases refuse⟩
  have wroteAccepted : written daemon.config
      (.handshakeResponse (acceptance daemon.config server config.hello)) =
        some (.handshakeResponse (acceptance daemon.config server config.hello)) := by
    rw [written, sentAccepted]
  have around : surroundings 0 = ⟨(surroundings 0).reply, true⟩ := by rw [← sends.1]
  obtain ⟨answerFirst, handledHello⟩ := @handledFirst_compatible daemon (surroundings 0).reply
    (complaints 0) _ _ _ first agreed.compatible agreed.listed
  rw [wroteAccepted] at answerFirst handledHello
  unfold handledFirst at handledHello
  rw [← around] at handledHello
  have second : decodeFrame daemon.interpreter daemon.config.maxFrameBytes false
      (.bytes ⟨(frameBytes (.request request)).toArray⟩) = .ok (.request request) :=
    (decode_bare_iff sentBody (positive_frames daemon.config)).2
      ⟨fitsBody, rfl, body.shallow, fun refuse => by cases refuse⟩
  generalize connected : (NegotiatedConnection.mk config.hello.context
    ((acceptance daemon.config server config.hello).capabilities.items.map Token.text)
    config.hello.protocol config.hello.schemaVersion) = connection at handledHello
  have protocol : request.protocol = connection.protocol := by
    rw [← connected]
    exact agreed.ours.1
  have schema : request.schemaVersion = connection.schemaVersion := by
    rw [← connected]
    exact agreed.ours.2
  have capable : requiredCapability request.method.text ∈ connection.capabilities := by
    rw [← connected]
    exact agreed.granted
  obtain ⟨answerSecond, keptSecond⟩ :=
    request_handled second protocol schema capable sends.2 replied wrote (complaints 1)
  have cut : pieces chunks.flatten =
      ([frameBytes (.handshake config.hello), frameBytes (.request request)], []) := by
    rw [whole, List.append_assoc, List.singleton_append, pieces_of_line solidHello,
      pieces_of_line solidBody]
    rfl
  have served := (served_as_pieces daemon.config.maxFrameBytes (daemon.handle surroundings) ⟨none, []⟩
    filled filled rfl).1
  simp only [expected, cut, List.takeWhile_cons, fitsHello, fitsBody, decide_true, if_true,
    List.takeWhile_nil, handleUntilClosed, Daemon.handle, List.length_nil, handledHello,
    Option.isSome_some, List.nil_append, List.length_singleton, keptSecond, ne_eq, not_true_eq_false,
    false_or, Nat.not_lt_zero, if_false, Bool.true_eq_false] at served
  rw [served, Daemon.offers]
  have hellos : answer daemon (surroundings 0).reply (complaints 0)
      (frameBytes (.handshake config.hello)) none =
        some (.handshakeResponse (acceptance daemon.config server config.hello)) := answerFirst
  simp only [answers, hellos, handledHello, Nat.zero_add, answerSecond, farewell, wireBytes,
    sentAccepted, sentReply, bytesAccepted, bytesReply, List.append_nil]

/-- What the caller of a request gets from a response. -/
def received? (response : Response) : Except ClientError PyValue :=
  match response.error with
  | some error => .error (.remote error response.requestId)
  | none => .ok response.result.value

/-- A request whose frames all arrive ends with the response. -/
theorem exchange_answered (agreed : Agreed config daemon request server)
    (hello : Carried config.maxFrameBytes daemon.config.maxFrameBytes (.handshake config.hello))
    (body : Carried config.maxFrameBytes daemon.config.maxFrameBytes (.request request))
    (accepted : Carried daemon.config.maxFrameBytes config.maxFrameBytes
      (.handshakeResponse (acceptance daemon.config server config.hello)))
    {response sent : Response} {reply : HandlerReply}
    (replied : respond daemon.config request reply = .ok response)
    (wrote : written daemon.config (.response response) = some (.response sent))
    (carried : Carried daemon.config.maxFrameBytes config.maxFrameBytes (.response sent))
    {first second : List (List UInt8)} (filled : ∀ c ∈ first ++ second, c ≠ [])
    (wholeFirst : first.flatten =
      frameBytes (.handshakeResponse (acceptance daemon.config server config.hello)) ++ [newline])
    (wholeSecond : second.flatten = frameBytes (.response sent) ++ [newline]) :
    exchange config interpreter ⟨true, true, true, (first ++ second).map some⟩ request =
      ⟨[frameBytes (.handshake config.hello) ++ [newline], frameBytes (.request request) ++ [newline]],
        received? sent⟩ := by
  obtain ⟨requestId, protocol, schema⟩ := respond_fields replied wrote
  have hellos := @exchangeFrame_of config interpreter Unit _ _ hello.encodes
    (validateHandshake config (requiredCapability request.method.text)) _ accepted rfl first
    (fun c mem => filled c (List.mem_append_left _ mem)) wholeFirst (second.map some)
  have major : (Frame.response sent).protocol.major = 1 := by
    change sent.protocol.major = 1
    rw [protocol]
    rfl
  have bodies := @exchangeFrame_of config interpreter PyValue _ _ body.encodes
    (readResponse config request) _ carried major second
    (fun c mem => filled c (List.mem_append_right _ mem)) wholeSecond []
  rw [List.append_nil] at bodies
  have valid : validateHandshake config (requiredCapability request.method.text)
      (.handshakeResponse (acceptance daemon.config server config.hello)) = .ok () := by
    exact require_of ⟨agreed.protocol.symm, agreed.schema.symm, agreed.granted⟩
  have read : readResponse config request (.response sent) = received? sent := by
    unfold readResponse received?
    dsimp only
    rw [require_of ⟨by rw [requestId], protocol.trans agreed.protocol.symm,
      schema.trans agreed.schema.symm⟩]
    cases sent.error <;> rfl
  rw [exchange, if_neg (not_not.2 agreed.asked), List.map_append]
  dsimp only
  rw [if_neg (by decide), hellos, valid]
  dsimp only [Except.map]
  rw [bodies, read]
  cases received? sent <;> rfl

/-- When nothing fails and every frame fits, a request ends with the daemon's response, and the
daemon offers exactly what the client reads, however the two streams are cut into chunks. -/
theorem request_answered {requestId method params : PyValue}
    (built : Request.build requestId method params config.protocol config.schemaVersion = .ok request)
    (agreed : Agreed config daemon request server)
    (hello : Carried config.maxFrameBytes daemon.config.maxFrameBytes (.handshake config.hello))
    (body : Carried config.maxFrameBytes daemon.config.maxFrameBytes (.request request))
    (accepted : Carried daemon.config.maxFrameBytes config.maxFrameBytes
      (.handshakeResponse (acceptance daemon.config server config.hello)))
    (sends : (surroundings 0).sends = true ∧ (surroundings 1).sends = true)
    {response sent : Response}
    (replied : respond daemon.config request (surroundings 1).reply = .ok response)
    (wrote : written daemon.config (.response response) = some (.response sent))
    (carried : Carried daemon.config.maxFrameBytes config.maxFrameBytes (.response sent))
    (complaints : Nat → PyText) {upstream first second : List (List UInt8)}
    (filled : ∀ c ∈ upstream ++ (first ++ second), c ≠ [])
    (wholeFirst : first.flatten =
      frameBytes (.handshakeResponse (acceptance daemon.config server config.hello)) ++ [newline])
    (wholeSecond : second.flatten = frameBytes (.response sent) ++ [newline])
    (wholeUpstream : upstream.flatten = (EnfoldClient.request config interpreter
      ⟨true, true, true, (first ++ second).map some⟩ requestId method params).handed.flatten) :
    (EnfoldClient.request config interpreter ⟨true, true, true, (first ++ second).map some⟩ requestId
        method params).outcome = received? sent ∧
      daemon.offers surroundings complaints (serveClient daemon.config.maxFrameBytes
        (daemon.handle surroundings) ⟨none, []⟩ (upstream.map .chunk)) = (first ++ second).flatten := by
  have filledUp : ∀ c ∈ upstream, c ≠ [] := fun c mem => filled c (List.mem_append_left _ mem)
  have filledDown : ∀ c ∈ first ++ second, c ≠ [] :=
    fun c mem => filled c (List.mem_append_right _ mem)
  have run := @exchange_answered config interpreter daemon request server agreed hello body accepted
    response sent _ replied wrote carried first second filledDown wholeFirst wholeSecond
  have runs : EnfoldClient.request config interpreter ⟨true, true, true, (first ++ second).map some⟩
      requestId method params = exchange config interpreter
        ⟨true, true, true, (first ++ second).map some⟩ request := by
    unfold EnfoldClient.request
    rw [built]
  rw [runs, run] at wholeUpstream
  refine ⟨by rw [runs, run], ?_⟩
  have up : upstream.flatten = (frameBytes (.handshake config.hello) ++ [newline]) ++
      (frameBytes (.request request) ++ [newline]) := by
    rw [wholeUpstream, List.flatten_cons, List.flatten_singleton]
  rw [daemon_answers agreed hello body accepted sends replied wrote complaints filledUp up,
    List.flatten_append, wholeFirst, wholeSecond]

end Answered

/-! ## A search that finds nothing -/

theorem carried_of_size {limit limit' size : Nat} {frame : Frame} (positive : 0 < limit)
    (sized : frameSize frame = some size) (fits : size ≤ limit) (fits' : size ≤ limit')
    (shallow : Shallow frame) : Carried limit limit' frame := by
  obtain ⟨encoded, sent⟩ := (encodeFrame_eq_ok_iff positive).2 ⟨size, sized, fits⟩
  obtain ⟨document, printed, whole, -, bytes, -, -⟩ := encoded_bytes sent
  have same : encoded.size = size := by
    rw [frameSize, printed] at sized
    rw [whole]
    exact Option.some.inj sized
  refine ⟨⟨encoded, sent⟩, ?_, shallow⟩
  rw [← bytes]
  exact same.le.trans fits'

/-- A request is built from its own fields. -/
theorem build_toValue (request : Request) :
    Request.build request.requestId.toValue request.method.toValue (.obj request.params.members)
      request.protocol request.schemaVersion = .ok request := by
  rw [Request.build, requiredToken_toValue, ok_bind, requiredToken_toValue, ok_bind,
    dif_pos request.supported, objectPayload_members, ok_bind, dif_pos request.unspoofed]

theorem large_frames : 512 ≤ 4096 := by decide

theorem short_version : stripText [.char 'v'] ≠ [] := by decide +kernel

theorem memorySearch_supported : "memory.search" ∈ methodCapabilities.map Prod.fst := by decide

def sampleClient : ClientConfig := ⟨sampleContext, allCapabilities, ⟨1, 0⟩, 1, 4096, large_frames⟩

def sampleDaemon : Daemon where
  config := ⟨[.char 'v'], 1, allCapabilities.items.map fun cap => PyText.ofString cap.text, 4096,
    short_version, large_frames⟩
  interpreter := sampleInterpreter
  hasHealthHook := false

def searchToken : Token := ⟨"memory.search", search_required, search_shape⟩

theorem empty_unspoofed : Unspoofed emptyPayload.members := fun _ _ mem => by cases mem

def emptySearch : Request :=
  ⟨searchToken, searchToken, emptyPayload, ⟨1, 0⟩, 1, memorySearch_supported, empty_unspoofed⟩

def emptyResult : Payload := ⟨.obj [], emptyPayload.valid⟩

theorem emptyResult_returned : payload (.obj []) = .ok emptyResult := payload_value emptyResult

theorem never_failed {P : Prop} (failed : true = false) : P := by cases failed

def emptyResponse : Response where
  requestId := searchToken
  ok := true
  result := emptyResult
  error := none
  protocol := currentVersion
  schemaVersion := 1
  consistent := rfl
  failed := never_failed

theorem sample_sizes :
    frameSize (.handshake sampleClient.hello) = some 451 ∧
      frameSize (.request emptySearch) = some 137 ∧
      frameSize (.handshakeResponse
        (acceptance sampleDaemon.config allCapabilities sampleClient.hello)) = some 315 ∧
      frameSize (.response emptyResponse) = some 136 := by
  rw [frameSize_eq, frameSize_eq, frameSize_eq, frameSize_eq]
  decide +kernel

theorem sample_agreed : Agreed sampleClient sampleDaemon emptySearch allCapabilities where
  protocol := rfl
  schema := rfl
  ours := ⟨rfl, rfl⟩
  listed := by
    have read := stringTuple_toValue allCapabilities
    rwa [Tokens.toValue] at read
  asked := by decide
  offered := by decide

theorem sample_carried :
    Carried sampleClient.maxFrameBytes sampleDaemon.config.maxFrameBytes
        (.handshake sampleClient.hello) ∧
      Carried sampleClient.maxFrameBytes sampleDaemon.config.maxFrameBytes (.request emptySearch) ∧
      Carried sampleDaemon.config.maxFrameBytes sampleClient.maxFrameBytes
        (.handshakeResponse (acceptance sampleDaemon.config allCapabilities sampleClient.hello)) ∧
      Carried sampleDaemon.config.maxFrameBytes sampleClient.maxFrameBytes
        (.response emptyResponse) := by
  obtain ⟨hello, body, accepted, response⟩ := sample_sizes
  have clientFrames : sampleClient.maxFrameBytes = 4096 := rfl
  have daemonFrames : sampleDaemon.config.maxFrameBytes = 4096 := rfl
  have flat : (PyValue.obj []).height + 1 ≤ maxJsonDepth := by
    simp [PyValue.height, PyValue.heightMembers, maxJsonDepth]
  have body_shallow : Shallow (.request emptySearch) := flat
  have granted : Shallow (.handshakeResponse
      (acceptance sampleDaemon.config allCapabilities sampleClient.hello)) :=
    fun error known => by cases known
  have response_shallow : Shallow (.response emptyResponse) :=
    ⟨flat, fun error known => by cases known⟩
  refine ⟨carried_of_size ?_ hello ?_ ?_ trivial, carried_of_size ?_ body ?_ ?_ body_shallow,
    carried_of_size ?_ accepted ?_ ?_ granted, carried_of_size ?_ response ?_ ?_ response_shallow⟩
  all_goals omega

def foundNothing : Nat → Surroundings := fun _ => ⟨.returned (.obj []), true⟩

theorem sample_replied :
    respond sampleDaemon.config emptySearch (foundNothing 1).reply = .ok emptyResponse := by
  unfold respond foundNothing
  dsimp only
  split
  · rename_i result valid
    rw [emptyResult_returned] at valid
    cases valid
    rfl
  · rename_i failed
    rw [emptyResult_returned] at failed
    cases failed

theorem sample_wrote :
    written sampleDaemon.config (.response emptyResponse) = some (.response emptyResponse) := by
  obtain ⟨encoded, sent⟩ := sample_carried.2.2.2.encodes
  rw [written, sent]

/-- One byte at a time. -/
def bytewise (bytes : List UInt8) : List (List UInt8) := bytes.map fun byte => [byte]

theorem bytewise_flatten (bytes : List UInt8) : (bytewise bytes).flatten = bytes := by
  induction bytes with
  | nil => rfl
  | cons byte bytes ih => exact congrArg (byte :: ·) ih

theorem bytewise_filled (bytes : List UInt8) : ∀ c ∈ bytewise bytes, c ≠ [] := by
  intro c mem
  obtain ⟨byte, -, rfl⟩ := List.mem_map.1 mem
  exact List.cons_ne_nil byte []

def firstReply : List (List UInt8) := bytewise (frameBytes (.handshakeResponse
  (acceptance sampleDaemon.config allCapabilities sampleClient.hello)) ++ [newline])

def secondReply : List (List UInt8) := bytewise (frameBytes (.response emptyResponse) ++ [newline])

def sampleWire : Wire := ⟨true, true, true, (firstReply ++ secondReply).map some⟩

def sentBytes : List UInt8 := (frameBytes (.handshake sampleClient.hello) ++ [newline]) ++
  (frameBytes (.request emptySearch) ++ [newline])

theorem replies_filled : ∀ c ∈ firstReply ++ secondReply, c ≠ [] := by
  intro c mem
  rcases List.mem_append.1 mem with first | second
  · exact bytewise_filled _ c first
  · exact bytewise_filled _ c second

theorem sample_run : EnfoldClient.request sampleClient sampleInterpreter sampleWire
    searchToken.toValue searchToken.toValue (.obj []) =
      ⟨[frameBytes (.handshake sampleClient.hello) ++ [newline],
        frameBytes (.request emptySearch) ++ [newline]], .ok (.obj [])⟩ := by
  have built : Request.build searchToken.toValue searchToken.toValue (.obj []) sampleClient.protocol
      sampleClient.schemaVersion = .ok emptySearch := build_toValue emptySearch
  obtain ⟨hello, body, accepted, response⟩ := sample_carried
  have ended := @exchange_answered sampleClient sampleInterpreter sampleDaemon emptySearch
    allCapabilities sample_agreed hello body accepted emptyResponse emptyResponse _ sample_replied
    sample_wrote response firstReply secondReply replies_filled (bytewise_flatten _)
    (bytewise_flatten _)
  have result : received? emptyResponse = .ok (.obj []) := rfl
  rw [result] at ended
  unfold EnfoldClient.request
  rw [built]
  exact ended

/-- Both streams arrive one byte at a time. -/
theorem sample_request_answered :
    (EnfoldClient.request sampleClient sampleInterpreter sampleWire searchToken.toValue
        searchToken.toValue (.obj [])).outcome = .ok (.obj []) ∧
      sampleDaemon.offers foundNothing (fun _ => []) (serveClient sampleDaemon.config.maxFrameBytes
        (sampleDaemon.handle foundNothing) ⟨none, []⟩ ((bytewise sentBytes).map .chunk)) =
          (firstReply ++ secondReply).flatten := by
  obtain ⟨hello, body, accepted, response⟩ := sample_carried
  have filled : ∀ c ∈ bytewise sentBytes ++ (firstReply ++ secondReply), c ≠ [] := by
    intro c mem
    rcases List.mem_append.1 mem with up | down
    · exact bytewise_filled _ c up
    · exact replies_filled c down
  have built : Request.build searchToken.toValue searchToken.toValue (.obj []) sampleClient.protocol
      sampleClient.schemaVersion = .ok emptySearch := build_toValue emptySearch
  have handed : (EnfoldClient.request sampleClient sampleInterpreter
      ⟨true, true, true, (firstReply ++ secondReply).map some⟩ searchToken.toValue searchToken.toValue
        (.obj [])).handed.flatten = sentBytes := by
    have run := sample_run
    rw [sampleWire] at run
    rw [run, List.flatten_cons, List.flatten_singleton, sentBytes]
  exact @request_answered sampleClient sampleInterpreter sampleDaemon foundNothing emptySearch
    allCapabilities searchToken.toValue searchToken.toValue (.obj []) built sample_agreed hello body
    accepted ⟨rfl, rfl⟩ emptyResponse emptyResponse sample_replied sample_wrote response (fun _ => [])
    (bytewise sentBytes) firstReply secondReply filled (bytewise_flatten _) (bytewise_flatten _)
    ((bytewise_flatten _).trans handed.symm)

theorem sample_served_once :
    calls (serveClient sampleDaemon.config.maxFrameBytes (sampleDaemon.handle foundNothing) ⟨none, []⟩
      ((bytewise sentBytes).map .chunk)) = [.handler sampleContext emptySearch] := by
  obtain ⟨hello, body, accepted, response⟩ := sample_carried
  have offers := daemon_answers sample_agreed hello body accepted ⟨rfl, rfl⟩ sample_replied
    sample_wrote (fun _ => []) (bytewise_filled sentBytes) (bytewise_flatten sentBytes)
  have arrives : ∀ bytes : List UInt8, arrivals ((bytewise bytes).map .chunk) = bytes := by
    intro bytes
    induction bytes with
    | nil => rfl
    | cons byte bytes ih => exact congrArg (byte :: ·) ih
  have reads : ∀ chunks : List (List UInt8), (∀ c ∈ chunks, c ≠ []) →
      arrived (chunks.map some) = chunks.flatten := by
    intro chunks filled
    induction chunks with
    | nil => rfl
    | cons c chunks ih =>
        obtain ⟨byte, bytes, rfl⟩ := List.exists_cons_of_ne_nil (filled c List.mem_cons_self)
        exact congrArg (byte :: bytes ++ ·) (ih fun c mem => filled c (List.mem_cons_of_mem _ mem))
  have joined : Joined sampleDaemon foundNothing (fun _ => []) ((bytewise sentBytes).map .chunk)
      (EnfoldClient.request sampleClient sampleInterpreter sampleWire searchToken.toValue
        searchToken.toValue (.obj [])) sampleWire := by
    constructor
    · rw [arrives, sample_run, List.flatten_cons, List.flatten_singleton, sentBytes]
    · rw [offers]
      have whole := reads _ replies_filled
      rw [List.flatten_append, firstReply, secondReply, bytewise_flatten, bytewise_flatten] at whole
      rw [sampleWire, firstReply, secondReply, whole]
  rcases request_served_once joined with ⟨-, never⟩ | ⟨request, built, -, once⟩
  · exact absurd (congrArg Exchanged.outcome sample_run) (never _)
  · obtain ⟨called, -⟩ := once _ (congrArg Exchanged.outcome sample_run)
    have same : Request.build searchToken.toValue searchToken.toValue (.obj []) sampleClient.protocol
        sampleClient.schemaVersion = .ok emptySearch := build_toValue emptySearch
    rw [same] at built
    cases built
    rw [called]
    rfl

end Enfold.Laws.Protocol
