/-
# Laws.Connection -- framing and gating of a daemon connection

The receive loop cuts the same frames off a stream however it is split into chunks
(`serveFrom_chunks`): draining a buffer and then more bytes is draining both at once
(`drain_append`), because bytes without a newline that are too long stay too long.

The daemon's handler is gated: a run of a connection is an accepted handshake followed by
requests that agree with it, and at most one other frame, the last (`connection_gated`).  The
invariant is that of an open connection (`Live`), kept by every frame that leaves it open.
-/
import Enfold.Model.Daemon

namespace Enfold.Laws

open Enfold.Theory Enfold.Model

set_option autoImplicit false

/-! ## Framing -/

section Framing

variable {σ : Type} {maxFrameBytes : Nat} {handle : σ → List UInt8 → Bool × σ}

theorem drain_of_none {state : σ} {buffer : List UInt8} (solid : newline ∉ buffer) :
    drain maxFrameBytes handle state buffer =
      if maxFrameBytes < buffer.length then ⟨[], state, .error .frameTooLarge⟩
      else ⟨[], state, .ok buffer⟩ := by
  rw [drain]
  split
  · rfl
  · rename_i cut
    rw [cutLine_eq_none.2 solid] at cut
    cases cut

theorem drain_of_line {state : σ} {line rest : List UInt8} (solid : newline ∉ line) :
    drain maxFrameBytes handle state (line ++ newline :: rest) =
      if maxFrameBytes < line.length then ⟨[], state, .error .frameTooLarge⟩
      else
        match handle state line with
        | (false, state) => ⟨[line], state, .error .closed⟩
        | (true, state) =>
            ⟨line :: (drain maxFrameBytes handle state rest).frames,
              (drain maxFrameBytes handle state rest).state,
              (drain maxFrameBytes handle state rest).outcome⟩ := by
  have cut : cutLine (line ++ newline :: rest) = some (line, rest) :=
    cutLine_eq_some.2 ⟨rfl, solid⟩
  rw [drain]
  split
  · rename_i none
    rw [cut] at none
    cases none
  · rename_i frame after found
    rw [cut] at found
    cases found
    rfl

/-- A buffer has no newline, or starts with a line. -/
theorem line_or_none (buffer : List UInt8) :
    newline ∉ buffer ∨ ∃ line rest, buffer = line ++ newline :: rest ∧ newline ∉ line := by
  cases cut : cutLine buffer with
  | none => exact .inl (cutLine_eq_none.1 cut)
  | some p => exact .inr ⟨p.1, p.2, cutLine_eq_some.1 cut⟩

/-- Bytes that are too long before their first newline are too long with more after them. -/
theorem drain_too_long {state : σ} {buffer : List UInt8} (solid : newline ∉ buffer)
    (long : maxFrameBytes < buffer.length) (more : List UInt8) :
    drain maxFrameBytes handle state (buffer ++ more) = ⟨[], state, .error .frameTooLarge⟩ := by
  rcases line_or_none more with none | ⟨line, rest, rfl, none⟩
  · rw [drain_of_none (by simp [solid, none]), if_pos (by rw [List.length_append]; omega)]
  · rw [← List.append_assoc, drain_of_line (by simp [solid, none]),
      if_pos (by rw [List.length_append]; omega)]

/-- Draining a buffer and then what is left of it with more bytes is draining both at once. -/
theorem drain_append (state : σ) (buffer more : List UInt8) :
    drain maxFrameBytes handle state (buffer ++ more) =
      match drain maxFrameBytes handle state buffer with
      | ⟨frames, state, .error ending⟩ => ⟨frames, state, .error ending⟩
      | ⟨frames, state, .ok left⟩ =>
          ⟨frames ++ (drain maxFrameBytes handle state (left ++ more)).frames,
            (drain maxFrameBytes handle state (left ++ more)).state,
            (drain maxFrameBytes handle state (left ++ more)).outcome⟩ := by
  induction size : buffer.length using Nat.strong_induction_on generalizing buffer state with
  | _ n ih =>
      rcases line_or_none buffer with solid | ⟨line, rest, rfl, solid⟩
      · rw [drain_of_none solid]
        by_cases long : maxFrameBytes < buffer.length
        · rw [if_pos long, drain_too_long solid long]
        · rw [if_neg long]
          rfl
      · rw [List.append_assoc, List.cons_append, drain_of_line solid, drain_of_line solid]
        by_cases long : maxFrameBytes < line.length
        · rw [if_pos long, if_pos long]
        · rw [if_neg long, if_neg long]
          cases handled : handle state line with
          | mk keep next =>
              cases keep with
              | false => rfl
              | true =>
                  have shorter : rest.length < n := by
                    rw [← size]
                    simp only [List.length_append, List.length_cons]
                    omega
                  dsimp only
                  rw [ih rest.length shorter next rest rfl]
                  cases drained : drain maxFrameBytes handle next rest with
                  | mk frames last outcome => cases outcome <;> rfl

/-- What waits in the buffer has no newline and is not too long. -/
theorem drain_left {state last : σ} {buffer left : List UInt8} {frames : List (List UInt8)}
    (drained : drain maxFrameBytes handle state buffer = ⟨frames, last, .ok left⟩) :
    drain maxFrameBytes handle last left = ⟨[], last, .ok left⟩ := by
  induction size : buffer.length using Nat.strong_induction_on generalizing buffer state frames with
  | _ n ih =>
      rcases line_or_none buffer with solid | ⟨line, rest, rfl, solid⟩
      · have same := drained
        rw [drain_of_none solid] at same
        by_cases long : maxFrameBytes < buffer.length
        · rw [if_pos long] at same
          cases same
        · rw [if_neg long] at same
          cases same
          exact drained
      · rw [drain_of_line solid] at drained
        by_cases long : maxFrameBytes < line.length
        · rw [if_pos long] at drained
          cases drained
        · rw [if_neg long] at drained
          cases handled : handle state line with
          | mk keep next =>
              rw [handled] at drained
              cases keep with
              | false => cases drained
              | true =>
                  have shorter : rest.length < n := by
                    rw [← size]
                    simp only [List.length_append, List.length_cons]
                    omega
                  dsimp only at drained
                  cases inner : drain maxFrameBytes handle next rest with
                  | mk frames' last' outcome =>
                      rw [inner] at drained
                      cases drained
                      exact ih rest.length shorter inner rfl

/-- How a stream is served as a whole. -/
def serveStream (maxFrameBytes : Nat) (handle : σ → List UInt8 → Bool × σ) (state : σ)
    (stream : List UInt8) : Served σ Ending :=
  match drain maxFrameBytes handle state stream with
  | ⟨frames, state, .error ending⟩ => ⟨frames, state, ending⟩
  | ⟨frames, state, .ok _⟩ => ⟨frames, state, .endOfStream⟩

theorem serveFrom_chunk {bytes : List UInt8} (filled : bytes ≠ []) {state : σ}
    {buffer : List UInt8} {later : List Received} :
    serveFrom maxFrameBytes handle state buffer (.chunk bytes :: later) =
      match drain maxFrameBytes handle state (buffer ++ bytes) with
      | ⟨frames, state, .error ending⟩ => ⟨frames, state, ending⟩
      | ⟨frames, state, .ok buffer⟩ =>
          ⟨frames ++ (serveFrom maxFrameBytes handle state buffer later).frames,
            (serveFrom maxFrameBytes handle state buffer later).state,
            (serveFrom maxFrameBytes handle state buffer later).outcome⟩ := by
  obtain ⟨byte, bytes, rfl⟩ := List.exists_cons_of_ne_nil filled
  rfl

/-- Serving chunks is serving the stream they make up. -/
theorem serveFrom_chunks {chunks : List (List UInt8)} (filled : ∀ c ∈ chunks, c ≠ [])
    (state : σ) {buffer : List UInt8}
    (waiting : drain maxFrameBytes handle state buffer = ⟨[], state, .ok buffer⟩) :
    serveFrom maxFrameBytes handle state buffer (chunks.map .chunk) =
      serveStream maxFrameBytes handle state (buffer ++ chunks.flatten) := by
  induction chunks generalizing state buffer with
  | nil =>
      rw [List.flatten_nil, List.append_nil, serveStream, waiting]
      rfl
  | cons chunk chunks ih =>
      have whole := @drain_append _ maxFrameBytes handle state (buffer ++ chunk) chunks.flatten
      rw [List.map_cons, serveFrom_chunk (filled chunk List.mem_cons_self), List.flatten_cons,
        ← List.append_assoc, serveStream, whole]
      cases drained : drain maxFrameBytes handle state (buffer ++ chunk) with
      | mk frames last outcome =>
          cases outcome with
          | error ending => rfl
          | ok left =>
              dsimp only
              rw [ih (fun c mem => filled c (List.mem_cons_of_mem _ mem)) last (drain_left drained),
                serveStream]
              cases drain maxFrameBytes handle last (left ++ chunks.flatten) with
              | mk frames' last' outcome' => cases outcome' <;> rfl

/-- The newline-terminated pieces of a stream, and the bytes after the last newline. -/
def pieces : List UInt8 → List (List UInt8) × List UInt8
  | [] => ([], [])
  | byte :: rest =>
      if byte = newline then ([] :: (pieces rest).1, (pieces rest).2)
      else
        match pieces rest with
        | ([], last) => ([], byte :: last)
        | (line :: lines, last) => ((byte :: line) :: lines, last)

theorem pieces_of_none {stream : List UInt8} (solid : newline ∉ stream) :
    pieces stream = ([], stream) := by
  induction stream with
  | nil => rfl
  | cons byte stream ih =>
      have other : byte ≠ newline := fun same => solid (same ▸ List.mem_cons_self)
      rw [pieces, if_neg other, ih fun mem => solid (List.mem_cons_of_mem _ mem)]

theorem pieces_of_line {line rest : List UInt8} (solid : newline ∉ line) :
    pieces (line ++ newline :: rest) = (line :: (pieces rest).1, (pieces rest).2) := by
  induction line with
  | nil => rw [List.nil_append, pieces, if_pos rfl]
  | cons byte line ih =>
      have other : byte ≠ newline := fun same => solid (same ▸ List.mem_cons_self)
      rw [List.cons_append, pieces, if_neg other,
        ih fun mem => solid (List.mem_cons_of_mem _ mem)]

/-- Hand over frames until the handler closes; the outcome is whether the connection is open. -/
def handleUntilClosed (handle : σ → List UInt8 → Bool × σ) (state : σ) :
    List (List UInt8) → Served σ Bool
  | [] => ⟨[], state, true⟩
  | frame :: later =>
      match handle state frame with
      | (false, state) => ⟨[frame], state, false⟩
      | (true, state) =>
          let rest := handleUntilClosed handle state later
          ⟨frame :: rest.frames, rest.state, rest.outcome⟩

/-- What a stream amounts to, in terms of its pieces alone: the frames are the pieces before the
first that is too long, as far as the handler keeps the connection open. -/
def expected (maxFrameBytes : Nat) (handle : σ → List UInt8 → Bool × σ) (state : σ)
    (stream : List UInt8) : Served σ Ending :=
  let admitted := (pieces stream).1.takeWhile fun piece => decide (piece.length ≤ maxFrameBytes)
  let handled := handleUntilClosed handle state admitted
  let tooLarge := admitted ≠ (pieces stream).1 ∨ maxFrameBytes < (pieces stream).2.length
  ⟨handled.frames, handled.state,
    if handled.outcome = false then .closed
    else if tooLarge then .frameTooLarge else .endOfStream⟩

theorem serveStream_eq_expected (state : σ) (stream : List UInt8) :
    serveStream maxFrameBytes handle state stream =
      expected maxFrameBytes handle state stream := by
  induction size : stream.length using Nat.strong_induction_on generalizing stream state with
  | _ n ih =>
      rcases line_or_none stream with solid | ⟨line, rest, rfl, solid⟩
      · rw [serveStream, drain_of_none solid, expected, pieces_of_none solid]
        by_cases long : maxFrameBytes < stream.length
        · rw [if_pos long]
          simp [handleUntilClosed, long]
        · rw [if_neg long]
          simp [handleUntilClosed, long]
      · have shorter : rest.length < n := by
          rw [← size]
          simp only [List.length_append, List.length_cons]
          omega
        rw [serveStream, drain_of_line solid, expected, pieces_of_line solid]
        by_cases long : maxFrameBytes < line.length
        · rw [if_pos long]
          simp [handleUntilClosed, Nat.not_le.2 long]
        · rw [if_neg long]
          cases handled : handle state line with
          | mk keep next =>
              have fits : line.length ≤ maxFrameBytes := Nat.not_lt.1 long
              cases keep with
              | false => simp [handleUntilClosed, handled, fits]
              | true =>
                  have later := ih rest.length shorter next rest rfl
                  rw [serveStream, expected] at later
                  simp only [List.takeWhile_cons, fits, decide_true, if_true, handleUntilClosed,
                    handled, ne_eq, List.cons.injEq, true_and]
                  cases drained : drain maxFrameBytes handle next rest with
                  | mk frames last outcome =>
                      rw [drained] at later
                      cases outcome with
                      | error ending =>
                          injection later with frames state ending
                          rw [← frames, ← state]
                          exact congrArg _ ending
                      | ok left =>
                          injection later with frames state ending
                          rw [← frames, ← state]
                          exact congrArg _ ending

/-- However a stream is split into chunks, the same frames are handled, the connection ends the
same way, and both are those of its newline-terminated pieces. -/
theorem served_as_pieces (maxFrameBytes : Nat) (handle : σ → List UInt8 → Bool × σ) (state : σ)
    {chunks others : List (List UInt8)} (filled : ∀ c ∈ chunks, c ≠ [])
    (othersFilled : ∀ c ∈ others, c ≠ []) (same : chunks.flatten = others.flatten) :
    serveClient maxFrameBytes handle state (chunks.map .chunk) =
        expected maxFrameBytes handle state chunks.flatten ∧
      serveClient maxFrameBytes handle state (chunks.map .chunk) =
        serveClient maxFrameBytes handle state (others.map .chunk) := by
  have waiting : drain maxFrameBytes handle state [] = ⟨[], state, .ok []⟩ := by
    rw [drain_of_none List.not_mem_nil, if_neg (by simp)]
  have first := serveFrom_chunks filled state waiting
  have second := serveFrom_chunks othersFilled state waiting
  rw [List.nil_append, serveStream_eq_expected] at first second
  refine ⟨first, ?_⟩
  rw [serveClient, serveClient, first, second, same]

/-- Chunks may end in the middle of a frame. -/
theorem split_frame_served :
    serveClient 4 (fun n frame => (frame ≠ [], n + 1)) 0 ([[97], [10, 98], [10, 10]].map .chunk) =
        ⟨[[97], [98], []], 3, .closed⟩ ∧
      serveClient 4 (fun n frame => (frame ≠ [], n + 1)) 0 ([[97], [10, 98], [10, 10]].map .chunk) =
        serveClient 4 (fun n frame => (frame ≠ [], n + 1)) 0 ([[97, 10, 98, 10], [10]].map .chunk) := by
  have pieces := @served_as_pieces Nat 4 (fun n frame => (decide (frame ≠ []), n + 1)) 0
    [[97], [10, 98], [10, 10]] [[97, 10, 98, 10], [10]] (by decide) (by decide) rfl
  exact ⟨pieces.1.trans rfl, pieces.2⟩

/-! ## Invariants of a connection -/

/-- A connection's handler keeps an open state (`Live`) as long as it does not close, and always
leaves a possible last state (`Last`); then the connection ends in a possible last state. -/
theorem drain_invariant {Live Last : σ → Prop} (ends : ∀ {state}, Live state → Last state)
    (step : ∀ {state} frame, Live state → Last (handle state frame).2 ∧
      ((handle state frame).1 = true → Live (handle state frame).2))
    {state : σ} (live : Live state) (buffer : List UInt8) :
    Last (drain maxFrameBytes handle state buffer).state ∧
      ∀ left, (drain maxFrameBytes handle state buffer).outcome = .ok left →
        Live (drain maxFrameBytes handle state buffer).state := by
  induction size : buffer.length using Nat.strong_induction_on generalizing buffer state with
  | _ n ih =>
      rcases line_or_none buffer with solid | ⟨line, rest, rfl, solid⟩
      · rw [drain_of_none solid]
        split
        · exact ⟨ends live, fun _ ended => by cases ended⟩
        · exact ⟨ends live, fun _ _ => live⟩
      · rw [drain_of_line solid]
        split
        · exact ⟨ends live, fun _ ended => by cases ended⟩
        · have stepped := step line live
          cases handled : handle state line with
          | mk keep next =>
              rw [handled] at stepped
              cases keep with
              | false => exact ⟨stepped.1, fun _ ended => by cases ended⟩
              | true =>
                  have shorter : rest.length < n := by
                    rw [← size]
                    simp only [List.length_append, List.length_cons]
                    omega
                  exact ih rest.length shorter (stepped.2 rfl) rest rfl

theorem serveFrom_invariant {Live Last : σ → Prop} (ends : ∀ {state}, Live state → Last state)
    (step : ∀ {state} frame, Live state → Last (handle state frame).2 ∧
      ((handle state frame).1 = true → Live (handle state frame).2))
    {state : σ} (live : Live state) (buffer : List UInt8) (received : List Received) :
    Last (serveFrom maxFrameBytes handle state buffer received).state := by
  induction received generalizing state buffer with
  | nil => exact ends live
  | cons event later ih =>
      cases event with
      | timeout => exact ends live
      | failed => exact ends live
      | stopped => exact ends live
      | chunk bytes =>
          by_cases filled : bytes = []
          · rw [filled]
            exact ends live
          · rw [serveFrom_chunk filled]
            have drained := @drain_invariant σ maxFrameBytes handle Live Last ends step state live
              (buffer ++ bytes)
            cases result : drain maxFrameBytes handle state (buffer ++ bytes) with
            | mk frames last outcome =>
                rw [result] at drained
                cases outcome with
                | error ending => exact drained.1
                | ok left => exact ih (drained.2 left rfl) left

/-- A handler that records its frames records the frames that are served. -/
theorem drain_records {record : σ → List (List UInt8)}
    (step : ∀ state frame, record (handle state frame).2 = record state ++ [frame]) (state : σ)
    (buffer : List UInt8) :
    record (drain maxFrameBytes handle state buffer).state =
      record state ++ (drain maxFrameBytes handle state buffer).frames := by
  induction size : buffer.length using Nat.strong_induction_on generalizing buffer state with
  | _ n ih =>
      rcases line_or_none buffer with solid | ⟨line, rest, rfl, solid⟩
      · rw [drain_of_none solid]
        split <;> simp
      · rw [drain_of_line solid]
        split
        · simp
        · have stepped := step state line
          cases handled : handle state line with
          | mk keep next =>
              rw [handled] at stepped
              cases keep with
              | false => exact stepped
              | true =>
                  have shorter : rest.length < n := by
                    rw [← size]
                    simp only [List.length_append, List.length_cons]
                    omega
                  have later := ih rest.length shorter next rest rfl
                  dsimp only at later stepped ⊢
                  rw [later, stepped, List.append_assoc]
                  rfl

theorem serveFrom_records {record : σ → List (List UInt8)}
    (step : ∀ state frame, record (handle state frame).2 = record state ++ [frame]) (state : σ)
    (buffer : List UInt8) (received : List Received) :
    record (serveFrom maxFrameBytes handle state buffer received).state =
      record state ++ (serveFrom maxFrameBytes handle state buffer received).frames := by
  induction received generalizing state buffer with
  | nil => simp [serveFrom]
  | cons event later ih =>
      cases event with
      | timeout => simp [serveFrom]
      | failed => simp [serveFrom]
      | stopped => simp [serveFrom]
      | chunk bytes =>
          by_cases filled : bytes = []
          · simp [filled, serveFrom]
          · rw [serveFrom_chunk filled]
            have drained := @drain_records σ maxFrameBytes handle record step state
              (buffer ++ bytes)
            cases result : drain maxFrameBytes handle state (buffer ++ bytes) with
            | mk frames last outcome =>
                rw [result] at drained
                cases outcome with
                | error ending => exact drained
                | ok left =>
                    have rest := ih last left
                    dsimp only at rest drained ⊢
                    rw [rest, drained, List.append_assoc]

end Framing

/-! ## Gating -/

namespace Protocol

open Enfold.Model.Protocol

/-- What the daemon decodes from the bytes of a frame. -/
def decoded (daemon : Daemon) (frame : List UInt8) : Decoding Frame :=
  decodeFrame daemon.interpreter daemon.config.maxFrameBytes false (.bytes ⟨frame.toArray⟩)

/-- The frame is a handshake that the daemon accepts. -/
def AcceptedHandshake (daemon : Daemon) (frame : List UInt8) (handshake : Handshake) : Prop :=
  decoded daemon frame = .ok (.handshake handshake) ∧
    ∃ response negotiated,
      negotiate daemon.config handshake = .ok (response, negotiated) ∧ response.accepted = true

/-- The frame is a request that agrees with the handshake on protocol and schema. -/
def CompatibleRequest (daemon : Daemon) (handshake : Handshake) (frame : List UInt8)
    (request : Request) : Prop :=
  decoded daemon frame = .ok (.request request) ∧ request.protocol = handshake.protocol ∧
    request.schemaVersion = handshake.schemaVersion

/-- The capability is one of the server's and one that the handshake asked for. -/
def Negotiated (config : DaemonConfig) (handshake : Handshake) (capability : String) : Prop :=
  (∃ given ∈ config.serverCapabilities, stripText given = PyText.ofString capability) ∧
    capability ∈ handshake.capabilities.items.map Token.text

/-- The call is made for the request, under the context of the handshake. -/
def CallsFor (handshake : Handshake) (request : Request) : Invocation → Prop
  | .handler context called =>
      context = handshake.context ∧ called = request ∧ request.method.text ≠ "health"
  | .healthHook context => context = handshake.context ∧ request.method.text = "health"

/-! The connection that a handshake negotiates. -/

theorem requiredToken_text {given : PyText} {token : Token}
    (read : requiredToken (.str given) = .ok token) :
    stripText given = PyText.ofString token.text := by
  unfold requiredToken at read
  split at read
  · cases read
  · rename_i required valid
    split at read
    · cases read
    · rename_i text named
      split at read
      · cases read
        rw [← PyText.toString?_eq_some.1 named]
        dsimp only [requiredString] at valid
        split at valid
        · cases valid
        · cases valid
          rfl
      · cases read

theorem stringTuple_texts {given : List PyText} {tokens : Tokens}
    (read : stringTuple (.arr (given.map .str)) = .ok tokens) {token : Token}
    (listed : token ∈ tokens.items) :
    ∃ text ∈ given, stripText text = PyText.ofString token.text := by
  obtain ⟨items, mapped, read⟩ := bind_eq_ok.1 read
  split at read
  · cases read
    obtain ⟨value, mem, valid⟩ := mem_of_mapM_eq_ok mapped _ listed
    obtain ⟨text, given, rfl⟩ := List.mem_map.1 mem
    exact ⟨text, given, requiredToken_text valid⟩
  · cases read

theorem negotiateHandshake_capabilities {config : DaemonConfig} {handshake : Handshake}
    {response : HandshakeResponse} (answer : negotiateHandshake config handshake = .ok response)
    {token : Token} (listed : token ∈ response.capabilities.items) :
    Negotiated config handshake token.text := by
  obtain ⟨serviceVersion, -, answer⟩ := bind_eq_ok.1 answer
  obtain ⟨server, read, answer⟩ := bind_eq_ok.1 answer
  split at answer
  · obtain ⟨error, -, answer⟩ := bind_eq_ok.1 answer
    obtain ⟨serviceVersion, -, answer⟩ := bind_eq_ok.1 answer
    cases pure_eq_ok.1 answer
    cases listed
  · cases pure_eq_ok.1 answer
    obtain ⟨offered, asked⟩ := List.mem_filter.1 listed
    exact ⟨stringTuple_texts read offered, of_decide_eq_true asked⟩

theorem refusal_refuses {serviceVersion message : PyText} {schemaVersion : Nat} {code : String}
    {response : HandshakeResponse}
    (made : HandshakeResponse.refusal serviceVersion schemaVersion code message = .ok response) :
    response.accepted = false := by
  obtain ⟨error, -, made⟩ := bind_eq_ok.1 made
  obtain ⟨serviceVersion, -, made⟩ := bind_eq_ok.1 made
  cases pure_eq_ok.1 made
  rfl

/-- An accepted handshake makes a connection under its own context, protocol and schema, with
capabilities that both sides have. -/
theorem negotiate_accepted {config : DaemonConfig} {handshake : Handshake}
    {response : HandshakeResponse} {negotiated : Option NegotiatedConnection}
    (answer : negotiate config handshake = .ok (response, negotiated))
    (accepted : response.accepted = true) :
    ∃ connection, negotiated = some connection ∧ connection.context = handshake.context ∧
      connection.protocol = handshake.protocol ∧
      connection.schemaVersion = handshake.schemaVersion ∧
      ∀ capability ∈ connection.capabilities, Negotiated config handshake capability := by
  obtain ⟨first, offered, answer⟩ := bind_eq_ok.1 answer
  split at answer
  · rename_i refused
    cases pure_eq_ok.1 answer
    rw [refused] at accepted
    cases accepted
  · split at answer
    · obtain ⟨refusal, made, answer⟩ := bind_eq_ok.1 answer
      cases pure_eq_ok.1 answer
      rw [refusal_refuses made] at accepted
      cases accepted
    · split at answer
      · obtain ⟨refusal, made, answer⟩ := bind_eq_ok.1 answer
        cases pure_eq_ok.1 answer
        rw [refusal_refuses made] at accepted
        cases accepted
      · cases pure_eq_ok.1 answer
        refine ⟨_, rfl, rfl, rfl, rfl, ?_⟩
        intro capability listed
        obtain ⟨token, mem, rfl⟩ := List.mem_map.1 listed
        exact negotiateHandshake_capabilities offered mem

/-! ### The state of an open connection -/

/-- The log of a connection after its handshake: requests that agree with it, and the calls they
made. -/
def Gated (daemon : Daemon) (handshake : Handshake) (entry : Handling) : Prop :=
  ∃ request, CompatibleRequest daemon handshake entry.frame request ∧
    ∀ call, entry.invoked = some call →
      Negotiated daemon.config handshake (requiredCapability request.method.text) ∧
        CallsFor handshake request call

/-- The states between the frames of a connection. -/
inductive Live (daemon : Daemon) : Connected → Prop where
  | fresh : Live daemon ⟨none, []⟩
  | connected {first : Handling} {handshake : Handshake} {connection : NegotiatedConnection}
      {later : List Handling} (accepted : AcceptedHandshake daemon first.frame handshake)
      (silent : first.invoked = none) (context : connection.context = handshake.context)
      (protocol : connection.protocol = handshake.protocol)
      (schema : connection.schemaVersion = handshake.schemaVersion)
      (capabilities : ∀ c ∈ connection.capabilities, Negotiated daemon.config handshake c)
      (gated : ∀ entry ∈ later, Gated daemon handshake entry) :
      Live daemon ⟨some connection, first :: later⟩

/-- The states a connection can end in: between two frames, or after one more frame that called
nothing. -/
inductive Ended (daemon : Daemon) : Connected → Prop where
  | live {state : Connected} (live : Live daemon state) : Ended daemon state
  | refused {state : Connected} (live : Live daemon state) {last : Handling}
      (silent : last.invoked = none) (connection : Option NegotiatedConnection) :
      Ended daemon ⟨connection, state.log ++ [last]⟩

/-- A call is made under the context of the connection, for the request at hand. -/
theorem invocation_calls {daemon : Daemon} {connection : NegotiatedConnection}
    {handshake : Handshake} (context : connection.context = handshake.context)
    {request : Request} {call : Invocation} (made : invocation daemon connection request = some call) :
    CallsFor handshake request call := by
  unfold invocation at made
  split at made
  · rename_i health
    split at made
    · cases made
      exact ⟨context, health⟩
    · cases made
  · rename_i other
    cases made
    exact ⟨context, rfl, other⟩

/-- A frame keeps an open connection in order, or is its last and calls nothing.  A compatible request
extends the log in either case. -/
theorem handle_live {daemon : Daemon} {surroundings : Nat → Surroundings} {state : Connected}
    (frame : List UInt8) (live : Live daemon state) :
    Ended daemon (daemon.handle surroundings state frame).2 ∧
      ((daemon.handle surroundings state frame).1 = true →
        Live daemon (daemon.handle surroundings state frame).2) := by
  unfold Daemon.handle
  cases live with
  | fresh =>
      dsimp only [handleFrame]
      cases read : decodeFrame daemon.interpreter daemon.config.maxFrameBytes false
          (.bytes ⟨frame.toArray⟩) with
      | error fault => exact ⟨.refused .fresh rfl none, fun kept => by cases kept⟩
      | ok decodedFrame =>
          cases decodedFrame with
          | handshakeResponse _ => exact ⟨.refused .fresh rfl none, fun kept => by cases kept⟩
          | request _ => exact ⟨.refused .fresh rfl none, fun kept => by cases kept⟩
          | response _ => exact ⟨.refused .fresh rfl none, fun kept => by cases kept⟩
          | handshake handshake =>
              dsimp only
              cases answer : negotiate daemon.config handshake with
              | error fault => exact ⟨.refused .fresh rfl none, fun kept => by cases kept⟩
              | ok result =>
                  obtain ⟨response, negotiated⟩ := result
                  refine ⟨.refused .fresh rfl negotiated, fun kept => ?_⟩
                  have accepted : response.accepted = true := (Bool.and_eq_true_iff.1 kept).2
                  obtain ⟨connection, rfl, context, protocol, schema, capabilities⟩ :=
                    negotiate_accepted answer accepted
                  exact .connected ⟨read, response, _, answer, accepted⟩ rfl context protocol
                    schema capabilities (by simp)
  | @connected first handshake connection later accepted silent context protocol schema
      capabilities gated =>
      have before : Live daemon ⟨some connection, first :: later⟩ :=
        .connected accepted silent context protocol schema capabilities gated
      have extended : ∀ {invoked : Option Invocation}, Gated daemon handshake ⟨frame, invoked⟩ →
          Live daemon ⟨some connection, first :: later ++ [⟨frame, invoked⟩]⟩ := by
        intro invoked added
        refine .connected accepted silent context protocol schema capabilities ?_
        intro entry mem
        rcases List.mem_append.1 mem with old | new
        · exact gated entry old
        · cases List.mem_singleton.1 new
          exact added
      dsimp only [handleFrame]
      cases read : decodeFrame daemon.interpreter daemon.config.maxFrameBytes false
          (.bytes ⟨frame.toArray⟩) with
      | error fault => exact ⟨.refused before rfl _, fun kept => by cases kept⟩
      | ok decodedFrame =>
          cases decodedFrame with
          | handshakeResponse _ => exact ⟨.refused before rfl _, fun kept => by cases kept⟩
          | handshake _ => exact ⟨.refused before rfl _, fun kept => by cases kept⟩
          | response _ => exact ⟨.refused before rfl _, fun kept => by cases kept⟩
          | request request =>
              dsimp only
              by_cases differs : request.protocol ≠ connection.protocol ∨
                  request.schemaVersion ≠ connection.schemaVersion
              · rw [if_pos differs]
                exact ⟨.refused before rfl _, fun kept => by cases kept⟩
              · rw [if_neg differs]
                obtain ⟨sameProtocol, sameSchema⟩ := not_or.1 differs
                have compatible : CompatibleRequest daemon handshake frame request :=
                  ⟨read, (not_not.1 sameProtocol).trans protocol,
                    (not_not.1 sameSchema).trans schema⟩
                by_cases missing : requiredCapability request.method.text ∉ connection.capabilities
                · rw [if_pos missing]
                  have next := @extended none ⟨request, compatible, fun _ made => by cases made⟩
                  exact ⟨.live next, fun _ => next⟩
                · rw [if_neg missing]
                  have next := @extended (invocation daemon connection request)
                    ⟨request, compatible, fun call made =>
                      ⟨capabilities _ (not_not.1 missing), invocation_calls context made⟩⟩
                  exact ⟨.live next, fun _ => next⟩

/-! ### Logs of whole connections -/

/-- Every entry of an open log but the first is gated by the handshake of the first. -/
theorem Live.entry {daemon : Daemon} {state : Connected} (live : Live daemon state) {i : Nat}
    {entry : Handling} (here : state.log[i]? = some entry) :
    ∃ first handshake, state.log[0]? = some first ∧
      AcceptedHandshake daemon first.frame handshake ∧
      (i = 0 ∧ entry.invoked = none ∨ 0 < i ∧ Gated daemon handshake entry) := by
  cases live with
  | fresh => cases here
  | @connected first handshake connection later accepted silent _ _ _ _ gated =>
      refine ⟨first, handshake, rfl, accepted, ?_⟩
      cases i with
      | zero =>
          cases here
          exact .inl ⟨rfl, silent⟩
      | succ i => exact .inr ⟨Nat.succ_pos i, gated entry (List.mem_of_getElem? here)⟩

/-- An entry of the log of an ended connection is the last, and called nothing, or it stands in
the log of an open one. -/
theorem Ended.entry {daemon : Daemon} {state : Connected} (ended : Ended daemon state) {i : Nat}
    {entry : Handling} (here : state.log[i]? = some entry) :
    i + 1 = state.log.length ∧ entry.invoked = none ∨
      ∃ first handshake, state.log[0]? = some first ∧
        AcceptedHandshake daemon first.frame handshake ∧
        (i = 0 ∧ entry.invoked = none ∨ 0 < i ∧ Gated daemon handshake entry) := by
  cases ended with
  | live live => exact .inr (live.entry here)
  | @refused state live last silent connection =>
      dsimp only at here ⊢
      by_cases inside : i < state.log.length
      · rw [List.getElem?_append_left inside] at here
        obtain ⟨first, handshake, head, accepted, cases⟩ := live.entry here
        refine .inr ⟨first, handshake, ?_, accepted, cases⟩
        rw [List.getElem?_append_left (Nat.zero_lt_of_lt inside), head]
      · have place : i = state.log.length := by
          have bound := (List.getElem?_eq_some_iff.1 here).1
          rw [List.length_append, List.length_singleton] at bound
          omega
        subst place
        rw [List.getElem?_concat_length] at here
        cases here
        exact .inl ⟨by simp, silent⟩

/-- Whatever a peer sends, the application is called only for requests after an accepted
handshake, under the context of that handshake, for a protocol, a schema and a capability that it
negotiated; and every frame but the last is the handshake or such a request. -/
theorem connection_gated (daemon : Daemon) (surroundings : Nat → Surroundings)
    (received : List Received) :
    let served := serveClient daemon.config.maxFrameBytes (daemon.handle surroundings) ⟨none, []⟩
      received
    let log := served.state.log
    log.map Handling.frame = served.frames ∧
      (∀ i entry call, log[i]? = some entry → entry.invoked = some call →
        0 < i ∧ ∃ first handshake request, log[0]? = some first ∧
          AcceptedHandshake daemon first.frame handshake ∧
          CompatibleRequest daemon handshake entry.frame request ∧
          Negotiated daemon.config handshake (requiredCapability request.method.text) ∧
          CallsFor handshake request call) ∧
      (∀ i entry, log[i]? = some entry → i + 1 < log.length →
        ∃ first handshake, log[0]? = some first ∧
          AcceptedHandshake daemon first.frame handshake ∧
          (i = 0 ∨ ∃ request, CompatibleRequest daemon handshake entry.frame request)) := by
  intro served log
  have ended : Ended daemon served.state :=
    serveFrom_invariant .live (fun frame live => handle_live frame live) .fresh [] received
  refine ⟨?_, ?_, ?_⟩
  · have records := @serveFrom_records Connected daemon.config.maxFrameBytes
      (daemon.handle surroundings) (fun state => state.log.map Handling.frame)
      (fun state frame => by simp [Daemon.handle]) ⟨none, []⟩ [] received
    rw [List.map_nil, List.nil_append] at records
    exact records
  · intro i entry call here invoked
    rcases ended.entry here with ⟨-, silent⟩ | ⟨first, handshake, head, accepted, which⟩
    · rw [silent] at invoked
      cases invoked
    · rcases which with ⟨-, silent⟩ | ⟨later, request, compatible, calls⟩
      · rw [silent] at invoked
        cases invoked
      · obtain ⟨negotiated, called⟩ := calls call invoked
        exact ⟨later, first, handshake, request, head, accepted, compatible, negotiated, called⟩
  · intro i entry here inside
    rcases ended.entry here with ⟨last, -⟩ | ⟨first, handshake, head, accepted, which⟩
    · exact absurd last inside.ne
    · refine ⟨first, handshake, head, accepted, ?_⟩
      rcases which with ⟨zero, -⟩ | ⟨-, request, compatible, -⟩
      · exact .inl zero
      · exact .inr ⟨request, compatible⟩

end Protocol

end Enfold.Laws
