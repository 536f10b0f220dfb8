/-
# Laws.FrameCodec -- what the frame codec takes back and what it lets escape

A frame that was encoded is decoded to itself exactly when its dictionary is no deeper than
the decoder allows (`decode_encode_iff`): the constructors measure a payload from its own top,
the decoder from the top of the frame, one or two levels above.  Everything else agrees
(`fromDict_toDict`, `loadFrame_encoded`).

`decode_protocol_iff` says on which inputs `decodeFrame` fails with something else than a
protocol error: the scanner stops at an integer with too many digits, or the type of the frame
is a list or an object.
-/
import Enfold.Model.Protocol

namespace Enfold.Laws

open Enfold.Theory Enfold.Model.Protocol

set_option autoImplicit false

/-! ## Validating again -/

theorem ordered_nodup {members : List (PyText × PyValue)} (ordered : Ordered members) :
    (members.map Prod.fst).Nodup := by
  have codesDiffer : (members.map fun m => codes m.1).Nodup := ordered.imp ne_of_lt
  have same : (members.map fun m => codes m.1) = (members.map Prod.fst).map codes := by
    rw [List.map_map]
    rfl
  rw [same] at codesDiffer
  exact List.Pairwise.of_map codes (fun _ _ differ same => differ (same ▸ rfl)) codesDiffer

mutual

theorem distinct_of_wellFormed {value : PyValue} (wellFormed : WellFormed value) :
    value.Distinct := by
  match value with
  | .null | .bool _ | .int _ | .str _ | .float _ => simp [PyValue.Distinct]
  | .arr items =>
      rw [WellFormed] at wellFormed
      rw [PyValue.Distinct]
      exact distinctItems_of_wellFormed wellFormed
  | .obj members =>
      rw [WellFormed] at wellFormed
      rw [PyValue.Distinct]
      exact ⟨ordered_nodup wellFormed.1, distinctMembers_of_wellFormed wellFormed.2⟩
termination_by sizeOf value

theorem distinctItems_of_wellFormed {items : List PyValue} (wellFormed : WellFormedItems items) :
    PyValue.DistinctItems items := by
  match items with
  | [] => simp [PyValue.DistinctItems]
  | item :: items =>
      rw [WellFormedItems] at wellFormed
      rw [PyValue.DistinctItems]
      exact ⟨distinct_of_wellFormed wellFormed.1, distinctItems_of_wellFormed wellFormed.2⟩
termination_by sizeOf items

theorem distinctMembers_of_wellFormed {members : List (PyText × PyValue)}
    (wellFormed : WellFormedMembers members) : PyValue.DistinctMembers members := by
  match members with
  | [] => simp [PyValue.DistinctMembers]
  | (key, value) :: members =>
      rw [WellFormedMembers] at wellFormed
      rw [PyValue.DistinctMembers]
      exact ⟨distinct_of_wellFormed wellFormed.1, distinctMembers_of_wellFormed wellFormed.2⟩
termination_by sizeOf members

end

mutual

/-- A well-formed value that is not too deep is rebuilt as it is. -/
theorem validateJson_of {depth : Nat} {value : PyValue} (wellFormed : WellFormed value)
    (shallow : value.height + depth ≤ maxJsonDepth) : validateJson depth value = .ok value := by
  have low : depth ≤ maxJsonDepth := by omega
  match value with
  | .float none => simp [WellFormed] at wellFormed
  | .null | .bool _ | .int _ | .str _ | .float (some _) =>
      simp only [validateJson, require_of low, ok_bind]
      rfl
  | .arr items =>
      rw [WellFormed] at wellFormed
      rw [PyValue.height] at shallow
      rw [validateJson, require_of low, ok_bind,
        validateItems_of wellFormed (by omega), ok_bind]
      rfl
  | .obj members =>
      rw [WellFormed] at wellFormed
      rw [PyValue.height] at shallow
      have rebuilt := @validateMembers_of (depth + 1) [] members wellFormed.1 wellFormed.2
        (by omega)
      rw [validateJson, require_of low, ok_bind, rebuilt, ok_bind]
      rfl
termination_by sizeOf value

theorem validateItems_of {depth : Nat} {items : List PyValue} (wellFormed : WellFormedItems items)
    (shallow : PyValue.heightItems items + depth ≤ maxJsonDepth + 1) :
    validateItems depth items = .ok items := by
  match items with
  | [] => rfl
  | item :: items =>
      rw [WellFormedItems] at wellFormed
      rw [PyValue.heightItems] at shallow
      rw [validateItems, validateJson_of wellFormed.1 (by omega), ok_bind,
        validateItems_of wellFormed.2 (by omega), ok_bind]
      rfl
termination_by sizeOf items

theorem validateMembers_of {depth : Nat} {result members : List (PyText × PyValue)}
    (ordered : Ordered (result ++ members)) (wellFormed : WellFormedMembers members)
    (shallow : PyValue.heightMembers members + depth ≤ maxJsonDepth + 1) :
    validateMembers depth result members = .ok (result ++ members) := by
  match members with
  | [] => rw [validateMembers, List.append_nil]
  | (key, value) :: members =>
      rw [WellFormedMembers] at wellFormed
      rw [PyValue.heightMembers] at shallow
      have larger : ∀ m ∈ result, codes m.1 < codes key := by
        intro m mem
        rw [Ordered, List.map_append] at ordered
        exact (List.pairwise_append.1 ordered).2.2 _ (List.mem_map_of_mem mem) _ (by simp)
      rw [validateMembers, validateJson_of wellFormed.1 (by omega), ok_bind, assign_append larger,
        validateMembers_of (by simpa using ordered) wellFormed.2 (by omega), List.append_assoc]
      rfl
termination_by sizeOf members

end

mutual

/-- What passes was not too deep. -/
theorem validateJson_shallow {depth : Nat} {value rebuilt : PyValue}
    (validated : validateJson depth value = .ok rebuilt) :
    value.height + depth ≤ maxJsonDepth := by
  match value with
  | .float none => cases validated
  | .null | .bool _ | .int _ | .str _ | .float (some _) =>
      simp only [validateJson] at validated
      obtain ⟨low, -⟩ := require_bind_eq_ok.1 validated
      simpa [PyValue.height] using low
  | .arr items =>
      rw [validateJson] at validated
      obtain ⟨low, validated⟩ := require_bind_eq_ok.1 validated
      obtain ⟨kept, each, -⟩ := bind_eq_ok.1 validated
      rw [PyValue.height]
      rcases validateItems_shallow each with rfl | shallow
      · simpa [PyValue.heightItems] using low
      · omega
  | .obj members =>
      rw [validateJson] at validated
      obtain ⟨low, validated⟩ := require_bind_eq_ok.1 validated
      obtain ⟨kept, each, -⟩ := bind_eq_ok.1 validated
      rw [PyValue.height]
      rcases validateMembers_shallow each with rfl | shallow
      · simpa [PyValue.heightMembers] using low
      · omega
termination_by sizeOf value

theorem validateItems_shallow {depth : Nat} {items kept : List PyValue}
    (validated : validateItems depth items = .ok kept) :
    items = [] ∨ PyValue.heightItems items + depth ≤ maxJsonDepth + 1 := by
  match items with
  | [] => exact .inl rfl
  | item :: items =>
      obtain ⟨first, here, validated⟩ := bind_eq_ok.1 validated
      obtain ⟨others, there, -⟩ := bind_eq_ok.1 validated
      have low := validateJson_shallow here
      right
      rw [PyValue.heightItems]
      rcases validateItems_shallow there with rfl | low'
      · simp only [PyValue.heightItems]
        omega
      · omega
termination_by sizeOf items

theorem validateMembers_shallow {depth : Nat} {result members kept : List (PyText × PyValue)}
    (validated : validateMembers depth result members = .ok kept) :
    members = [] ∨ PyValue.heightMembers members + depth ≤ maxJsonDepth + 1 := by
  match members with
  | [] => exact .inl rfl
  | (key, value) :: members =>
      obtain ⟨first, here, validated⟩ := bind_eq_ok.1 validated
      have low := validateJson_shallow here
      right
      rw [PyValue.heightMembers]
      rcases validateMembers_shallow validated with rfl | low'
      · simp only [PyValue.heightMembers]
        omega
      · omega
termination_by sizeOf members

end

/-! ## Faults of the validators -/

/-- The computation raises nothing but a plain validation error. -/
def OnlyInvalid {α : Type} (x : Decoding α) : Prop := ∀ fault, x = .error fault → fault = .validation

namespace OnlyInvalid

variable {α β : Type}

theorem ok (a : α) : OnlyInvalid (.ok a) := fun _ failed => by cases failed

theorem failed : OnlyInvalid (invalid : Decoding α) := fun _ failed => by
  cases failed
  rfl

theorem require (c : Prop) [Decidable c] :
    OnlyInvalid (Theory.require c Fault.validation : Decoding PUnit) := by
  unfold Theory.require
  split
  · exact ok _
  · exact failed

theorem bind {x : Decoding α} {f : α → Decoding β} (first : OnlyInvalid x)
    (rest : ∀ a, OnlyInvalid (f a)) : OnlyInvalid (x >>= f) := by
  cases x with
  | ok a => exact rest a
  | error e =>
      intro fault failed
      cases failed
      exact first e rfl

theorem map {x : Decoding α} {f : α → β} (only : OnlyInvalid x) : OnlyInvalid (x.map f) := by
  cases x with
  | ok a => exact ok _
  | error e =>
      intro fault failed
      cases failed
      exact only e rfl

theorem mapM {f : α → Decoding β} (each : ∀ a, OnlyInvalid (f a)) (xs : List α) :
    OnlyInvalid (xs.mapM f) := by
  induction xs with
  | nil => exact ok _
  | cons x xs ih =>
      rw [List.mapM_cons]
      exact (each x).bind fun _ => ih.bind fun _ => ok _

end OnlyInvalid

mutual

theorem validateJson_onlyInvalid (depth : Nat) (value : PyValue) :
    OnlyInvalid (validateJson depth value) := by
  match value with
  | .float none => exact .failed
  | .null | .bool _ | .int _ | .str _ | .float (some _) =>
      simp only [validateJson]
      exact (OnlyInvalid.require _).bind fun _ => .ok _
  | .arr items =>
      rw [validateJson]
      exact (OnlyInvalid.require _).bind fun _ =>
        (validateItems_onlyInvalid (depth + 1) items).bind fun _ => .ok _
  | .obj members =>
      rw [validateJson]
      exact (OnlyInvalid.require _).bind fun _ =>
        (validateMembers_onlyInvalid (depth + 1) [] members).bind fun _ => .ok _
termination_by sizeOf value

theorem validateItems_onlyInvalid (depth : Nat) (items : List PyValue) :
    OnlyInvalid (validateItems depth items) := by
  match items with
  | [] => exact .ok _
  | item :: items =>
      rw [validateItems]
      exact (validateJson_onlyInvalid depth item).bind fun _ =>
        (validateItems_onlyInvalid depth items).bind fun _ => .ok _
termination_by sizeOf items

theorem validateMembers_onlyInvalid (depth : Nat) (result members : List (PyText × PyValue)) :
    OnlyInvalid (validateMembers depth result members) := by
  match members with
  | [] => exact .ok _
  | (key, item) :: members =>
      rw [validateMembers]
      exact (validateJson_onlyInvalid depth item).bind fun value =>
        validateMembers_onlyInvalid depth (assign result key value) members
termination_by sizeOf members

end

theorem payload_onlyInvalid (value : PyValue) : OnlyInvalid (payload value) := by
  unfold payload
  split
  · exact .ok _
  · rename_i fault failed
    intro fault' same
    cases same
    exact validateJson_onlyInvalid 0 value fault failed

theorem objectPayload_onlyInvalid (value : PyValue) : OnlyInvalid (objectPayload value) := by
  unfold objectPayload
  split
  · exact .ok _
  · exact .failed
  · rename_i fault failed
    intro fault' same
    cases same
    exact payload_onlyInvalid value fault failed

theorem requiredString_onlyInvalid (value : PyValue) : OnlyInvalid (requiredString value) := by
  unfold requiredString
  split
  · split
    · exact .failed
    · exact .ok _
  · exact .failed

theorem requiredToken_onlyInvalid (value : PyValue) : OnlyInvalid (requiredToken value) := by
  unfold requiredToken
  split
  · rename_i fault failed
    intro fault' same
    cases same
    exact requiredString_onlyInvalid value fault failed
  · split
    · exact .failed
    · split
      · exact .ok _
      · exact .failed

theorem optionalString_onlyInvalid (value : PyValue) : OnlyInvalid (optionalString value) := by
  unfold optionalString
  split
  · exact .ok _
  · exact (requiredString_onlyInvalid _).map

theorem strictInt_onlyInvalid (value : PyValue) : OnlyInvalid (strictInt value) := by
  unfold strictInt
  split
  · split
    · exact .ok _
    · exact .failed
  · exact .failed

theorem boolean_onlyInvalid (value : PyValue) : OnlyInvalid (boolean value) := by
  unfold boolean
  split
  · exact .ok _
  · exact .failed

theorem stringTuple_onlyInvalid (value : PyValue) : OnlyInvalid (stringTuple value) := by
  unfold stringTuple
  split
  · refine (OnlyInvalid.mapM requiredToken_onlyInvalid _).bind fun items => ?_
    split
    · exact .ok _
    · exact .failed
  · exact .failed

theorem scopeTuple_onlyInvalid (value : PyValue) : OnlyInvalid (scopeTuple value) := by
  refine (stringTuple_onlyInvalid value).bind fun tokens => ?_
  split
  · exact .ok _
  · exact .failed

theorem checkFields_onlyInvalid (data : PyValue) (required optional : List String) :
    OnlyInvalid (checkFields data required optional) := by
  unfold checkFields
  split
  · exact OnlyInvalid.require _
  · exact .failed

theorem protocolVersion_onlyInvalid (data : PyValue) : OnlyInvalid (ProtocolVersion.fromDict data) :=
  (checkFields_onlyInvalid _ _ _).bind fun _ => (strictInt_onlyInvalid _).bind fun _ =>
    (strictInt_onlyInvalid _).bind fun _ => .ok _

theorem clientContext_onlyInvalid (data : PyValue) : OnlyInvalid (ClientContext.fromDict data) := by
  refine (checkFields_onlyInvalid _ _ _).bind fun _ => (scopeTuple_onlyInvalid _).bind fun _ => ?_
  refine (requiredToken_onlyInvalid _).bind fun _ => (requiredToken_onlyInvalid _).bind fun _ => ?_
  refine (requiredToken_onlyInvalid _).bind fun _ => (requiredToken_onlyInvalid _).bind fun _ => ?_
  refine (optionalString_onlyInvalid _).bind fun _ => (optionalString_onlyInvalid _).bind fun _ => ?_
  refine (optionalString_onlyInvalid _).bind fun _ => (optionalString_onlyInvalid _).bind fun _ => ?_
  exact (optionalString_onlyInvalid _).bind fun _ => .ok _

theorem protocolError_onlyInvalid (data : PyValue) : OnlyInvalid (ProtocolError.fromDict data) := by
  refine (checkFields_onlyInvalid _ _ _).bind fun _ => (requiredToken_onlyInvalid _).bind fun _ => ?_
  refine (requiredString_onlyInvalid _).bind fun _ => (boolean_onlyInvalid _).bind fun _ => ?_
  exact (objectPayload_onlyInvalid _).bind fun _ => .ok _

theorem optionalError_onlyInvalid (value : PyValue) : OnlyInvalid (optionalError value) := by
  unfold optionalError
  split
  · exact .ok _
  · exact (protocolError_onlyInvalid _).map

theorem handshake_onlyInvalid (data : PyValue) : OnlyInvalid (Handshake.fromDict data) := by
  refine (checkFields_onlyInvalid _ _ _).bind fun _ => (clientContext_onlyInvalid _).bind fun _ => ?_
  refine (stringTuple_onlyInvalid _).bind fun _ => (protocolVersion_onlyInvalid _).bind fun _ => ?_
  exact (strictInt_onlyInvalid _).bind fun _ => .ok _

theorem handshakeResponse_onlyInvalid (data : PyValue) :
    OnlyInvalid (HandshakeResponse.fromDict data) := by
  refine (checkFields_onlyInvalid _ _ _).bind fun _ => (optionalError_onlyInvalid _).bind fun _ => ?_
  refine (stringTuple_onlyInvalid _).bind fun _ => (protocolVersion_onlyInvalid _).bind fun _ => ?_
  refine (strictInt_onlyInvalid _).bind fun _ => (boolean_onlyInvalid _).bind fun _ => ?_
  refine (requiredString_onlyInvalid _).bind fun _ => ?_
  split
  · exact .ok _
  · exact .failed

theorem request_onlyInvalid (data : PyValue) : OnlyInvalid (Request.fromDict data) := by
  refine (checkFields_onlyInvalid _ _ _).bind fun _ => (protocolVersion_onlyInvalid _).bind fun _ => ?_
  refine (strictInt_onlyInvalid _).bind fun _ => (requiredToken_onlyInvalid _).bind fun _ => ?_
  refine (requiredToken_onlyInvalid _).bind fun _ => (objectPayload_onlyInvalid _).bind fun _ => ?_
  split
  · split
    · exact .ok _
    · exact .failed
  · exact .failed

theorem response_onlyInvalid (data : PyValue) : OnlyInvalid (Response.fromDict data) := by
  refine (checkFields_onlyInvalid _ _ _).bind fun _ => (optionalError_onlyInvalid _).bind fun _ => ?_
  refine (protocolVersion_onlyInvalid _).bind fun _ => (strictInt_onlyInvalid _).bind fun _ => ?_
  refine (requiredToken_onlyInvalid _).bind fun _ => (boolean_onlyInvalid _).bind fun _ => ?_
  refine (payload_onlyInvalid _).bind fun _ => ?_
  split
  · split
    · exact .ok _
    · exact .failed
  · exact .failed

/-! ## What escapes the decoder -/

/-- The type of a frame is a list or an object, which has no hash. -/
def UnhashableType (data : PyValue) : Prop :=
  (∃ items, data.get? "type" = some (.arr items)) ∨
    ∃ members, data.get? "type" = some (.obj members)

theorem fromDict_unhashable {data : PyValue} (unhashable : UnhashableType data) :
    Frame.fromDict data = .error .typeError := by
  unfold Frame.fromDict
  rcases unhashable with ⟨items, found⟩ | ⟨members, found⟩ <;> rw [found]

theorem fromDict_hashable {data : PyValue} (hashable : ¬ UnhashableType data) :
    OnlyInvalid (Frame.fromDict data) := by
  unfold Frame.fromDict
  split
  · rename_i items found
    exact absurd (.inl ⟨items, found⟩) hashable
  · rename_i members found
    exact absurd (.inr ⟨members, found⟩) hashable
  · split
    · exact (handshake_onlyInvalid data).map
    split
    · exact (handshakeResponse_onlyInvalid data).map
    split
    · exact (request_onlyInvalid data).map
    split
    · exact (response_onlyInvalid data).map
    · exact .failed
  · exact .failed

/-- The computation raises nothing but errors of the protocol. -/
def OnlyProtocol {α : Type} (x : Decoding α) : Prop := ∀ fault, x = .error fault → fault.IsProtocol

namespace OnlyProtocol

variable {α β : Type}

theorem ok (a : α) : OnlyProtocol (.ok a) := fun _ failed => by cases failed

theorem of_onlyInvalid {x : Decoding α} (only : OnlyInvalid x) : OnlyProtocol x := by
  intro fault failed
  rw [only fault failed]
  trivial

theorem require {c : Prop} [Decidable c] (fault : Fault) (protocol : fault.IsProtocol) :
    OnlyProtocol (Theory.require c fault : Decoding PUnit) := by
  unfold Theory.require
  split
  · exact ok _
  · intro other failed
    cases failed
    exact protocol

theorem bind {x : Decoding α} {f : α → Decoding β} (first : OnlyProtocol x)
    (rest : ∀ a, x = .ok a → OnlyProtocol (f a)) : OnlyProtocol (x >>= f) := by
  cases x with
  | ok a => exact rest a rfl
  | error e =>
      intro fault failed
      cases failed
      exact first e rfl

end OnlyProtocol

theorem frameLine_onlyProtocol (maxFrameSize : Nat) (input : FrameInput) :
    OnlyProtocol (frameLine maxFrameSize input) := by
  have raw : OnlyInvalid input.raw := by
    unfold FrameInput.raw
    split
    · exact .ok _
    · split
      · exact .ok _
      · exact .failed
  have decoded : ∀ bytes, OnlyInvalid (utf8Decode bytes) := by
    intro bytes
    unfold utf8Decode
    split
    · exact .ok _
    · exact .failed
  refine (OnlyProtocol.require .validation trivial).bind fun _ _ => ?_
  refine (OnlyProtocol.of_onlyInvalid raw).bind fun bytes _ => ?_
  refine (OnlyProtocol.require .frameTooLarge trivial).bind fun _ _ => ?_
  refine (OnlyProtocol.of_onlyInvalid (decoded bytes)).bind fun line _ => ?_
  exact (OnlyProtocol.require .validation trivial).bind fun _ _ => .ok _

theorem loadFrame_eq_ok {interpreter : Interpreter} {line : List Char} {value : PyValue} :
    loadFrame interpreter line = .ok value ↔ Json.scan interpreter.nesting line = .ok value := by
  unfold loadFrame
  split
  · rename_i scanned
    simp only [scanned, Except.ok.injEq]
  · rename_i scanned
    simp [scanned]
  · rename_i scanned
    simp [scanned, invalid]

theorem loadFrame_onlyProtocol_iff (interpreter : Interpreter) (line : List Char) :
    OnlyProtocol (loadFrame interpreter line) ↔
      Json.scan interpreter.nesting line ≠ .error .longInteger := by
  unfold loadFrame
  split
  · rename_i scanned
    simp [scanned, OnlyProtocol.ok]
  · rename_i scanned
    simp only [scanned, ne_eq, not_true_eq_false, iff_false]
    exact fun only => only .valueError rfl
  · rename_i e other scanned
    simp only [scanned, ne_eq, Except.error.injEq]
    exact ⟨fun _ => other, fun _ => .of_onlyInvalid .failed⟩

/-- Decoding fails with protocol errors only, exactly when scanning the line does not stop at
an integer with too many digits and the scanned dictionary, if it is valid, has no list or
object as its type. -/
theorem decode_protocol_iff (interpreter : Interpreter) (maxFrameSize : Nat)
    (refuseMajorMismatch : Bool) (input : FrameInput) :
    (∀ fault, decodeFrame interpreter maxFrameSize refuseMajorMismatch input = .error fault →
        fault.IsProtocol) ↔
      ∀ line, frameLine maxFrameSize input = .ok line →
        Json.scan interpreter.nesting line ≠ .error .longInteger ∧
          ∀ value data, Json.scan interpreter.nesting line = .ok value →
            objectPayload value = .ok data → ¬ UnhashableType (.obj data.members) := by
  constructor
  · intro only line lined
    constructor
    · intro long
      have escaped : decodeFrame interpreter maxFrameSize refuseMajorMismatch input =
          .error .valueError := by
        rw [decodeFrame, lined, ok_bind, loadFrame, long]
        rfl
      exact only .valueError escaped
    · intro value data scanned validated unhashable
      have escaped : decodeFrame interpreter maxFrameSize refuseMajorMismatch input =
          .error .typeError := by
        rw [decodeFrame, lined, ok_bind, loadFrame_eq_ok.2 scanned, ok_bind, validated, ok_bind,
          fromDict_unhashable unhashable]
        rfl
      exact only .typeError escaped
  · intro guarded
    refine OnlyProtocol.bind (frameLine_onlyProtocol maxFrameSize input) fun line lined => ?_
    obtain ⟨short, hashable⟩ := guarded line lined
    refine OnlyProtocol.bind ((loadFrame_onlyProtocol_iff interpreter line).2 short)
      fun value loaded => ?_
    refine OnlyProtocol.bind (.of_onlyInvalid (objectPayload_onlyInvalid value))
      fun data validated => ?_
    refine OnlyProtocol.bind (.of_onlyInvalid (fromDict_hashable
      (hashable value data (loadFrame_eq_ok.1 loaded) validated))) fun frame _ => ?_
    exact (OnlyProtocol.require .versionMismatch trivial).bind fun _ _ => .ok _

/-! ## Frames as dictionaries -/

theorem entry_member (name other : String) (value : PyValue) (members : List (PyText × PyValue)) :
    entry name (.obj (member other value :: members)) =
      if name = other then value else entry name (.obj members) := by
  unfold entry PyValue.get? member
  dsimp only
  rw [List.lookup_cons]
  by_cases same : name = other
  · rw [if_pos same, same, beq_self_eq_true]
    rfl
  · rw [if_neg same, beq_false_of_ne fun eq => same (PyText.ofString_injective eq)]

theorem checkFields_of {members : List (PyText × PyValue)} {required optional : List String}
    (names : List String) (named : members.map Prod.fst = names.map PyText.ofString)
    (complete : ∀ name ∈ required, name ∈ names)
    (known : ∀ name ∈ names, name ∈ required ++ optional) :
    checkFields (.obj members) required optional = .ok () := by
  refine require_of ⟨fun name mem => ?_, fun key mem => ?_⟩
  · rw [named]
    exact List.mem_map_of_mem (complete name mem)
  · rw [named] at mem
    obtain ⟨name, here, rfl⟩ := List.mem_map.1 mem
    exact ⟨name, known name here, rfl⟩

theorem requiredString_toValue (required : RequiredText) :
    requiredString required.toValue = .ok required := by
  obtain ⟨text, stripped, filled⟩ := required
  simp only [RequiredText.toValue, requiredString, stripped, filled, dite_false]

theorem optionalString_toValue (required : Option RequiredText) :
    optionalString (optionalValue RequiredText.toValue required) = .ok required := by
  cases required with
  | none => rfl
  | some required =>
      have read := requiredString_toValue required
      unfold RequiredText.toValue at read
      simp only [optionalValue, RequiredText.toValue, optionalString, read]
      rfl

theorem requiredToken_toValue (token : Token) : requiredToken token.toValue = .ok token := by
  obtain ⟨text, required, shape⟩ := token
  have read := requiredString_toValue ⟨PyText.ofString text, required.1, required.2⟩
  unfold RequiredText.toValue at read
  simp only [requiredToken, Token.toValue, textValue, read]
  split
  · rename_i none
    simp at none
  · rename_i found named
    rw [PyText.toString?_ofString, Option.some.injEq] at named
    subst named
    simp [shape]

theorem stringTuple_toValue (tokens : Tokens) : stringTuple tokens.toValue = .ok tokens := by
  obtain ⟨items, distinct⟩ := tokens
  have read : (items.map Token.toValue).mapM requiredToken = .ok items := by
    rw [mapM_eq_ok, List.forall₂_map_left_iff, List.forall₂_same]
    exact fun token _ => requiredToken_toValue token
  simp only [stringTuple, Tokens.toValue, read, ok_bind, distinct, dite_true]

theorem strictInt_ofNat (n : Nat) : strictInt (.int n) = .ok n := by
  simp [strictInt]

theorem payload_value (kept : Payload) : payload kept.value = .ok kept := by
  obtain ⟨value, valid⟩ := kept
  have validated := validateJson_of valid.1 valid.2
  unfold payload
  split
  · rename_i rebuilt again
    simp only [validated, Except.ok.injEq] at again
    subst again
    rfl
  · rename_i fault failed
    simp only [validated, reduceCtorEq] at failed

theorem objectPayload_members (kept : ObjectPayload) :
    objectPayload (.obj kept.members) = .ok kept := by
  have whole := payload_value ⟨.obj kept.members, kept.valid⟩
  unfold objectPayload
  rw [whole]

theorem protocolVersion_toDict (version : ProtocolVersion) :
    ProtocolVersion.fromDict version.toDict = .ok version := by
  rw [ProtocolVersion.fromDict, ProtocolVersion.toDict,
    checkFields_of ["major", "minor"] rfl (by decide) (by decide), ok_bind]
  simp only [entry_member, String.reduceEq, if_true, if_false, strictInt_ofNat, ok_bind]
  rfl

theorem scopeTuple_toValue {tokens : Tokens} (filled : tokens.items ≠ []) :
    scopeTuple tokens.toValue = .ok ⟨tokens, filled⟩ := by
  rw [scopeTuple, stringTuple_toValue, ok_bind, dif_pos filled]

theorem clientContext_toDict (context : ClientContext) :
    ClientContext.fromDict context.toDict = .ok context := by
  rw [ClientContext.fromDict, ClientContext.toDict,
    checkFields_of ["access_scopes", "agent_id", "branch", "client_id", "commit_sha",
      "parent_agent_id", "project_root", "repository", "session_id", "surface"] rfl (by decide)
      (by decide), ok_bind]
  simp only [entry_member, String.reduceEq, if_true, if_false,
    scopeTuple_toValue context.scopesFilled, requiredToken_toValue, optionalString_toValue, ok_bind]
  rfl

theorem protocolError_toDict (error : ProtocolError) :
    ProtocolError.fromDict error.toDict = .ok error := by
  rw [ProtocolError.fromDict, ProtocolError.toDict,
    checkFields_of ["code", "details", "message", "retryable"] rfl (by decide) (by decide), ok_bind]
  simp only [entry_member, String.reduceEq, if_true, if_false, requiredToken_toValue,
    requiredString_toValue, boolean, objectPayload_members, ok_bind]
  rfl

theorem optionalError_toDict (error : Option ProtocolError) :
    optionalError (optionalValue ProtocolError.toDict error) = .ok error := by
  cases error with
  | none => rfl
  | some error =>
      have read := protocolError_toDict error
      unfold ProtocolError.toDict at read
      simp only [optionalValue, ProtocolError.toDict, optionalError, read]
      rfl

theorem isNull_of_failed {frame : Response} (failed : frame.ok = false) :
    isNull frame.result.value = true := by
  rw [frame.failed failed]
  rfl

/-- The dictionary of a frame is read back as the frame. -/
theorem fromDict_toDict (frame : Frame) : Frame.fromDict frame.toDict = .ok frame := by
  have typed : ∀ (members : List (PyText × PyValue)) (name : String) (value : PyValue),
      (PyValue.obj (member name value :: members)).get? "type" =
        if "type" = name then some value else (PyValue.obj members).get? "type" := by
    intro members name value
    unfold PyValue.get? member
    dsimp only
    rw [List.lookup_cons]
    by_cases same : "type" = name
    · rw [if_pos same, same, beq_self_eq_true]
    · rw [if_neg same, beq_false_of_ne fun eq => same (PyText.ofString_injective eq)]
  have different : ∀ {s t : String}, s ≠ t → PyText.ofString s ≠ PyText.ofString t :=
    fun differ same => differ (PyText.ofString_injective same)
  cases frame with
  | handshake frame =>
      have read : Handshake.fromDict (Frame.handshake frame).toDict = .ok frame := by
        rw [Handshake.fromDict, Frame.toDict,
          checkFields_of ["capabilities", "context", "protocol", "schema_version", "type"] rfl
            (by decide) (by decide), ok_bind]
        simp only [entry_member, String.reduceEq, if_true, if_false, clientContext_toDict,
          stringTuple_toValue, protocolVersion_toDict, strictInt_ofNat, ok_bind]
        rfl
      rw [Frame.fromDict, read]
      simp only [Frame.toDict, typed, String.reduceEq, if_true, if_false, textValue]
      rfl
  | handshakeResponse frame =>
      have read : HandshakeResponse.fromDict (Frame.handshakeResponse frame).toDict = .ok frame := by
        rw [HandshakeResponse.fromDict, Frame.toDict,
          checkFields_of ["accepted", "capabilities", "error", "protocol", "schema_version",
            "service_version", "type"] rfl (by decide) (by decide), ok_bind]
        simp only [entry_member, String.reduceEq, if_true, if_false, optionalError_toDict,
          stringTuple_toValue, protocolVersion_toDict, strictInt_ofNat, boolean,
          requiredString_toValue, ok_bind]
        rw [dif_pos frame.consistent]
      rw [Frame.fromDict, read]
      simp only [Frame.toDict, typed, String.reduceEq, if_true, if_false, textValue,
        if_neg (different (show "handshake_response" ≠ "handshake" by decide))]
      rfl
  | request frame =>
      have read : Request.fromDict (Frame.request frame).toDict = .ok frame := by
        rw [Request.fromDict, Frame.toDict,
          checkFields_of ["method", "params", "protocol", "request_id", "schema_version", "type"] rfl
            (by decide) (by decide), ok_bind]
        simp only [entry_member, String.reduceEq, if_true, if_false, protocolVersion_toDict,
          strictInt_ofNat, requiredToken_toValue, objectPayload_members, ok_bind, frame.supported,
          frame.unspoofed, dite_true]
      rw [Frame.fromDict, read]
      simp only [Frame.toDict, typed, String.reduceEq, if_true, if_false, textValue,
        if_neg (different (show "request" ≠ "handshake" by decide)),
        if_neg (different (show "request" ≠ "handshake_response" by decide))]
      rfl
  | response frame =>
      have read : Response.fromDict (Frame.response frame).toDict = .ok frame := by
        rw [Response.fromDict, Frame.toDict,
          checkFields_of ["error", "ok", "protocol", "request_id", "result", "schema_version", "type"]
            rfl (by decide) (by decide), ok_bind]
        simp only [entry_member, String.reduceEq, if_true, if_false, optionalError_toDict,
          protocolVersion_toDict, strictInt_ofNat, requiredToken_toValue, boolean, payload_value,
          ok_bind]
        rw [dif_pos frame.consistent, dif_pos fun failed => isNull_of_failed failed]
      rw [Frame.fromDict, read]
      simp only [Frame.toDict, typed, String.reduceEq, if_true, if_false, textValue,
        if_neg (different (show "response" ≠ "handshake" by decide)),
        if_neg (different (show "response" ≠ "handshake_response" by decide)),
        if_neg (different (show "response" ≠ "request" by decide))]
      rfl

/-! ## Depth of a frame -/

theorem tokens_flat (tokens : List Token) :
    WellFormedItems (tokens.map Token.toValue) ∧
      PyValue.heightItems (tokens.map Token.toValue) ≤ 1 := by
  induction tokens with
  | nil => simp [WellFormedItems, PyValue.heightItems]
  | cons token tokens ih =>
      simp only [List.map_cons, WellFormedItems, PyValue.heightItems]
      exact ⟨⟨by simp [Token.toValue, textValue, WellFormed], ih.1⟩,
        by simpa [Token.toValue, textValue, PyValue.height] using ih.2⟩

section Flat

@[simp] theorem wellFormed_tokens (tokens : Tokens) : WellFormed tokens.toValue := by
  rw [Tokens.toValue, WellFormed]
  exact (tokens_flat tokens.items).1

theorem height_tokens (tokens : Tokens) : tokens.toValue.height ≤ 1 := by
  rw [Tokens.toValue, PyValue.height]
  exact (tokens_flat tokens.items).2

@[simp] theorem wellFormed_token (token : Token) : WellFormed token.toValue := by
  simp [Token.toValue, textValue, WellFormed]

@[simp] theorem height_token (token : Token) : token.toValue.height = 0 := rfl

@[simp] theorem wellFormed_required (required : RequiredText) : WellFormed required.toValue := by
  simp [RequiredText.toValue, WellFormed]

@[simp] theorem height_required (required : RequiredText) : required.toValue.height = 0 := rfl

@[simp] theorem wellFormed_optional (required : Option RequiredText) :
    WellFormed (optionalValue RequiredText.toValue required) := by
  cases required <;> simp [optionalValue, WellFormed]

@[simp] theorem height_optional (required : Option RequiredText) :
    (optionalValue RequiredText.toValue required).height = 0 := by
  cases required <;> rfl

@[simp] theorem wellFormed_text (s : String) : WellFormed (textValue s) := by
  simp [textValue, WellFormed]

@[simp] theorem height_text (s : String) : (textValue s).height = 0 := rfl

end Flat

/-- The keys of a dictionary are in order when their names are. -/
theorem ordered_of_names {members : List (PyText × PyValue)} (names : List String)
    (named : members.map Prod.fst = names.map PyText.ofString)
    (ordered : (names.map fun name => codes (PyText.ofString name)).Pairwise (· < ·)) :
    Ordered members := by
  have same : (members.map fun m => codes m.1) = (members.map Prod.fst).map codes := by
    rw [List.map_map]
    rfl
  rw [Ordered, same, named, List.map_map]
  exact ordered

@[simp] theorem wellFormed_version (version : ProtocolVersion) : WellFormed version.toDict := by
  rw [ProtocolVersion.toDict, WellFormed]
  refine ⟨ordered_of_names ["major", "minor"] rfl (by decide +kernel), ?_⟩
  simp [WellFormedMembers, member, WellFormed]

@[simp] theorem height_version (version : ProtocolVersion) : version.toDict.height = 1 := rfl

@[simp] theorem wellFormed_context (context : ClientContext) : WellFormed context.toDict := by
  rw [ClientContext.toDict, WellFormed]
  refine ⟨ordered_of_names ["access_scopes", "agent_id", "branch", "client_id", "commit_sha",
    "parent_agent_id", "project_root", "repository", "session_id", "surface"] rfl
    (by decide +kernel), ?_⟩
  simp [WellFormedMembers, member]

theorem height_context (context : ClientContext) : context.toDict.height ≤ 2 := by
  have scopes := height_tokens context.accessScopes
  rw [ClientContext.toDict]
  simp only [PyValue.height, PyValue.heightMembers, member, height_token, height_optional]
  omega

@[simp] theorem wellFormed_error (error : ProtocolError) : WellFormed error.toDict := by
  rw [ProtocolError.toDict, WellFormed]
  refine ⟨ordered_of_names ["code", "details", "message", "retryable"] rfl (by decide +kernel), ?_⟩
  have details := error.details.valid.1
  rw [WellFormed] at details
  simp [WellFormedMembers, member, WellFormed, details]

theorem height_error (error : ProtocolError) :
    error.toDict.height = (PyValue.obj error.details.members).height + 1 := by
  rw [ProtocolError.toDict]
  simp only [PyValue.height, PyValue.heightMembers, member, height_token, height_required]
  omega

/-- The payloads of a frame leave room for the levels above them. -/
def Shallow : Frame → Prop
  | .handshake _ => True
  | .handshakeResponse frame =>
      ∀ error ∈ frame.error, (PyValue.obj error.details.members).height + 2 ≤ maxJsonDepth
  | .request frame => (PyValue.obj frame.params.members).height + 1 ≤ maxJsonDepth
  | .response frame => frame.result.value.height + 1 ≤ maxJsonDepth ∧
      ∀ error ∈ frame.error, (PyValue.obj error.details.members).height + 2 ≤ maxJsonDepth

theorem wellFormed_optionalError (error : Option ProtocolError) :
    WellFormed (optionalValue ProtocolError.toDict error) := by
  cases error <;> simp [optionalValue, WellFormed]

theorem wellFormed_toDict (frame : Frame) : WellFormed frame.toDict := by
  cases frame with
  | handshake frame =>
      rw [Frame.toDict, WellFormed]
      refine ⟨ordered_of_names ["capabilities", "context", "protocol", "schema_version", "type"] rfl
        (by decide +kernel), ?_⟩
      simp [WellFormedMembers, member, WellFormed]
  | handshakeResponse frame =>
      rw [Frame.toDict, WellFormed]
      refine ⟨ordered_of_names ["accepted", "capabilities", "error", "protocol", "schema_version",
        "service_version", "type"] rfl (by decide +kernel), ?_⟩
      simp [WellFormedMembers, member, WellFormed, wellFormed_optionalError]
  | request frame =>
      have params := frame.params.valid.1
      rw [WellFormed] at params
      rw [Frame.toDict, WellFormed]
      refine ⟨ordered_of_names ["method", "params", "protocol", "request_id", "schema_version", "type"]
        rfl (by decide +kernel), ?_⟩
      simp [WellFormedMembers, member, WellFormed, params]
  | response frame =>
      rw [Frame.toDict, WellFormed]
      refine ⟨ordered_of_names ["error", "ok", "protocol", "request_id", "result", "schema_version",
        "type"] rfl (by decide +kernel), ?_⟩
      simp [WellFormedMembers, member, WellFormed, wellFormed_optionalError, frame.result.valid.1]

/-- An error takes two levels more than its details. -/
theorem height_optionalError_iff (error : Option ProtocolError) :
    (optionalValue ProtocolError.toDict error).height + 1 ≤ maxJsonDepth ↔
      ∀ e ∈ error, (PyValue.obj e.details.members).height + 2 ≤ maxJsonDepth := by
  cases error with
  | none => simp [optionalValue, PyValue.height, maxJsonDepth]
  | some error => simp [optionalValue, height_error, Nat.add_assoc]

theorem height_toDict_iff (frame : Frame) : frame.toDict.height ≤ maxJsonDepth ↔ Shallow frame := by
  have bound : maxJsonDepth = 32 := rfl
  cases frame with
  | handshake frame =>
      have context := height_context frame.context
      have capabilities := height_tokens frame.capabilities
      simp only [Frame.toDict, PyValue.height, PyValue.heightMembers, member, height_version,
        height_text, Shallow, iff_true]
      omega
  | handshakeResponse frame =>
      have capabilities := height_tokens frame.capabilities
      rw [Shallow, ← height_optionalError_iff]
      simp only [Frame.toDict, PyValue.height, PyValue.heightMembers, member, height_version,
        height_text, height_required]
      omega
  | request frame =>
      simp only [Frame.toDict, PyValue.height, PyValue.heightMembers, member, height_version,
        height_text, height_token, Shallow]
      omega
  | response frame =>
      rw [Shallow, ← height_optionalError_iff]
      simp only [Frame.toDict, PyValue.height, PyValue.heightMembers, member, height_version,
        height_text, height_token]
      omega

/-- No frame is so deep that the scanner gives up. -/
theorem height_toDict_le (frame : Frame) : frame.toDict.height ≤ maxJsonDepth + 2 := by
  have bound : maxJsonDepth = 32 := rfl
  have errors : ∀ error : Option ProtocolError,
      (optionalValue ProtocolError.toDict error).height ≤ maxJsonDepth + 1 := by
    intro error
    cases error with
    | none => simp [optionalValue, PyValue.height]
    | some error =>
        have details := error.details.valid.2
        simp only [optionalValue, height_error]
        omega
  cases frame with
  | handshake frame =>
      have shallow := (height_toDict_iff (.handshake frame)).2 trivial
      omega
  | handshakeResponse frame =>
      have capabilities := height_tokens frame.capabilities
      have error := errors frame.error
      simp only [Frame.toDict, PyValue.height, PyValue.heightMembers, member, height_version,
        height_text, height_required]
      omega
  | request frame =>
      have params := frame.params.valid.2
      simp only [Frame.toDict, PyValue.height, PyValue.heightMembers, member, height_version,
        height_text, height_token] at params ⊢
      omega
  | response frame =>
      have result := frame.result.valid.2
      have error := errors frame.error
      simp only [Frame.toDict, PyValue.height, PyValue.heightMembers, member, height_version,
        height_text, height_token]
      omega

/-! ## Lines -/

/-- The line of a printed document is the document. -/
theorem frameLine_printed {maxFrameSize : Nat} {line : List Char} (filled : line ≠ [])
    (printable : Json.Printable line) (positive : 0 < maxFrameSize)
    (fits : (String.ofList (line ++ ['\n'])).toByteArray.size ≤ maxFrameSize) :
    frameLine maxFrameSize (.bytes (String.ofList (line ++ ['\n'])).toByteArray) = .ok line := by
  have noFeed : '\n' ∉ line := fun mem => absurd (printable _ mem) (by decide)
  have noReturn : '\r' ∉ line := fun mem => absurd (printable _ mem) (by decide)
  have decoded : utf8Decode (String.ofList (line ++ ['\n'])).toByteArray = .ok (line ++ ['\n']) := by
    rw [utf8Decode, String.toByteArray_ofList, List.utf8Decode?_utf8Encode]
  have ended : dropLineEnd (line ++ ['\n']) = line := by
    have noPair : ¬ (['\r', '\n'].isSuffixOf (line ++ ['\n'])) = true := by
      rw [List.isSuffixOf_iff_suffix]
      rintro ⟨before, same⟩
      have split : (before ++ ['\r']) ++ ['\n'] = line ++ ['\n'] := by simpa using same
      rw [← List.append_cancel_right split] at noReturn
      simp at noReturn
    have feed : (['\n'].isSuffixOf (line ++ ['\n'])) = true := by
      rw [List.isSuffixOf_iff_suffix]
      exact ⟨line, rfl⟩
    rw [dropLineEnd, if_neg noPair, if_pos feed, List.dropLast_concat]
  rw [frameLine, require_of positive, ok_bind, FrameInput.raw, ok_bind, require_of fits, ok_bind,
    decoded, ok_bind, ended]
  dsimp only
  rw [require_of ⟨filled, noFeed, noReturn⟩]
  rfl

/-! ## The round trip -/

/-- An encoded frame is loaded as its dictionary. -/
theorem loadFrame_encoded (interpreter : Interpreter) {frame : Frame} {document : Json}
    (printed : frame.toDict.toJson? = some document) :
    loadFrame interpreter (Json.dump .unicode document) = .ok frame.toDict := by
  have deep := height_toDict_le frame
  have room := interpreter.roomy
  have bound : maxJsonDepth = 32 := rfl
  exact loadFrame_eq_ok.2 (Json.scan_dump printed (distinct_of_wellFormed (wellFormed_toDict frame))
    (by omega))

theorem toDict_members (frame : Frame) : ∃ members, frame.toDict = .obj members := by
  cases frame <;> exact ⟨_, rfl⟩

section RoundTrip

variable {interpreter : Interpreter} {maxFrameSize : Nat} {frame : Frame} {encoded : ByteArray}

/-- What is left of decoding an encoded frame. -/
theorem decodeFrame_encoded (sent : encodeFrame maxFrameSize frame = .ok encoded) :
    decodeFrame interpreter maxFrameSize false (.bytes encoded) = do
      let data ← objectPayload frame.toDict
      let read ← Frame.fromDict (.obj data.members)
      require (false = true → read.protocol.major = 1) .versionMismatch
      return read := by
  obtain ⟨positive, sent⟩ := require_bind_eq_ok.1 sent
  cases printed : frame.toDict.toJson? with
  | none =>
      rw [printed] at sent
      cases sent
  | some document =>
      rw [printed] at sent
      obtain ⟨fits, sent⟩ := require_bind_eq_ok.1 sent
      cases pure_eq_ok.1 sent
      have filled : Json.dump .unicode document ≠ [] := by
        have shape := Json.shapeOf_dump .unicode document []
        intro empty
        rw [empty] at shape
        cases shape
      have lined := frameLine_printed filled (Json.printable_dump document) positive fits
      rw [decodeFrame, lined, ok_bind, loadFrame_encoded interpreter printed, ok_bind]

/-- What passes the decoder left room for the levels above its payloads. -/
theorem shallow_of_objectPayload {data : ObjectPayload}
    (validated : objectPayload frame.toDict = .ok data) : Shallow frame := by
  rw [← height_toDict_iff]
  unfold objectPayload payload at validated
  split at validated
  · rename_i rebuilt here same
    split at same
    · rename_i value again
      exact validateJson_shallow again
    · cases same
  · cases validated
  · cases validated

/-- A frame that was encoded is decoded to itself exactly when its payloads leave room for the
levels above them. -/
theorem decode_encode_iff (sent : encodeFrame maxFrameSize frame = .ok encoded) :
    decodeFrame interpreter maxFrameSize false (.bytes encoded) = .ok frame ↔ Shallow frame := by
  obtain ⟨members, object⟩ := toDict_members frame
  rw [decodeFrame_encoded sent]
  constructor
  · intro decoded
    obtain ⟨data, validated, -⟩ := bind_eq_ok.1 decoded
    exact shallow_of_objectPayload validated
  · intro shallow
    have valid : ValidAt 0 (.obj members) :=
      object ▸ ⟨wellFormed_toDict frame, (height_toDict_iff frame).2 shallow⟩
    rw [object, objectPayload_members ⟨members, valid⟩, ok_bind]
    dsimp only
    rw [← object, fromDict_toDict, ok_bind]
    rfl

end RoundTrip

/-! ## Sample frames -/

def sampleInterpreter : Interpreter := ⟨64, Nat.le_refl 64⟩

/-- A value below a number of lists. -/
def nested : Nat → PyValue
  | 0 => .null
  | levels + 1 => .arr [nested levels]

theorem nested_valid (levels : Nat) : WellFormed (nested levels) ∧ (nested levels).height = levels := by
  induction levels with
  | zero => simp [nested, WellFormed, PyValue.height]
  | succ levels ih =>
      simp [nested, WellFormed, WellFormedItems, PyValue.height, PyValue.heightItems, ih.1, ih.2]

/-- A request with one parameter below that many lists. -/
def sampleRequest (levels : Nat) (few : levels < maxJsonDepth) : Request where
  requestId := ⟨"r1", by decide +kernel, by decide +kernel⟩
  method := ⟨"memory.search", by decide +kernel, by decide +kernel⟩
  params := ⟨[member "k" (nested levels)], by
    obtain ⟨wellFormed, height⟩ := nested_valid levels
    constructor
    · simp [WellFormed, Ordered, WellFormedMembers, member, wellFormed]
    · simp only [PyValue.height, PyValue.heightMembers, member, height]
      omega⟩
  protocol := ⟨1, 0⟩
  schemaVersion := 1
  supported := by decide
  unspoofed := by
    have alone : ∀ name ∈ immutableFields, PyText.ofString name ∉ [PyText.ofString "k"] := by
      decide +kernel
    exact alone

/-- A large enough frame limit lets a printable frame through. -/
theorem encodeFrame_of {f : Frame} (printable : f.toDict.toJson?.isSome = true) :
    ∃ maxFrameSize encoded, encodeFrame maxFrameSize f = .ok encoded := by
  obtain ⟨document, printed⟩ := Option.isSome_iff_exists.1 printable
  have fits := Nat.le_succ (String.ofList (Json.dump .unicode document ++ ['\n'])).toByteArray.size
  refine ⟨(String.ofList (Json.dump .unicode document ++ ['\n'])).toByteArray.size + 1,
    (String.ofList (Json.dump .unicode document ++ ['\n'])).toByteArray, ?_⟩
  rw [encodeFrame, require_of (Nat.succ_pos _), ok_bind, printed]
  dsimp only
  rw [require_of fits]
  rfl

theorem shallow_sampleRequest_iff {levels : Nat} {few : levels < maxJsonDepth} :
    Shallow (.request (sampleRequest levels few)) ↔ levels + 2 ≤ maxJsonDepth := by
  obtain ⟨-, height⟩ := nested_valid levels
  simp only [Shallow, sampleRequest, PyValue.height, PyValue.heightMembers, member, height]
  omega

theorem flat_request_returns :
    ∃ maxFrameSize encoded,
      encodeFrame maxFrameSize (.request (sampleRequest 0 (by decide))) = .ok encoded ∧
        decodeFrame sampleInterpreter maxFrameSize false (.bytes encoded) =
          .ok (.request (sampleRequest 0 (by decide))) := by
  obtain ⟨maxFrameSize, encoded, sent⟩ := encodeFrame_of
    (f := .request (sampleRequest 0 (by decide))) (by decide +kernel)
  exact ⟨maxFrameSize, encoded, sent, (decode_encode_iff sent).2
    (shallow_sampleRequest_iff.2 (by decide))⟩

/-- Parameters as deep as the constructor allows are sent and not taken back. -/
theorem deep_request_lost :
    ∃ maxFrameSize encoded,
      encodeFrame maxFrameSize (.request (sampleRequest 31 (by decide))) = .ok encoded ∧
        decodeFrame sampleInterpreter maxFrameSize false (.bytes encoded) ≠
          .ok (.request (sampleRequest 31 (by decide))) := by
  obtain ⟨maxFrameSize, encoded, sent⟩ := encodeFrame_of
    (f := .request (sampleRequest 31 (by decide))) (by decide +kernel)
  refine ⟨maxFrameSize, encoded, sent, fun decoded => ?_⟩
  rw [decodeFrame_encoded sent] at decoded
  obtain ⟨data, validated, -⟩ := bind_eq_ok.1 decoded
  exact absurd (shallow_sampleRequest_iff.1 (shallow_of_objectPayload validated)) (by decide)

/-- A frame whose type is a list makes the decoder raise a type error. -/
theorem list_type_escapes :
    ∃ maxFrameSize, decodeFrame sampleInterpreter maxFrameSize true
        (.bytes (String.ofList ("\x7b\"type\":[]\x7d".toList ++ ['\n'])).toByteArray) =
      .error .typeError ∧ ¬ Fault.typeError.IsProtocol := by
  have printable : Json.Printable "\x7b\"type\":[]\x7d".toList := by
    unfold Json.Printable
    decide +kernel
  have lined := frameLine_printed (by decide +kernel) printable (Nat.succ_pos _) (Nat.le_succ _)
  have printed : Json.dump .unicode (.obj [("type", .arr [])]) = "\x7b\"type\":[]\x7d".toList := by
    decide +kernel
  have scanned : Json.scan sampleInterpreter.nesting "\x7b\"type\":[]\x7d".toList =
      .ok (.obj [member "type" (.arr [])]) := by
    rw [← printed]
    exact Json.scan_dump rfl (by simp [PyValue.Distinct, PyValue.DistinctMembers,
      PyValue.DistinctItems, member]) (by decide)
  have validated := objectPayload_members ⟨[member "type" (.arr [])], by
    constructor
    · simp [WellFormed, Ordered, WellFormedMembers, WellFormedItems, member]
    · decide⟩
  refine ⟨(String.ofList ("\x7b\"type\":[]\x7d".toList ++ ['\n'])).toByteArray.size.succ, ?_, id⟩
  rw [decodeFrame, lined, ok_bind, loadFrame_eq_ok.2 scanned, ok_bind, validated, ok_bind,
    fromDict_unhashable (.inl ⟨[], rfl⟩)]
  rfl

end Enfold.Laws
