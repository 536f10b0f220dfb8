/-
# Model.Protocol -- frames of the JSON-lines protocol (`protocol.py`)

A frame is a handshake, the answer to one, a request or a response.  The four records hold
what their constructors accept: stripped texts, tokens, distinct capabilities, and payloads
that `validateJson` has rebuilt.  `encodeFrame` prints a frame as one line, `decodeFrame`
reads one from arbitrary bytes or text of a peer.

An error is kept as its class (`Fault`), which is all that decides what the caller does with
it.  The dictionaries of a frame list their members in key order.
-/
import Enfold.Theory.JsonScan
import Enfold.Theory.Regex

namespace Enfold.Model

open Enfold.Theory

set_option autoImplicit false

/-- `^[A-Za-z0-9][-A-Za-z0-9._:/]{0,127}$`. -/
def protocolToken : Regex :=
  .sequence [.one isAsciiAlnum,
    .many (fun c => isAsciiAlnum c || ['.', '_', ':', '/', '-'].contains c) 0 (some 127)]

namespace Protocol

/-- The class of a raised exception. -/
inductive Fault where
  /-- `ProtocolValidationError`. -/
  | validation
  /-- `FrameTooLargeError`. -/
  | frameTooLarge
  /-- `ProtocolVersionMismatch`. -/
  | versionMismatch
  /-- A `ValueError` of the runtime. -/
  | valueError
  /-- A `TypeError` of the runtime. -/
  | typeError
  deriving DecidableEq, Repr

/-- `ProtocolValidationError` and its subclasses. -/
def Fault.IsProtocol : Fault → Prop
  | .validation | .frameTooLarge | .versionMismatch => True
  | _ => False

instance : (fault : Fault) → Decidable fault.IsProtocol
  | .validation | .frameTooLarge | .versionMismatch => isTrue trivial
  | .valueError | .typeError => isFalse id

abbrev Decoding := Except Fault

def invalid {α : Type} : Decoding α := .error .validation

def maxJsonDepth : Nat := 32

/-! ## Texts and tokens -/

def isBlankPoint : CodePoint → Bool
  | .char c => isSpace c
  | .half _ => false

/-- `str.strip()`. -/
def stripText (text : PyText) : PyText := trim isBlankPoint text

/-- A stripped text that is not empty. -/
structure RequiredText where
  text : PyText
  stripped : stripText text = text
  filled : text ≠ []

/-- `_required_string`. -/
def requiredString : PyValue → Decoding RequiredText
  | .str text =>
      if blank : stripText text = [] then invalid
      else .ok ⟨stripText text, trim_trim isBlankPoint text, blank⟩
  | _ => invalid

/-- `_optional_string`. -/
def optionalString : PyValue → Decoding (Option RequiredText)
  | .null => .ok none
  | value => (requiredString value).map some

structure Token where
  text : String
  required : stripText (PyText.ofString text) = PyText.ofString text ∧ PyText.ofString text ≠ []
  shape : protocolToken.fullmatch text = true

/-- `_required_string` of a token. -/
def requiredToken (value : PyValue) : Decoding Token :=
  match requiredString value with
  | .error fault => .error fault
  | .ok required =>
      match named : required.text.toString? with
      | none => invalid
      | some text =>
          if shape : protocolToken.fullmatch text then
            .ok ⟨text, PyText.toString?_eq_some.1 named ▸ ⟨required.stripped, required.filled⟩, shape⟩
          else invalid

/-- `_strict_int`: booleans are no integers here. -/
def strictInt : PyValue → Decoding Nat
  | .int n => if 0 ≤ n then .ok n.toNat else invalid
  | _ => invalid

def boolean : PyValue → Decoding Bool
  | .bool b => .ok b
  | _ => invalid

/-- Distinct tokens. -/
structure Tokens where
  items : List Token
  distinct : (items.map Token.text).Nodup

/-- `_string_tuple`. -/
def stringTuple : PyValue → Decoding Tokens
  | .arr values => do
      let items ← values.mapM requiredToken
      if distinct : (items.map Token.text).Nodup then .ok ⟨items, distinct⟩ else invalid
  | _ => invalid

/-! ## Payloads -/

def codes (text : PyText) : List Nat :=
  text.map fun
    | .char c => c.toNat
    | .half n => 55296 + n

/-- `result[key] = value` in a dictionary listed in key order. -/
def assign : List (PyText × PyValue) → PyText → PyValue → List (PyText × PyValue)
  | [], key, value => [(key, value)]
  | (k, v) :: members, key, value =>
      if codes key < codes k then (key, value) :: (k, v) :: members
      else if codes key = codes k then (key, value) :: members
      else (k, v) :: assign members key value

mutual

/-- `_validate_json`: the value rebuilt, when it is finite and not too deep. -/
def validateJson (depth : Nat) : PyValue → Decoding PyValue
  | .float none => invalid
  | .arr items => do
      require (depth ≤ maxJsonDepth) .validation
      return .arr (← validateItems (depth + 1) items)
  | .obj members => do
      require (depth ≤ maxJsonDepth) .validation
      return .obj (← validateMembers (depth + 1) [] members)
  | value => do
      require (depth ≤ maxJsonDepth) .validation
      return value

def validateItems (depth : Nat) : List PyValue → Decoding (List PyValue)
  | [] => .ok []
  | item :: items => do return (← validateJson depth item) :: (← validateItems depth items)

def validateMembers (depth : Nat) (result : List (PyText × PyValue)) :
    List (PyText × PyValue) → Decoding (List (PyText × PyValue))
  | [] => .ok result
  | (key, item) :: members => do
      let value ← validateJson depth item
      validateMembers depth (assign result key value) members

end

/-- The keys are in strictly increasing order. -/
def Ordered (members : List (PyText × PyValue)) : Prop :=
  (members.map fun m => codes m.1).Pairwise (· < ·)

mutual

/-- The dictionaries of a value list their members in key order, and its floats are finite. -/
def WellFormed : PyValue → Prop
  | .float x => x.isSome
  | .arr items => WellFormedItems items
  | .obj members => Ordered members ∧ WellFormedMembers members
  | _ => True

def WellFormedItems : List PyValue → Prop
  | [] => True
  | item :: items => WellFormed item ∧ WellFormedItems items

def WellFormedMembers : List (PyText × PyValue) → Prop
  | [] => True
  | (_, value) :: members => WellFormed value ∧ WellFormedMembers members

end

/-! ### What is rebuilt is well formed -/

theorem mem_assign {members : List (PyText × PyValue)} {key : PyText} {value : PyValue}
    {m : PyText × PyValue} (mem : m ∈ assign members key value) : m ∈ members ∨ m = (key, value) := by
  induction members with
  | nil => exact .inr (List.mem_singleton.1 mem)
  | cons first members ih =>
      obtain ⟨k, v⟩ := first
      rw [assign] at mem
      split at mem
      · rcases List.mem_cons.1 mem with rfl | mem
        · exact .inr rfl
        · exact .inl mem
      split at mem
      · rcases List.mem_cons.1 mem with rfl | mem
        · exact .inr rfl
        · exact .inl (List.mem_cons_of_mem _ mem)
      · rcases List.mem_cons.1 mem with rfl | mem
        · exact .inl List.mem_cons_self
        · exact (ih mem).imp_left (List.mem_cons_of_mem _)

theorem ordered_assign {members : List (PyText × PyValue)} (ordered : Ordered members) (key : PyText)
    (value : PyValue) : Ordered (assign members key value) := by
  induction members with
  | nil => simp [assign, Ordered]
  | cons first members ih =>
      obtain ⟨k, v⟩ := first
      obtain ⟨above, rest⟩ := List.pairwise_cons.1 ordered
      rw [assign]
      split
      · rename_i less
        refine List.pairwise_cons.2 ⟨fun c mem => ?_, ordered⟩
        rcases List.mem_cons.1 mem with rfl | mem
        · exact less
        · exact lt_trans less (above c mem)
      split
      · rename_i same
        refine List.pairwise_cons.2 ⟨fun c mem => ?_, rest⟩
        calc codes key = codes k := same
          _ < c := above c mem
      · rename_i notLess different
        refine List.pairwise_cons.2 ⟨fun c mem => ?_, ih rest⟩
        obtain ⟨m, here, rfl⟩ := List.mem_map.1 mem
        rcases mem_assign here with old | rfl
        · exact above _ (List.mem_map_of_mem old)
        · exact lt_of_le_of_ne (not_lt.1 notLess) (Ne.symm different)

/-- A larger key is added at the end. -/
theorem assign_append {members : List (PyText × PyValue)} {key : PyText} {value : PyValue}
    (larger : ∀ m ∈ members, codes m.1 < codes key) :
    assign members key value = members ++ [(key, value)] := by
  induction members with
  | nil => rfl
  | cons first members ih =>
      obtain ⟨k, v⟩ := first
      have less := larger (k, v) List.mem_cons_self
      rw [assign, if_neg (lt_asymm less), if_neg (ne_of_gt less),
        ih fun m mem => larger m (List.mem_cons_of_mem _ mem)]
      rfl

theorem wellFormedMembers_iff {members : List (PyText × PyValue)} :
    WellFormedMembers members ↔ ∀ m ∈ members, WellFormed m.2 := by
  induction members with
  | nil => simp [WellFormedMembers]
  | cons first members ih =>
      obtain ⟨k, v⟩ := first
      simp [WellFormedMembers, ih]

theorem heightMembers_le_iff {members : List (PyText × PyValue)} {bound : Nat} :
    PyValue.heightMembers members ≤ bound ↔ ∀ m ∈ members, m.2.height + 1 ≤ bound := by
  induction members with
  | nil => simp [PyValue.heightMembers]
  | cons first members ih =>
      obtain ⟨k, v⟩ := first
      simp [PyValue.heightMembers, ih]

/-- What `validateJson` returns below a depth. -/
def ValidAt (depth : Nat) (value : PyValue) : Prop :=
  WellFormed value ∧ value.height + depth ≤ maxJsonDepth

mutual

theorem validateJson_valid {depth : Nat} {value rebuilt : PyValue}
    (validated : validateJson depth value = .ok rebuilt) : ValidAt depth rebuilt := by
  match value with
  | .float none => cases validated
  | .arr items =>
      rw [validateJson] at validated
      obtain ⟨shallow, validated⟩ := require_bind_eq_ok.1 validated
      obtain ⟨kept, each, validated⟩ := bind_eq_ok.1 validated
      cases pure_eq_ok.1 validated
      obtain ⟨wellFormed, low⟩ := validateItems_valid each
      refine ⟨by rw [WellFormed]; exact wellFormed, ?_⟩
      rw [PyValue.height]
      rcases low with rfl | low
      · simpa [PyValue.heightItems] using shallow
      · omega
  | .obj members =>
      rw [validateJson] at validated
      obtain ⟨shallow, validated⟩ := require_bind_eq_ok.1 validated
      obtain ⟨kept, each, validated⟩ := bind_eq_ok.1 validated
      cases pure_eq_ok.1 validated
      obtain ⟨ordered, each⟩ := validateMembers_valid each List.Pairwise.nil (by simp)
      refine ⟨by rw [WellFormed]; exact ⟨ordered, wellFormedMembers_iff.2 fun m mem => (each m mem).1⟩, ?_⟩
      have low : PyValue.heightMembers kept ≤ maxJsonDepth - depth := by
        refine heightMembers_le_iff.2 fun m mem => ?_
        have := (each m mem).2
        omega
      rw [PyValue.height]
      omega
  | .null | .bool _ | .int _ | .str _ | .float (some _) =>
      simp only [validateJson] at validated
      obtain ⟨shallow, validated⟩ := require_bind_eq_ok.1 validated
      cases pure_eq_ok.1 validated
      exact ⟨by simp [WellFormed], by simpa [PyValue.height] using shallow⟩
termination_by sizeOf value

theorem validateItems_valid {depth : Nat} {items kept : List PyValue}
    (validated : validateItems depth items = .ok kept) :
    WellFormedItems kept ∧
      (kept = [] ∨ PyValue.heightItems kept + depth ≤ maxJsonDepth + 1) := by
  match items with
  | [] =>
      cases validated
      exact ⟨by simp [WellFormedItems], .inl rfl⟩
  | item :: items =>
      obtain ⟨first, here, validated⟩ := bind_eq_ok.1 validated
      obtain ⟨others, there, validated⟩ := bind_eq_ok.1 validated
      cases pure_eq_ok.1 validated
      obtain ⟨wellFormed, low⟩ := validateJson_valid here
      obtain ⟨wellFormed', low'⟩ := validateItems_valid there
      refine ⟨by rw [WellFormedItems]; exact ⟨wellFormed, wellFormed'⟩, .inr ?_⟩
      rw [PyValue.heightItems]
      rcases low' with rfl | low'
      · simp only [PyValue.heightItems]
        omega
      · omega
termination_by sizeOf items

theorem validateMembers_valid {depth : Nat} {result members kept : List (PyText × PyValue)}
    (validated : validateMembers depth result members = .ok kept) (ordered : Ordered result)
    (each : ∀ m ∈ result, ValidAt depth m.2) : Ordered kept ∧ ∀ m ∈ kept, ValidAt depth m.2 := by
  match members with
  | [] =>
      cases validated
      exact ⟨ordered, each⟩
  | (key, item) :: members =>
      obtain ⟨value, here, validated⟩ := bind_eq_ok.1 validated
      refine validateMembers_valid validated (ordered_assign ordered key value) fun m mem => ?_
      rcases mem_assign mem with old | rfl
      · exact each m old
      · exact validateJson_valid here
termination_by sizeOf members

end

/-! ## Records -/

/-- A payload as `validateJson` leaves it. -/
structure Payload where
  value : PyValue
  valid : ValidAt 0 value

def payload (value : PyValue) : Decoding Payload :=
  match validated : validateJson 0 value with
  | .ok rebuilt => .ok ⟨rebuilt, validateJson_valid validated⟩
  | .error fault => .error fault

/-- A payload that is a dictionary. -/
structure ObjectPayload where
  members : List (PyText × PyValue)
  valid : ValidAt 0 (.obj members)

/-- `_mapping` of a validated payload. -/
def objectPayload (value : PyValue) : Decoding ObjectPayload :=
  match payload value with
  | .ok ⟨.obj members, valid⟩ => .ok ⟨members, valid⟩
  | .ok _ => invalid
  | .error fault => .error fault

structure ProtocolVersion where
  major : Nat
  minor : Nat
  deriving DecidableEq

/-- `protocol.ClientContext` as the wire carries it. -/
structure ClientContext where
  clientId : Token
  surface : Token
  agentId : Token
  sessionId : Token
  parentAgentId : Option RequiredText
  projectRoot : Option RequiredText
  repository : Option RequiredText
  branch : Option RequiredText
  commitSha : Option RequiredText
  accessScopes : Tokens
  scopesFilled : accessScopes.items ≠ []

structure ProtocolError where
  code : Token
  message : RequiredText
  retryable : Bool
  details : ObjectPayload

structure Handshake where
  context : ClientContext
  capabilities : Tokens
  protocol : ProtocolVersion
  schemaVersion : Nat

/-- An accepted handshake has no error, a refused one has. -/
structure HandshakeResponse where
  accepted : Bool
  capabilities : Tokens
  serviceVersion : RequiredText
  error : Option ProtocolError
  protocol : ProtocolVersion
  schemaVersion : Nat
  consistent : accepted = error.isNone

/-- `METHOD_CAPABILITIES`. -/
def methodCapabilities : List (String × String) :=
  [("health", "health"), ("memory.write", "memory.write"), ("memory.search", "memory.search"),
    ("memory.context", "memory.context"), ("memory.evidence", "memory.evidence"),
    ("memory.history", "memory.history"), ("memory.changes", "memory.search"),
    ("memory.timeline", "memory.search"), ("memory.entities", "memory.search"),
    ("memory.entity", "memory.search"), ("memory.conflicts", "memory.conflicts"),
    ("memory.resolve_conflict", "memory.resolve_conflict"),
    ("memory.extraction.enqueue", "memory.extraction.enqueue")]

/-- `IMMUTABLE_CONTEXT_FIELDS`. -/
def immutableFields : List String :=
  ["access_scopes", "agent_id", "branch", "client_id", "commit_sha", "parent_agent_id",
    "project_root", "repository", "session_id", "surface"]

/-- The parameters restate no field of the connection. -/
def Unspoofed (members : List (PyText × PyValue)) : Prop :=
  ∀ name ∈ immutableFields, PyText.ofString name ∉ members.map Prod.fst

instance (members : List (PyText × PyValue)) : Decidable (Unspoofed members) :=
  inferInstanceAs (Decidable (∀ name ∈ immutableFields, _))

structure Request where
  requestId : Token
  method : Token
  params : ObjectPayload
  protocol : ProtocolVersion
  schemaVersion : Nat
  supported : method.text ∈ methodCapabilities.map Prod.fst
  unspoofed : Unspoofed params.members

/-- A successful response has no error; a failed one has, and no result. -/
structure Response where
  requestId : Token
  ok : Bool
  result : Payload
  error : Option ProtocolError
  protocol : ProtocolVersion
  schemaVersion : Nat
  consistent : ok = error.isNone
  failed : ok = false → result.value = .null

inductive Frame where
  | handshake (frame : Handshake)
  | handshakeResponse (frame : HandshakeResponse)
  | request (frame : Request)
  | response (frame : Response)

/-! ## Dictionaries -/

def textValue (s : String) : PyValue := .str (PyText.ofString s)

def member (name : String) (value : PyValue) : PyText × PyValue := (PyText.ofString name, value)

namespace Token

def toValue (token : Token) : PyValue := textValue token.text

end Token

def Tokens.toValue (tokens : Tokens) : PyValue := .arr (tokens.items.map Token.toValue)

def RequiredText.toValue (required : RequiredText) : PyValue := .str required.text

/-- An optional record: `None` is `null`. -/
def optionalValue {α : Type} (toValue : α → PyValue) : Option α → PyValue
  | none => .null
  | some a => toValue a

def ProtocolVersion.toDict (version : ProtocolVersion) : PyValue :=
  .obj [member "major" (.int version.major), member "minor" (.int version.minor)]

def ClientContext.toDict (context : ClientContext) : PyValue :=
  .obj
    [member "access_scopes" context.accessScopes.toValue, member "agent_id" context.agentId.toValue,
      member "branch" (optionalValue RequiredText.toValue context.branch),
      member "client_id" context.clientId.toValue,
      member "commit_sha" (optionalValue RequiredText.toValue context.commitSha),
      member "parent_agent_id" (optionalValue RequiredText.toValue context.parentAgentId),
      member "project_root" (optionalValue RequiredText.toValue context.projectRoot),
      member "repository" (optionalValue RequiredText.toValue context.repository),
      member "session_id" context.sessionId.toValue, member "surface" context.surface.toValue]

def ProtocolError.toDict (error : ProtocolError) : PyValue :=
  .obj
    [member "code" error.code.toValue, member "details" (.obj error.details.members),
      member "message" error.message.toValue, member "retryable" (.bool error.retryable)]

namespace Frame

def toDict : Frame → PyValue
  | .handshake frame => .obj
      [member "capabilities" frame.capabilities.toValue, member "context" frame.context.toDict,
        member "protocol" frame.protocol.toDict, member "schema_version" (.int frame.schemaVersion),
        member "type" (textValue "handshake")]
  | .handshakeResponse frame => .obj
      [member "accepted" (.bool frame.accepted), member "capabilities" frame.capabilities.toValue,
        member "error" (optionalValue ProtocolError.toDict frame.error),
        member "protocol" frame.protocol.toDict, member "schema_version" (.int frame.schemaVersion),
        member "service_version" frame.serviceVersion.toValue,
        member "type" (textValue "handshake_response")]
  | .request frame => .obj
      [member "method" frame.method.toValue, member "params" (.obj frame.params.members),
        member "protocol" frame.protocol.toDict, member "request_id" frame.requestId.toValue,
        member "schema_version" (.int frame.schemaVersion), member "type" (textValue "request")]
  | .response frame => .obj
      [member "error" (optionalValue ProtocolError.toDict frame.error), member "ok" (.bool frame.ok),
        member "protocol" frame.protocol.toDict, member "request_id" frame.requestId.toValue,
        member "result" frame.result.value, member "schema_version" (.int frame.schemaVersion),
        member "type" (textValue "response")]

end Frame

/-! ## Reading dictionaries -/

/-- `_check_keys`. -/
def checkFields (data : PyValue) (required optional : List String) : Decoding Unit :=
  match data with
  | .obj members =>
      require ((∀ name ∈ required, PyText.ofString name ∈ members.map Prod.fst) ∧
        ∀ key ∈ members.map Prod.fst, ∃ name ∈ required ++ optional, key = PyText.ofString name)
        .validation
  | _ => invalid

/-- `data.get(name)`; a required field is there after the check of the keys. -/
def entry (name : String) (data : PyValue) : PyValue := (data.get? name).getD .null

def ProtocolVersion.fromDict (data : PyValue) : Decoding ProtocolVersion := do
  checkFields data ["major", "minor"] []
  let major ← strictInt (entry "major" data)
  let minor ← strictInt (entry "minor" data)
  return ⟨major, minor⟩

/-- A tuple of scopes, which is not empty. -/
def scopeTuple (value : PyValue) : Decoding {tokens : Tokens // tokens.items ≠ []} := do
  let tokens ← stringTuple value
  if filled : tokens.items ≠ [] then .ok ⟨tokens, filled⟩ else invalid

def ClientContext.fromDict (data : PyValue) : Decoding ClientContext := do
  checkFields data ["client_id", "surface", "agent_id", "session_id", "access_scopes"]
    ["parent_agent_id", "project_root", "repository", "branch", "commit_sha"]
  let ⟨accessScopes, scopesFilled⟩ ← scopeTuple (entry "access_scopes" data)
  let clientId ← requiredToken (entry "client_id" data)
  let surface ← requiredToken (entry "surface" data)
  let agentId ← requiredToken (entry "agent_id" data)
  let sessionId ← requiredToken (entry "session_id" data)
  let parentAgentId ← optionalString (entry "parent_agent_id" data)
  let projectRoot ← optionalString (entry "project_root" data)
  let repository ← optionalString (entry "repository" data)
  let branch ← optionalString (entry "branch" data)
  let commitSha ← optionalString (entry "commit_sha" data)
  return { clientId, surface, agentId, sessionId, parentAgentId, projectRoot, repository, branch,
           commitSha, accessScopes, scopesFilled }

def ProtocolError.fromDict (data : PyValue) : Decoding ProtocolError := do
  checkFields data ["code", "message", "retryable", "details"] []
  let code ← requiredToken (entry "code" data)
  let message ← requiredString (entry "message" data)
  let retryable ← boolean (entry "retryable" data)
  let details ← objectPayload (entry "details" data)
  return { code, message, retryable, details }

/-- `None`, or the error of a response. -/
def optionalError : PyValue → Decoding (Option ProtocolError)
  | .null => .ok none
  | value => (ProtocolError.fromDict value).map some

def Handshake.fromDict (data : PyValue) : Decoding Handshake := do
  checkFields data ["type", "protocol", "schema_version", "capabilities", "context"] []
  let context ← ClientContext.fromDict (entry "context" data)
  let capabilities ← stringTuple (entry "capabilities" data)
  let protocol ← ProtocolVersion.fromDict (entry "protocol" data)
  let schemaVersion ← strictInt (entry "schema_version" data)
  return { context, capabilities, protocol, schemaVersion }

def HandshakeResponse.fromDict (data : PyValue) : Decoding HandshakeResponse := do
  checkFields data ["type", "protocol", "schema_version", "capabilities", "service_version",
    "accepted", "error"] []
  let error ← optionalError (entry "error" data)
  let capabilities ← stringTuple (entry "capabilities" data)
  let protocol ← ProtocolVersion.fromDict (entry "protocol" data)
  let schemaVersion ← strictInt (entry "schema_version" data)
  let accepted ← boolean (entry "accepted" data)
  let serviceVersion ← requiredString (entry "service_version" data)
  if consistent : accepted = error.isNone then
    .ok { accepted, capabilities, serviceVersion, error, protocol, schemaVersion, consistent }
  else invalid

def Request.fromDict (data : PyValue) : Decoding Request := do
  checkFields data ["type", "protocol", "schema_version", "request_id", "method", "params"] []
  let protocol ← ProtocolVersion.fromDict (entry "protocol" data)
  let schemaVersion ← strictInt (entry "schema_version" data)
  let requestId ← requiredToken (entry "request_id" data)
  let method ← requiredToken (entry "method" data)
  let params ← objectPayload (entry "params" data)
  if supported : method.text ∈ methodCapabilities.map Prod.fst then
    if unspoofed : Unspoofed params.members then
      .ok { requestId, method, params, protocol, schemaVersion, supported, unspoofed }
    else invalid
  else invalid

def isNull : PyValue → Bool
  | .null => true
  | _ => false

theorem eq_null {value : PyValue} (null : isNull value = true) : value = .null := by
  cases value <;> first | rfl | cases null

def Response.fromDict (data : PyValue) : Decoding Response := do
  checkFields data ["type", "protocol", "schema_version", "request_id", "ok", "result", "error"] []
  let error ← optionalError (entry "error" data)
  let protocol ← ProtocolVersion.fromDict (entry "protocol" data)
  let schemaVersion ← strictInt (entry "schema_version" data)
  let requestId ← requiredToken (entry "request_id" data)
  let ok ← boolean (entry "ok" data)
  let result ← payload (entry "result" data)
  if consistent : ok = error.isNone then
    if failed : ok = false → isNull result.value = true then
      .ok { requestId, ok, result, error, protocol, schemaVersion, consistent,
            failed := fun refused => eq_null (failed refused) }
    else invalid
  else invalid

/-- The factory of a frame type; a list or an object has no hash. -/
def Frame.fromDict (data : PyValue) : Decoding Frame :=
  match data.get? "type" with
  | some (.arr _) | some (.obj _) => .error .typeError
  | some (.str name) =>
      if name = PyText.ofString "handshake" then (Handshake.fromDict data).map .handshake
      else if name = PyText.ofString "handshake_response" then
        (HandshakeResponse.fromDict data).map .handshakeResponse
      else if name = PyText.ofString "request" then (Request.fromDict data).map .request
      else if name = PyText.ofString "response" then (Response.fromDict data).map .response
      else invalid
  | _ => invalid

namespace Frame

def protocol : Frame → ProtocolVersion
  | .handshake frame => frame.protocol
  | .handshakeResponse frame => frame.protocol
  | .request frame => frame.protocol
  | .response frame => frame.protocol

end Frame

/-! ## The codec -/

/-- What the interpreter allows the JSON scanner: how many containers may be open at once. -/
structure Interpreter where
  nesting : Nat
  roomy : 64 ≤ nesting

/-- The argument of `decode_frame`. -/
inductive FrameInput where
  | bytes (raw : ByteArray)
  | text (text : PyText)

/-- `encode_frame`. -/
def encodeFrame (maxFrameSize : Nat) (frame : Frame) : Decoding ByteArray := do
  require (0 < maxFrameSize) .validation
  match frame.toDict.toJson? with
  | none => invalid
  | some document =>
      let encoded := (String.ofList (Json.dump .unicode document ++ ['\n'])).toByteArray
      require (encoded.size ≤ maxFrameSize) .frameTooLarge
      return encoded

/-- The bytes of the input; a text with surrogates has none. -/
def FrameInput.raw : FrameInput → Decoding ByteArray
  | .bytes raw => .ok raw
  | .text given =>
      match given.characters with
      | some characters => .ok (String.ofList characters).toByteArray
      | none => invalid

def utf8Decode (raw : ByteArray) : Decoding (List Char) :=
  match raw.utf8Decode? with
  | some characters => .ok characters.toList
  | none => invalid

/-- The line without its end. -/
def dropLineEnd (line : List Char) : List Char :=
  if ['\r', '\n'].isSuffixOf line then line.dropLast.dropLast
  else if ['\n'].isSuffixOf line then line.dropLast
  else line

/-- `json.loads` with the hooks of the decoder; only decoding and recursion errors are
caught. -/
def loadFrame (interpreter : Interpreter) (line : List Char) : Decoding PyValue :=
  match Json.scan interpreter.nesting line with
  | .ok value => .ok value
  | .error .longInteger => .error .valueError
  | .error _ => invalid

/-- The line of the input, without its end, when there is exactly one of the right size. -/
def frameLine (maxFrameSize : Nat) (input : FrameInput) : Decoding (List Char) := do
  require (0 < maxFrameSize) .validation
  let raw ← input.raw
  require (raw.size ≤ maxFrameSize) .frameTooLarge
  let line := dropLineEnd (← utf8Decode raw)
  require (line ≠ [] ∧ '\n' ∉ line ∧ '\r' ∉ line) .validation
  return line

/-- `decode_frame`. -/
def decodeFrame (interpreter : Interpreter) (maxFrameSize : Nat) (refuseMajorMismatch : Bool)
    (input : FrameInput) : Decoding Frame := do
  let line ← frameLine maxFrameSize input
  let data ← loadFrame interpreter line
  let data ← objectPayload data
  let frame ← Frame.fromDict (.obj data.members)
  require (refuseMajorMismatch = true → frame.protocol.major = 1) .versionMismatch
  return frame

end Protocol

end Enfold.Model
