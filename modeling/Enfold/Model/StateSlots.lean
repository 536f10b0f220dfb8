/-
# Model.StateSlots -- typed state and durable conflicts (`state_slots.py`)

A state slot is a scope, a subject and a predicate.  `decideStateWrite` compares a
candidate with the current facts of its slot and chooses an action without touching the
store; `openStateConflict`, `addConflictMember` and `resolveStateConflict` are the
mutations of the conflict tables.  None of them commits.
-/
import Enfold.Model.Schema
import Enfold.Theory.CaseFold
import Enfold.Theory.IsoTime
import Enfold.Theory.NumericColumn

namespace Enfold.Model

open Enfold.Theory

set_option autoImplicit false

/-! ## Timestamps -/

/-- `candidate[:-1] + "+00:00"` when the text ends in `Z`. -/
def expandZulu (text : String) : List Char :=
  if text.toList.getLast? = some 'Z' then text.toList.dropLast ++ "+00:00".toList
  else text.toList

/-- `_parse_timestamp`: the instant in UTC, or nothing for an absent or blank text. -/
def parseTimestamp (value : Option String) : Py (Option Int) :=
  match value with
  | none => .ok none
  | some text =>
      if strip text = "" then .ok none
      else
        match IsoTime.fromIsoformat (expandZulu (strip text)) with
        | none => .error (valueError ("invalid ISO timestamp: " ++ text))
        | some timestamp =>
            match timestamp.utc with
            | none => .error ⟨.overflowError, "date value out of range"⟩
            | some instant => .ok (some instant)

def Parses (value : Option String) : Prop := ∃ instant, parseTimestamp value = .ok instant

/-- `_parse_timestamp` of a `valid_from` read back: a number has no `strip`. -/
def storedTimestamp (value : Option String) : Py (Option Int) :=
  match value.map NumericColumn.stored with
  | some (.integer _) => .error ⟨.foreign, "'int' object has no attribute 'strip'"⟩
  | some (.real _) => .error ⟨.foreign, "'float' object has no attribute 'strip'"⟩
  | _ => parseTimestamp value

theorem storedTimestamp_eq_ok {value : Option String} {instant : Option Int}
    (read : storedTimestamp value = .ok instant) : parseTimestamp value = .ok instant := by
  unfold storedTimestamp at read
  split at read
  · cases read
  · cases read
  · exact read

/-! ## Slot keys -/

def keyStart (c : Char) : Bool := isAsciiLower c || isAsciiDigit c

/-- `^[a-z0-9][-a-z0-9._:/]{0,127}$`. -/
def subjectKey : Regex :=
  .sequence [.one keyStart,
    .many (fun c => keyStart c || ['.', '_', ':', '/', '-'].contains c) 0 (some 127)]

/-- `^[a-z0-9][a-z0-9._-]{0,63}$`. -/
def predicateKey : Regex :=
  .sequence [.one keyStart, .many (fun c => keyStart c || ['.', '_', '-'].contains c) 0 (some 63)]

/-- `re.sub(r"[…]+", "_", text)` for a class of separators; `inside` tells that the character
before was one. -/
def underscored (separator : Char → Bool) : Bool → List Char → List Char
  | _, [] => []
  | inside, c :: cs =>
      if separator c then
        if inside then underscored separator true cs else '_' :: underscored separator true cs
      else c :: underscored separator false cs

/-- A key of a slot as a model gave it, stripped and folded, with underscores for its
separators. -/
def normalizeKey (pattern : Regex) (separator : Char → Bool) (name : String) (value : Json) :
    Py String :=
  match value with
  | .str text =>
      let normalized := String.ofList (underscored separator false (casefold (strip text)).toList)
      if pattern.fullmatch normalized then .ok normalized
      else .error (valueError (name ++ " is not a canonical slot key"))
  | _ => .error (valueError (name ++ " must be text"))

def normalizeSubjectKey : Json → Py String := normalizeKey subjectKey isSpace "subject_key"

def normalizePredicateKey : Json → Py String :=
  normalizeKey predicateKey (fun c => isSpace c || c == '-') "predicate_key"

/-! ## Candidates and decisions -/

structure StateCandidate where
  content : String
  subjectKey : String
  predicateKey : String
  objectValue : Option String
  sourceAuthority : Decimal
  validFrom : Option String
  memoryKind : String
  scope : String
  contentValid : Required content
  scopeValid : Required scope
  subjectValid : Required subjectKey
  predicateValid : Required predicateKey
  kindValid : Required memoryKind
  authorityUnit : InUnit sourceAuthority
  validFromParses : Parses validFrom

namespace StateCandidate

/-- `replace(candidate, valid_from=…)`, which checks the new timestamp. -/
def withValidFrom (candidate : StateCandidate) (validFrom : Option String) : Py StateCandidate :=
  match parsed : parseTimestamp validFrom with
  | .ok instant => .ok { candidate with validFrom, validFromParses := ⟨instant, parsed⟩ }
  | .error e => .error e

/-- The constructor. -/
def make (content subjectKey predicateKey : String) (objectValue : Option String)
    (sourceAuthority : Decimal) (validFrom : Option String) (memoryKind scope : String) :
    Py StateCandidate := do
  let ⟨content, contentValid⟩ ← required content "content"
  let ⟨scope, scopeValid⟩ ← required scope "scope"
  let ⟨subjectKey, subjectValid⟩ ← required subjectKey "subject_key"
  let ⟨predicateKey, predicateValid⟩ ← required predicateKey "predicate_key"
  let ⟨memoryKind, kindValid⟩ ← required memoryKind "memory_kind"
  let ⟨authorityUnit⟩ ← checked (InUnit sourceAuthority)
    (valueError "source_authority must be between 0 and 1")
  let untimed : StateCandidate :=
    { content, subjectKey, predicateKey, objectValue, sourceAuthority, memoryKind, scope,
      contentValid, scopeValid, subjectValid, predicateValid, kindValid, authorityUnit
      validFrom := none
      validFromParses := ⟨none, rfl⟩ }
  untimed.withValidFrom validFrom

def slot (candidate : StateCandidate) : Slot :=
  ⟨candidate.scope, candidate.subjectKey, candidate.predicateKey⟩

end StateCandidate

structure CurrentStateFact where
  factId : Nat
  content : String
  subjectKey : Option String
  predicateKey : Option String
  scope : String
  objectValue : Option String
  sourceAuthority : Decimal
  validFrom : Option String
  conflictGroup : Option String
  deriving DecidableEq

inductive DecisionAction where
  | add
  | dedup
  | supersede
  | conflict
  deriving DecidableEq, Repr

structure SlotDecision where
  action : DecisionAction
  scope : String
  subjectKey : String
  predicateKey : String
  currentFactIds : List Nat
  targetFactId : Option Nat
  reason : String

structure ConflictRecord where
  conflictId : String
  scope : String
  subjectKey : String
  predicateKey : String
  memberFactIds : List Nat
  detectedAt : String

structure ConflictResolution where
  conflictId : String
  resolutionFactId : Nat
  supersededFactIds : List Nat
  resolvedBy : String
  reason : String
  resolvedAt : String
  deriving DecidableEq

def stateSlotInvariantError (message : String) : Raised := ⟨.stateSlotInvariantError, message⟩

/-! ## Reading a slot -/

/-- `ORDER BY fact_id`. -/
def orderById (rows : List FactRow) : List FactRow :=
  rows.insertionSort fun r r' => r.factId ≤ r'.factId

@[simp] theorem mem_orderById {rows : List FactRow} {r : FactRow} :
    r ∈ orderById rows ↔ r ∈ rows :=
  (List.perm_insertionSort _ rows).mem_iff

/-- A conflict group that counts as set. -/
def grouped (group : Option String) : Bool := group.any (· ≠ "")

def CurrentStateFact.ofRow (r : FactRow) : CurrentStateFact :=
  { factId := r.factId, content := r.content, subjectKey := r.subjectKey,
    predicateKey := r.predicateKey, scope := r.scope, objectValue := r.objectValue,
    sourceAuthority := r.sourceAuthority.getD Decimal.half, validFrom := r.validFrom,
    conflictGroup := r.conflictGroup }

/-- The current rows of a slot, by id. -/
def currentRows (facts : Facts) (k : Slot) : List FactRow :=
  orderById (facts.table.select fun r => r.InSlot k ∧ r.Current)

theorem mem_currentRows {facts : Facts} {k : Slot} {r : FactRow} :
    r ∈ currentRows facts k ↔ r ∈ facts ∧ r.InSlot k ∧ r.Current := by
  simp [currentRows, Facts.mem_table]

theorem currentRows_nodup (facts : Facts) (k : Slot) : (currentRows facts k).Nodup :=
  (List.perm_insertionSort _ _).nodup_iff.2 (facts.table.nodup_select _)

def currentStateFacts (s : Store) (subjectKey predicateKey scope : String) :
    Py (List CurrentStateFact) := do
  let subjectKey ← required subjectKey "subject_key"
  let predicateKey ← required predicateKey "predicate_key"
  let scope ← required scope "scope"
  return (currentRows s.facts ⟨scope, subjectKey, predicateKey⟩).map .ofRow

def readCurrentState (s : Store) (subjectKey predicateKey scope : String) :
    Py (Option CurrentStateFact) := do
  let facts ← currentStateFacts s subjectKey predicateKey scope
  if facts = [] ∨ facts.any (grouped ·.conflictGroup) then return none
  else
    match facts with
    | [fact] => return some fact
    | _ =>
        throw (stateSlotInvariantError
          "strict state slot has multiple non-conflicted current facts")

/-! ## Deciding -/

/-- The fact repeats the candidate's content or its structured value. -/
def Repeats (candidate : StateCandidate) (fact : CurrentStateFact) : Prop :=
  fact.content = candidate.content ∨
    candidate.objectValue ≠ none ∧ fact.objectValue = candidate.objectValue

instance (candidate : StateCandidate) (fact : CurrentStateFact) :
    Decidable (Repeats candidate fact) :=
  inferInstanceAs (Decidable (_ ∨ _ ∧ _))

/-- The candidate is not demonstrably older than the existing fact. -/
def notOlder (candidateTime existingTime : Option Int) : Bool :=
  match existingTime, candidateTime with
  | none, _ => true
  | some existing, some candidate => existing ≤ candidate
  | some _, none => false

def fresher (candidateTime existingTime : Option Int) : Bool :=
  match candidateTime, existingTime with
  | none, _ => false
  | some _, none => true
  | some candidate, some existing => existing < candidate

/-- A decision about the candidate's slot. -/
def SlotDecision.about (candidate : StateCandidate) (action : DecisionAction) (ids : List Nat)
    (target : Option Nat) (reason : String) : SlotDecision :=
  ⟨action, candidate.scope, candidate.subjectKey, candidate.predicateKey, ids, target, reason⟩

/-- The decision against one existing fact that says something else. -/
def decideAgainst (candidate : StateCandidate) (existing : CurrentStateFact) : Py SlotDecision := do
  let candidateTime ← parseTimestamp candidate.validFrom
  let existingTime ← storedTimestamp existing.validFrom
  if existing.sourceAuthority.value < candidate.sourceAuthority.value ∧
      notOlder candidateTime existingTime then
    return .about candidate .supersede [existing.factId] (some existing.factId)
      "higher authority and not older"
  else if candidate.sourceAuthority.value = existing.sourceAuthority.value ∧
      fresher candidateTime existingTime then
    return .about candidate .supersede [existing.factId] (some existing.factId)
      "same authority with newer validity time"
  else
    return .about candidate .conflict [existing.factId] none
      "authority and freshness do not establish a clear winner"

/-- The decision against the current facts of the slot. -/
def decideAmong (candidate : StateCandidate) (current : List CurrentStateFact) : Py SlotDecision :=
  match current with
  | [] => .ok (.about candidate .add [] none "slot has no current value")
  | existing :: others =>
      let matching := current.find? fun fact => Repeats candidate fact
      -- an unresolved conflict is the truth of the slot, even for a repeated value
      if others ≠ [] ∨ current.any (grouped ·.conflictGroup) then
        .ok (.about candidate .conflict (current.map (·.factId)) (matching.map (·.factId))
          "slot already has an unresolved conflict")
      else
        match matching with
        | some fact =>
            .ok (.about candidate .dedup (current.map (·.factId)) (some fact.factId)
              "identical current content or structured value")
        | none => decideAgainst candidate existing

def decideStateWrite (s : Store) (candidate : StateCandidate) : Py SlotDecision := do
  if candidate.memoryKind ≠ "state" then
    return .about candidate .add [] none "non-state memories coexist"
  else
    let current ← currentStateFacts s candidate.subjectKey candidate.predicateKey candidate.scope
    decideAmong candidate current

/-! ## Conflicts -/

/-- `INSERT INTO fact_conflict_members`. -/
def insertMember (s : Store) (conflictId : String) (factId : Nat) : Py Store := do
  require (s.conflicts.get? conflictId ≠ none ∧ s.facts.get? factId ≠ none) SQLite.foreignKey
  let conflictMembers ← insertRow s.conflictMembers ⟨conflictId, factId⟩
    "fact_conflict_members.conflict_id, fact_conflict_members.fact_id"
  return { s with conflictMembers }

/-- `UPDATE facts SET … WHERE p`, on the store. -/
def updateFacts (s : Store) (p : FactRow → Prop) [DecidablePred p] (f : FactRow → FactRow)
    (keeps : ∀ r, (f r).factId = r.factId := by intro; rfl) : Py Store := do
  let facts ← s.facts.update p f keeps
  return { s with facts }

def openStateConflict (s : Store) (conflictId : Uuid) (subjectKey predicateKey : String)
    (existingFactIds : List Nat) (scope : String) (detectedAt : String) (detailJson : Json) :
    Py (Store × ConflictRecord) := do
  let subjectKey ← required subjectKey "subject_key"
  let predicateKey ← required predicateKey "predicate_key"
  let scope ← required scope "scope"
  require (existingFactIds ≠ []) (valueError "a conflict requires at least one existing fact")
  require existingFactIds.Nodup (valueError "conflict member ids must be unique")
  let detailJson ← canonicalJsonObject (some detailJson) "detail_json"
  let _ ← parseTimestamp (some detectedAt)
  let k : Slot := ⟨scope, subjectKey, predicateKey⟩
  let found := (s.facts.table.select fun r =>
    r.factId ∈ existingFactIds ∧ r.Indexed k).map FactRow.factId
  require ((∀ id ∈ found, id ∈ existingFactIds) ∧ ∀ id ∈ existingFactIds, id ∈ found)
    (stateSlotInvariantError "every conflict member must be an active state fact in the exact slot")
  let conflicts ← insertRow s.conflicts
    { conflictId := conflictId.text, scope, subjectKey, predicateKey, detectedAt,
      resolvedAt := none, resolutionFactId := none, resolvedBy := none, resolutionReason := none,
      detailJson }
    "fact_conflicts.conflict_id"
  let s := { s with conflicts }
  let s ← updateFacts s (fun r => r.factId ∈ existingFactIds)
    fun r => { r with conflictGroup := some conflictId.text }
  let s ← existingFactIds.foldlM (fun s id => insertMember s conflictId.text id) s
  return (s, ⟨conflictId.text, scope, subjectKey, predicateKey, existingFactIds, detectedAt⟩)

def addConflictMember (s : Store) (conflictId : String) (factId : Nat) : Py Store := do
  match s.conflicts.get? conflictId with
  | none => throw (valueError "conflict does not exist or is already resolved")
  | some conflict =>
      require conflict.Unresolved (valueError "conflict does not exist or is already resolved")
      match s.facts.get? factId with
      | none =>
          throw (stateSlotInvariantError
            "new conflict member must be a state fact in the exact slot and group")
      | some fact =>
          require (fact.InSlot conflict.slot ∧ fact.conflictGroup = some conflictId)
            (stateSlotInvariantError
              "new conflict member must be a state fact in the exact slot and group")
          require fact.Current (stateSlotInvariantError "new conflict member must be current")
          insertMember s conflictId factId

/-- The members of a conflict, by id. -/
def conflictMemberIds (s : Store) (conflictId : String) : List Nat :=
  ((s.conflictMembers.select fun m => m.conflictId = conflictId).map
    MemberRow.factId).insertionSort (· ≤ ·)

/-- The audit row of a resolution, when the resolver is given. -/
def recordResolution (s : Store) (conflictId : String) (resolutionFactId : Nat)
    (resolverClientId resolverSessionId resolverAgentId : Option String)
    (reason resolvedAt : String) : Py Store := do
  if resolverClientId = none ∧ resolverSessionId = none ∧ resolverAgentId = none then return s
  else
    let resolverClientId ← required (resolverClientId.getD "") "resolver_client_id"
    let resolverSessionId ← required (resolverSessionId.getD "") "resolver_session_id"
    let resolverAgentId ← required (resolverAgentId.getD "") "resolver_agent_id"
    require (s.conflicts.get? conflictId ≠ none ∧ s.facts.get? resolutionFactId ≠ none ∧
      s.sessions.get? (resolverClientId.val, resolverSessionId.val) ≠ none) SQLite.foreignKey
    let conflictResolutions ← insertRow s.conflictResolutions
      ⟨conflictId, resolutionFactId, resolverClientId, resolverSessionId, resolverAgentId, reason,
        resolvedAt⟩
      "fact_conflict_resolutions.conflict_id"
    return { s with conflictResolutions }

theorem superseding_keeps (invalidAt : String) (winner : Nat) (r : FactRow) :
    ({ r with invalidAt := some invalidAt, supersededBy := some winner } : FactRow).factId =
      r.factId := rfl

theorem ungrouping_keeps (r : FactRow) :
    ({ r with conflictGroup := none } : FactRow).factId = r.factId := rfl

/-- `UPDATE facts SET invalid_at, superseded_by` for the members that lost. -/
def supersedeLosers (s : Store) (conflictId : String) (losers : List Nat) (winner : Nat)
    (resolvedAt : String) : Py Store := do
  if losers = [] then return s
  else
    let lost := fun r : FactRow =>
      r.factId ∈ losers ∧ r.conflictGroup = some conflictId ∧ r.invalidAt = none
    let updated ← updateFacts s lost
      fun r => { r with invalidAt := some resolvedAt, supersededBy := some winner }
    require (s.facts.table.rowcount lost = losers.length)
      (stateSlotInvariantError "not all losing conflict members are current")
    return updated

/-- `UPDATE facts SET conflict_group = NULL` for the member that won. -/
def releaseWinner (s : Store) (conflictId : String) (winner : Nat) : Py Store := do
  let won := fun r : FactRow =>
    r.factId = winner ∧ r.conflictGroup = some conflictId ∧ r.Current
  let updated ← updateFacts s won fun r => { r with conflictGroup := none }
  require (s.facts.table.rowcount won = 1)
    (stateSlotInvariantError "resolution fact is not a current member")
  return updated

/-- `now` is the clock's answer when no time is given. -/
def resolveStateConflict (s : Store) (now : String) (conflictId : String) (resolutionFactId : Nat)
    (resolvedBy reason : String) (resolvedAt : Option String)
    (resolverClientId resolverSessionId resolverAgentId : Option String) :
    Py (Store × ConflictResolution) := do
  let resolvedBy ← required resolvedBy "resolved_by"
  let reason ← required reason "reason"
  let resolvedAt := orElse resolvedAt now
  let _ ← parseTimestamp (some resolvedAt)
  match s.conflicts.get? conflictId with
  | none => throw (valueError "conflict does not exist")
  | some conflict =>
      require conflict.Unresolved (valueError "conflict is already resolved")
      let members := conflictMemberIds s conflictId
      require (resolutionFactId ∈ members)
        (valueError "resolution fact must be a conflict member")
      let losers := members.filter (· ≠ resolutionFactId)
      let s ← supersedeLosers s conflictId losers resolutionFactId resolvedAt
      let s ← releaseWinner s conflictId resolutionFactId
      let s :=
        { s with
          conflicts := s.conflicts.update
            (fun c => c.conflictId = conflictId ∧ c.Unresolved)
            (fun c =>
              { c with
                resolvedAt := some resolvedAt
                resolutionFactId := some resolutionFactId
                resolvedBy := some resolvedBy
                resolutionReason := some reason })
            (fun _ => rfl) }
      let s ← recordResolution s conflictId resolutionFactId resolverClientId resolverSessionId
        resolverAgentId reason resolvedAt
      return (s, ⟨conflictId, resolutionFactId, losers, resolvedBy, reason, resolvedAt⟩)

end Enfold.Model
