/-
# Model.ReadEndpoints -- the read requests of a connection (`service.py`)

Seven methods read the store: the evidence of a fact, histories, conflicts, and the projections of
`Model.Projections`.  `handleRead` authorizes the connection and routes the request; each route
narrows what it reads to the scopes of the connection, or to the one the request names.

An answer holds the rows that are put in it.
-/
import Enfold.Model.Projections
import Enfold.Model.ReadRoutes

namespace Enfold.Model

open Enfold.Theory

set_option autoImplicit false

/-! ## Parameters -/

/-- `_boolean`. -/
def booleanParam (value : Json) (name : String) (default : Bool) : Py Bool :=
  match value with
  | .null => .ok default
  | .bool b => .ok b
  | _ => .error (invalidParams (name ++ " must be a boolean"))

/-- A value error of a projection becomes a request error. -/
def asInvalidParams {α : Type} (result : Py α) : Py α :=
  match result with
  | .ok a => .ok a
  | .error e => if e.kind = .valueError then .error (invalidParams e.message) else .error e

/-! ## Evidence -/

structure EvidenceItem where
  observationId : Nat
  clientId : String
  sessionId : String
  sourceType : String
  sourceUri : Option String
  projectRoot : Option String
  repository : Option String
  branch : Option String
  commitSha : Option String
  content : String
  assertedBy : Option String
  performedBy : Option String
  observedAt : Option String
  recordedAt : String
  scope : String
  sensitivity : String
  redactedAt : Option String
  metadata : Json
  relation : String
  evidenceExcerpt : Option String
  provenanceCreatedAt : String

def EvidenceItem.ofRows (p : ProvenanceRow) (o : ObservationRow) : EvidenceItem :=
  { o with
    metadata := o.metadataJson
    relation := p.relation
    evidenceExcerpt := p.evidenceExcerpt
    provenanceCreatedAt := p.createdAt }

/-- The links of a fact to the observations of the scopes. -/
def ProvenanceRow.Visible (s : Store) (scopes : List String) (p : ProvenanceRow) : Prop :=
  ∃ o ∈ s.observations.get? p.observationId, o.scope ∈ scopes

instance (s : Store) (scopes : List String) : DecidablePred (ProvenanceRow.Visible s scopes) :=
  fun _ => inferInstanceAs (Decidable (∃ _ ∈ _, _))

/-- `ORDER BY p.created_at, o.observation_id`; rows that agree in both come in the order of their
primary key. -/
def evidenceOrder (a b : ProvenanceRow) : Prop :=
  toLex (a.createdAt, toLex (a.observationId, a.relation)) ≤
    toLex (b.createdAt, toLex (b.observationId, b.relation))

instance : DecidableRel evidenceOrder := fun _ _ => inferInstanceAs (Decidable (_ ≤ _))

/-- The rows of the query in `_evidence`, up to its limit. -/
def evidenceRows (s : Store) (factId : Nat) (scopes : List String) (limit : Nat) :
    List EvidenceItem :=
  (((s.provenance.select fun p => p.factId = factId ∧ p.Visible s scopes).insertionSort
    evidenceOrder).take limit).filterMap fun p =>
      (s.observations.get? p.observationId).map (EvidenceItem.ofRows p)

structure Evidence where
  fact : FactRow
  evidence : List EvidenceItem

/-- `_evidence`. -/
def evidenceRoute (s : Store) (context : ConnectionContext) (params : Json) : Py Evidence := do
  checkKeys params ["fact_id"] ["limit"]
  let factId ← positiveInt (field "fact_id" params) "fact_id"
  let limit ← limitParam (field "limit" params) 100
  match ← historicalFact s factId context.accessScopes with
  | none => throw (serviceRequestError "not_found" "fact was not found")
  | some fact => return ⟨fact, evidenceRows s factId context.accessScopes limit⟩

/-! ## Conflicts -/

/-- `list_state_conflicts`; a conflict without members has no row in the join. -/
def conflictRecords (s : Store) (scope : String) (unresolvedOnly : Bool) : List ConflictRecord :=
  ((s.conflicts.select fun c => c.scope = scope ∧ (unresolvedOnly = true → c.Unresolved)).insertionSort
    fun a b => toLex (a.detectedAt, a.conflictId) ≤ toLex (b.detectedAt, b.conflictId)).filterMap
    fun c =>
      let members := conflictMemberIds s c.conflictId
      if members = [] then none
      else some ⟨c.conflictId, c.scope, c.subjectKey, c.predicateKey, members, c.detectedAt⟩

/-- The projections list the unresolved ones. -/
theorem conflictRecords_unresolved (s : Store) (scope : String) :
    conflictRecords s scope true = listStateConflicts s scope := by
  simp only [conflictRecords, listStateConflicts, true_implies]

structure ListedConflict where
  record : ConflictRecord
  members : List FactRow

/-- One item of `_conflicts`: the members that are facts of the scope. -/
def listedConflict (s : Store) (scope : String) (record : ConflictRecord) : Py ListedConflict := do
  let members ← record.memberFactIds.mapM fun factId => historicalFact s factId [scope]
  return ⟨record, members.reduceOption⟩

/-- `_conflicts`. -/
def conflictsRoute (s : Store) (context : ConnectionContext) (params : Json) :
    Py (List ListedConflict) := do
  checkKeys params [] ["scope", "unresolved_only"]
  let scopes ← requestedScopes context (field "scope" params)
  let unresolved ← booleanParam (field "unresolved_only" params) "unresolved_only" true
  let listed ← scopes.mapM fun scope =>
    (conflictRecords s scope unresolved).mapM (listedConflict s scope)
  return listed.flatten

/-! ## Projections -/

section Projected

variable {J : Type} [LinearOrder J] (julianday : String → Option J) (columns : FactColumns)

/-- `_changes`. -/
def changesRoute (s : Store) (context : ConnectionContext) (params : Json) : Py Changes := do
  checkKeys params ["since", "until"] ["scope", "limit"]
  let scopes ← requestedScopes context (field "scope" params)
  asInvalidParams do
    let since ← textParam (field "since" params) "since"
    let until' ← textParam (field "until" params) "until"
    let limit ← limitParam (field "limit" params) 100
    changes julianday columns s since until' scopes limit

/-- `_timeline`. -/
def timelineRoute (s : Store) (context : ConnectionContext) (params : Json) : Py Timeline := do
  checkKeys params ["subject_or_query"] ["scope", "limit"]
  let scopes ← requestedScopes context (field "scope" params)
  asInvalidParams do
    let query ← textParam (field "subject_or_query" params) "subject_or_query"
    let limit ← limitParam (field "limit" params) 100
    timeline julianday columns s query scopes limit

/-- `_entities`. -/
def entitiesRoute (s : Store) (context : ConnectionContext) (params : Json) : Py Entities := do
  checkKeys params [] ["scope", "min_facts", "limit"]
  let scopes ← requestedScopes context (field "scope" params)
  let minFacts ← positiveInt ((params.get? "min_facts").getD (.int 1)) "min_facts"
  asInvalidParams do
    let limit ← limitParam (field "limit" params) 100
    entities s scopes minFacts limit

/-- `_entity`. -/
def entityRoute (s : Store) (context : ConnectionContext) (params : Json) : Py Dossier := do
  checkKeys params ["name"] ["scope", "limit"]
  let scopes ← requestedScopes context (field "scope" params)
  asInvalidParams do
    let name ← textParam (field "name" params) "name"
    let limit ← limitParam (field "limit" params) 100
    entityDossier julianday columns s name scopes limit

/-! ## Requests -/

inductive ReadMethod where
  | evidence
  | history
  | conflicts
  | changes
  | timeline
  | entities
  | entity
  deriving DecidableEq, Repr

inductive ReadAnswer where
  | evidence (found : Evidence)
  | history (facts : List FactRow)
  | conflicts (listed : List ListedConflict)
  | changes (found : Changes)
  | timeline (found : Timeline)
  | entities (found : Entities)
  | entity (dossier : Dossier)

def readRoute (method : ReadMethod) (s : Store) (context : ConnectionContext) (params : Json) :
    Py ReadAnswer :=
  match method with
  | .evidence => return .evidence (← evidenceRoute s context params)
  | .history => return .history (← historyRoute s context params)
  | .conflicts => return .conflicts (← conflictsRoute s context params)
  | .changes => return .changes (← changesRoute julianday columns s context params)
  | .timeline => return .timeline (← timelineRoute julianday columns s context params)
  | .entities => return .entities (← entitiesRoute s context params)
  | .entity => return .entity (← entityRoute julianday columns s context params)

/-- `EnfoldService.handle` for the read methods. -/
def handleRead (policy : MemoryPolicy) (method : ReadMethod) (context : ClientContext)
    (params : Json) (s : Store) : Py ReadAnswer := do
  rejectNestedIdentity "params" params
  let effective ← authorize policy context
  readRoute julianday columns method s effective params

end Projected

end Enfold.Model
