/-
# Model.Projections -- changes, timelines and entities (`projections.py`)

The projections read the facts and the conflicts of a set of scopes.  An event is a fact that was
written, superseded, or chosen to resolve a conflict.  Each projection looks at the newest events
or facts up to a scan limit, and cuts what it found at a number of items and at a number of
characters.

`julianday` is the function of the database; a text it does not read has no day and counts as the
smallest one.  The columns of a fact that nothing here looks at are inputs.
-/
import Enfold.Model.HybridRetrieval
import Enfold.Theory.Budget
import Enfold.Theory.IsoPrint
import Enfold.Theory.Keyed
import Mathlib.Data.Prod.Lex
import Mathlib.Order.WithBot

namespace Enfold.Model

open Enfold.Theory

set_option autoImplicit false

def maxLimit : Nat := 200

def maxOutputChars : Nat := 60000

def maxQueryChars : Nat := 16000

def maxEntityChars : Nat := 2000

@[irreducible] def projectionScanLimit : Nat := 10000

def itemsCharBudget : Nat := maxOutputChars - 256

/-! ## Arguments -/

/-- `_scopes`. -/
def projectionScopes (scope : List String) : Py (List String) := do
  let cleaned := ((scope.filter fun value => strip value ≠ "").map strip).eraseDups
  require (cleaned ≠ []) (valueError "scope must not be empty")
  return cleaned

/-- `_limit`. -/
def projectionLimit (value : Int) : Py Nat := do
  require (1 ≤ value ∧ value ≤ maxLimit) (valueError "limit must be between 1 and 200")
  return value.toNat

/-- The instant `_timestamp` reads; one without a zone counts as UTC. -/
def timestampInstant (value name : String) : Py Int := do
  require (strip value ≠ "") (valueError (name ++ " must be a non-empty ISO-8601 timestamp"))
  match IsoTime.fromIsoformat (replaceZulu (strip value)) with
  | none => throw (valueError (name ++ " must be an ISO-8601 timestamp"))
  | some parsed =>
      match parsed.utc with
      | none => throw ⟨.overflowError, "date value out of range"⟩
      | some instant => return instant

/-- `_timestamp`. -/
def timestampText (value name : String) : Py String := do
  let instant ← timestampInstant value name
  return IsoTime.isoText instant

/-! ## Facts and events -/

/-- The columns that are passed on only. -/
structure FactColumns where
  updatedAt : FactRow → Json
  confidence : FactRow → Json
  schemaVersion : FactRow → Json

def Json.ofDecimal : Option Decimal → Json
  | none => .null
  | some x => .float x

def Json.ofId : Option Nat → Json
  | none => .null
  | some n => .int n

/-- `_fact`. -/
def projectionFact (columns : FactColumns) (r : FactRow) : Json :=
  .obj [("fact_id", .int r.factId), ("content", .str r.content), ("category", .str r.category),
    ("tags", .str r.tags), ("trust_score", .float r.trustScore), ("created_at", .str r.createdAt),
    ("updated_at", columns.updatedAt r), ("valid_from", Json.ofText r.validFrom),
    ("invalid_at", Json.ofText r.invalidAt), ("superseded_by", Json.ofId r.supersededBy),
    ("memory_kind", Json.ofText r.memoryKind), ("subject_key", Json.ofText r.subjectKey),
    ("predicate_key", Json.ofText r.predicateKey), ("object_value", Json.ofText r.objectValue),
    ("confidence", columns.confidence r), ("source_authority", Json.ofDecimal r.sourceAuthority),
    ("scope", .str r.scope), ("sensitivity", .str r.sensitivity),
    ("correction_status", Json.ofText r.correctionStatus),
    ("schema_version", columns.schemaVersion r), ("conflict_group", Json.ofText r.conflictGroup)]

inductive EventKind where
  | created
  | superseded
  | resolved
  deriving DecidableEq

namespace EventKind

def text : EventKind → String
  | .created => "created"
  | .superseded => "superseded"
  | .resolved => "resolved"

/-- The `CASE` of the query. -/
def order : EventKind → Nat
  | .created => 0
  | .superseded => 1
  | .resolved => 2

end EventKind

structure EventRow where
  kind : EventKind
  changedAt : String
  fact : FactRow
  deriving DecidableEq

def EventRow.toJson (columns : FactColumns) (e : EventRow) : Json :=
  .obj [("kind", .str e.kind.text), ("changed_at", .str e.changedAt),
    ("fact", projectionFact columns e.fact)]

/-- `_json_chars`. -/
def jsonChars (value : Json) : Nat := (Json.dump .unicode value).length

/-- `_bounded`. -/
def bounded {α : Type} (toJson : α → Json) (items : List α) (limit : Nat) : List α × Bool :=
  fill (fun item => jsonChars (toJson item)) limit itemsCharBudget 0 2 items

/-- `fact_events`: the three parts of the union, the last joined with the resolution's fact. -/
def factEvents (s : Store) (scopes : List String) : List EventRow :=
  (s.facts.table.rows.filterMap fun f =>
    if f.scope ∈ scopes ∧ f.conflictGroup = none then some ⟨.created, f.createdAt, f⟩ else none) ++
  (s.facts.table.rows.filterMap fun f =>
    if f.scope ∈ scopes ∧ f.supersededBy ≠ none then
      f.invalidAt.map fun changedAt => ⟨.superseded, changedAt, f⟩
    else none) ++
  s.conflicts.rows.filterMap fun c => do
    let f ← s.facts.get? (← c.resolutionFactId)
    let changedAt ← c.resolvedAt
    if f.scope ∈ scopes then some ⟨.resolved, changedAt, f⟩ else none

section Events

variable {J : Type} [LinearOrder J] (julianday : String → Option J)

/-- `julianday(e.changed_at) >= julianday(?) AND julianday(e.changed_at) < julianday(?)`; a
comparison with a text that is no day is not true. -/
def inWindow (since until' : String) (e : EventRow) : Bool :=
  match julianday e.changedAt, julianday since, julianday until' with
  | some day, some first, some last => first ≤ day && day < last
  | _, _, _ => false

/-- The columns of `ORDER BY`. -/
def EventRow.key (e : EventRow) : WithBot J ×ₗ String ×ₗ ℕ ×ₗ ℕ :=
  toLex (julianday e.changedAt, toLex (e.changedAt, toLex (e.kind.order, e.fact.factId)))

/-- The newest events up to the scan limit, oldest first. -/
def newestEvents (events : List EventRow) : List EventRow :=
  ascending (EventRow.key julianday)
    ((events.insertionSort fun a b => b.key julianday ≤ a.key julianday).take projectionScanLimit)

/-- `_event_rows`. -/
def eventRows (s : Store) (scopes : List String) (window : Option (String × String)) :
    List EventRow × Bool :=
  let inside := match window with
    | none => factEvents s scopes
    | some (since, until') => (factEvents s scopes).filter (inWindow julianday since until')
  let rows := newestEvents julianday inside
  (rows, rows.length = projectionScanLimit)

/-! ## Changes -/

structure Changes where
  changes : List EventRow
  truncated : Bool

def Changes.toJson (columns : FactColumns) (c : Changes) : Json :=
  .obj [("changes", .arr (c.changes.map (EventRow.toJson columns))), ("truncated", .bool c.truncated)]

/-- `changes`. -/
def changes (columns : FactColumns) (s : Store) (since until' : String) (scope : List String)
    (limit : Int) : Py Changes := do
  let sinceValue ← timestampText since "since"
  let untilValue ← timestampText until' "until"
  require (sinceValue < untilValue) (valueError "since must be earlier than until")
  let scopes ← projectionScopes scope
  let (scanned, scanTruncated) := eventRows julianday s scopes (some (sinceValue, untilValue))
  let limit ← projectionLimit limit
  let (events, outputTruncated) := bounded (EventRow.toJson columns) scanned limit
  return ⟨events, scanTruncated || outputTruncated⟩

/-! ## Timelines -/

/-- The text a query is looked up in. -/
def timelineText (f : FactRow) : String :=
  casefold (" ".intercalate
    [f.content, f.subjectKey.getD "", f.predicateKey.getD "", f.objectValue.getD "", f.tags])

/-- The last `limit` of the matching events, cut to size. -/
def selectEvents (columns : FactColumns) (scanned : List EventRow × Bool)
    (matching : EventRow → Bool) (limit : Nat) : List EventRow × Bool :=
  let matched := scanned.1.filter matching
  let selected := matched.drop (matched.length - limit)
  let (events, charsTruncated) := bounded (EventRow.toJson columns) selected limit
  (events, scanned.2 || limit < matched.length || charsTruncated)

structure Timeline where
  events : List EventRow
  truncated : Bool

def Timeline.toJson (columns : FactColumns) (t : Timeline) : Json :=
  .obj [("events", .arr (t.events.map (EventRow.toJson columns))), ("truncated", .bool t.truncated)]

def inTimeline (query : String) (e : EventRow) : Bool := occursIn query (timelineText e.fact)

/-- `timeline`. -/
def timeline (columns : FactColumns) (s : Store) (subjectOrQuery : String) (scope : List String)
    (limit : Int) : Py Timeline := do
  require (strip subjectOrQuery ≠ "") (valueError "subject_or_query must not be empty")
  require (subjectOrQuery.length ≤ maxQueryChars)
    (valueError "subject_or_query must not exceed 16000 characters")
  let cap ← projectionLimit limit
  let query := casefold (strip subjectOrQuery)
  let scopes ← projectionScopes scope
  let (events, truncated) := selectEvents columns (eventRows julianday s scopes none)
    (inTimeline query) cap
  return ⟨events, truncated⟩

end Events

/-! ## Entities -/

/-- A dictionary of names by their case-folded form. -/
abbrev Names := Table String (String × String) Prod.fst

/-- `names.setdefault(...)` for a raw name, unless it is blank. -/
def addName (names : Names) (raw : String) : Names :=
  if strip raw = "" then names
  else (names.insert? (casefold (strip raw), strip raw)).getD names

/-- The subject and the tags of a fact, as they are written. -/
def rawNames (f : FactRow) : List (String × String) :=
  (f.subjectKey.toList.map fun subject => ("subject", subject)) ++
    (splitAt ',' f.tags).map fun tag => ("tag", tag)

/-- `_entity_names`. -/
def entityNames (f : FactRow) : Names :=
  ((rawNames f).map Prod.snd).foldl addName Table.empty

/-- `_matches_entity`. -/
def matchesEntity (name : String) (f : FactRow) : Bool :=
  casefold name ∈ (entityNames f).rows.map Prod.fst

/-- What is counted for a name. -/
structure EntityTally where
  key : String
  display : String
  factIds : List Nat
  sources : List String

abbrev Tallies := Table String EntityTally EntityTally.key

/-- One name of a fact. -/
def tallyName (factId : Nat) (tallies : Tallies) (named : String × String) : Tallies :=
  let (source, raw) := named
  if strip raw = "" then tallies
  else
    let key := casefold (strip raw)
    match tallies.get? key with
    | none => tallies.replace ⟨key, strip raw, [factId], [source]⟩
    | some tally => tallies.replace
        { tally with factIds := tally.factIds.insert factId
                     sources := tally.sources.insert source }

def tallyFact (tallies : Tallies) (f : FactRow) : Tallies :=
  (rawNames f).foldl (tallyName f.factId) tallies

structure EntityItem where
  name : String
  factCount : Nat
  derivedFrom : List String

namespace EntityItem

def toJson (item : EntityItem) : Json :=
  .obj [("name", .str item.name), ("fact_count", .int item.factCount),
    ("derived_from", .arr (item.derivedFrom.map Json.str))]

/-- The most facts first. -/
def Before (a b : EntityItem) : Prop :=
  b.factCount < a.factCount ∨ a.factCount = b.factCount ∧
    (casefold a.name < casefold b.name ∨ casefold a.name = casefold b.name ∧ a.name ≤ b.name)

instance : DecidableRel Before := fun _ _ => inferInstanceAs (Decidable (_ ∨ _ ∧ _))

end EntityItem

def EntityTally.item (tally : EntityTally) : EntityItem :=
  ⟨tally.display, tally.factIds.length, tally.sources.insertionSort (· ≤ ·)⟩

structure Entities where
  entities : List EntityItem
  truncated : Bool

def Entities.toJson (e : Entities) : Json :=
  .obj [("entities", .arr (e.entities.map EntityItem.toJson)), ("truncated", .bool e.truncated)]

/-- `entities`. -/
def entities (s : Store) (scope : List String) (minFacts : Int) (limit : Int) : Py Entities := do
  require (1 ≤ minFacts) (valueError "min_facts must be a positive integer")
  let scopes ← projectionScopes scope
  let scanned ← activeFacts s (some scopes) none projectionScanLimit
  let tallies := scanned.foldl tallyFact Table.empty
  let ranked := ((tallies.rows.map EntityTally.item).filter fun item =>
    minFacts ≤ item.factCount).insertionSort EntityItem.Before
  let limit ← projectionLimit limit
  let (result, outputTruncated) := bounded EntityItem.toJson ranked limit
  return ⟨result, scanned.length = projectionScanLimit || outputTruncated⟩

/-! ## Dossiers -/

/-- `list_state_conflicts`, unresolved only: conflicts joined with their members. -/
def listStateConflicts (s : Store) (scope : String) : List ConflictRecord :=
  ((s.conflicts.select fun c => c.scope = scope ∧ c.Unresolved).insertionSort
    fun a b => toLex (a.detectedAt, a.conflictId) ≤ toLex (b.detectedAt, b.conflictId)).filterMap
    fun c =>
      let members := conflictMemberIds s c.conflictId
      if members = [] then none
      else some ⟨c.conflictId, c.scope, c.subjectKey, c.predicateKey, members, c.detectedAt⟩

/-- `historical_facts_by_id` in one scope. -/
def historicalFactsById (s : Store) (factIds : List Nat) (scope : String) : List FactRow :=
  orderById (s.facts.table.select fun f => f.factId ∈ factIds ∧ f.scope = scope)

structure DossierConflict where
  conflict : ConflictRecord
  members : List FactRow

def DossierConflict.toJson (columns : FactColumns) (c : DossierConflict) : Json :=
  .obj [("conflict_id", .str c.conflict.conflictId), ("scope", .str c.conflict.scope),
    ("subject_key", .str c.conflict.subjectKey), ("predicate_key", .str c.conflict.predicateKey),
    ("detected_at", .str c.conflict.detectedAt),
    ("members", .arr (c.members.map (projectionFact columns)))]

/-- The conflicts of a scope that concern the entity. -/
def entityConflicts (s : Store) (entity : String) (scope : String) : List DossierConflict :=
  ((listStateConflicts s scope).map fun c =>
    ⟨c, historicalFactsById s c.memberFactIds scope⟩).filter fun c =>
      casefold c.conflict.subjectKey = casefold entity || c.members.any (matchesEntity entity)

structure Dossier where
  entity : String
  currentFacts : List FactRow
  recentChanges : List EventRow
  openConflicts : List DossierConflict
  truncated : Bool

namespace Dossier

def toJson (columns : FactColumns) (d : Dossier) : Json :=
  .obj [("entity", .str d.entity),
    ("current_facts", .arr (d.currentFacts.map (projectionFact columns))),
    ("recent_changes", .arr (d.recentChanges.map (EventRow.toJson columns))),
    ("open_conflicts", .arr (d.openConflicts.map (DossierConflict.toJson columns))),
    ("truncated", .bool d.truncated)]

/-- The loop of `entity_dossier`: while it is too long, drop the last recent change, and without
one the last current fact, and without one the last conflict. -/
def shrink (columns : FactColumns) (d : Dossier) : Dossier :=
  if jsonChars (d.toJson columns) ≤ maxOutputChars then d
  else if 0 < d.recentChanges.length then
    shrink columns { d with recentChanges := d.recentChanges.dropLast, truncated := true }
  else if 0 < d.currentFacts.length then
    shrink columns { d with currentFacts := d.currentFacts.dropLast, truncated := true }
  else if 0 < d.openConflicts.length then
    shrink columns { d with openConflicts := d.openConflicts.dropLast, truncated := true }
  else d
termination_by d.recentChanges.length + d.currentFacts.length + d.openConflicts.length
decreasing_by
  all_goals
    simp only [List.length_dropLast]
    omega

end Dossier

/-- `entity_dossier`. -/
def entityDossier {J : Type} [LinearOrder J] (julianday : String → Option J) (columns : FactColumns)
    (s : Store) (name : String) (scope : List String) (limit : Int) : Py Dossier := do
  require (strip name ≠ "") (valueError "name must not be empty")
  require (name.length ≤ maxEntityChars) (valueError "name must not exceed 2000 characters")
  let entity := strip name
  let scopes ← projectionScopes scope
  let cap ← projectionLimit limit
  let scannedCurrent ← activeFacts s (some scopes) none projectionScanLimit
  let allCurrent := scannedCurrent.filter (matchesEntity entity)
  let (recent, recentTruncated) := selectEvents columns (eventRows julianday s scopes none)
    (fun e => matchesEntity entity e.fact) cap
  let allConflicts := scopes.flatMap (entityConflicts s entity)
  return Dossier.shrink columns
    { entity
      currentFacts := allCurrent.take cap
      recentChanges := recent
      openConflicts := allConflicts.take cap
      truncated := cap < allCurrent.length || scannedCurrent.length = projectionScanLimit ||
        cap < allConflicts.length || recentTruncated }

end Enfold.Model
