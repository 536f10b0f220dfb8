/-
# Model.Schema -- the tables of a version-1 store

One row type a table, with the columns the modelled code reads or writes, and the
constraints the schema declares.  Primary keys are the keys of the tables.  The
constraints on `facts` are fields of `Facts`: ids are positive and bounded by the
AUTOINCREMENT sequence, the partial unique index over current state slots holds, and
every `superseded_by` refers to a row.  The routines that write `facts` therefore raise
where SQLite raises, and a `Facts` that exists violates nothing.

Unique columns and foreign keys of the other tables are checked by the routines that
insert (`SQLite.unique`, `SQLite.foreignKey`).
-/
import Enfold.Model.Provenance
import Enfold.Theory.Table

namespace Enfold.Model

open Enfold.Theory

set_option autoImplicit false

/-! ## Facts -/

structure FactRow where
  factId : Nat
  content : String
  category : String
  tags : String
  trustScore : Decimal
  createdAt : String
  validFrom : Option String
  invalidAt : Option String
  supersededBy : Option Nat
  memoryKind : Option String
  subjectKey : Option String
  predicateKey : Option String
  objectValue : Option String
  sourceAuthority : Option Decimal
  scope : String
  sensitivity : String
  correctionStatus : Option String
  conflictGroup : Option String
  deriving DecidableEq

/-- A structured state slot. -/
structure Slot where
  scope : String
  subjectKey : String
  predicateKey : String
  deriving DecidableEq

namespace FactRow

/-- `invalid_at IS NULL AND superseded_by IS NULL`. -/
def Current (r : FactRow) : Prop := r.invalidAt = none ∧ r.supersededBy = none

instance (r : FactRow) : Decidable r.Current := inferInstanceAs (Decidable (_ ∧ _))

/-- The row is a state fact of the slot. -/
def InSlot (r : FactRow) (k : Slot) : Prop :=
  r.memoryKind = some "state" ∧ r.scope = k.scope ∧ r.subjectKey = some k.subjectKey ∧
    r.predicateKey = some k.predicateKey

instance (r : FactRow) (k : Slot) : Decidable (r.InSlot k) :=
  inferInstanceAs (Decidable (_ ∧ _ ∧ _ ∧ _))

/-- A row has at most one slot. -/
theorem InSlot.unique {r : FactRow} {k k' : Slot} (here : r.InSlot k) (there : r.InSlot k') :
    k = k' := by
  obtain ⟨-, scope, subject, predicate⟩ := here
  obtain ⟨-, scope', subject', predicate'⟩ := there
  cases k
  cases k'
  simp_all

/-- The row is an entry of the index `uq_facts_current_state_slot`, under this key. -/
def Indexed (r : FactRow) (k : Slot) : Prop :=
  r.InSlot k ∧ r.Current ∧ r.conflictGroup = none

instance (r : FactRow) (k : Slot) : Decidable (r.Indexed k) :=
  inferInstanceAs (Decidable (_ ∧ _ ∧ _))

/-- The slot of a row, when it has one. -/
def slot? (r : FactRow) : Option Slot :=
  match r.memoryKind, r.subjectKey, r.predicateKey with
  | some "state", some subjectKey, some predicateKey => some ⟨r.scope, subjectKey, predicateKey⟩
  | _, _, _ => none

theorem slot?_eq_some {r : FactRow} {k : Slot} : r.slot? = some k ↔ r.InSlot k := by
  unfold slot? InSlot
  constructor
  · intro found
    split at found
    · cases found
      simp_all
    · cases found
  · rintro ⟨kind, scope, subject, predicate⟩
    simp [kind, scope, subject, predicate]

end FactRow

/-- The rows violate no entry of the unique index over current, unconflicted slots. -/
def UniqueSlots (rows : List FactRow) : Prop :=
  ∀ r ∈ rows, ∀ r' ∈ rows, ∀ k ∈ r.slot?, r.Indexed k → r'.Indexed k → r.factId = r'.factId

instance (rows : List FactRow) : Decidable (UniqueSlots rows) :=
  inferInstanceAs (Decidable (∀ r ∈ rows, ∀ r' ∈ rows, _))

/-- Every `superseded_by` refers to a row. -/
def Linked (rows : List FactRow) : Prop :=
  ∀ r ∈ rows, ∀ k ∈ r.supersededBy, k ∈ rows.map FactRow.factId

instance (rows : List FactRow) : Decidable (Linked rows) :=
  inferInstanceAs (Decidable (∀ r ∈ rows, ∀ k ∈ r.supersededBy, _))

/-- The table of facts with the constraints of its schema. -/
structure Facts where
  table : Table Nat FactRow FactRow.factId
  /-- The AUTOINCREMENT sequence: the largest id ever given. -/
  sequence : Nat
  positive : ∀ r ∈ table, 0 < r.factId
  bounded : ∀ r ∈ table, r.factId ≤ sequence
  slots : UniqueSlots table.rows
  links : Linked table.rows

namespace SQLite

/-- A violated UNIQUE or PRIMARY KEY constraint. -/
def unique (columns : String) : Raised := ⟨.integrityError, "UNIQUE constraint failed: " ++ columns⟩

def foreignKey : Raised := ⟨.integrityError, "FOREIGN KEY constraint failed"⟩

/-- A number bound to a statement. -/
def integer (n : Nat) : Py Nat :=
  if n < 2 ^ 63 then .ok n
  else .error ⟨.overflowError, "Python int too large to convert to SQLite INTEGER"⟩

theorem integer_of_lt {n : Nat} (small : n < 2 ^ 63) : integer n = .ok n := if_pos small

theorem integer_eq_ok {n m : Nat} (bound : integer n = .ok m) : m = n := by
  unfold integer at bound
  split at bound
  · cases bound
    rfl
  · cases bound

end SQLite

namespace Facts

instance : Membership FactRow Facts := ⟨fun facts r => r ∈ facts.table⟩

theorem mem_table {facts : Facts} {r : FactRow} : r ∈ facts.table ↔ r ∈ facts := Iff.rfl

theorem eq_of_id {facts : Facts} {r r' : FactRow} (mem : r ∈ facts) (mem' : r' ∈ facts)
    (same : r.factId = r'.factId) : r = r' :=
  Table.eq_of_key mem mem' same

/-- The row with a given id. -/
def get? (facts : Facts) (factId : Nat) : Option FactRow := facts.table.get? factId

theorem get?_eq_some {facts : Facts} {factId : Nat} {r : FactRow} :
    facts.get? factId = some r ↔ r ∈ facts ∧ r.factId = factId :=
  Table.get?_eq_some

def empty : Facts where
  table := Table.empty
  sequence := 0
  positive := by simp
  bounded := by simp
  slots := fun _ mem => absurd mem (Table.not_mem_empty _)
  links := fun _ mem => absurd mem (Table.not_mem_empty _)

@[simp] theorem not_mem_empty (r : FactRow) : r ∉ empty := Table.not_mem_empty r

/-- At most one current, unconflicted row of a slot. -/
theorem eq_of_indexed {facts : Facts} {r r' : FactRow} {k : Slot} (mem : r ∈ facts)
    (mem' : r' ∈ facts) (indexed : r.Indexed k) (indexed' : r'.Indexed k) : r = r' :=
  eq_of_id mem mem'
    (facts.slots r mem r' mem' k (FactRow.slot?_eq_some.2 indexed.1) indexed indexed')

/-- The rows after a change, checked against the constraints. -/
def checkRows (table : Table Nat FactRow FactRow.factId) (sequence : Nat)
    (positive : ∀ r ∈ table, 0 < r.factId) (bounded : ∀ r ∈ table, r.factId ≤ sequence) :
    Py Facts := do
  let ⟨slots⟩ ← checked (UniqueSlots table.rows)
    (SQLite.unique "facts.scope, facts.subject_key, facts.predicate_key")
  let ⟨links⟩ ← checked (Linked table.rows) SQLite.foreignKey
  return { table, sequence, positive, bounded, slots, links }

theorem checkRows_eq_ok {table : Table Nat FactRow FactRow.factId} {sequence : Nat}
    {positive : ∀ r ∈ table, 0 < r.factId} {bounded : ∀ r ∈ table, r.factId ≤ sequence}
    {facts : Facts} (checkedRows : checkRows table sequence positive bounded = .ok facts) :
    facts.table = table ∧ facts.sequence = sequence := by
  obtain ⟨slots, -, checkedRows⟩ := bind_eq_ok.1 checkedRows
  obtain ⟨links, -, checkedRows⟩ := bind_eq_ok.1 checkedRows
  cases pure_eq_ok.1 checkedRows
  exact ⟨rfl, rfl⟩

theorem checkRows_of {table : Table Nat FactRow FactRow.factId} {sequence : Nat}
    {positive : ∀ r ∈ table, 0 < r.factId} {bounded : ∀ r ∈ table, r.factId ≤ sequence}
    (slots : UniqueSlots table.rows) (links : Linked table.rows) :
    checkRows table sequence positive bounded =
      .ok { table, sequence, positive, bounded, slots, links } := by
  unfold checkRows
  rw [checked_of slots, ok_bind]
  dsimp only
  rw [checked_of links]
  rfl

/-- The id the next insert gets. -/
def nextId (facts : Facts) : Nat := facts.sequence + 1

theorem nextId_fresh {facts : Facts} {r : FactRow} (mem : r ∈ facts) :
    r.factId ≠ facts.nextId := by
  have := facts.bounded r mem
  unfold nextId
  omega

theorem nextId_not_mem (facts : Facts) (r : FactRow) (same : r.factId = facts.nextId) :
    r.factId ∉ facts.table.rows.map FactRow.factId := by
  intro mem
  obtain ⟨r', mem', same'⟩ := List.mem_map.1 mem
  exact nextId_fresh mem' (same'.trans same)

/-- `INSERT INTO facts`; the id column of the given row is the generated one. -/
def insert (facts : Facts) (row : FactRow) : Py Facts :=
  let row := { row with factId := facts.nextId }
  checkRows (facts.table.insert row (nextId_not_mem facts row rfl)) facts.nextId
    (by
      intro r mem
      rcases Table.mem_insert.1 mem with mem | rfl
      · exact facts.positive r mem
      · exact Nat.succ_pos _)
    (by
      intro r mem
      rcases Table.mem_insert.1 mem with mem | rfl
      · exact Nat.le_succ_of_le (facts.bounded r mem)
      · exact Nat.le_refl _)

/-- `UPDATE facts SET … WHERE p`. -/
def update (facts : Facts) (p : FactRow → Prop) [DecidablePred p] (f : FactRow → FactRow)
    (keeps : ∀ r, (f r).factId = r.factId) : Py Facts :=
  checkRows (facts.table.update p f keeps) facts.sequence
    (by
      intro r mem
      obtain ⟨r₀, mem₀, rfl⟩ := Table.mem_update.1 mem
      split
      · rw [keeps]
        exact facts.positive r₀ mem₀
      · exact facts.positive r₀ mem₀)
    (by
      intro r mem
      obtain ⟨r₀, mem₀, rfl⟩ := Table.mem_update.1 mem
      split
      · rw [keeps]
        exact facts.bounded r₀ mem₀
      · exact facts.bounded r₀ mem₀)

theorem insert_eq_ok {facts facts' : Facts} {row : FactRow} (inserted : facts.insert row = .ok facts') :
    facts.table.Patches facts'.table [{ row with factId := facts.nextId }] ∧
      facts'.sequence = facts.nextId := by
  obtain ⟨table, sequence⟩ := checkRows_eq_ok inserted
  rw [table]
  exact ⟨Table.Patches.of_insert, sequence⟩

theorem update_eq_ok {facts facts' : Facts} {p : FactRow → Prop} [DecidablePred p]
    {f : FactRow → FactRow} {keeps : ∀ r, (f r).factId = r.factId}
    (updated : facts.update p f keeps = .ok facts') :
    facts'.table = facts.table.update p f keeps ∧ facts'.sequence = facts.sequence :=
  checkRows_eq_ok updated

end Facts

/-! ## The full-text index -/

/-- An entry of `facts_fts`, which the triggers on `facts` maintain. -/
structure FtsRow where
  rowid : Nat
  content : String
  tags : String
  deriving DecidableEq

/-! ## Provenance tables -/

structure ClientRow where
  clientId : String
  surface : String
  displayName : Option String
  createdAt : String
  disabledAt : Option String
  deriving DecidableEq

/-- Capabilities and scopes are stored as JSON arrays. -/
structure SessionRow where
  clientId : String
  sessionId : String
  agentId : String
  parentAgentId : Option String
  projectRoot : Option String
  repository : Option String
  branch : Option String
  commitSha : Option String
  capabilities : List String
  accessScopes : List String
  startedAt : String
  deriving DecidableEq

structure ObservationRow where
  observationId : Nat
  clientId : String
  sessionId : String
  sourceType : String
  sourceUri : Option String
  projectRoot : Option String
  repository : Option String
  branch : Option String
  commitSha : Option String
  content : String
  contentSha256 : String
  assertedBy : Option String
  performedBy : Option String
  observedAt : Option String
  recordedAt : String
  scope : String
  sensitivity : String
  redactedAt : Option String
  metadataJson : Json

structure ProvenanceRow where
  factId : Nat
  observationId : Nat
  relation : String
  evidenceExcerpt : Option String
  createdAt : String
  deriving DecidableEq

structure WriteLogRow where
  writeId : String
  idempotencyKey : String
  clientId : String
  sessionId : String
  operation : String
  outcome : Outcome
  factId : Option Nat
  existingFactId : Option Nat
  observationId : Option Nat
  recordedAt : String
  requestSha256 : String
  detailJson : Json

structure ErasureRow where
  erasureId : String
  factId : Nat
  requestedBy : String
  reason : String
  erasedAt : String
  affectedObservations : Nat
  affectedEmbeddings : Nat
  affectedQueueRows : Nat
  deriving DecidableEq

/-! ## Conflict tables -/

structure ConflictRow where
  conflictId : String
  scope : String
  subjectKey : String
  predicateKey : String
  detectedAt : String
  resolvedAt : Option String
  resolutionFactId : Option Nat
  resolvedBy : Option String
  resolutionReason : Option String
  detailJson : Json

namespace ConflictRow

def slot (c : ConflictRow) : Slot := ⟨c.scope, c.subjectKey, c.predicateKey⟩

/-- `resolved_at IS NULL`. -/
def Unresolved (c : ConflictRow) : Prop := c.resolvedAt = none

instance (c : ConflictRow) : Decidable c.Unresolved := inferInstanceAs (Decidable (_ = _))

end ConflictRow

structure MemberRow where
  conflictId : String
  factId : Nat
  deriving DecidableEq

structure ResolutionRow where
  conflictId : String
  resolutionFactId : Nat
  resolverClientId : String
  resolverSessionId : String
  resolverAgentId : String
  reason : String
  resolvedAt : String
  deriving DecidableEq

/-! ## Embedding tables -/

inductive JobStatus where
  | pending
  | processing
  | completed
  | deadLetter
  deriving DecidableEq, Repr

structure JobRow where
  jobId : Nat
  factId : Nat
  documentIdentity : String
  embeddingVersion : String
  dimensions : Nat
  contentSha256 : String
  status : JobStatus
  attempts : Nat
  availableAt : String
  leaseToken : Option String
  leaseOwner : Option String
  leaseExpiresAt : Option String
  lastError : Option String
  createdAt : String
  updatedAt : String
  completedAt : Option String
  deriving DecidableEq

/-- A stored vector, as its components. -/
structure EmbeddingRow where
  factId : Nat
  embeddingIdentity : String
  embedding : List Decimal
  dim : Nat
  deriving DecidableEq

/-! ## The extraction queue -/

inductive QueueStatus where
  | pending
  | processing
  | dead
  deriving DecidableEq, Repr

/-- A queued transcript.  Payload and proposal snapshot are documents whose text keeps
characters beyond ASCII; times are seconds. -/
structure QueueRow where
  id : Nat
  payload : Json
  attempts : Nat
  lastError : Option String
  status : QueueStatus
  notBefore : Option Decimal
  leaseOwner : Option String
  leaseUntil : Option Decimal
  leaseToken : Option String
  payloadHash : Option String
  proposalJson : Option Json
  proposalHash : Option String

/-! ## The store -/

structure Store where
  facts : Facts
  factsFts : Table Nat FtsRow FtsRow.rowid
  clients : Table String ClientRow ClientRow.clientId
  sessions : Table (String × String) SessionRow fun r => (r.clientId, r.sessionId)
  observations : Table Nat ObservationRow ObservationRow.observationId
  provenance : Table (Nat × Nat × String) ProvenanceRow
    fun r => (r.factId, r.observationId, r.relation)
  /-- Keyed by its unique columns; `write_id` is checked at the insert. -/
  writeLog : Table (String × String) WriteLogRow fun r => (r.clientId, r.idempotencyKey)
  conflicts : Table String ConflictRow ConflictRow.conflictId
  conflictMembers : Table (String × Nat) MemberRow fun r => (r.conflictId, r.factId)
  conflictResolutions : Table String ResolutionRow ResolutionRow.conflictId
  erasureLog : Table String ErasureRow ErasureRow.erasureId
  /-- Keyed by its unique columns; `job_id` is generated. -/
  embeddingJobs : Table (Nat × String) JobRow fun r => (r.factId, r.documentIdentity)
  factEmbeddings : Table (Nat × String) EmbeddingRow fun r => (r.factId, r.embeddingIdentity)
  extractQueue : Table Nat QueueRow QueueRow.id
  /-- The AUTOINCREMENT sequence of the queue. -/
  queueSequence : Nat

/-- A freshly migrated store. -/
def Store.empty : Store where
  facts := Facts.empty
  factsFts := Table.empty
  clients := Table.empty
  sessions := Table.empty
  observations := Table.empty
  provenance := Table.empty
  writeLog := Table.empty
  conflicts := Table.empty
  conflictMembers := Table.empty
  conflictResolutions := Table.empty
  erasureLog := Table.empty
  embeddingJobs := Table.empty
  factEmbeddings := Table.empty
  extractQueue := Table.empty
  queueSequence := 0

/-- The id an INTEGER PRIMARY KEY without AUTOINCREMENT generates. -/
def nextRowId (ids : List Nat) : Nat := ids.foldr max 0 + 1

theorem lt_nextRowId {ids : List Nat} {k : Nat} (mem : k ∈ ids) : k < nextRowId ids := by
  unfold nextRowId
  induction ids with
  | nil => cases mem
  | cons n ids ih =>
      simp only [List.foldr_cons]
      rcases List.mem_cons.1 mem with rfl | mem
      · omega
      · have := ih mem
        omega

/-- `INSERT` into a table; a taken key raises. -/
def insertRow {K R : Type} {key : R → K} [DecidableEq K] (t : Table K R key) (r : R)
    (columns : String) : Py (Table K R key) :=
  match t.insert? r with
  | some u => .ok u
  | none => .error (SQLite.unique columns)

theorem insertRow_eq_ok {K R : Type} {key : R → K} [DecidableEq K] {t u : Table K R key} {r : R}
    {columns : String} : insertRow t r columns = .ok u ↔ t.insert? r = some u := by
  unfold insertRow
  split
  · rename_i v inserted
    rw [inserted]
    simp
  · rename_i taken
    rw [taken]
    simp

/-- `INSERT … ON CONFLICT(key) DO NOTHING`. -/
def insertOrIgnore {K R : Type} {key : R → K} [DecidableEq K] (t : Table K R key) (r : R) :
    Table K R key :=
  (t.insert? r).getD t

theorem mem_insertOrIgnore_of_mem {K R : Type} {key : R → K} [DecidableEq K] {t : Table K R key}
    {r r' : R} (mem : r' ∈ t) : r' ∈ insertOrIgnore t r := by
  unfold insertOrIgnore
  cases inserted : t.insert? r with
  | none => exact mem
  | some u => exact (Table.mem_of_insert? inserted).2 (.inl mem)

/-- A row whose key is taken is not inserted. -/
theorem insertOrIgnore_of_taken {K R : Type} {key : R → K} [DecidableEq K] {t : Table K R key}
    {r r' : R} (mem : r' ∈ t) (same : key r' = key r) : insertOrIgnore t r = t := by
  unfold insertOrIgnore
  cases inserted : t.insert? r with
  | none => rfl
  | some u => exact absurd same (Table.fresh_of_insert? inserted mem)

/-! ## What the repository calls and does not contain -/

/-- The collaborators outside the repository: the digest, the full-text ranking of SQLite,
the vector arithmetic of NumPy and the tables of sqlite-vec. -/
structure Host where
  /-- The hexadecimal SHA-256 digest of a text. -/
  sha256 : String → String
  /-- The `bm25` rank of an index entry for a query of alternative terms; `none` when it
  does not match.  The rank depends on the whole index. -/
  bm25 : List String → List FtsRow → FtsRow → Option Decimal
  /-- The Euclidean norm. -/
  norm : List Decimal → Decimal
  /-- The cosine of two vectors; `none` when it is not a number. -/
  cosine : List Decimal → List Decimal → Option Decimal
  /-- Rounding to six places. -/
  round6 : Decimal → Decimal
  /-- Whether an `INSERT OR REPLACE` of a rowid that a vec0 table holds replaces its row; else it
  raises. -/
  vec0Replaces : Bool

end Enfold.Model
