/-
# Model.QueueMigration -- provisioning `extract_queue` (`schema.py`)

`ensureExtractionQueueSchema` brings a queue of an older layout to the present one: missing
columns are added, absent times are filled in, and every row gets its payload hash, one
`UPDATE` a row in the order of the ids.  A unique index that is there already is enforced at
each of them.

A column that a layout lacks reads, in a row, as the default it is added with.  `payload`,
`status` and `attempts` are never NULL here.
-/
import Enfold.Model.ExtractQueue

namespace Enfold.Model

open Enfold.Theory

set_option autoImplicit false

/-- A row of `PRAGMA table_info`. -/
structure Column where
  name : String
  notNull : Bool
  /-- The place in the primary key; 0 for the other columns. -/
  primaryKey : Nat
  deriving DecidableEq

/-- The table with its layout. -/
structure QueueDb where
  columns : List Column
  queue : ExtractTable

namespace QueueMigration

def migrationError (message : String) : Raised := ⟨.migrationError, message⟩

/-- The columns added when missing, and whether they are NOT NULL. -/
def addedColumns : List Column :=
  [⟨"created_at", false, 0⟩, ⟨"attempts", true, 0⟩, ⟨"last_error", false, 0⟩,
    ⟨"status", true, 0⟩, ⟨"not_before", false, 0⟩, ⟨"lease_owner", false, 0⟩,
    ⟨"lease_until", false, 0⟩, ⟨"lease_token", false, 0⟩, ⟨"payload_hash", false, 0⟩,
    ⟨"proposal_json", false, 0⟩, ⟨"proposal_hash", false, 0⟩]

/-- What `CREATE TABLE IF NOT EXISTS` makes. -/
def freshDb : QueueDb where
  columns := [⟨"id", false, 1⟩, ⟨"payload", true, 0⟩] ++ addedColumns
  queue :=
    { table := Table.empty
      sequence := 0
      bounded := fun _ mem => absurd mem (Table.not_mem_empty _)
      indexed := false
      unique := fun never => by cases never }

def names (columns : List Column) : List String := columns.map Column.name

def column? (columns : List Column) (name : String) : Option Column :=
  columns.find? fun c => c.name = name

/-- `ALTER TABLE … RENAME COLUMN queue_id TO id` for a layout without `id`. -/
def renameKey (columns : List Column) : Py (List Column) :=
  if "id" ∈ names columns then .ok columns
  else
    match column? columns "queue_id" with
    | none => .ok columns
    | some key => do
        require (key.primaryKey = 1)
          (migrationError "extract_queue.queue_id must be the primary key")
        return columns.map fun c => if c.name = "queue_id" then { c with name := "id" } else c

/-- `ALTER TABLE … ADD COLUMN` for each column that is missing. -/
def addColumns (columns : List Column) : List Column :=
  columns ++ addedColumns.filter fun c => c.name ∉ names columns

/-- `(proposal_json IS NULL) != (proposal_hash IS NULL)`. -/
def SnapshotMismatch (r : ExtractRow) : Prop := r.proposalJson.isNone ≠ r.proposalHash.isNone

instance (r : ExtractRow) : Decidable (SnapshotMismatch r) := inferInstanceAs (Decidable (_ ≠ _))

section Rehash

variable (host : QueueHost)

/-- The hash a row claims: its own, or else the digest of its payload. -/
def candidateHash (r : ExtractRow) : String :=
  match r.payloadHash with
  | none => host.sha256 r.payload
  | some digest => if digest = "" then host.sha256 r.payload else digest

/-- `UPDATE extract_queue SET payload_hash = ? WHERE id = ?`. -/
def setHash (q : ExtractTable) (id : Int) (digest : Option String) : Py ExtractTable :=
  q.update (fun r => r.id = id) fun r => { r with payloadHash := digest }

/-- The loop over the rows; `activeHashes` are those of the active rows before. -/
def rehashRows : List ExtractRow → List String → ExtractTable → Py ExtractTable
  | [], _, q => .ok q
  | r :: rest, activeHashes, q => do
      let candidate := candidateHash host r
      if r.Active then
        if candidate ∈ activeHashes then
          -- The row is kept; it only stops claiming the hash.
          rehashRows rest activeHashes (← setHash q r.id none)
        else rehashRows rest (activeHashes ++ [candidate]) (← setHash q r.id (some candidate))
      else rehashRows rest activeHashes (← setHash q r.id (some candidate))

/-- `ORDER BY id`. -/
def inOrder (q : ExtractTable) : List ExtractRow :=
  q.table.rows.mergeSort fun r r' => r.id ≤ r'.id

/-- `CREATE UNIQUE INDEX IF NOT EXISTS uq_extract_queue_active_payload_hash`. -/
def installIndex (q : ExtractTable) : Py ExtractTable := do
  let ⟨unique⟩ ← checked (ActiveUnique q.table.rows) (SQLite.unique "extract_queue.payload_hash")
  return { q with indexed := true, unique := fun _ => unique }

/-- `UPDATE extract_queue SET created_at = CURRENT_TIMESTAMP WHERE created_at IS NULL`. -/
def backfillCreated (q : ExtractTable) (now : String) : Py ExtractTable :=
  q.update (fun r => r.createdAt = none) fun r => { r with createdAt := some now }

/-- `_ensure_extraction_queue_schema`; `now` is `CURRENT_TIMESTAMP`. -/
def ensureExtractionQueueSchema (now : String) (db : Option QueueDb) : Py QueueDb := do
  let db := db.getD freshDb
  let columns ← renameKey db.columns
  require (∃ key ∈ column? columns "id", key.primaryKey = 1)
    (migrationError "extract_queue.id must be the primary key")
  require (∃ payload ∈ column? columns "payload", payload.notNull = true)
    (migrationError "extract_queue.payload must be NOT NULL")
  let columns := addColumns columns
  let queue ← backfillCreated db.queue now
  require (¬ ∃ r ∈ queue.table.rows, SnapshotMismatch r)
    (migrationError "extract_queue proposal snapshot columns are inconsistent")
  require (¬ ∃ r ∈ queue.table.rows, r.attempts < 0)
    (migrationError "extract_queue contains incompatible null/negative rows")
  let queue ← rehashRows host (inOrder queue) [] queue
  return ⟨columns, ← installIndex queue⟩

end Rehash

end QueueMigration

end Enfold.Model
