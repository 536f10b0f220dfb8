/-
# Model.VecIndex -- the derived vector index and the handles that write it
(`sqlite_vec_index.py`, `embed_store.py`, the writer of `hybrid_retrieval.py`)

`fact_embeddings` is the source of truth.  Beside it stand two vec0 tables, of which one is
active; three rows of `enfold_meta` say which, and for which identity and dimension.  A
rebuild fills the other table from the canonical rows and makes it active.  Only a rebuild
writes the three rows, and it writes all of them, so they are one optional value here.

Every handle opens the index when it is made and keeps what it got: the name of a table and
the identity and dimension it was active for.

Whether the extension loads is an input of every call that needs it, and whether it replaces a
row that is there belongs to the host: the versions of sqlite-vec differ.  The vectors are
finite, as everywhere in the model; log lines are left out.
-/
import Enfold.Model.Runs
import Mathlib.Data.List.Sort
import Mathlib.Logic.Function.Basic

namespace Enfold.Model

open Enfold.Theory

set_option autoImplicit false

/-- `TABLE_NAMES`. -/
inductive VecTableName where
  | a
  | b
  deriving DecidableEq, Repr

def VecTableName.text : VecTableName → String
  | .a => "enfold_vec_embeddings_a"
  | .b => "enfold_vec_embeddings_b"

/-- A row of a vec0 table. -/
structure VecRow where
  rowid : Nat
  embedding : List Decimal
  deriving DecidableEq

/-- A vec0 table over `float[dimensions]`: every vector has that many components. -/
structure VecTable where
  dimensions : Nat
  rows : Table Nat VecRow VecRow.rowid
  fits : ∀ r ∈ rows, r.embedding.length = dimensions

/-- The rows of `enfold_meta` the index is bound by. -/
structure VecBinding where
  identity : String
  dimensions : Nat
  activeTable : VecTableName

namespace VecTable

/-- `INSERT OR REPLACE`; a vector of another dimension is refused, and so is a second row of one
rowid where the extension replaces none. -/
def replace (host : Host) (name : VecTableName) (table : VecTable) (row : VecRow) :
    Py VecTable := do
  let ⟨fit⟩ ← checked (row.embedding.length = table.dimensions) ⟨.foreign, "dimension mismatch"⟩
  require (host.vec0Replaces = true ∨ row.rowid ∉ table.rows.rows.map VecRow.rowid)
    ⟨.foreign, "UNIQUE constraint failed on " ++ name.text ++ " primary key"⟩
  return {
    dimensions := table.dimensions
    rows := table.rows.replace row
    fits := fun r mem => by
      obtain ⟨old, -⟩ | rfl := Table.mem_replace.1 mem
      · exact table.fits r old
      · exact fit }

def delete (table : VecTable) (rowid : Nat) : VecTable where
  dimensions := table.dimensions
  rows := table.rows.delete fun r => r.rowid = rowid
  fits r mem := table.fits r (Table.mem_delete.1 mem).1

def clear (table : VecTable) : VecTable where
  dimensions := table.dimensions
  rows := Table.empty
  fits r mem := by cases mem

/-- A new table filled by `executemany INSERT`. -/
def filled (dimensions : Nat) (rows : List VecRow) : Py VecTable :=
  match Table.insertAll? (Table.empty : Table Nat VecRow VecRow.rowid) rows with
  | none => .error (SQLite.unique "rowid")
  | some rows => do
      let ⟨fits⟩ ← checked (∀ r ∈ rows.rows, r.embedding.length = dimensions)
        ⟨.foreign, "dimension mismatch"⟩
      return { dimensions, rows, fits }

end VecTable

/-- The store with its derived tables. -/
structure VecDb where
  store : Store
  binding : Option VecBinding
  tables : VecTableName → Option VecTable

def VecDb.empty : VecDb := ⟨Store.empty, none, fun _ => none⟩

def sqliteVecError (message : String) : Raised := ⟨.sqliteVecError, message⟩

/-! ## The index -/

/-- `SQLiteVecIndex`. -/
structure SQLiteVecIndex where
  identity : String
  dimensions : Nat
  tableName : VecTableName
  deriving DecidableEq

/-- The vectors of one identity and dimension. -/
def canonicalRows (s : Store) (identity : String) (dimensions : Nat) : List EmbeddingRow :=
  s.factEmbeddings.select fun e => e.embeddingIdentity = identity ∧ e.dim = dimensions

/-- What is compared: the counts and, by `EXCEPT` both ways, the ids. -/
def PopulationMatches (source : List EmbeddingRow) (indexed : List VecRow) : Prop :=
  source.length = indexed.length ∧
    (∀ e ∈ source, e.factId ∈ indexed.map VecRow.rowid) ∧
    ∀ r ∈ indexed, r.rowid ∈ source.map EmbeddingRow.factId

instance (source : List EmbeddingRow) (indexed : List VecRow) :
    Decidable (PopulationMatches source indexed) :=
  inferInstanceAs (Decidable (_ ∧ _ ∧ _))

namespace SQLiteVecIndex

/-- `SQLiteVecIndex.open`. -/
def openIndex (loads : Bool) (db : VecDb) (identity : String) (dimensions : Nat) :
    Option SQLiteVecIndex :=
  if strip identity = "" ∨ dimensions < 1 then none
  else if ¬ loads then none
  else
    match db.binding with
    | none => none
    | some binding =>
        match db.tables binding.activeTable with
        | none => none
        | some table =>
            if binding.identity ≠ identity then none
            else if binding.dimensions ≠ dimensions then none
            else if ¬ PopulationMatches (canonicalRows db.store identity dimensions)
                table.rows.rows then none
            else some ⟨identity, dimensions, binding.activeTable⟩

def openConfigured (loads : Bool) (db : VecDb) : Option SQLiteVecIndex :=
  match db.binding with
  | none => none
  | some binding => openIndex loads db binding.identity binding.dimensions

/-- Run a statement on the table of the index. -/
def onTable (index : SQLiteVecIndex) (db : VecDb) (statement : VecTable → Py VecTable) :
    Py VecDb := do
  match db.tables index.tableName with
  | none => throw ⟨.foreign, "no such table"⟩
  | some table =>
      let table ← statement table
      return { db with tables := Function.update db.tables index.tableName (some table) }

def upsertInTransaction (host : Host) (index : SQLiteVecIndex) (db : VecDb) (factId : Nat)
    (embedding : List Decimal) : Py VecDb := do
  require (embedding.length = index.dimensions)
    (sqliteVecError "embedding does not match vec0 index dimensions")
  index.onTable db fun table => table.replace host index.tableName ⟨factId, embedding⟩

def deleteInTransaction (index : SQLiteVecIndex) (db : VecDb) (factId : Nat) : Py VecDb :=
  index.onTable db fun table => .ok (table.delete factId)

def clearInTransaction (index : SQLiteVecIndex) (db : VecDb) : Py VecDb :=
  index.onTable db fun table => .ok table.clear

end SQLiteVecIndex

/-! ## Rebuild -/

structure SQLiteVecRebuildReport where
  embeddingIdentity : String
  dimensions : Nat
  indexedCount : Nat

/-- The table that is not active. -/
def rebuildTarget : Option VecBinding → VecTableName
  | some ⟨_, _, .a⟩ => .b
  | _ => .a

/-- A canonical row as the rebuild checks and copies it. -/
def validatedRow (dimensions : Nat) (e : EmbeddingRow) : Py VecRow := do
  require (e.embedding.length = dimensions)
    (sqliteVecError ("embedding for fact " ++ natText e.factId ++ " is malformed"))
  return ⟨e.factId, e.embedding⟩

def rebuildSqliteVecIndex (loads : Bool) (embeddingIdentity : String) (dimensions : Nat)
    (db : VecDb) : Py (VecDb × SQLiteVecRebuildReport) := do
  require (strip embeddingIdentity ≠ "" ∧ 1 ≤ dimensions)
    (valueError "embedding identity and dimensions must be valid")
  require loads (sqliteVecError "sqlite-vec extension is unavailable")
  let target := rebuildTarget db.binding
  let wrongDim := db.store.factEmbeddings.rowcount fun e =>
    e.embeddingIdentity = embeddingIdentity ∧ e.dim ≠ dimensions
  require (wrongDim = 0) (sqliteVecError ("configured identity has " ++ natText wrongDim ++
    " vector(s) with the wrong dimension"))
  let rows := (db.store.factEmbeddings.select fun e =>
    e.embeddingIdentity = embeddingIdentity).insertionSort fun x y => x.factId ≤ y.factId
  let validated ← rows.mapM (validatedRow dimensions)
  let table ← VecTable.filled dimensions validated
  return (
    { db with
      tables := Function.update db.tables target (some table)
      binding := some ⟨embeddingIdentity, dimensions, target⟩ },
    ⟨embeddingIdentity, dimensions, validated.length⟩)

/-! ## The writer of the embedding worker -/

theorem SQLiteVecIndex.openIndex_bound {loads : Bool} {db : VecDb} {identity : String}
    {dimensions : Nat} {index : SQLiteVecIndex}
    (opened : openIndex loads db identity dimensions = some index) :
    index.identity = identity ∧ index.dimensions = dimensions := by
  unfold openIndex at opened
  repeat' split at opened
  all_goals first | cases opened; exact ⟨rfl, rfl⟩ | cases opened

/-- The arguments of `SQLiteStoredEmbeddingWriter` besides the connection and the model. -/
structure WriterSettings where
  documentIdentity : String
  embeddingVersion : String
  modelFingerprint : String
  prefixPolicy : String
  dimensions : Nat
  documentPrefix : String
  queryPrefix : String

/-- `SQLiteStoredEmbeddingWriter`.  Its index was opened for its own configuration. -/
structure StoredEmbeddingWriter where
  documentIdentity : String
  embeddingVersion : String
  dimensions : Nat
  vectorIndex : Option SQLiteVecIndex
  bound : ∀ index ∈ vectorIndex, index.identity = documentIdentity ∧ index.dimensions = dimensions

/-- `text.count(marker) == 1`. -/
def OccursOnce (marker text : String) : Prop :=
  ((afterMarker marker.toList text.toList).any fun rest =>
    (afterMarker marker.toList rest).isNone) = true

instance (marker text : String) : Decidable (OccursOnce marker text) :=
  inferInstanceAs (Decidable (_ = true))

namespace StoredEmbeddingWriter

/-- The prefixes are those the policy names. -/
def checkPrefixes (host : Host) (settings : WriterSettings) : Py PUnit := do
  if settings.prefixPolicy = "none" then
    require (settings.queryPrefix = "" ∧ settings.documentPrefix = "")
      (valueError "none prefix policy requires empty query/document prefixes")
  else if "sha256-".toList.isPrefixOf settings.prefixPolicy.toList then
    let digest := host.sha256 (settings.queryPrefix ++ "\x00" ++ settings.documentPrefix)
    require (settings.prefixPolicy = "sha256-" ++ digest)
      (valueError "document prefix does not match prefix policy")
  else throw (valueError "prefix policy must be none or sha256-<full digest>")

/-- The constructor: the checks, then the index as it is now. -/
def make (host : Host) (loads : Bool) (settings : WriterSettings) (db : VecDb) :
    Py StoredEmbeddingWriter := do
  require (OccursOnce ":document:" settings.documentIdentity)
    (valueError "document_identity must contain exactly one ':document:' role")
  require (1 ≤ settings.dimensions) (valueError "dimensions must be positive")
  require (settings.embeddingVersion = settings.modelFingerprint)
    (valueError "model fingerprint must equal embedding version")
  checkPrefixes host settings
  require ((":document:" ++ settings.prefixPolicy ++ ":" ++ settings.embeddingVersion).toList <:+
      settings.documentIdentity.toList)
    (valueError "document identity is not bound to writer configuration")
  return {
    documentIdentity := settings.documentIdentity
    embeddingVersion := settings.embeddingVersion
    dimensions := settings.dimensions
    vectorIndex := SQLiteVecIndex.openIndex loads db settings.documentIdentity settings.dimensions
    bound := fun _ opened => SQLiteVecIndex.openIndex_bound opened }

/-- Store the canonical row, then its copy in the table of the index. -/
def upsertInTransaction (host : Host) (writer : StoredEmbeddingWriter) (factId : Nat)
    (embedding : List Decimal) (db : VecDb) : Py VecDb := do
  let store ← Model.upsertInTransaction
    ⟨writer.documentIdentity, writer.embeddingVersion, writer.dimensions⟩ db.store factId embedding
  let db := { db with store }
  match writer.vectorIndex with
  | none => return db
  | some index => index.upsertInTransaction host db factId embedding

end StoredEmbeddingWriter

/-! ## The embedding store -/

/-- `EmbedStore`. -/
structure EmbedStore where
  embeddingIdentity : Option String
  vectorIndex : Option SQLiteVecIndex

namespace EmbedStore

def make (loads : Bool) (embeddingIdentity : Option String) (db : VecDb) : EmbedStore :=
  ⟨embeddingIdentity, SQLiteVecIndex.openConfigured loads db⟩

/-- The identity a vector is stored under. -/
def storedIdentity (self : EmbedStore) (embeddingIdentity : Option String) : String :=
  orElse (embeddingIdentity <|> self.embeddingIdentity) "legacy:unknown:document:none:v1"

/-- Store the canonical row, then its copy when the index is for its identity and dimension. -/
def upsertAs (host : Host) (vectorIndex : Option SQLiteVecIndex) (identity : String)
    (factId : Nat) (embedding : List Decimal) (db : VecDb) : Py VecDb := do
  let store ← upsertInTransaction ⟨identity, "", embedding.length⟩ db.store factId embedding
  let db := { db with store }
  match vectorIndex with
  | none => return db
  | some index =>
      if identity = index.identity ∧ embedding.length = index.dimensions then
        index.upsertInTransaction host db factId embedding
      else return db

def upsert (host : Host) (self : EmbedStore) (factId : Nat) (vec : List Decimal)
    (embeddingIdentity : Option String) (db : VecDb) : Py VecDb :=
  upsertAs host self.vectorIndex (self.storedIdentity embeddingIdentity) factId vec db

/-- Remove the vectors of a fact, under every identity. -/
def delete (self : EmbedStore) (factId : Nat) (db : VecDb) : Py VecDb := do
  let db := { db with store := deleteEmbeddings db.store factId }
  match self.vectorIndex with
  | none => return db
  | some index => index.deleteInTransaction db factId

/-- The canonical rows without those of other identities. -/
def pruned (s : Store) (keep : List String) : Store :=
  { s with factEmbeddings := s.factEmbeddings.delete fun e => e.embeddingIdentity ∉ keep }

def pruneIdentities (self : EmbedStore) (keep : List String) (db : VecDb) : Py (VecDb × Nat) := do
  require (keep ≠ []) (valueError "prune_identities requires a non-empty keep set")
  let deleted := db.store.factEmbeddings.rowcount fun e => e.embeddingIdentity ∉ keep
  let db := { db with store := pruned db.store keep }
  match self.vectorIndex with
  | none => return (db, deleted)
  | some index =>
      if index.identity ∈ keep then return (db, deleted)
      else return (← index.clearInTransaction db, deleted)

end EmbedStore

/-! ## Erasure with the index -/

/-- `erase_fact`.  The index is opened before the transaction; its row goes in the middle of
it, which nothing between can see. -/
def eraseWithIndex (host : Host) (loads : Bool) (call : EraseCall) (db : VecDb) :
    Py (VecDb × ErasureReport) := do
  let vectorIndex := SQLiteVecIndex.openConfigured loads db
  let (store, report) ← call.apply host db.store
  let db := { db with store }
  match vectorIndex with
  | none => return (db, report)
  | some index => return (← index.deleteInTransaction db call.factId, report)

/-! ## The system

Any number of handles over one store.  An action is one transaction: it commits, or leaves
everything as it was. -/

/-- A call that neither stores nor erases a vector. -/
def Op.LeavesVectors : Op → Prop
  | .storeEmbedding .. | .erase _ => False
  | _ => True

namespace VecSystem

structure State where
  db : VecDb
  writers : List StoredEmbeddingWriter
  stores : List EmbedStore

def State.empty : State := ⟨VecDb.empty, [], []⟩

inductive Action where
  | openWriter (loads : Bool) (settings : WriterSettings)
  | openStore (loads : Bool) (embeddingIdentity : Option String)
  | writerUpsert (writer factId : Nat) (embedding : List Decimal)
  | storeUpsert (store factId : Nat) (vec : List Decimal) (embeddingIdentity : Option String)
  | storeDelete (store factId : Nat)
  | pruneIdentities (store : Nat) (keep : List String)
  | rebuild (loads : Bool) (embeddingIdentity : String) (dimensions : Nat)
  | erase (loads : Bool) (call : EraseCall)
  /-- Any other call of the store. -/
  | call (op : Op) (leaves : op.LeavesVectors)

/-- The database after a transaction. -/
def settled (db : VecDb) : Py VecDb → VecDb
  | .ok new => new
  | .error _ => db

def advance (host : Host) (action : Action) (state : State) : State :=
  match action with
  | .openWriter loads settings =>
      match StoredEmbeddingWriter.make host loads settings state.db with
      | .ok writer => { state with writers := state.writers ++ [writer] }
      | .error _ => state
  | .openStore loads embeddingIdentity =>
      { state with stores := state.stores ++ [EmbedStore.make loads embeddingIdentity state.db] }
  | .writerUpsert writer factId embedding =>
      match state.writers[writer]? with
      | none => state
      | some writer =>
          { state with
            db := settled state.db (writer.upsertInTransaction host factId embedding state.db) }
  | .storeUpsert store factId vec embeddingIdentity =>
      match state.stores[store]? with
      | none => state
      | some store =>
          { state with
            db := settled state.db (store.upsert host factId vec embeddingIdentity state.db) }
  | .storeDelete store factId =>
      match state.stores[store]? with
      | none => state
      | some store => { state with db := settled state.db (store.delete factId state.db) }
  | .pruneIdentities store keep =>
      match state.stores[store]? with
      | none => state
      | some store => { state with db := commit state.db (store.pruneIdentities keep state.db) }
  | .rebuild loads embeddingIdentity dimensions =>
      { state with
        db := commit state.db (rebuildSqliteVecIndex loads embeddingIdentity dimensions state.db) }
  | .erase loads call =>
      { state with db := commit state.db (eraseWithIndex host loads call state.db) }
  | .call op _ => { state with db := { state.db with store := step host op state.db.store } }

end VecSystem

namespace Sample

/-- A fact whose vector is stored, and then indexed. -/
def indexedDoor : List VecSystem.Action :=
  [.call (.write ⟨service, tick "1", context "agent-a", request "the door opens", none⟩) trivial,
    .openStore true (some "sample"), .storeUpsert 0 1 [.one] none, .rebuild true "sample" 1]

end Sample

end Enfold.Model
