/-
# Laws.DerivedIndex -- what an opened vector index holds

`openIndex` compares ids, not vectors.  Its answer is exact as long as the active table and
the canonical rows agree on the facts both hold (`InStep`).  Deletions, prunes, erasures and
rebuilds keep that by themselves; an upsert keeps it when the fact's vector reaches both
sides, or the side it does not reach holds no other vector of that fact
(`VecUpsert.KeepsPair`), whether vec0 replaces a row it holds or raises.  A handle keeps the table
it was opened with, so after a rebuild its upserts can miss the active table:
`stale_handle_opens` is a run in which the opened index serves a vector that the canonical row no
longer has.

The second part is erasure: it reaches the vec0 row of its fact in the table `openConfigured`
returns and in no other.
-/
import Enfold.Model.VecIndex
import Enfold.Laws.JobEffects
import Enfold.Theory.Mirror

namespace Enfold.Laws

open Enfold.Theory Enfold.Model

set_option autoImplicit false

/-! ## The two sides -/

/-- The pairs of `fact_embeddings` with the identity and dimension. -/
def Canonical (s : Store) (identity : String) (dimensions factId : Nat)
    (embedding : List Decimal) : Prop :=
  ∃ e ∈ s.factEmbeddings, e.factId = factId ∧ e.embeddingIdentity = identity ∧
    e.dim = dimensions ∧ e.embedding = embedding

/-- The pairs of a vec0 table. -/
def Indexed (db : VecDb) (name : VecTableName) (factId : Nat) (embedding : List Decimal) : Prop :=
  ∃ table ∈ db.tables name, ⟨factId, embedding⟩ ∈ table.rows

/-- The active table and the canonical rows agree on the facts both hold. -/
def InStep (db : VecDb) : Prop :=
  ∀ binding ∈ db.binding,
    Mirror (Canonical db.store binding.identity binding.dimensions) (Indexed db binding.activeTable)

instance (s : Store) (identity : String) (dimensions factId : Nat) (embedding : List Decimal) :
    Decidable (Canonical s identity dimensions factId embedding) :=
  inferInstanceAs (Decidable (∃ e ∈ s.factEmbeddings.rows, _))

instance (db : VecDb) (name : VecTableName) (factId : Nat) (embedding : List Decimal) :
    Decidable (Indexed db name factId embedding) :=
  inferInstanceAs (Decidable (∃ table, db.tables name = some table ∧ _ ∈ table.rows.rows))

theorem canonical_unique {s : Store} {identity : String} {dimensions : Nat} (factId : Nat)
    (v w : List Decimal) (here : Canonical s identity dimensions factId v)
    (there : Canonical s identity dimensions factId w) : v = w := by
  obtain ⟨e, mem, fact, same, -, rfl⟩ := here
  obtain ⟨e', mem', fact', same', -, rfl⟩ := there
  rw [Table.eq_of_key mem mem' (by rw [fact, fact', same, same'])]

theorem canonical_of_subset {s s' : Store}
    (kept : ∀ e ∈ s'.factEmbeddings, e ∈ s.factEmbeddings) {identity : String} {dimensions : Nat}
    (factId : Nat) (v : List Decimal) (there : Canonical s' identity dimensions factId v) :
    Canonical s identity dimensions factId v := by
  obtain ⟨e, mem, about⟩ := there
  exact ⟨e, kept e mem, about⟩

/-- An index that was opened is for the active table, which has exactly the ids of the
canonical rows. -/
theorem openIndex_eq_some {loads : Bool} {db : VecDb} {identity : String} {dimensions : Nat}
    {index : SQLiteVecIndex}
    (opened : SQLiteVecIndex.openIndex loads db identity dimensions = some index) :
    db.binding = some ⟨identity, dimensions, index.tableName⟩ ∧
      ∃ table, db.tables index.tableName = some table ∧
        PopulationMatches (canonicalRows db.store identity dimensions) table.rows.rows := by
  unfold SQLiteVecIndex.openIndex at opened
  split at opened
  · cases opened
  split at opened
  · cases opened
  split at opened
  · cases opened
  rename_i binding bound
  split at opened
  · cases opened
  rename_i table present
  split at opened
  · cases opened
  rename_i same
  split at opened
  · cases opened
  rename_i sized
  split at opened
  · cases opened
  rename_i population
  cases opened
  refine ⟨?_, table, present, not_not.1 population⟩
  rw [bound, ← not_not.1 same, ← not_not.1 sized]

/-- In step, an opened index holds exactly the canonical pairs. -/
theorem InStep.exact {db : VecDb} (inStep : InStep db) {loads : Bool} {identity : String}
    {dimensions : Nat} {index : SQLiteVecIndex}
    (opened : SQLiteVecIndex.openIndex loads db identity dimensions = some index)
    (factId : Nat) (v : List Decimal) :
    Indexed db index.tableName factId v ↔ Canonical db.store identity dimensions factId v := by
  obtain ⟨bound, table, present, -, missing, extra⟩ := openIndex_eq_some opened
  refine (inStep _ bound).exact_of_keys ?_ ?_ factId v
  · rintro factId v ⟨e, mem, rfl, same, sized, -⟩
    obtain ⟨r, here, about⟩ := List.mem_map.1 (missing e (Table.mem_select.2 ⟨mem, same, sized⟩))
    rw [← about]
    exact ⟨r.embedding, table, present, here⟩
  · rintro factId w ⟨table', present', here⟩
    cases present.symm.trans present'
    obtain ⟨e, mem, about⟩ := List.mem_map.1 (extra _ here)
    obtain ⟨mem, same, sized⟩ := Table.mem_select.1 mem
    exact ⟨e.embedding, e, mem, about, same, sized, rfl⟩

/-! ## Statements on a vec0 table -/

theorem onTable_eq_ok {index : SQLiteVecIndex} {db db' : VecDb} {statement : VecTable → Py VecTable}
    (done : index.onTable db statement = .ok db') :
    ∃ table table', db.tables index.tableName = some table ∧ statement table = .ok table' ∧
      db' = { db with tables := Function.update db.tables index.tableName (some table') } := by
  unfold SQLiteVecIndex.onTable at done
  split at done
  · cases done
  rename_i table present
  obtain ⟨table', ran, done⟩ := bind_eq_ok.1 done
  exact ⟨table, table', present, ran, (pure_eq_ok.1 done).symm⟩

theorem indexed_update {db : VecDb} {name other : VecTableName} {table : VecTable} {factId : Nat}
    {v : List Decimal}
    (there : Indexed { db with tables := Function.update db.tables name (some table) } other
      factId v) :
    other = name ∧ ⟨factId, v⟩ ∈ table.rows ∨ other ≠ name ∧ Indexed db other factId v := by
  obtain ⟨held, present, mem⟩ := there
  by_cases same : other = name
  · subst same
    have here : Function.update db.tables other (some table) other = some held := present
    rw [Function.update_self] at here
    cases here
    exact .inl ⟨rfl, mem⟩
  · have here : Function.update db.tables name (some table) other = some held := present
    rw [Function.update_of_ne same] at here
    exact .inr ⟨same, held, here, mem⟩

/-- A statement that only removes rows. -/
theorem indexed_of_removal {index : SQLiteVecIndex} {db db' : VecDb}
    {statement : VecTable → Py VecTable} (done : index.onTable db statement = .ok db')
    (removes : ∀ table table', statement table = .ok table' → ∀ r ∈ table'.rows, r ∈ table.rows)
    {name : VecTableName} {factId : Nat} {v : List Decimal} (there : Indexed db' name factId v) :
    Indexed db name factId v := by
  obtain ⟨table, table', present, ran, rfl⟩ := onTable_eq_ok done
  obtain ⟨rfl, mem⟩ | ⟨-, here⟩ := indexed_update there
  · exact ⟨table, present, removes table table' ran _ mem⟩
  · exact here

/-! ## Upserts -/

/-- A vector on its way to the store, and the index the handle was opened with. -/
structure VecUpsert where
  vectorIndex : Option SQLiteVecIndex
  identity : String
  factId : Nat
  embedding : List Decimal

namespace VecUpsert

def apply (host : Host) (u : VecUpsert) (db : VecDb) : Py VecDb :=
  EmbedStore.upsertAs host u.vectorIndex u.identity u.factId u.embedding db

/-- The canonical row it stores is of this identity and dimension. -/
def Stores (u : VecUpsert) (identity : String) (dimensions : Nat) : Prop :=
  u.identity = identity ∧ u.embedding.length = dimensions

/-- It also writes this vec0 table. -/
def Writes (u : VecUpsert) (name : VecTableName) : Prop :=
  ∃ index ∈ u.vectorIndex, u.Stores index.identity index.dimensions ∧ index.tableName = name

/-- The store takes it: the fact exists, and the table of the handle has the dimension of the
vector and no row of the fact, unless vec0 replaces it. -/
def Accepted (host : Host) (u : VecUpsert) (db : VecDb) : Prop :=
  db.store.facts.get? u.factId ≠ none ∧
    ∀ name, u.Writes name → ∃ table ∈ db.tables name, u.embedding.length = table.dimensions ∧
      (host.vec0Replaces = true ∨ u.factId ∉ table.rows.rows.map VecRow.rowid)

/-- Under the current binding the vector reaches both sides or neither, or the side it does not
reach holds no other vector of the fact. -/
def KeepsPair (host : Host) (u : VecUpsert) (db : VecDb) : Prop :=
  u.Accepted host db → ∀ binding ∈ db.binding,
    (u.Stores binding.identity binding.dimensions → ¬ u.Writes binding.activeTable →
      ∀ w, Indexed db binding.activeTable u.factId w → w = u.embedding) ∧
    (u.Writes binding.activeTable → ¬ u.Stores binding.identity binding.dimensions →
      ∀ v, Canonical db.store binding.identity binding.dimensions u.factId v → v = u.embedding)

end VecUpsert

/-- What an upsert that returned did to each side. -/
structure UpsertEffect (host : Host) (u : VecUpsert) (db db' : VecDb) : Prop where
  accepted : u.Accepted host db
  binding : db'.binding = db.binding
  stored : ∀ {identity dimensions}, u.Stores identity dimensions →
    Puts u.factId u.embedding (Canonical db.store identity dimensions)
      (Canonical db'.store identity dimensions)
  aside : ∀ {identity dimensions}, ¬ u.Stores identity dimensions → ∀ factId v,
    Canonical db'.store identity dimensions factId v → Canonical db.store identity dimensions factId v
  written : ∀ {name}, u.Writes name → Puts u.factId u.embedding (Indexed db name) (Indexed db' name)
  untouched : ∀ {name}, ¬ u.Writes name → ∀ factId v,
    Indexed db' name factId v → Indexed db name factId v

theorem canonical_stored {identity : String} {s s' : Store} {factId : Nat} {embedding : List Decimal}
    (done : upsertInTransaction ⟨identity, "", embedding.length⟩ s factId embedding = .ok s') :
    Puts factId embedding (Canonical s identity embedding.length)
      (Canonical s' identity embedding.length) := by
  obtain ⟨-, new, -, rows⟩ := EmbeddingJobProcessor.upsert_effect done
  rintro fact v ⟨e, mem, rfl, same, sized, rfl⟩
  by_cases about : e.factId = factId
  · rw [Table.eq_of_key mem new (by rw [about, same])]
    exact .inl ⟨rfl, rfl⟩
  · obtain old | rfl := rows e mem
    · exact .inr ⟨about, e, old, rfl, same, sized, rfl⟩
    · exact absurd rfl about

theorem canonical_aside {identity identity' : String} {dimensions : Nat} {s s' : Store}
    {factId : Nat} {embedding : List Decimal}
    (done : upsertInTransaction ⟨identity, "", embedding.length⟩ s factId embedding = .ok s')
    (elsewhere : ¬ (identity = identity' ∧ embedding.length = dimensions)) (fact : Nat)
    (v : List Decimal) (there : Canonical s' identity' dimensions fact v) :
    Canonical s identity' dimensions fact v := by
  obtain ⟨-, -, -, rows⟩ := EmbeddingJobProcessor.upsert_effect done
  obtain ⟨e, mem, about, same, sized, vector⟩ := there
  obtain old | rfl := rows e mem
  · exact ⟨e, old, about, same, sized, vector⟩
  · exact absurd ⟨same, sized⟩ elsewhere

theorem upsertInTransaction_found {spec : EmbeddingSpec} {s s' : Store} {factId : Nat}
    {embedding : List Decimal} (done : upsertInTransaction spec s factId embedding = .ok s') :
    embedding.length = spec.dimensions ∧ s.facts.get? factId ≠ none := by
  unfold upsertInTransaction at done
  obtain ⟨sized, done⟩ := require_bind_eq_ok.1 done
  exact ⟨sized, (require_bind_eq_ok.1 done).1⟩

/-- The copy of an upsert in the table of its index. -/
theorem indexUpsert_eq_ok {host : Host} {index : SQLiteVecIndex} {db db' : VecDb} {factId : Nat}
    {embedding : List Decimal}
    (done : index.upsertInTransaction host db factId embedding = .ok db') :
    embedding.length = index.dimensions ∧
      ∃ table, db.tables index.tableName = some table ∧ embedding.length = table.dimensions ∧
        (host.vec0Replaces = true ∨ factId ∉ table.rows.rows.map VecRow.rowid) ∧
        ∃ table' : VecTable, table'.rows = table.rows.replace ⟨factId, embedding⟩ ∧
          db' = { db with tables := Function.update db.tables index.tableName (some table') } := by
  unfold SQLiteVecIndex.upsertInTransaction at done
  obtain ⟨sized, done⟩ := require_bind_eq_ok.1 done
  obtain ⟨table, table', present, ran, rfl⟩ := onTable_eq_ok done
  obtain ⟨⟨fit⟩, -, ran⟩ := bind_eq_ok.1 ran
  obtain ⟨free, ran⟩ := require_bind_eq_ok.1 ran
  cases pure_eq_ok.1 ran
  exact ⟨sized, table, present, fit, free, _, rfl, rfl⟩

/-- An upsert that writes no vec0 table. -/
theorem UpsertEffect.of_store {host : Host} {u : VecUpsert} {db : VecDb} {store : Store}
    (upserted : upsertInTransaction ⟨u.identity, "", u.embedding.length⟩ db.store u.factId
      u.embedding = .ok store)
    (unwritten : ∀ name, ¬ u.Writes name) : UpsertEffect host u db { db with store } where
  accepted := ⟨(upsertInTransaction_found upserted).2,
    fun name writes => absurd writes (unwritten name)⟩
  binding := rfl
  stored := by
    rintro identity dimensions ⟨rfl, rfl⟩
    exact canonical_stored upserted
  aside := canonical_aside upserted
  written := fun writes => absurd writes (unwritten _)
  untouched := fun _ _ _ there => there

/-- An upsert that writes the table of its index. -/
theorem UpsertEffect.of_index {host : Host} {u : VecUpsert} {db db' : VecDb} {store : Store}
    {index : SQLiteVecIndex}
    (upserted : upsertInTransaction ⟨u.identity, "", u.embedding.length⟩ db.store u.factId
      u.embedding = .ok store)
    (writes_iff : ∀ name, u.Writes name ↔ index.tableName = name)
    (copied : index.upsertInTransaction host { db with store } u.factId u.embedding = .ok db') :
    UpsertEffect host u db db' := by
  obtain ⟨-, table, present, fits, free, table', replaced, rfl⟩ := indexUpsert_eq_ok copied
  refine ⟨⟨(upsertInTransaction_found upserted).2, ?_⟩, rfl, ?_, canonical_aside upserted, ?_, ?_⟩
  · intro name writes
    rw [← (writes_iff name).1 writes]
    exact ⟨table, present, fits, free⟩
  · rintro identity dimensions ⟨rfl, rfl⟩
    exact canonical_stored upserted
  · intro name writes fact v there
    obtain ⟨-, mem⟩ | ⟨other, -⟩ := indexed_update there
    · rw [replaced] at mem
      obtain ⟨old, away⟩ | same := Table.mem_replace.1 mem
      · rw [← (writes_iff name).1 writes]
        exact .inr ⟨away, table, present, old⟩
      · cases same
        exact .inl ⟨rfl, rfl⟩
    · exact absurd ((writes_iff name).1 writes).symm other
  · intro name misses fact v there
    obtain ⟨same, -⟩ | ⟨-, here⟩ := indexed_update there
    · exact absurd ((writes_iff name).2 same.symm) misses
    · exact here

theorem VecUpsert.effect {host : Host} {u : VecUpsert} {db db' : VecDb}
    (done : u.apply host db = .ok db') : UpsertEffect host u db db' := by
  unfold VecUpsert.apply EmbedStore.upsertAs at done
  obtain ⟨store, upserted, done⟩ := bind_eq_ok.1 done
  dsimp only at done
  split at done
  · rename_i without
    cases pure_eq_ok.1 done
    refine .of_store upserted ?_
    rintro name ⟨index, held, -⟩
    rw [without] at held
    cases held
  · rename_i index held
    split at done
    · rename_i matching
      refine .of_index upserted (fun name => ⟨?_, fun named => ⟨index, held, matching, named⟩⟩) done
      rintro ⟨index', held', -, named⟩
      cases held.symm.trans held'
      exact named
    · rename_i differs
      cases pure_eq_ok.1 done
      refine .of_store upserted ?_
      rintro name ⟨index', held', matching, -⟩
      cases held.symm.trans held'
      exact differs matching

/-- An upsert that leaves no pair apart keeps the two sides in step. -/
theorem UpsertEffect.inStep {host : Host} {u : VecUpsert} {db db' : VecDb}
    (effect : UpsertEffect host u db db') (keeps : u.KeepsPair host db) (inStep : InStep db) : InStep db' := by
  intro binding bound
  rw [effect.binding] at bound
  have mirror := inStep binding bound
  obtain ⟨missed, strayed⟩ := keeps effect.accepted binding bound
  by_cases stores : u.Stores binding.identity binding.dimensions
  · by_cases writes : u.Writes binding.activeTable
    · exact mirror.put_both (effect.stored stores) (effect.written writes)
    · exact (mirror.put_source (effect.stored stores) (missed stores writes)).mono
        (fun _ _ here => here) (effect.untouched writes)
  · by_cases writes : u.Writes binding.activeTable
    · exact (mirror.put_copy (effect.written writes) (strayed writes stores)).mono
        (effect.aside stores) (fun _ _ there => there)
    · exact mirror.mono (effect.aside stores) (effect.untouched writes)

/-! ## Every action -/

/-- A call that stores and erases no vector leaves the canonical rows alone. -/
theorem step_vectors (host : Host) {op : Op} (leaves : op.LeavesVectors) (s : Store) :
    (Model.step host op s).factEmbeddings = s.factEmbeddings := by
  cases op with
  | write call =>
      exact commit_induction (P := fun t : Store => t.factEmbeddings = s.factEmbeddings) rfl
        fun s' o done => (write_enqueues done).vectors
  | resolve call =>
      exact commit_induction (P := fun t : Store => t.factEmbeddings = s.factEmbeddings) rfl
        fun s' o done => (resolve_untouched done).1
  | resolveConflict service resolvedAt context conflictId winner reason =>
      exact commit_induction (P := fun t : Store => t.factEmbeddings = s.factEmbeddings) rfl
        fun s' o done => (resolveConflict_enqueues done).vectors
  | storeEmbedding spec factId embedding => exact leaves.elim
  | erase call => exact leaves.elim
  | enqueueExtraction context transcript source scope metadata =>
      exact commit_induction (P := fun t : Store => t.factEmbeddings = s.factEmbeddings) rfl
        fun s' o done => (enqueueAfterCommit_eq_ok done).vectors
  | claim maxAttempts lease now leaseUntil =>
      exact commit_induction (P := fun t : Store => t.factEmbeddings = s.factEmbeddings) rfl
        fun s' o done => (claim_eq_ok done).vectors
  | renew id lease now leaseUntil =>
      exact commit_induction (P := fun t : Store => t.factEmbeddings = s.factEmbeddings) rfl
        fun s' o done => (renew_eq_ok done).vectors
  | persistSnapshot id lease proposals =>
      exact commit_induction (P := fun t : Store => t.factEmbeddings = s.factEmbeddings) rfl
        fun s' o done => (persistSnapshot_eq_ok done).vectors
  | complete id lease =>
      exact commit_induction (P := fun t : Store => t.factEmbeddings = s.factEmbeddings) rfl
        fun s' o done => (complete_eq_ok done).vectors
  | fail maxAttempts id lease errorCode permanent retryAt =>
      exact commit_induction (P := fun t : Store => t.factEmbeddings = s.factEmbeddings) rfl
        fun s' o done => (fail_eq_ok done).vectors

/-- Nothing is added on either side. -/
structure OnlyRemoves (db db' : VecDb) : Prop where
  binding : db'.binding = db.binding
  canonical : ∀ e ∈ db'.store.factEmbeddings, e ∈ db.store.factEmbeddings
  indexed : ∀ {name factId v}, Indexed db' name factId v → Indexed db name factId v

theorem OnlyRemoves.inStep {db db' : VecDb} (removes : OnlyRemoves db db') (inStep : InStep db) :
    InStep db' := by
  intro binding bound
  rw [removes.binding] at bound
  exact (inStep binding bound).mono (canonical_of_subset removes.canonical)
    fun _ _ there => removes.indexed there

/-- A change of the store that adds no vector. -/
theorem OnlyRemoves.of_store {db : VecDb} {store : Store}
    (kept : ∀ e ∈ store.factEmbeddings, e ∈ db.store.factEmbeddings) :
    OnlyRemoves db { db with store } :=
  ⟨rfl, kept, fun there => there⟩

/-- The same, followed by a statement that removes rows of a vec0 table. -/
theorem OnlyRemoves.of_removal {db db' : VecDb} {store : Store} {index : SQLiteVecIndex}
    {statement : VecTable → Py VecTable}
    (kept : ∀ e ∈ store.factEmbeddings, e ∈ db.store.factEmbeddings)
    (done : index.onTable { db with store } statement = .ok db')
    (removes : ∀ table table', statement table = .ok table' → ∀ r ∈ table'.rows, r ∈ table.rows) :
    OnlyRemoves db db' := by
  have indexed := fun {name factId v} =>
    @indexed_of_removal index { db with store } db' statement done removes name factId v
  obtain ⟨table, table', -, -, rfl⟩ := onTable_eq_ok done
  exact ⟨rfl, kept, indexed⟩

theorem delete_removes (factId : Nat) (table table' : VecTable)
    (ran : (Except.ok (table.delete factId) : Py VecTable) = .ok table') :
    ∀ r ∈ table'.rows, r ∈ table.rows := by
  cases ran
  exact fun r mem => (Table.mem_delete.1 mem).1

theorem deleteEmbeddings_kept (s : Store) (factId : Nat) :
    ∀ e ∈ (deleteEmbeddings s factId).factEmbeddings, e ∈ s.factEmbeddings :=
  fun _ mem => (Table.mem_delete.1 mem).1

theorem storeDelete_removes {store : EmbedStore} {factId : Nat} {db db' : VecDb}
    (done : store.delete factId db = .ok db') : OnlyRemoves db db' := by
  unfold EmbedStore.delete at done
  dsimp only at done
  split at done
  · cases pure_eq_ok.1 done
    exact .of_store (deleteEmbeddings_kept db.store factId)
  · exact .of_removal (deleteEmbeddings_kept db.store factId) done (delete_removes factId)

theorem prune_removes {store : EmbedStore} {keep : List String} {db db' : VecDb} {deleted : Nat}
    (done : store.pruneIdentities keep db = .ok (db', deleted)) : OnlyRemoves db db' := by
  have kept : ∀ e ∈ (EmbedStore.pruned db.store keep).factEmbeddings, e ∈ db.store.factEmbeddings :=
    fun _ mem => (Table.mem_delete.1 mem).1
  unfold EmbedStore.pruneIdentities at done
  obtain ⟨-, done⟩ := require_bind_eq_ok.1 done
  dsimp only at done
  split at done
  · cases pure_eq_ok.1 done
    exact .of_store kept
  · split at done
    · cases pure_eq_ok.1 done
      exact .of_store kept
    · obtain ⟨cleared, ran, done⟩ := bind_eq_ok.1 done
      cases pure_eq_ok.1 done
      refine .of_removal kept ran fun table table' emptied r mem => ?_
      cases emptied
      cases mem

theorem erase_removes {host : Host} {loads : Bool} {call : EraseCall} {db db' : VecDb}
    {report : ErasureReport} (done : eraseWithIndex host loads call db = .ok (db', report)) :
    OnlyRemoves db db' := by
  unfold eraseWithIndex at done
  obtain ⟨⟨store, report'⟩, erased, done⟩ := bind_eq_ok.1 done
  have kept : ∀ e ∈ store.factEmbeddings, e ∈ db.store.factEmbeddings := by
    rw [(erase_jobs erased).2]
    exact deleteEmbeddings_kept db.store call.factId
  dsimp only at done
  split at done
  · cases pure_eq_ok.1 done
    exact .of_store kept
  · obtain ⟨scrubbed, ran, done⟩ := bind_eq_ok.1 done
    cases pure_eq_ok.1 done
    exact .of_removal kept ran (delete_removes call.factId)

theorem filled_rows {dimensions : Nat} {rows : List VecRow} {table : VecTable}
    (filled : VecTable.filled dimensions rows = .ok table) : table.rows.rows = rows := by
  unfold VecTable.filled at filled
  split at filled
  · cases filled
  rename_i inserted
  obtain ⟨⟨fits⟩, -, filled⟩ := bind_eq_ok.1 filled
  cases pure_eq_ok.1 filled
  exact Table.rows_of_insertAll? inserted

/-- A rebuild leaves the store alone and copies canonical rows only. -/
theorem rebuild_effect {loads : Bool} {identity : String} {dimensions : Nat} {db db' : VecDb}
    {report : SQLiteVecRebuildReport}
    (done : rebuildSqliteVecIndex loads identity dimensions db = .ok (db', report)) :
    db'.store = db.store ∧
      ∃ name, db'.binding = some ⟨identity, dimensions, name⟩ ∧
        ∀ factId v, Indexed db' name factId v → Canonical db.store identity dimensions factId v := by
  unfold rebuildSqliteVecIndex at done
  obtain ⟨-, done⟩ := require_bind_eq_ok.1 done
  obtain ⟨-, done⟩ := require_bind_eq_ok.1 done
  dsimp only at done
  obtain ⟨sized, done⟩ := require_bind_eq_ok.1 done
  obtain ⟨validated, checked, done⟩ := bind_eq_ok.1 done
  obtain ⟨table, filled, done⟩ := bind_eq_ok.1 done
  cases pure_eq_ok.1 done
  refine ⟨rfl, _, rfl, ?_⟩
  intro factId v there
  obtain ⟨-, mem⟩ | ⟨other, -⟩ := indexed_update there
  · have copied : (⟨factId, v⟩ : VecRow) ∈ validated := by
      rw [← Table.mem_rows, filled_rows filled] at mem
      exact mem
    obtain ⟨e, sorted, valid⟩ := mem_of_mapM_eq_ok checked _ copied
    obtain ⟨here, same⟩ := Table.mem_select.1 ((List.mem_insertionSort _).1 sorted)
    cases pure_eq_ok.1 (require_bind_eq_ok.1 valid).2
    refine ⟨e, here, rfl, same, ?_, rfl⟩
    have right := List.countP_eq_zero.1 sized e here
    simpa [same] using right
  · exact absurd rfl other

theorem rebuild_inStep {loads : Bool} {identity : String} {dimensions : Nat} {db db' : VecDb}
    {report : SQLiteVecRebuildReport}
    (done : rebuildSqliteVecIndex loads identity dimensions db = .ok (db', report)) : InStep db' := by
  obtain ⟨same, name, bound, copied⟩ := rebuild_effect done
  intro binding held
  cases bound.symm.trans held
  rw [same]
  exact .of_functional canonical_unique copied

/-- The writer's upsert is one of a vector of its dimension, with an index for it. -/
theorem writerUpsert_eq_ok {host : Host} {writer : StoredEmbeddingWriter} {factId : Nat}
    {embedding : List Decimal} {db db' : VecDb}
    (done : writer.upsertInTransaction host factId embedding db = .ok db') :
    embedding.length = writer.dimensions ∧
      (⟨writer.vectorIndex, writer.documentIdentity, factId, embedding⟩ : VecUpsert).apply host db =
        .ok db' := by
  unfold StoredEmbeddingWriter.upsertInTransaction at done
  obtain ⟨store, upserted, done⟩ := bind_eq_ok.1 done
  have sized := (upsertInTransaction_found upserted).1
  refine ⟨sized, ?_⟩
  have stored : upsertInTransaction ⟨writer.documentIdentity, "", embedding.length⟩ db.store factId
      embedding = .ok store := by
    rw [← upserted, show embedding.length = writer.dimensions from sized]
    rfl
  unfold VecUpsert.apply EmbedStore.upsertAs
  rw [stored, ok_bind]
  cases held : writer.vectorIndex with
  | none =>
      rw [held] at done
      exact done
  | some index =>
      obtain ⟨same, dims⟩ := writer.bound index held
      rw [held] at done
      dsimp only at done ⊢
      rw [if_pos ⟨same.symm, sized.trans dims.symm⟩]
      exact done

/-! ## Runs -/

namespace VecSystem

open Enfold.Model.VecSystem

/-- The upsert an action makes, with the index its handle was opened with. -/
def upsertOf (state : State) : Action → Option VecUpsert
  | .writerUpsert writer factId embedding =>
      match state.writers[writer]? with
      | none => none
      | some writer =>
          if embedding.length = writer.dimensions then
            some ⟨writer.vectorIndex, writer.documentIdentity, factId, embedding⟩
          else none
  | .storeUpsert store factId vec embeddingIdentity =>
      match state.stores[store]? with
      | none => none
      | some store =>
          some ⟨store.vectorIndex, store.storedIdentity embeddingIdentity, factId, vec⟩
  | _ => none

/-- No upsert leaves the two sides with different vectors of its fact. -/
def KeepsPairs (host : Host) (action : Action) (state : State) : Prop :=
  ∀ upsert ∈ upsertOf state action, upsert.KeepsPair host state.db

theorem settled_induction {P : VecDb → Prop} {db : VecDb} {result : Py VecDb} (start : P db)
    (returned : ∀ new, result = .ok new → P new) : P (Model.VecSystem.settled db result) := by
  cases result with
  | error e => exact start
  | ok new => exact returned new rfl

theorem advance_inStep {host : Host} (action : Action) (state : State)
    (keeps : KeepsPairs host action state) (inStep : InStep state.db) :
    InStep (advance host action state).db := by
  cases action with
  | openWriter loads settings =>
      unfold advance
      dsimp only
      split
      · exact inStep
      · exact inStep
  | openStore loads embeddingIdentity => exact inStep
  | writerUpsert writer factId embedding =>
      unfold advance
      dsimp only
      split
      · exact inStep
      · rename_i handle held
        refine settled_induction inStep fun new done => ?_
        obtain ⟨sized, applied⟩ := writerUpsert_eq_ok done
        refine (VecUpsert.effect applied).inStep (keeps _ ?_) inStep
        unfold upsertOf
        dsimp only
        rw [held]
        exact if_pos sized
  | storeUpsert store factId vec embeddingIdentity =>
      unfold advance
      dsimp only
      split
      · exact inStep
      · rename_i handle held
        refine settled_induction inStep fun new done => ?_
        have applied : VecUpsert.apply host ⟨handle.vectorIndex, handle.storedIdentity embeddingIdentity,
          factId, vec⟩ state.db = .ok new := done
        refine (VecUpsert.effect applied).inStep (keeps _ ?_) inStep
        unfold upsertOf
        dsimp only
        rw [held]
        rfl
  | storeDelete store factId =>
      unfold advance
      dsimp only
      split
      · exact inStep
      · exact settled_induction inStep fun new done => (storeDelete_removes done).inStep inStep
  | pruneIdentities store keep =>
      unfold advance
      dsimp only
      split
      · exact inStep
      · exact commit_induction inStep fun new deleted done => (prune_removes done).inStep inStep
  | rebuild loads identity dimensions =>
      exact commit_induction inStep fun new report done => rebuild_inStep done
  | erase loads call =>
      exact commit_induction inStep fun new report done => (erase_removes done).inStep inStep
  | call op leaves =>
      refine OnlyRemoves.inStep (.of_store ?_) inStep
      rw [step_vectors host leaves state.db.store]
      exact fun e mem => mem

/-- The two sides are in step after every run whose upserts leave no pair apart. -/
theorem inStep_of_reached {host : Host} {state : State}
    (reached : Reachable (advance host) (KeepsPairs host) State.empty state) : InStep state.db := by
  refine reached.induction ?_ fun action state keeps inStep => advance_inStep action state keeps inStep
  intro binding bound
  cases bound

/-- In every run whose upserts leave no pair apart, an index that is opened holds exactly the
canonical pairs of its identity and dimension. -/
theorem opened_index_exact {host : Host} {state : State}
    (reached : Reachable (advance host) (KeepsPairs host) State.empty state) {loads : Bool}
    {identity : String} {dimensions : Nat} {index : SQLiteVecIndex}
    (opened : SQLiteVecIndex.openIndex loads state.db identity dimensions = some index)
    (factId : Nat) (embedding : List Decimal) :
    Indexed state.db index.tableName factId embedding ↔
      Canonical state.db.store identity dimensions factId embedding :=
  (inStep_of_reached reached).exact opened factId embedding

/-- Without an index there is nothing to fall out of step with. -/
theorem KeepsPairs.of_unbound {host : Host} {action : Action} {state : State}
    (unbound : state.db.binding = none) : KeepsPairs host action state := by
  intro upsert _ _ binding bound
  rw [unbound] at bound
  cases bound

/-- The store of the sample run. -/
def indexedState : State := run (advance Sample.host) Sample.indexedDoor State.empty

theorem indexedDoor_admitted :
    Admits (advance Sample.host) (KeepsPairs Sample.host) Sample.indexedDoor State.empty := by
  refine ⟨.of_unbound rfl, .of_unbound rfl, .of_unbound rfl, ?_, trivial⟩
  rintro upsert ⟨⟩

theorem indexed_door_exact :
    SQLiteVecIndex.openIndex true indexedState.db "sample" 1 = some ⟨"sample", 1, .a⟩ ∧
      Indexed indexedState.db .a 1 [.one] := by
  have opened : SQLiteVecIndex.openIndex true indexedState.db "sample" 1 =
      some ⟨"sample", 1, .a⟩ ∧ Canonical indexedState.db.store "sample" 1 1 [.one] := by
    decide +kernel
  exact ⟨opened.1, (opened_index_exact ⟨_, indexedDoor_admitted, rfl⟩ opened.1 1 [.one]).2 opened.2⟩

/-- The handle was opened before the rebuild and stores another vector. -/
def staleState : State :=
  run (advance Sample.host) (Sample.indexedDoor ++ [.storeUpsert 0 1 [.half] none]) State.empty

theorem stale_handle_opens :
    Reachable (advance Sample.host) (fun _ _ => True) State.empty staleState ∧
      SQLiteVecIndex.openIndex true staleState.db "sample" 1 = some ⟨"sample", 1, .a⟩ ∧
      Indexed staleState.db .a 1 [.one] ∧ ¬ Canonical staleState.db.store "sample" 1 1 [.one] := by
  refine ⟨⟨_, .always _ _, rfl⟩, ?_⟩
  decide +kernel

/-! ## Erasure -/

/-- No row of the fact is left in `fact_embeddings` or in a vec0 table. -/
def VectorsGone (db : VecDb) (factId : Nat) : Prop :=
  (∀ e ∈ db.store.factEmbeddings, e.factId ≠ factId) ∧ ∀ name v, ¬ Indexed db name factId v

/-- The erasure reaches the table of the index it opened. -/
theorem erase_indexed {host : Host} {loads : Bool} {call : EraseCall} {db db' : VecDb}
    {report : ErasureReport} (done : eraseWithIndex host loads call db = .ok (db', report))
    (name : VecTableName) (v : List Decimal) :
    Indexed db' name call.factId v ↔ Indexed db name call.factId v ∧
      ¬ ∃ index, SQLiteVecIndex.openConfigured loads db = some index ∧ index.tableName = name := by
  unfold eraseWithIndex at done
  obtain ⟨⟨store, report'⟩, -, done⟩ := bind_eq_ok.1 done
  dsimp only at done
  split at done
  · rename_i closed
    cases pure_eq_ok.1 done
    refine ⟨fun there => ⟨there, ?_⟩, fun there => there.1⟩
    rintro ⟨index, opened, -⟩
    rw [closed] at opened
    cases opened
  · rename_i index opened
    obtain ⟨scrubbed, ran, done⟩ := bind_eq_ok.1 done
    cases pure_eq_ok.1 done
    obtain ⟨table, table', present, deleted, rfl⟩ := onTable_eq_ok ran
    cases deleted
    constructor
    · intro there
      obtain ⟨-, mem⟩ | ⟨other, here⟩ := indexed_update there
      · exact absurd rfl (Table.mem_delete.1 mem).2
      · refine ⟨here, ?_⟩
        rintro ⟨index', opened', named⟩
        cases opened.symm.trans opened'
        exact other named.symm
    · rintro ⟨⟨held, kept, mem⟩, missed⟩
      refine ⟨held, ?_, mem⟩
      show Function.update db.tables index.tableName _ name = some held
      rw [Function.update_of_ne fun named => missed ⟨index, opened, named.symm⟩]
      exact kept

/-- After any run, an erasure that commits leaves no vector of its fact exactly when every
vec0 table with a row of the fact is the one `open_configured` returned. -/
theorem erasure_clears_vectors_iff {host : Host} (actions : List Action) {loads : Bool}
    {call : EraseCall} {db' : VecDb} {report : ErasureReport}
    (done : eraseWithIndex host loads call (run (advance host) actions State.empty).db =
      .ok (db', report)) :
    VectorsGone db' call.factId ↔
      ∀ name v, Indexed (run (advance host) actions State.empty).db name call.factId v →
        ∃ index,
          SQLiteVecIndex.openConfigured loads (run (advance host) actions State.empty).db =
            some index ∧ index.tableName = name := by
  have reaches := erase_indexed done
  have canonical : ∀ e ∈ db'.store.factEmbeddings, e.factId ≠ call.factId := by
    unfold eraseWithIndex at done
    obtain ⟨⟨store, report'⟩, erased, done⟩ := bind_eq_ok.1 done
    have gone : ∀ e ∈ store.factEmbeddings, e.factId ≠ call.factId := by
      rw [(erase_jobs erased).2]
      exact fun e mem => (Table.mem_delete.1 mem).2
    dsimp only at done
    split at done
    · cases pure_eq_ok.1 done
      exact gone
    · obtain ⟨scrubbed, ran, done⟩ := bind_eq_ok.1 done
      cases pure_eq_ok.1 done
      obtain ⟨-, -, -, -, rfl⟩ := onTable_eq_ok ran
      exact gone
  constructor
  · intro gone name v held
    by_contra missed
    exact gone.2 name v ((reaches name v).2 ⟨held, missed⟩)
  · intro reached
    refine ⟨canonical, fun name v there => ?_⟩
    obtain ⟨held, missed⟩ := (reaches name v).1 there
    exact missed (reached name v held)

/-- The one index of the sample is opened, and the erasure reaches its row. -/
theorem indexed_door_cleared :
    ∃ db' report, eraseWithIndex Sample.host true Sample.erasure indexedState.db =
      .ok (db', report) ∧ VectorsGone db' 1 := by
  have evaluated :
      (eraseWithIndex Sample.host true Sample.erasure indexedState.db).toOption.isSome = true ∧
        SQLiteVecIndex.openConfigured true indexedState.db = some ⟨"sample", 1, .a⟩ ∧
        (indexedState.db.tables .b).isNone = true := by
    decide +kernel
  obtain ⟨returned, opened, absent⟩ := evaluated
  have absent := Option.isNone_iff_eq_none.1 absent
  unfold indexedState at returned opened absent ⊢
  cases done : eraseWithIndex Sample.host true Sample.erasure
      (run (advance Sample.host) Sample.indexedDoor State.empty).db with
  | error e =>
      rw [done] at returned
      cases returned
  | ok pair =>
      refine ⟨pair.1, pair.2, rfl, (erasure_clears_vectors_iff Sample.indexedDoor done).2 ?_⟩
      rintro name v ⟨table, held, -⟩
      refine ⟨_, opened, ?_⟩
      cases name with
      | a => rfl
      | b =>
          rw [Option.mem_def, absent] at held
          cases held

/-- After a second rebuild the first table still holds the vector, and the erasure does not
reach it. -/
theorem rebuilt_door_kept :
    ∃ db' report, eraseWithIndex Sample.host true Sample.erasure
        (run (advance Sample.host) (Sample.indexedDoor ++ [.rebuild true "sample" 1])
          State.empty).db = .ok (db', report) ∧ ¬ VectorsGone db' 1 := by
  have evaluated : (eraseWithIndex Sample.host true Sample.erasure
      (run (advance Sample.host) (Sample.indexedDoor ++ [.rebuild true "sample" 1])
        State.empty).db).toOption.any (fun pair => Indexed pair.1 .a 1 [.one]) = true := by
    decide +kernel
  cases done : eraseWithIndex Sample.host true Sample.erasure
      (run (advance Sample.host) (Sample.indexedDoor ++ [.rebuild true "sample" 1])
        State.empty).db with
  | error e =>
      rw [done] at evaluated
      cases evaluated
  | ok pair =>
      rw [done] at evaluated
      exact ⟨pair.1, pair.2, rfl, fun gone => gone.2 .a [.one] (of_decide_eq_true evaluated)⟩

end VecSystem

end Enfold.Laws
