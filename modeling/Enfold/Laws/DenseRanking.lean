/-
# Laws.DenseRanking -- the index and the stored vectors rank alike

A search with the vec0 index returns what the search over the stored vectors returns, scores,
order, vectors and errors included, when the active table holds exactly the canonical pairs.
Either the index answers for every candidate: then each of them has a stored vector
(`scores_eq_ok`), the stored vectors load (`loadDocuments_of_stored`), and the two dense scores
are equal.  Or it does not: a vector is zero, or a candidate has no row because its job is still
queued; then the search falls back to the stored vectors.
-/
import Enfold.Laws.DerivedIndex
import Enfold.Model.HybridRetrieval

namespace Enfold.Laws

open Enfold.Theory Enfold.Model

set_option autoImplicit false

variable {F : Type} [Field F] [LinearOrder F]

/-- The distance of vec0 is one minus the cosine, and `NULL` next to a zero vector. -/
structure Vec0Cosine (numerics : Numerics F) : Prop where
  nonzero : ∀ u v, ¬ IsZero u → ¬ IsZero v →
    numerics.distance u v = some (1 - numerics.similarity u v)
  zero : ∀ u v, IsZero u ∨ IsZero v → numerics.distance u v = none

/-- The active table, if it is for this identity and dimension, holds exactly the canonical
pairs. -/
def ActiveExact (db : VecDb) (identity : String) (dimensions : Nat) : Prop :=
  ∀ binding ∈ db.binding, binding.identity = identity → binding.dimensions = dimensions →
    ∀ factId v, Indexed db binding.activeTable factId v ↔
      Canonical db.store identity dimensions factId v

/-- In step, an index that can be opened is exact. -/
theorem InStep.activeExact {db : VecDb} (inStep : InStep db) {loads : Bool} {identity : String}
    {dimensions : Nat} {index : SQLiteVecIndex}
    (opened : SQLiteVecIndex.openIndex loads db identity dimensions = some index) :
    ActiveExact db identity dimensions := by
  intro binding bound _ _
  rw [Option.mem_def, (openIndex_eq_some opened).1] at bound
  cases bound
  exact inStep.exact opened

/-! ## The answer of the index -/

theorem mem_of_scoreRows {numerics : Numerics F} {queryVector : List Decimal} {rows : List VecRow}
    {before after : SQLiteVecIndex.Scores F}
    (done : rows.foldlM (SQLiteVecIndex.scoreRow numerics queryVector) before = .ok after) :
    ∀ p ∈ after, p ∈ before ∨ ∃ r ∈ rows, ∃ distance,
      numerics.distance queryVector r.embedding = some distance ∧
        p = (r.rowid, max 0 (1 - distance)) := by
  induction rows generalizing before with
  | nil =>
      cases done
      exact fun p mem => .inl mem
  | cons r rows ih =>
      rw [List.foldlM_cons] at done
      obtain ⟨next, scored, done⟩ := bind_eq_ok.1 done
      unfold SQLiteVecIndex.scoreRow at scored
      split at scored
      · cases scored
      rename_i distance answered
      cases scored
      intro p mem
      obtain kept | ⟨r', mem', about⟩ := ih done p mem
      · obtain ⟨old, -⟩ | rfl := Table.mem_replace.1 kept
        · exact .inl old
        · exact .inr ⟨r, List.mem_cons_self, distance, answered, rfl⟩
      · exact .inr ⟨r', List.mem_cons_of_mem _ mem', about⟩

/-- An index that answered has a row, with a distance, for every id it was asked for: it returns as
many distinct keys as there are ids, all of them ids. -/
theorem scores_eq_ok {numerics : Numerics F} {index : SQLiteVecIndex} {db : VecDb}
    {queryVector : List Decimal} {factIds : List Nat} {scores : SQLiteVecIndex.Scores F}
    (done : index.scores numerics db queryVector factIds = .ok scores) :
    queryVector.length = index.dimensions ∧ factIds.Nodup ∧
      ∀ factId ∈ factIds, ∃ v distance, Indexed db index.tableName factId v ∧
        v.length = queryVector.length ∧ numerics.distance queryVector v = some distance ∧
        scores.get? factId = some (factId, max 0 (1 - distance)) := by
  unfold SQLiteVecIndex.scores at done
  obtain ⟨sized, done⟩ := require_bind_eq_ok.1 done
  obtain ⟨distinct, done⟩ := require_bind_eq_ok.1 done
  refine ⟨sized, distinct, ?_⟩
  split at done
  · rename_i empty
    rw [empty]
    exact fun _ asked => absurd asked List.not_mem_nil
  split at done
  · cases done
  rename_i table present
  obtain ⟨column, done⟩ := require_bind_eq_ok.1 done
  obtain ⟨answer, scored, done⟩ := bind_eq_ok.1 done
  obtain ⟨complete, done⟩ := require_bind_eq_ok.1 done
  cases pure_eq_ok.1 done
  have asked : ∀ p ∈ scores, ∃ v distance, Indexed db index.tableName p.1 v ∧
      v.length = queryVector.length ∧ numerics.distance queryVector v = some distance ∧
      p.2 = max 0 (1 - distance) ∧ p.1 ∈ factIds := by
    intro p mem
    obtain old | ⟨r, found, distance, answered, rfl⟩ := mem_of_scoreRows scored p mem
    · cases old
    have finds : ∀ (batch : List Nat) (r : VecRow),
        r ∈ table.rows.select (fun r => r.rowid ∈ batch) ↔
        r ∈ table.rows.rows ∧ r.rowid ∈ batch := fun batch r => Table.mem_select
    obtain ⟨stored, wanted⟩ := (mem_flatMap_batches (by decide) finds).1 found
    exact ⟨r.embedding, distance, ⟨table, present, stored⟩,
      (table.fits r stored).trans column.symm, answered, rfl, wanted⟩
  have keys : (scores.rows.map Prod.fst).Perm factIds := by
    refine (scores.nodup.subperm ?_).perm_of_length_le ?_
    · intro key mem
      obtain ⟨p, held, rfl⟩ := List.mem_map.1 mem
      obtain ⟨-, -, -, -, -, -, wanted⟩ := asked p held
      exact wanted
    · rw [List.length_map, complete]
  intro factId wanted
  obtain ⟨p, held, rfl⟩ := List.mem_map.1 (keys.mem_iff.2 wanted)
  obtain ⟨v, distance, indexed, length, answered, score, -⟩ := asked p held
  refine ⟨v, distance, indexed, length, answered, ?_⟩
  rw [← score]
  exact Table.get?_eq_some.2 ⟨held, rfl⟩

/-! ## The stored vectors -/

section Stored

variable {backend : StoredBackend} {s : Store}

theorem loadRows_of_valid {rows : List EmbeddingRow} {before : StoredBackend.Loaded}
    (distinct : (rows.map EmbeddingRow.factId).Nodup)
    (fresh : ∀ e ∈ rows, e.factId ∉ before.rows.map Prod.fst)
    (valid : ∀ e ∈ rows, e.dim = backend.dimensions ∧ e.embedding.length = backend.dimensions) :
    ∃ after : StoredBackend.Loaded, rows.foldlM backend.loadRow before = .ok after ∧
      after.rows = before.rows ++ rows.map fun e => (e.factId, e.embedding) := by
  induction rows generalizing before with
  | nil => exact ⟨before, rfl, (List.append_nil _).symm⟩
  | cons e rows ih =>
      obtain ⟨new, distinct⟩ := List.nodup_cons.1 distinct
      have inserted : before.insert? (e.factId, e.embedding) =
          some (before.insert (e.factId, e.embedding) (fresh e List.mem_cons_self)) :=
        Table.insert?_eq_some.2 ⟨_, rfl⟩
      obtain ⟨dim, length⟩ := valid e List.mem_cons_self
      have loaded : backend.loadRow before e =
          .ok (before.insert (e.factId, e.embedding) (fresh e List.mem_cons_self)) := by
        unfold StoredBackend.loadRow
        rw [inserted]
        dsimp only
        rw [require_of dim, ok_bind, require_of length, ok_bind]
        rfl
      have later : ∀ e' ∈ rows, e'.factId ∉ (before.insert (e.factId, e.embedding)
          (fresh e List.mem_cons_self)).rows.map Prod.fst := by
        intro e' mem held
        rw [Table.rows_of_insert? inserted, List.map_append] at held
        rcases List.mem_append.1 held with old | last
        · exact fresh e' (List.mem_cons_of_mem _ mem) old
        · rw [List.map_singleton, List.mem_singleton] at last
          exact new (List.mem_map.2 ⟨e', mem, last⟩)
      obtain ⟨after, done, rows_eq⟩ := ih distinct later fun e' mem =>
        valid e' (List.mem_cons_of_mem _ mem)
      refine ⟨after, ?_, ?_⟩
      · rw [List.foldlM_cons, loaded, ok_bind, done]
      · rw [rows_eq, Table.rows_of_insert? inserted, List.append_assoc]
        rfl

theorem mem_batchRows {batch : List Nat} {e : EmbeddingRow} :
    e ∈ backend.batchRows s batch ↔
      e ∈ s.factEmbeddings.rows.filter
        (fun e => e.embeddingIdentity = backend.documentIdentity) ∧ e.factId ∈ batch := by
  unfold StoredBackend.batchRows
  rw [Table.mem_select, List.mem_filter, decide_eq_true_eq, and_assoc]
  exact Iff.rfl

/-- One row a fact, under one identity. -/
theorem nodup_batchRows (batch : List Nat) :
    ((backend.batchRows s batch).map EmbeddingRow.factId).Nodup := by
  refine List.Nodup.map_on ?_ (s.factEmbeddings.nodup_select _)
  intro e mem e' mem' same
  obtain ⟨held, identity, -⟩ := Table.mem_select.1 mem
  obtain ⟨held', identity', -⟩ := Table.mem_select.1 mem'
  exact Table.eq_of_key held held' (by rw [same, identity, identity'])

theorem mem_candidateRows {size : Nat} (positive : 0 < size) {factIds : List Nat}
    {e : EmbeddingRow} :
    e ∈ (batches size factIds).flatMap (backend.batchRows s) ↔
      (e ∈ s.factEmbeddings ∧ e.embeddingIdentity = backend.documentIdentity) ∧
        e.factId ∈ factIds := by
  rw [mem_flatMap_batches positive fun batch r => mem_batchRows, List.mem_filter,
    decide_eq_true_eq]
  exact Iff.rfl

/-- The row read for a candidate is its canonical one. -/
theorem candidateRow_eq {e : EmbeddingRow} {factId : Nat} {v : List Decimal}
    (held : e ∈ s.factEmbeddings) (identity : e.embeddingIdentity = backend.documentIdentity)
    (about : e.factId = factId)
    (stored : Canonical s backend.documentIdentity backend.dimensions factId v) :
    e.dim = backend.dimensions ∧ e.embedding = v := by
  obtain ⟨e', held', fact, identity', dim, vector⟩ := stored
  cases Table.eq_of_key held held' (by rw [about, fact, identity, identity'])
  exact ⟨dim, vector⟩

/-- With a vector for every candidate, they all load. -/
theorem loadDocuments_of_stored {factIds : List Nat} {vectorOf : Nat → List Decimal}
    (distinct : factIds.Nodup)
    (stored : ∀ factId ∈ factIds,
      Canonical s backend.documentIdentity backend.dimensions factId (vectorOf factId) ∧
        (vectorOf factId).length = backend.dimensions) :
    backend.loadDocuments s factIds = .ok (factIds.map vectorOf) := by
  have valid : ∀ e ∈ (batches backend.sqlBatchSize factIds).flatMap (backend.batchRows s),
      e.dim = backend.dimensions ∧ e.embedding.length = backend.dimensions := by
    intro e mem
    obtain ⟨⟨held, identity⟩, wanted⟩ := (mem_candidateRows backend.batchPositive).1 mem
    obtain ⟨canonical, sized⟩ := stored e.factId wanted
    obtain ⟨dim, vector⟩ := candidateRow_eq held identity rfl canonical
    exact ⟨dim, vector ▸ sized⟩
  have once := nodup_flatMap_batches backend.batchPositive distinct
    (fun batch e mem => (mem_batchRows.1 mem).2) (@nodup_batchRows backend s)
  have fresh : ∀ e ∈ (batches backend.sqlBatchSize factIds).flatMap (backend.batchRows s),
      e.factId ∉ (Table.empty : StoredBackend.Loaded).rows.map Prod.fst :=
    fun e _ => List.not_mem_nil
  obtain ⟨loaded, done, rows_eq⟩ := loadRows_of_valid once fresh valid
  have held : ∀ factId ∈ factIds, loaded.get? factId = some (factId, vectorOf factId) := by
    intro factId wanted
    obtain ⟨⟨e, mem, fact, identity, -, vector⟩, -⟩ := stored factId wanted
    have read : e ∈ (batches backend.sqlBatchSize factIds).flatMap (backend.batchRows s) :=
      (mem_candidateRows backend.batchPositive).2 ⟨⟨mem, identity⟩, fact ▸ wanted⟩
    refine Table.get?_eq_some.2 ⟨?_, rfl⟩
    rw [← Table.mem_rows, rows_eq]
    exact List.mem_append_right _ (List.mem_map.2 ⟨e, read, by rw [fact, vector]⟩)
  have none_missing : factIds.filter (fun factId => (loaded.get? factId).isNone) = [] := by
    refine List.filter_eq_nil_iff.2 fun factId wanted => ?_
    rw [held factId wanted]
    exact Bool.false_ne_true
  unfold StoredBackend.loadDocuments
  split
  · rename_i empty
    rw [empty]
    rfl
  rw [require_of distinct, ok_bind]
  dsimp only
  rw [done, ok_bind]
  rw [none_missing, List.filter_nil, require_of rfl, ok_bind]
  refine congrArg Except.ok (List.map_congr_left fun factId wanted => ?_)
  rw [held factId wanted]

theorem validate_all {vectors : List (List Decimal)} {kind : String}
    (sized : ∀ v ∈ vectors, v.length = backend.dimensions) :
    vectors.forM (validateVector backend kind) = .ok ⟨⟩ := by
  induction vectors with
  | nil => rfl
  | cons v vectors ih =>
      show (validateVector backend kind v >>= fun _ => vectors.forM _) = _
      rw [validateVector, require_of (sized v List.mem_cons_self), ok_bind]
      exact ih fun v' mem => sized v' (List.mem_cons_of_mem _ mem)

theorem documentVectors_of_stored {candidates : List FactRow} {vectorOf : Nat → List Decimal}
    (distinct : (candidates.map FactRow.factId).Nodup)
    (stored : ∀ factId ∈ candidates.map FactRow.factId,
      Canonical s backend.documentIdentity backend.dimensions factId (vectorOf factId) ∧
        (vectorOf factId).length = backend.dimensions) :
    (DenseEmbedder.stored backend).documentVectors s candidates =
      .ok (candidates.map fun row => vectorOf row.factId) := by
  have sized : ∀ v ∈ (candidates.map FactRow.factId).map vectorOf,
      v.length = backend.dimensions := by
    intro v mem
    obtain ⟨factId, wanted, rfl⟩ := List.mem_map.1 mem
    exact (stored factId wanted).2
  unfold DenseEmbedder.documentVectors
  dsimp only
  rw [loadDocuments_of_stored distinct stored, ok_bind,
    require_of (by rw [List.length_map, List.length_map]), ok_bind, validate_all sized, ok_bind,
    List.map_map]
  rfl

/-- The vectors read back for the survivors are the canonical ones. -/
theorem storedMmr_of_stored {factIds : List Nat} {factId : Nat} {v : List Decimal}
    (wanted : factId ∈ factIds) (sized : v.length = backend.dimensions)
    (stored : Canonical s backend.documentIdentity backend.dimensions factId v) :
    (HybridRetriever.storedMmrEmbeddings (.stored backend) s factIds).get? factId =
      some (factId, v) := by
  obtain ⟨e, held, fact, identity, dim, vector⟩ := id stored
  refine Table.get?_foldl_replace (r := (factId, v)) ?_ (.inr ?_)
  · intro p mem same
    obtain ⟨e', usable, rfl⟩ := List.mem_map.1 mem
    obtain ⟨⟨held', identity'⟩, -⟩ :=
      (mem_candidateRows (by decide)).1 (List.mem_filter.1 usable).1
    have about : e'.factId = factId := same
    rw [about, (candidateRow_eq held' identity' about stored).2]
  · refine List.mem_map.2 ⟨e, List.mem_filter.2 ⟨?_, ?_⟩, by rw [fact, vector]⟩
    · exact (mem_candidateRows (by decide)).2 ⟨⟨held, identity⟩, fact ▸ wanted⟩
    · rw [decide_eq_true_eq, vector]
      exact ⟨dim, sized⟩

end Stored

/-! ## The two searches -/

namespace HybridRetriever

open Enfold.Model.HybridRetriever

variable {numerics : Numerics F} {retriever : HybridRetriever F} {updatedAt : Nat → Option String}
  {prepared : Prepared F}

/-- A result with its vector attached. -/
def withVector (vectorOf : Nat → List Decimal) (r : SearchResult F) : SearchResult F :=
  { r with mmrEmbedding := some (vectorOf r.fact.factId) }

theorem rankRow_withVector (vectorOf : Nat → List Decimal) (row : FactRow) (denseScore : F) :
    rankRow numerics retriever updatedAt prepared row denseScore (some (vectorOf row.factId)) =
      (rankRow numerics retriever updatedAt prepared row denseScore none).map
        (Option.map (withVector vectorOf)) := by
  unfold rankRow
  cases recencyScore numerics row (updatedAt row.factId) retriever.now
    retriever.ranking.recencyHalfLifeDays with
  | error e => rfl
  | ok recency =>
      rw [ok_bind, ok_bind]
      dsimp only
      split
      · rfl
      · rfl

theorem rankRow_fact {row : FactRow} {denseScore : F} {vector : Option (List Decimal)}
    {r : SearchResult F}
    (ranked : rankRow numerics retriever updatedAt prepared row denseScore vector = .ok (some r)) :
    r.fact = row := by
  unfold rankRow at ranked
  obtain ⟨recency, -, ranked⟩ := bind_eq_ok.1 ranked
  dsimp only at ranked
  split at ranked
  · cases pure_eq_ok.1 ranked
  · cases pure_eq_ok.1 ranked
    rfl

theorem indexedRow_fact {scores : SQLiteVecIndex.Scores F} {row : FactRow} {r : SearchResult F}
    (ranked : indexedRow numerics retriever updatedAt prepared scores row = .ok (some r)) :
    r.fact = row := by
  unfold indexedRow at ranked
  split at ranked
  · cases ranked
  · exact rankRow_fact ranked

/-- The order, the gate and the cut look at scores, trust and ids only. -/
theorem survivors_map {request : SearchRequest} (vectorOf : Nat → List Decimal)
    (ranked : List (SearchResult F)) :
    survivors retriever request (ranked.map (withVector vectorOf)) =
      (survivors retriever request ranked).map (withVector vectorOf) := by
  have sorted : (ranked.map (withVector vectorOf)).insertionSort Before =
      (ranked.insertionSort Before).map (withVector vectorOf) :=
    (List.map_insertionSort Before Before (withVector vectorOf) ranked
      fun x _ y _ => Iff.rfl).symm
  have gate : ∀ (margin : F) (results : List (SearchResult F)),
      ambiguous margin (results.map (withVector vectorOf)) = ambiguous margin results := by
    intro margin results
    match results with
    | [] => rfl
    | [x] => rfl
    | x :: y :: rest => rfl
  unfold survivors
  dsimp only
  rw [sorted, gate]
  split
  · rfl
  · rw [List.map_take]

theorem mem_survivors {request : SearchRequest} {ranked : List (SearchResult F)}
    {r : SearchResult F} (mem : r ∈ survivors retriever request ranked) : r ∈ ranked := by
  unfold survivors at mem
  dsimp only at mem
  split at mem
  · cases mem
  · exact (List.mem_insertionSort _).1 (List.mem_of_mem_take mem)

/-- The vector of a candidate the index answered for: it is stored, and its dense score is the
clamped cosine. -/
structure Answered (numerics : Numerics F) (backend : StoredBackend) (s : Store)
    (queryVector : List Decimal) (scores : SQLiteVecIndex.Scores F) (factId : Nat)
    (v : List Decimal) : Prop where
  stored : Canonical s backend.documentIdentity backend.dimensions factId v
  sized : v.length = backend.dimensions
  scored : ∃ similarity, cosine numerics queryVector v = .ok similarity ∧
    scores.get? factId = some (factId, max 0 similarity)

theorem answered_of_scores {backend : StoredBackend} {db : VecDb} {index : SQLiteVecIndex}
    {queryVector : List Decimal} {factIds : List Nat} {scores : SQLiteVecIndex.Scores F}
    (vec0 : Vec0Cosine numerics)
    (exact : ActiveExact db backend.documentIdentity backend.dimensions)
    (bound : db.binding = some ⟨backend.documentIdentity, backend.dimensions, index.tableName⟩)
    (sized : queryVector.length = backend.dimensions)
    (done : index.scores numerics db queryVector factIds = .ok scores) {factId : Nat}
    (wanted : factId ∈ factIds) :
    ∃ v, Answered numerics backend db.store queryVector scores factId v := by
  obtain ⟨-, -, answers⟩ := scores_eq_ok done
  obtain ⟨v, distance, indexed, length, answered, found⟩ := answers factId wanted
  have nonzero : ¬ (IsZero queryVector ∨ IsZero v) := by
    intro zero
    rw [vec0.zero _ _ zero] at answered
    cases answered
  obtain ⟨solid, solid'⟩ := not_or.1 nonzero
  have exact_distance : distance = 1 - numerics.similarity queryVector v := by
    rw [vec0.nonzero _ _ solid solid'] at answered
    exact (Option.some.inj answered).symm
  refine ⟨v, (exact _ bound rfl rfl factId v).1 indexed, length.trans sized, _, ?_, found⟩
  unfold cosine
  rw [require_of length.symm, ok_bind, if_neg nonzero, exact_distance,
    sub_sub_cancel]
  rfl

/-- When the index answered for every candidate, its search is the one over the stored
vectors. -/
theorem bruteSearch_eq_indexed {backend : StoredBackend} {s : Store} {request : SearchRequest}
    {scores : SQLiteVecIndex.Scores F} (adapter : retriever.embedder = .stored backend)
    (distinct : (prepared.candidates.map FactRow.factId).Nodup)
    (answered : ∀ factId ∈ prepared.candidates.map FactRow.factId,
      ∃ v, Answered numerics backend s prepared.queryVector scores factId v) :
    bruteSearch numerics retriever updatedAt s request prepared =
      indexedSearch numerics retriever updatedAt s request prepared scores := by
  choose! vectorOf held using answered
  have member : ∀ row ∈ prepared.candidates,
      row.factId ∈ prepared.candidates.map FactRow.factId := fun row mem =>
    List.mem_map_of_mem mem
  have vectors : retriever.embedder.documentVectors s prepared.candidates =
      .ok (prepared.candidates.map fun row => vectorOf row.factId) := by
    rw [adapter]
    refine documentVectors_of_stored distinct fun factId wanted => ?_
    exact ⟨(held factId wanted).stored, (held factId wanted).sized⟩
  have rows : ∀ row ∈ prepared.candidates,
      bruteRow numerics retriever updatedAt prepared row (vectorOf row.factId) =
        (indexedRow numerics retriever updatedAt prepared scores row).map
          (Option.map (withVector vectorOf)) := by
    intro row mem
    obtain ⟨similarity, computed, found⟩ := (held row.factId (member row mem)).scored
    unfold bruteRow indexedRow
    rw [computed, ok_bind, found, rankRow_withVector]
  have traversal : ((prepared.candidates.zip
        (prepared.candidates.map fun row => vectorOf row.factId)).mapM fun pair =>
          bruteRow numerics retriever updatedAt prepared pair.1 pair.2) =
      (prepared.candidates.mapM (indexedRow numerics retriever updatedAt prepared scores)).map
        (List.map (Option.map (withVector vectorOf))) := by
    rw [← List.map_prod_left_eq_zip, List.mapM_map]
    exact mapM_map_of rows
  unfold bruteSearch indexedSearch
  rw [vectors, ok_bind, traversal]
  cases ranking : prepared.candidates.mapM
      (indexedRow numerics retriever updatedAt prepared scores) with
  | error e => rfl
  | ok ranked =>
      have flat : (ranked.map (Option.map (withVector vectorOf))).filterMap id =
          (ranked.filterMap id).map (withVector vectorOf) := by
        rw [List.filterMap_map, List.map_filterMap]
        rfl
      show Except.ok (survivors retriever request
        ((ranked.map (Option.map (withVector vectorOf))).filterMap id)) = Except.ok _
      rw [flat, survivors_map, adapter]
      refine congrArg Except.ok (List.map_congr_left fun r mem => ?_)
      have candidate : r.fact.factId ∈ prepared.candidates.map FactRow.factId := by
        obtain ⟨entry, computed, same⟩ := List.mem_filterMap.1 (mem_survivors mem)
        obtain ⟨row, here, scored⟩ := mem_of_mapM_eq_ok ranking entry computed
        rw [show entry = some r from same] at scored
        rw [indexedRow_fact scored]
        exact member row here
      rw [storedMmr_of_stored (List.mem_map_of_mem mem) (held _ candidate).sized
        (held _ candidate).stored]
      rfl

theorem make_eq_brute {loads : Bool} {settings : RetrieverSettings F} {embedder : DenseEmbedder}
    {backend : VectorBackend} {db : VecDb} :
    make loads settings embedder backend db =
      (make loads settings embedder .brute db).map fun retriever =>
        { retriever with vectorIndex := openFor loads backend embedder db } := by
  unfold make
  dsimp only
  cases require ((∀ weight ∈ [settings.ftsWeight.getD settings.ranking.ftsWeight,
      settings.jaccardWeight.getD settings.ranking.jaccardWeight,
      settings.denseWeight.getD settings.ranking.denseWeight], 0 ≤ weight) ∧
      IsClose (settings.ftsWeight.getD settings.ranking.ftsWeight +
        settings.jaccardWeight.getD settings.ranking.jaccardWeight +
        settings.denseWeight.getD settings.ranking.denseWeight) 1)
    (valueError "retrieval weights must be non-negative and sum to 1") with
  | error e => rfl
  | ok _ =>
      cases require ((0 ≤ settings.minScore.getD settings.ranking.scoreFloor ∧
          settings.minScore.getD settings.ranking.scoreFloor ≤ 1) ∧ 1 ≤ settings.candidateLimit)
        (valueError "min_score must be between 0 and 1 and candidate_limit positive") with
      | error e => rfl
      | ok _ => rfl

theorem make_embedder {loads : Bool} {settings : RetrieverSettings F} {embedder : DenseEmbedder}
    {backend : VectorBackend} {db : VecDb}
    (made : make loads settings embedder backend db = .ok retriever) :
    retriever.embedder = embedder ∧ retriever.vectorIndex = openFor loads backend embedder db := by
  unfold make at made
  dsimp only at made
  obtain ⟨-, made⟩ := require_bind_eq_ok.1 made
  obtain ⟨-, made⟩ := require_bind_eq_ok.1 made
  cases pure_eq_ok.1 made
  exact ⟨rfl, rfl⟩

/-- The adapter checked the query vector. -/
theorem prepare_sized {host : Host} {s : Store} {request : SearchRequest} {backend : StoredBackend}
    (adapter : retriever.embedder = .stored backend)
    (done : retriever.prepare host s request = .ok (some prepared)) :
    prepared.queryVector.length = backend.dimensions := by
  unfold prepare at done
  dsimp only at done
  split at done
  · cases pure_eq_ok.1 done
  obtain ⟨candidates, -, done⟩ := bind_eq_ok.1 done
  split at done
  · cases pure_eq_ok.1 done
  obtain ⟨ftsScores, -, done⟩ := bind_eq_ok.1 done
  obtain ⟨queryVector, embedded, done⟩ := bind_eq_ok.1 done
  cases pure_eq_ok.1 done
  rw [adapter] at embedded
  obtain ⟨vector, -, embedded⟩ := bind_eq_ok.1 embedded
  obtain ⟨sized, embedded⟩ := require_bind_eq_ok.1 embedded
  cases pure_eq_ok.1 embedded
  exact sized

/-- A search with the index gives the answer of the search without it. -/
theorem search_without_index {host : Host} {db : VecDb} {request : SearchRequest}
    {backend : StoredBackend} {index : Option SQLiteVecIndex} (vec0 : Vec0Cosine numerics)
    (exact : ActiveExact db backend.documentIdentity backend.dimensions)
    (adapter : retriever.embedder = .stored backend)
    (opened : ∀ i ∈ index,
      db.binding = some ⟨backend.documentIdentity, backend.dimensions, i.tableName⟩) :
    (search numerics host { retriever with vectorIndex := index } db updatedAt request).1 =
      (search numerics host { retriever with vectorIndex := none } db updatedAt request).1 := by
  have same : ({ retriever with vectorIndex := index } : HybridRetriever F).prepare host db.store
      request = retriever.prepare host db.store request := rfl
  have same' : ({ retriever with vectorIndex := none } : HybridRetriever F).prepare host db.store
      request = retriever.prepare host db.store request := rfl
  unfold search
  rw [same, same']
  cases found : retriever.prepare host db.store request with
  | error e => rfl
  | ok outcome =>
      cases outcome with
      | none => rfl
      | some prepared =>
          cases index with
          | none => rfl
          | some i =>
              dsimp only
              cases done : i.scores numerics db prepared.queryVector
                  (prepared.candidates.map FactRow.factId) with
              | error e => rfl
              | ok scores =>
                  have brute := @bruteSearch_eq_indexed F _ _ numerics retriever updatedAt prepared
                    backend db.store request scores adapter (scores_eq_ok done).2.1
                    fun factId wanted => answered_of_scores vec0 exact (opened i rfl)
                      (prepare_sized adapter found) done wanted
                  exact brute.symm

/-- With the active table equal to the canonical rows, the search through vec0 and the search
over the stored vectors return the same results, or raise the same error. -/
theorem sqlite_vec_agrees_with_brute (vec0 : Vec0Cosine numerics) {db : VecDb}
    {backend : StoredBackend}
    (exact : ActiveExact db backend.documentIdentity backend.dimensions) (host : Host)
    (loads : Bool) (settings : RetrieverSettings F) (updatedAt : Nat → Option String)
    (request : SearchRequest) :
    searchOnce numerics host loads settings (.stored backend) .sqliteVec db updatedAt request =
      searchOnce numerics host loads settings (.stored backend) .brute db updatedAt request := by
  unfold searchOnce
  rw [make_eq_brute]
  cases made : make loads settings (.stored backend) .brute db with
  | error e => rfl
  | ok retriever =>
      obtain ⟨adapter, closed⟩ := make_embedder made
      have plain : retriever = { retriever with vectorIndex := none } := by
        rw [← show retriever.vectorIndex = none from closed]
      show (search numerics host { retriever with
          vectorIndex := openFor loads .sqliteVec (.stored backend) db } db updatedAt request).1 =
        (search numerics host retriever db updatedAt request).1
      rw [plain]
      exact search_without_index vec0 exact adapter fun i opened =>
        (openIndex_eq_some opened).1

theorem sample_vec0 : Vec0Cosine Sample.numerics where
  nonzero _ _ solid solid' := if_neg (not_or.2 ⟨solid, solid'⟩)
  zero _ _ zero := if_pos zero

/-- The store of the sample search. -/
def twoDoorsState : VecSystem.State :=
  run (VecSystem.advance Sample.host) Sample.twoDoors VecSystem.State.empty

theorem twoDoorsState_exact : ActiveExact twoDoorsState.db "sample" 1 := by
  have admitted : Admits (VecSystem.advance Sample.host) (VecSystem.KeepsPairs Sample.host)
      Sample.twoDoors VecSystem.State.empty := by
    refine VecSystem.indexedDoor_admitted.append ⟨?_, trivial⟩
    rintro upsert ⟨⟩
  have opened : SQLiteVecIndex.openIndex true twoDoorsState.db "sample" 1 =
      some ⟨"sample", 1, .a⟩ := by
    decide +kernel
  exact (VecSystem.inStep_of_reached ⟨_, admitted, rfl⟩).activeExact opened

/-- The sample search ranks both facts through vec0 as it does without it. -/
theorem door_search_agrees :
    searchOnce Sample.numerics Sample.host true Sample.retrieverSettings (.stored Sample.backend)
        .sqliteVec twoDoorsState.db (fun _ => none) Sample.doorSearch =
      searchOnce Sample.numerics Sample.host true Sample.retrieverSettings (.stored Sample.backend)
        .brute twoDoorsState.db (fun _ => none) Sample.doorSearch ∧
    (searchOnce Sample.numerics Sample.host true Sample.retrieverSettings (.stored Sample.backend)
        .brute twoDoorsState.db (fun _ => none) Sample.doorSearch).toOption.any
      (fun results => results.map (fun r => (r.fact.factId, r.denseScore)) = [(1, 1), (2, 0)]) =
        true :=
  ⟨sqlite_vec_agrees_with_brute sample_vec0 twoDoorsState_exact Sample.host true
    Sample.retrieverSettings (fun _ => none) Sample.doorSearch, by decide +kernel⟩

end HybridRetriever

end Enfold.Laws
