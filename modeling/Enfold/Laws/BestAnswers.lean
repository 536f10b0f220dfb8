/-
# Laws.BestAnswers -- what a search returns

A search ranks the facts it may show and returns the best of them, whether the vectors come from the
index or from the stored rows:

* `mem_candidates`: its candidates are the newest `candidate_limit` eligible facts that meet the
  trust bound and name every anchor;
* `search_shows`: every returned fact is one the search may show and reached the floor, none is
  returned twice, and they stand best first;
* `search_misses`: a candidate that is missing has a score (`scoreOf`) below the floor or comes after
  as many returned ones as were asked for, unless the search abstained on a near tie.
-/
import Enfold.Laws.DenseRanking
import Enfold.Theory.Ranked

namespace Enfold.Laws

open Enfold.Theory Enfold.Model

set_option autoImplicit false

variable {F : Type} [Field F] [LinearOrder F]

namespace HybridRetriever

open Enfold.Model.HybridRetriever

variable {numerics : Numerics F} {host : Host} {retriever : HybridRetriever F} {s : Store}
  {db : VecDb} {updatedAt : Nat → Option String} {request : SearchRequest} {prepared : Prepared F}
  {results : List (SearchResult F)}

/-! ## The candidates -/

/-- The search may look at the fact. -/
structure Searchable (retriever : HybridRetriever F) (s : Store) (request : SearchRequest)
    (row : FactRow) : Prop where
  stored : row ∈ s.facts
  active : row.Active
  scope : ∃ scope ∈ retriever.allowedScopes, strip scope = row.scope
  category : ∀ c ∈ request.category, row.category = c

/-- The search may show the fact. -/
structure Showable (retriever : HybridRetriever F) (s : Store) (request : SearchRequest)
    (row : FactRow) : Prop extends Searchable retriever s request row where
  trusted : request.minTrust.value ≤ row.trustScore.value
  anchored : ∀ anchor ∈ namedAnchorTokens (strip request.query),
    anchor ∈ tokenSet (row.content ++ " " ++ row.tags)

theorem required_all {name : String} {values texts : List String}
    (done : values.mapM (fun value => do return (← required value name).1) = .ok texts) :
    texts = values.map strip := by
  have each := mapM_eq_ok.1 done
  clear done
  induction each with
  | nil => rfl
  | cons first _ ih =>
      obtain ⟨text, valid, here⟩ := bind_eq_ok.1 first
      rw [List.map_cons, ← ih, ← pure_eq_ok.1 here]
      unfold required at valid
      split at valid
      · cases valid
      · cases valid
        rfl

/-- The facts the search may look at. -/
def searchable (retriever : HybridRetriever F) (s : Store) (request : SearchRequest) :
    List FactRow :=
  s.facts.table.select fun r =>
    r.Eligible (some (retriever.allowedScopes.map strip).dedup) request.category

theorem mem_searchable {row : FactRow} :
    row ∈ searchable retriever s request ↔ Searchable retriever s request row := by
  unfold searchable
  rw [Table.mem_select, Facts.mem_table]
  constructor
  · rintro ⟨stored, active, scope, category⟩
    have inside := scope _ rfl
    rw [List.mem_dedup, List.mem_map] at inside
    exact ⟨stored, active, inside, category⟩
  · rintro ⟨stored, active, scope, category⟩
    refine ⟨stored, active, ?_, category⟩
    intro allowed same
    cases same
    rw [List.mem_dedup, List.mem_map]
    exact scope

/-- Newest first. -/
abbrev Newer (r r' : FactRow) : Prop := r'.factId < r.factId

instance : Std.Asymm Newer := ⟨fun _ _ => Nat.lt_asymm⟩

/-- The facts the search may look at, newest first. -/
theorem newest_ordered (retriever : HybridRetriever F) (s : Store) (request : SearchRequest) :
    ((searchable retriever s request).insertionSort fun r r' => r'.factId ≤ r.factId).Pairwise
      Newer := by
  have : Std.Total fun r r' : FactRow => r'.factId ≤ r.factId := ⟨fun r r' => Nat.le_total _ _⟩
  have : IsTrans FactRow fun r r' => r'.factId ≤ r.factId := ⟨fun _ _ _ ab bc => Nat.le_trans bc ab⟩
  have sorted := List.pairwise_insertionSort (fun r r' : FactRow => r'.factId ≤ r.factId)
    (searchable retriever s request)
  have perm := List.perm_insertionSort (fun r r' : FactRow => r'.factId ≤ r.factId)
    (searchable retriever s request)
  have ids : ((searchable retriever s request).map FactRow.factId).Nodup :=
    s.facts.table.nodup.sublist (List.filter_sublist.map _)
  have apart := List.pairwise_map.1 ((perm.map FactRow.factId).nodup_iff.2 ids)
  exact (sorted.and apart).imp fun both => Nat.lt_of_le_of_ne both.1 both.2.symm

/-- What the scan of the facts returns. -/
theorem activeFacts_eq_ok {active : List FactRow}
    (done : activeFacts s (some retriever.allowedScopes) request.category retriever.candidateLimit =
      .ok active) :
    active = ((searchable retriever s request).insertionSort fun r r' => r'.factId ≤ r.factId).take
      retriever.candidateLimit := by
  unfold activeFacts at done
  split at done
  · next none =>
    rw [← pure_eq_ok.1 done, Nat.lt_one_iff.1 none]
    rfl
  · obtain ⟨allowed, predicate, done⟩ := bind_eq_ok.1 done
    obtain ⟨stripped, passed, wrapped⟩ := bind_eq_ok.1 predicate
    rw [← pure_eq_ok.1 done, ← pure_eq_ok.1 wrapped, required_all passed]
    rfl

/-- The candidates of a search are the newest `candidate_limit` facts it may look at, as far as it
may show them. -/
theorem mem_candidates {candidates : List FactRow}
    (done : retriever.candidatesOf s request (strip request.query) = .ok candidates)
    {row : FactRow} :
    row ∈ candidates ↔ Showable retriever s request row ∧
      rank Newer (searchable retriever s request) row < retriever.candidateLimit := by
  obtain ⟨active, listed, done⟩ := bind_eq_ok.1 done
  rw [← pure_eq_ok.1 done, activeFacts_eq_ok listed]
  simp only [List.mem_filter, decide_eq_true_eq]
  rw [mem_take_iff_rank (newest_ordered retriever s request), List.mem_insertionSort,
    mem_searchable, rank_perm (List.perm_insertionSort _ _)]
  constructor
  · rintro ⟨⟨⟨may, few⟩, trusted⟩, anchored⟩
    exact ⟨⟨may, trusted, anchored⟩, few⟩
  · rintro ⟨⟨may, trusted, anchored⟩, few⟩
    exact ⟨⟨⟨may, few⟩, trusted⟩, anchored⟩

theorem nodup_candidates {query : String} {candidates : List FactRow}
    (done : retriever.candidatesOf s request query = .ok candidates) :
    (candidates.map FactRow.factId).Nodup := by
  obtain ⟨active, listed, done⟩ := bind_eq_ok.1 done
  rw [← pure_eq_ok.1 done, activeFacts_eq_ok listed]
  have ordered := newest_ordered retriever s request
  have distinct : ((searchable retriever s request).insertionSort
      fun r r' => r'.factId ≤ r.factId).Pairwise fun r r' => r.factId ≠ r'.factId :=
    ordered.imp fun newer => (Nat.ne_of_lt newer).symm
  refine List.pairwise_map.2 (distinct.sublist ?_)
  exact List.filter_sublist.trans (List.filter_sublist.trans (List.take_sublist _ _))

/-- What a search that looks at vectors has found before. -/
theorem prepare_eq_some (done : retriever.prepare host s request = .ok (some prepared)) :
    retriever.candidatesOf s request (strip request.query) = .ok prepared.candidates := by
  unfold prepare at done
  dsimp only at done
  split at done
  · cases pure_eq_ok.1 done
  obtain ⟨candidates, listed, done⟩ := bind_eq_ok.1 done
  split at done
  · cases pure_eq_ok.1 done
  obtain ⟨ftsScores, -, done⟩ := bind_eq_ok.1 done
  obtain ⟨queryVector, -, done⟩ := bind_eq_ok.1 done
  cases pure_eq_ok.1 done
  exact listed

/-! ## The best of the scored candidates -/

instance : Std.Total (Before : SearchResult F → SearchResult F → Prop) where
  total x y := by
    unfold Before
    rcases lt_trichotomy x.score y.score with lower | same | higher
    · exact .inr (.inl lower)
    · rcases lt_trichotomy x.fact.trustScore.value y.fact.trustScore.value with less | equal | more
      · exact .inr (.inr ⟨same.symm, .inl less⟩)
      · rcases Nat.le_total x.fact.factId y.fact.factId with first | second
        · exact .inl (.inr ⟨same, .inr ⟨equal, first⟩⟩)
        · exact .inr (.inr ⟨same.symm, .inr ⟨equal.symm, second⟩⟩)
      · exact .inl (.inr ⟨same, .inl more⟩)
    · exact .inl (.inl higher)

omit [Field F] in
theorem Before.trans {x y z : SearchResult F} (first : Before x y) (second : Before y z) :
    Before x z := by
  unfold Before at *
  rcases first with higher | ⟨same, rest⟩
  · rcases second with higher' | ⟨same', -⟩
    · exact .inl (lt_trans higher' higher)
    · exact .inl (same' ▸ higher)
  · rcases second with higher' | ⟨same', rest'⟩
    · exact .inl (same ▸ higher')
    · refine .inr ⟨same.trans same', ?_⟩
      rcases rest with more | ⟨equal, earlier⟩
      · rcases rest' with more' | ⟨equal', -⟩
        · exact .inl (lt_trans more' more)
        · exact .inl (equal' ▸ more)
      · rcases rest' with more' | ⟨equal', earlier'⟩
        · exact .inl (equal ▸ more')
        · exact .inr ⟨equal.trans equal', Nat.le_trans earlier earlier'⟩

instance : IsTrans (SearchResult F) Before := ⟨fun _ _ _ => Before.trans⟩

/-- As many of the scored results as are asked for, best first, and no other one before them. -/
structure Best (request : SearchRequest) (scored results : List (SearchResult F)) : Prop where
  few : results.length ≤ request.limit.toNat
  ordered : results.Pairwise Before
  chosen : results.Subperm scored
  best : ∀ r ∈ scored, r ∈ results ∨
    results.length = request.limit.toNat ∧ ∀ better ∈ results, Before better r

/-- The two best scored results are closer than the margin. -/
def NearTie (margin : F) (scored : List (SearchResult F)) : Prop :=
  ∃ first second rest, scored.Perm (first :: second :: rest) ∧
    (first :: second :: rest).Pairwise Before ∧ first.score - second.score < margin

theorem nearTie_of_ambiguous {margin : F} {scored sorted : List (SearchResult F)}
    (perm : scored.Perm sorted) (ordered : sorted.Pairwise Before)
    (close : ambiguous margin sorted = true) : NearTie margin scored := by
  cases sorted with
  | nil => cases close
  | cons first others =>
      cases others with
      | nil => cases close
      | cons second rest =>
          exact ⟨first, second, rest, perm, ordered, of_decide_eq_true close⟩

omit [Field F] in
theorem best_of_take {scored sorted : List (SearchResult F)} (perm : scored.Perm sorted)
    (ordered : sorted.Pairwise Before) : Best request scored (sorted.take request.limit.toNat) where
  few := List.length_take_le _ _
  ordered := ordered.sublist (List.take_sublist _ _)
  chosen := (List.take_sublist _ _).subperm.trans perm.symm.subperm
  best := by
    intro r mem
    rw [perm.mem_iff, ← List.take_append_drop request.limit.toNat sorted, List.mem_append] at mem
    rcases mem with inside | outside
    · exact .inl inside
    · right
      constructor
      · have left := List.length_pos_of_mem outside
        rw [List.length_drop] at left
        rw [List.length_take]
        omega
      · intro better chosen
        rw [← List.take_append_drop request.limit.toNat sorted] at ordered
        exact (List.pairwise_append.1 ordered).2.2 better chosen r outside

/-- The results that are kept are the best, or none after a near tie. -/
theorem survivors_best (request : SearchRequest) (scored : List (SearchResult F)) :
    NearTie retriever.ranking.ambiguityMargin scored ∧ survivors retriever request scored = [] ∨
      Best request scored (survivors retriever request scored) := by
  have perm := (List.perm_insertionSort Before scored).symm
  have ordered := List.pairwise_insertionSort (Before : SearchResult F → _ → Prop) scored
  unfold survivors
  dsimp only
  split
  · next close => exact .inl ⟨nearTie_of_ambiguous perm ordered close, rfl⟩
  · exact .inr (best_of_take perm ordered)

/-! ## Attached vectors -/

/-- A result with another vector attached. -/
def attached (vectorOf : Nat → Option (List Decimal)) (r : SearchResult F) : SearchResult F :=
  { r with mmrEmbedding := vectorOf r.fact.factId }

omit [Field F] in
theorem ordered_attached {l : List (SearchResult F)} (vectorOf : Nat → Option (List Decimal))
    (ordered : l.Pairwise Before) : (l.map (attached vectorOf)).Pairwise Before :=
  List.pairwise_map.2 (ordered.imp fun before => before)

omit [Field F] in
theorem Best.attach {scored : List (SearchResult F)} (best : Best request scored results)
    (vectorOf : Nat → Option (List Decimal)) :
    Best request (scored.map (attached vectorOf)) (results.map (attached vectorOf)) where
  few := by
    rw [List.length_map]
    exact best.few
  ordered := ordered_attached vectorOf best.ordered
  chosen := by
    obtain ⟨l, perm, sub⟩ := best.chosen
    exact ⟨l.map _, perm.map _, sub.map _⟩
  best := by
    intro r mem
    obtain ⟨plain, here, rfl⟩ := List.mem_map.1 mem
    rcases best.best plain here with inside | ⟨full, after⟩
    · exact .inl (List.mem_map_of_mem inside)
    · rw [List.length_map]
      refine .inr ⟨full, fun better chosen => ?_⟩
      obtain ⟨plain', there, rfl⟩ := List.mem_map.1 chosen
      exact after plain' there

theorem NearTie.attach {margin : F} {scored : List (SearchResult F)}
    (close : NearTie margin scored) (vectorOf : Nat → Option (List Decimal)) :
    NearTie margin (scored.map (attached vectorOf)) := by
  obtain ⟨first, second, rest, perm, ordered, close⟩ := close
  exact ⟨_, _, _, perm.map _, ordered_attached vectorOf ordered, close⟩

/-! ## The scored candidates -/

/-- The scores the index answers with, when it does. -/
def indexScores (numerics : Numerics F) (retriever : HybridRetriever F) (db : VecDb)
    (prepared : Prepared F) : Option (SQLiteVecIndex.Scores F) :=
  retriever.vectorIndex.bind fun index =>
    (index.scores numerics db prepared.queryVector
      (prepared.candidates.map FactRow.factId)).toOption

/-- The vector score of a candidate: what the index says of it, or else the cosine of its vector. -/
def denseScore (numerics : Numerics F) (retriever : HybridRetriever F) (db : VecDb)
    (prepared : Prepared F) (row : FactRow) : Py F :=
  match indexScores numerics retriever db prepared with
  | some scores =>
      match scores.get? row.factId with
      | none => .error ⟨.foreign, natText row.factId⟩
      | some (_, score) => .ok score
  | none => do
      let vectors ← retriever.embedder.documentVectors db.store prepared.candidates
      match (prepared.candidates.zip vectors).find? fun pair => pair.1.factId = row.factId with
      | none => .error ⟨.foreign, natText row.factId⟩
      | some (_, vector) =>
          let similarity ← cosine numerics prepared.queryVector vector
          return max 0 similarity

/-- The score of a candidate, whatever the floor. -/
def scoreOf (numerics : Numerics F) (retriever : HybridRetriever F) (db : VecDb)
    (updatedAt : Nat → Option String) (prepared : Prepared F) (row : FactRow) : Py F := do
  let dense ← denseScore numerics retriever db prepared row
  let recency ← recencyScore numerics row (updatedAt row.factId) retriever.now
    retriever.ranking.recencyHalfLifeDays
  let relevance := retriever.ftsWeight * (prepared.ftsScores.lookup row.factId).getD 0 +
    retriever.jaccardWeight * jaccard (tokenSet prepared.query) (tokenSet row.content) +
    retriever.denseWeight * dense
  return retriever.ranking.relevanceWeight * relevance +
    retriever.ranking.trustWeight * min 1 (max 0 (row.trustScore.value : F)) +
    retriever.ranking.memoryKindWeight * memoryKindScore row.memoryKind retriever.ranking +
    retriever.ranking.recencyWeight * recency

/-- The candidates whose scores reach the floor, each once with its score. -/
structure Scored (numerics : Numerics F) (retriever : HybridRetriever F) (db : VecDb)
    (updatedAt : Nat → Option String) (prepared : Prepared F) (rows : List FactRow)
    (scored : List (SearchResult F)) : Prop where
  sublist : (scored.map SearchResult.fact).Sublist rows
  own : ∀ r ∈ scored, scoreOf numerics retriever db updatedAt prepared r.fact = .ok r.score
  reached : ∀ r ∈ scored, retriever.minScore ≤ r.score
  complete : ∀ row ∈ rows, row ∈ scored.map SearchResult.fact ∨ ∃ score,
    scoreOf numerics retriever db updatedAt prepared row = .ok score ∧ score < retriever.minScore

/-- A ranked row has its score, or stays below the floor with it. -/
theorem rankRow_score {row : FactRow} {dense : F} {vector : Option (List Decimal)}
    {answer : Option (SearchResult F)}
    (ranked : rankRow numerics retriever updatedAt prepared row dense vector = .ok answer)
    (own : denseScore numerics retriever db prepared row = .ok dense) :
    ∃ score, scoreOf numerics retriever db updatedAt prepared row = .ok score ∧
      (answer = none ∧ score < retriever.minScore ∨
        ∃ r, answer = some r ∧ r.fact = row ∧ r.score = score ∧ retriever.minScore ≤ score) := by
  obtain ⟨recency, aged, ranked⟩ := bind_eq_ok.1 ranked
  refine ⟨_, bind_eq_ok.2 ⟨dense, own, bind_eq_ok.2 ⟨recency, aged, rfl⟩⟩, ?_⟩
  dsimp only at ranked
  split at ranked
  · next below => exact .inl ⟨(pure_eq_ok.1 ranked).symm, below⟩
  · next reached => exact .inr ⟨_, (pure_eq_ok.1 ranked).symm, rfl, rfl, not_lt.1 reached⟩

/-- A traversal that ranks every row by its vector score scores them. -/
theorem scored_of_ranked {rows : List FactRow} {ranked : List (Option (SearchResult F))}
    (each : List.Forall₂ (fun row answer => ∃ dense vector,
      denseScore numerics retriever db prepared row = .ok dense ∧
      rankRow numerics retriever updatedAt prepared row dense vector = .ok answer) rows ranked) :
    Scored numerics retriever db updatedAt prepared rows (ranked.filterMap id) := by
  induction each with
  | nil => exact ⟨List.nil_sublist _, by simp, by simp, by simp⟩
  | @cons row answer rows ranked first _ ih =>
      obtain ⟨dense, vector, own, done⟩ := first
      obtain ⟨score, here, ⟨rfl, below⟩ | ⟨r, rfl, rfl, rfl, reached⟩⟩ := rankRow_score done own
      · rw [List.filterMap_cons_none (by rfl)]
        refine ⟨ih.sublist.cons row, ih.own, ih.reached, List.forall_mem_cons.2 ⟨?_, ih.complete⟩⟩
        exact .inr ⟨score, here, below⟩
      · rw [List.filterMap_cons_some (by rfl : id (some r) = some r)]
        refine ⟨ih.sublist.cons_cons r.fact, List.forall_mem_cons.2 ⟨here, ih.own⟩,
          List.forall_mem_cons.2 ⟨reached, ih.reached⟩, List.forall_mem_cons.2 ⟨?_, ?_⟩⟩
        · exact .inl List.mem_cons_self
        · exact fun other mem => (ih.complete other mem).imp_left (List.mem_cons_of_mem _)

theorem Scored.attach {rows : List FactRow} {scored : List (SearchResult F)}
    (held : Scored numerics retriever db updatedAt prepared rows scored)
    (vectorOf : Nat → Option (List Decimal)) :
    Scored numerics retriever db updatedAt prepared rows (scored.map (attached vectorOf)) := by
  have facts : (scored.map (attached vectorOf)).map SearchResult.fact =
      scored.map SearchResult.fact := List.map_map
  refine ⟨?_, ?_, ?_, ?_⟩
  · rw [facts]
    exact held.sublist
  · intro r mem
    obtain ⟨plain, here, rfl⟩ := List.mem_map.1 mem
    exact held.own plain here
  · intro r mem
    obtain ⟨plain, here, rfl⟩ := List.mem_map.1 mem
    exact held.reached plain here
  · rw [facts]
    exact held.complete

/-! ## The search -/

/-- What a search returns of its candidates. -/
def Answers (numerics : Numerics F) (retriever : HybridRetriever F) (db : VecDb)
    (updatedAt : Nat → Option String) (request : SearchRequest) (prepared : Prepared F)
    (results : List (SearchResult F)) : Prop :=
  ∃ scored, Scored numerics retriever db updatedAt prepared prepared.candidates scored ∧
    (NearTie retriever.ranking.ambiguityMargin scored ∧ results = [] ∨ Best request scored results)

/-- As many vectors as rows, in their order. -/
theorem documentVectors_length {rows : List FactRow} {vectors : List (List Decimal)}
    (loaded : retriever.embedder.documentVectors s rows = .ok vectors) :
    rows.length = vectors.length := by
  unfold DenseEmbedder.documentVectors at loaded
  split at loaded
  · obtain ⟨read, -, loaded⟩ := bind_eq_ok.1 loaded
    obtain ⟨same, loaded⟩ := require_bind_eq_ok.1 loaded
    obtain ⟨_, -, loaded⟩ := bind_eq_ok.1 loaded
    rw [← pure_eq_ok.1 loaded]
    exact same.symm
  · cases loaded
    rw [List.length_map]

/-- Without an answer of the index, the vector next to a candidate scores it. -/
theorem denseScore_of_vector {vectors : List (List Decimal)} {row : FactRow} {vector : List Decimal}
    {similarity : F} (unindexed : indexScores numerics retriever db prepared = none)
    (distinct : (prepared.candidates.map FactRow.factId).Nodup)
    (loaded : retriever.embedder.documentVectors db.store prepared.candidates = .ok vectors)
    (mem : (row, vector) ∈ prepared.candidates.zip vectors)
    (compared : cosine numerics prepared.queryVector vector = .ok similarity) :
    denseScore numerics retriever db prepared row = .ok (max 0 similarity) := by
  have ids : ((prepared.candidates.zip vectors).map fun pair => pair.1.factId).Nodup := by
    have rows := List.map_fst_zip (documentVectors_length loaded).le
    rw [← rows, List.map_map] at distinct
    exact distinct
  have found : (prepared.candidates.zip vectors).find? (fun pair => pair.1.factId = row.factId) =
      some (row, vector) := by
    cases here : (prepared.candidates.zip vectors).find? fun pair => pair.1.factId = row.factId with
    | none => exact absurd (decide_eq_true rfl) (List.find?_eq_none.1 here (row, vector) mem)
    | some pair =>
        have holds := List.find?_some here
        have same : pair.1.factId = row.factId := of_decide_eq_true holds
        rw [List.inj_on_of_nodup_map ids (List.mem_of_find?_eq_some here) mem same]
  unfold denseScore
  rw [unindexed]
  dsimp only
  rw [loaded, ok_bind, found]
  dsimp only
  rw [compared, ok_bind]
  rfl

theorem bruteSearch_answers (unindexed : indexScores numerics retriever db prepared = none)
    (distinct : (prepared.candidates.map FactRow.factId).Nodup)
    (done : bruteSearch numerics retriever updatedAt db.store request prepared = .ok results) :
    Answers numerics retriever db updatedAt request prepared results := by
  obtain ⟨vectors, loaded, done⟩ := bind_eq_ok.1 done
  obtain ⟨ranked, scoring, done⟩ := bind_eq_ok.1 done
  rw [← pure_eq_ok.1 done]
  refine ⟨ranked.filterMap id, ?_, survivors_best request _⟩
  have rows : (prepared.candidates.zip vectors).map Prod.fst = prepared.candidates :=
    List.map_fst_zip (documentVectors_length loaded).le
  have each := (List.forall₂_and_left _ _).2 ⟨fun pair mem => mem, mapM_eq_ok.1 scoring⟩
  have ranks : List.Forall₂ (fun row answer => ∃ dense vector,
      denseScore numerics retriever db prepared row = .ok dense ∧
      rankRow numerics retriever updatedAt prepared row dense vector = .ok answer)
      ((prepared.candidates.zip vectors).map Prod.fst) ranked := by
    refine List.forall₂_map_left_iff.2 (each.imp fun pair answer scores => ?_)
    obtain ⟨mem, scores⟩ := scores
    obtain ⟨similarity, compared, scores⟩ := bind_eq_ok.1 scores
    exact ⟨_, _, denseScore_of_vector unindexed distinct loaded mem compared, scores⟩
  rw [rows] at ranks
  exact scored_of_ranked ranks

theorem indexedSearch_answers {scores : SQLiteVecIndex.Scores F}
    (answered : indexScores numerics retriever db prepared = some scores)
    (done : indexedSearch numerics retriever updatedAt s request prepared scores = .ok results) :
    Answers numerics retriever db updatedAt request prepared results := by
  obtain ⟨ranked, scoring, done⟩ := bind_eq_ok.1 done
  have fetched : (survivors retriever request (ranked.filterMap id)).map (attached fun factId =>
      ((storedMmrEmbeddings retriever.embedder s ((survivors retriever request
        (ranked.filterMap id)).map fun r => r.fact.factId)).get? factId).map Prod.snd) = results :=
    pure_eq_ok.1 done
  obtain ⟨vectorOf, returned⟩ : ∃ vectorOf,
      (survivors retriever request (ranked.filterMap id)).map (attached vectorOf) = results :=
    ⟨_, fetched⟩
  have each : List.Forall₂ (fun row answer => ∃ dense vector,
      denseScore numerics retriever db prepared row = .ok dense ∧
      rankRow numerics retriever updatedAt prepared row dense vector = .ok answer)
      prepared.candidates ranked := by
    refine (mapM_eq_ok.1 scoring).imp fun row answer ranks => ?_
    unfold indexedRow at ranks
    split at ranks
    · cases ranks
    · next score found =>
      refine ⟨score, none, ?_, ranks⟩
      unfold denseScore
      rw [answered]
      dsimp only
      rw [found]
  rw [← returned]
  refine ⟨_, (scored_of_ranked each).attach vectorOf, ?_⟩
  rcases survivors_best request (ranked.filterMap id) with ⟨close, none⟩ | best
  · left
    rw [none]
    exact ⟨close.attach vectorOf, rfl⟩
  · exact .inr (best.attach vectorOf)

/-- A search that looks at no vectors has nothing to look for, or nothing to show. -/
theorem prepare_eq_none (done : retriever.prepare host s request = .ok none) :
    strip request.query = "" ∨ request.limit ≤ 0 ∨
      retriever.candidatesOf s request (strip request.query) = .ok [] := by
  unfold prepare at done
  dsimp only at done
  split at done
  · next nothing =>
    rcases nothing with blank | few
    · exact .inl blank
    · exact .inr (.inl few)
  obtain ⟨candidates, listed, done⟩ := bind_eq_ok.1 done
  split at done
  · next none =>
    rw [none] at listed
    exact .inr (.inr listed)
  obtain ⟨ftsScores, -, done⟩ := bind_eq_ok.1 done
  obtain ⟨queryVector, -, done⟩ := bind_eq_ok.1 done
  cases pure_eq_ok.1 done

theorem search_answers
    (done : (search numerics host retriever db updatedAt request).1 = .ok results) :
    retriever.prepare host db.store request = .ok none ∧ results = [] ∨
      ∃ prepared, retriever.prepare host db.store request = .ok (some prepared) ∧
        Answers numerics retriever db updatedAt request prepared results := by
  unfold search at done
  cases found : retriever.prepare host db.store request with
  | error e =>
      rw [found] at done
      cases done
  | ok outcome =>
      rw [found] at done
      cases outcome with
      | none =>
          cases done
          exact .inl ⟨rfl, rfl⟩
      | some prepared =>
          right
          refine ⟨prepared, rfl, ?_⟩
          have distinct := nodup_candidates (prepare_eq_some found)
          dsimp only at done
          split at done
          · next unindexed =>
            exact bruteSearch_answers (by rw [indexScores, unindexed, Option.bind_none]) distinct done
          · next index indexed =>
            have asked : indexScores numerics retriever db prepared =
                (index.scores numerics db prepared.queryVector
                  (prepared.candidates.map FactRow.factId)).toOption := by
              rw [indexScores, indexed, Option.bind_some]
            split at done
            · next scores answered => exact indexedSearch_answers (by rw [asked, answered]; rfl) done
            · next e failed =>
              exact bruteSearch_answers (by rw [asked, failed]; rfl) distinct done

/-- Whatever scores the vectors, a search shows only facts it may show, each once, best first, none
below the floor and no more than were asked for. -/
theorem search_shows
    (done : (search numerics host retriever db updatedAt request).1 = .ok results) :
    results.length ≤ request.limit.toNat ∧ results.Pairwise Before ∧
      (results.map fun r => r.fact.factId).Nodup ∧
      ∀ r ∈ results, Showable retriever db.store request r.fact ∧ retriever.minScore ≤ r.score := by
  have nothing : results = [] → results.length ≤ request.limit.toNat ∧ results.Pairwise Before ∧
      (results.map fun r => r.fact.factId).Nodup ∧
      ∀ r ∈ results, Showable retriever db.store request r.fact ∧
        retriever.minScore ≤ r.score := by
    rintro rfl
    exact ⟨Nat.zero_le _, .nil, List.nodup_nil, by simp⟩
  rcases search_answers done with ⟨-, none⟩ | ⟨prepared, found, scored, held, ⟨-, none⟩ | best⟩
  · exact nothing none
  · exact nothing none
  · have listed := prepare_eq_some found
    refine ⟨best.few, best.ordered, ?_, fun r mem => ?_⟩
    · have ids : (scored.map fun r => r.fact.factId).Nodup := by
        have distinct := (nodup_candidates listed).sublist (held.sublist.map FactRow.factId)
        rw [List.map_map] at distinct
        exact distinct
      obtain ⟨l, perm, sub⟩ := best.chosen
      exact (perm.map _).nodup_iff.1 (ids.sublist (sub.map _))
    · have inside := best.chosen.subset mem
      refine ⟨((mem_candidates listed).1 ?_).1, held.reached r inside⟩
      exact held.sublist.subset (List.mem_map_of_mem inside)

/-- A search of the sample store with this floor: its candidates and what it returns. -/
def sampleSearch (floor : Option ℚ) :
    Py (HybridRetriever ℚ × List FactRow × List (SearchResult ℚ)) := do
  let retriever ← make true { Sample.retrieverSettings with minScore := floor }
    (.stored Sample.backend) .brute twoDoorsState.db
  let candidates ← retriever.candidatesOf twoDoorsState.db.store Sample.doorSearch
    (strip Sample.doorSearch.query)
  let results ← (search Sample.numerics Sample.host retriever twoDoorsState.db
    (fun _ => none) Sample.doorSearch).1
  return (retriever, candidates, results)

theorem sampleSearch_ok {floor : Option ℚ}
    {p : HybridRetriever ℚ × List FactRow × List (SearchResult ℚ) → Bool}
    (ends : (sampleSearch floor).toOption.any p = true) :
    ∃ retriever candidates results, p (retriever, candidates, results) = true ∧
      retriever.candidatesOf twoDoorsState.db.store Sample.doorSearch
        (strip Sample.doorSearch.query) = .ok candidates ∧
      (search Sample.numerics Sample.host retriever twoDoorsState.db (fun _ => none)
        Sample.doorSearch).1 = .ok results := by
  cases done : sampleSearch floor with
  | error e =>
      rw [done] at ends
      cases ends
  | ok outcome =>
      rw [done] at ends
      obtain ⟨retriever, -, done⟩ := bind_eq_ok.1 done
      obtain ⟨candidates, listed, done⟩ := bind_eq_ok.1 done
      obtain ⟨results, searched, done⟩ := bind_eq_ok.1 done
      cases pure_eq_ok.1 done
      exact ⟨retriever, candidates, results, ends, listed, searched⟩

theorem sampleSearch_shows :
    ∃ retriever results, (search Sample.numerics Sample.host retriever twoDoorsState.db
        (fun _ => none) Sample.doorSearch).1 = .ok results ∧ results.length = 2 ∧
      ∀ r ∈ results, Showable retriever twoDoorsState.db.store Sample.doorSearch r.fact ∧
        retriever.minScore ≤ r.score := by
  have ends : (sampleSearch none).toOption.any (fun found => found.2.2.length = 2) = true := by
    decide +kernel
  obtain ⟨retriever, candidates, results, two, -, searched⟩ := sampleSearch_ok ends
  obtain ⟨-, -, -, shown⟩ := search_shows searched
  exact ⟨retriever, results, searched, of_decide_eq_true two, shown⟩

/-- A fact that a search could show and does not is missing because it stayed below the floor, or
because the best two were too close, or because it comes after as many as were asked for. -/
theorem search_misses
    (done : (search numerics host retriever db updatedAt request).1 = .ok results)
    (asks : strip request.query ≠ "") (some' : 0 < request.limit) {row : FactRow}
    (showable : Showable retriever db.store request row)
    (recent : rank Newer (searchable retriever db.store request) row < retriever.candidateLimit)
    (missing : ∀ r ∈ results, r.fact ≠ row) :
    ∃ prepared scored, retriever.prepare host db.store request = .ok (some prepared) ∧
      Scored numerics retriever db updatedAt prepared prepared.candidates scored ∧
      ((∃ score, scoreOf numerics retriever db updatedAt prepared row = .ok score ∧
          score < retriever.minScore) ∨
        NearTie retriever.ranking.ambiguityMargin scored ∧ results = [] ∨
        results.length = request.limit.toNat ∧
          ∃ r ∈ scored, r.fact = row ∧ ∀ better ∈ results, Before better r) := by
  rcases search_answers done with ⟨nothing, -⟩ | ⟨prepared, found, scored, held, answer⟩
  · rcases prepare_eq_none nothing with blank | few | empty
    · exact absurd blank asks
    · exact absurd few (not_le.2 some')
    · have mem := (mem_candidates empty).2 ⟨showable, recent⟩
      cases mem
  · refine ⟨prepared, scored, found, held, ?_⟩
    have mem := (mem_candidates (prepare_eq_some found)).2 ⟨showable, recent⟩
    rcases held.complete row mem with reached | below
    · obtain ⟨r, inside, same⟩ := List.mem_map.1 reached
      rcases answer with close | best
      · exact .inr (.inl close)
      · rcases best.best r inside with shown | ⟨full, after⟩
        · exact absurd same (missing r shown)
        · exact .inr (.inr ⟨full, r, inside, same, after⟩)
    · exact .inl below

/-- With the floor at a half the fact that only has a queued job stays below it. -/
theorem sampleSearch_misses :
    ∃ retriever results row, (search Sample.numerics Sample.host retriever twoDoorsState.db
        (fun _ => none) Sample.doorSearch).1 = .ok results ∧
      Showable retriever twoDoorsState.db.store Sample.doorSearch row ∧ row.factId = 2 ∧
      results.map (fun r => r.fact.factId) = [1] ∧
      ∃ prepared scored,
        retriever.prepare Sample.host twoDoorsState.db.store Sample.doorSearch =
          .ok (some prepared) ∧
        Scored Sample.numerics retriever twoDoorsState.db (fun _ => none) prepared
          prepared.candidates scored ∧
        ((∃ score, scoreOf Sample.numerics retriever twoDoorsState.db (fun _ => none) prepared row =
            .ok score ∧ score < retriever.minScore) ∨
          NearTie retriever.ranking.ambiguityMargin scored ∧ results = [] ∨
          results.length = Sample.doorSearch.limit.toNat ∧
            ∃ r ∈ scored, r.fact = row ∧ ∀ better ∈ results, Before better r) := by
  have ends : (sampleSearch (some (1 / 2))).toOption.any (fun found =>
      found.2.1.map FactRow.factId = [2, 1] ∧ found.2.2.map (fun r => r.fact.factId) = [1]) =
        true := by
    decide +kernel
  have asks : strip Sample.doorSearch.query ≠ "" := by
    decide +kernel
  obtain ⟨retriever, candidates, results, both, listed, searched⟩ := sampleSearch_ok ends
  obtain ⟨two, shown⟩ := of_decide_eq_true both
  obtain ⟨row, rest, rfl, second, -⟩ := List.map_eq_cons_iff.1 two
  obtain ⟨showable, recent⟩ := (mem_candidates listed).1 List.mem_cons_self
  have missing : ∀ r ∈ results, r.fact ≠ row := by
    rintro r mem rfl
    have listed' := List.mem_map_of_mem (f := fun r => r.fact.factId) mem
    rw [shown, second] at listed'
    exact absurd listed' (by decide)
  exact ⟨retriever, results, row, searched, showable, second, shown,
    search_misses searched asks (by decide) showable recent missing⟩

end HybridRetriever

end Enfold.Laws
