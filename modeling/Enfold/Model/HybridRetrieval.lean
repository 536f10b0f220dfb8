/-
# Model.HybridRetrieval -- search over the authorized facts (`hybrid_retrieval.py`)

`search` collects the active facts of the allowed scopes, scores each of them by its full-text
rank, its common tokens with the query and the similarity of its vector, adds the priors, and
returns the best ones unless the first two are too close.

The vectors come from one of two places.  A retriever with a vec0 index asks it for all
candidates at once and falls back to the stored vectors for good when anything goes wrong;
a retriever without one reads the stored vectors, where a fact that only has a queued job
counts as a zero vector.
-/
import Enfold.Model.EmbeddingProcessor
import Enfold.Model.Ranking
import Enfold.Model.VecIndex
import Enfold.Theory.Batches

namespace Enfold.Model

open Enfold.Theory

set_option autoImplicit false

variable {F : Type} [Field F] [LinearOrder F]

/-! ## Facts in scope (`core_store.py`) -/

/-- `build_scope_predicate`: the scopes as they are compared; `none` allows every scope. -/
def scopePredicate (allowedScopes : Option (List String)) : Py (Option (List String)) :=
  match allowedScopes with
  | none => .ok none
  | some scopes => do
      let scopes ← scopes.mapM fun scope => do return (← required scope "scope").1
      return some scopes.dedup

/-- The conditions `active_facts` and `search_fts` share. -/
def FactRow.Eligible (scopes : Option (List String)) (category : Option String) (r : FactRow) :
    Prop :=
  r.Active ∧ (∀ allowed ∈ scopes, r.scope ∈ allowed) ∧ ∀ c ∈ category, r.category = c

instance (scopes : Option (List String)) (category : Option String) (r : FactRow) :
    Decidable (r.Eligible scopes category) :=
  inferInstanceAs (Decidable (_ ∧ _ ∧ _))

/-- `active_facts`: newest first. -/
def activeFacts (s : Store) (allowedScopes : Option (List String)) (category : Option String)
    (limit : Nat) : Py (List FactRow) := do
  if limit < 1 then return []
  let scopes ← scopePredicate allowedScopes
  return ((s.facts.table.select fun r => r.Eligible scopes category).insertionSort
    fun r r' => r'.factId ≤ r.factId).take limit

/-- The joined rows of `search_fts`, with their ranks. -/
def rankedMatches (host : Host) (s : Store) (terms : List String) (scopes : Option (List String))
    (category : Option String) (minTrust : Decimal) : List (Decimal × FactRow) :=
  s.factsFts.rows.filterMap fun entry =>
    match host.bm25 terms s.factsFts.rows entry, s.facts.get? entry.rowid with
    | some rank, some fact =>
        if fact.Eligible scopes category ∧ minTrust.value ≤ fact.trustScore.value then
          some (rank, fact)
        else none
    | _, _ => none

/-- `search_fts` for a query of alternative terms. -/
def searchFts (host : Host) (s : Store) (terms : List String) (allowedScopes : Option (List String))
    (category : Option String) (minTrust : Decimal) (limit : Nat) : Py (List FactRow) := do
  if limit < 1 then return []
  let scopes ← scopePredicate allowedScopes
  return (((rankedMatches host s terms scopes category minTrust).insertionSort fun a b =>
    a.1.value < b.1.value ∨ a.1.value = b.1.value ∧ b.2.factId ≤ a.2.factId).take limit).map
    Prod.snd

/-! ## Stored vectors -/

def storedEmbeddingError (message : String) : Raised := ⟨.foreign, message⟩

/-- `SQLiteVersionedEmbeddingBackend`. -/
structure StoredBackend where
  queryEmbedder : String → Py (Option (List Decimal))
  documentIdentity : String
  embeddingVersion : String
  dimensions : Nat
  queryPrefix : String
  sqlBatchSize : Nat
  batchPositive : 0 < sqlBatchSize

namespace StoredBackend

def spec (backend : StoredBackend) : EmbeddingSpec :=
  ⟨backend.documentIdentity, backend.embeddingVersion, backend.dimensions⟩

def embedQuery (backend : StoredBackend) (text : String) : Py (List Decimal) := do
  match (← backend.queryEmbedder (backend.queryPrefix ++ text)) with
  | none => throw (storedEmbeddingError "production query embedding is unavailable")
  | some vector => return vector

/-- The vectors read so far, by fact. -/
abbrev Loaded := Table Nat (Nat × List Decimal) Prod.fst

/-- One row of the loop in `load_documents`. -/
def loadRow (backend : StoredBackend) (loaded : Loaded) (e : EmbeddingRow) : Py Loaded := do
  match loaded.insert? (e.factId, e.embedding) with
  | none => throw (storedEmbeddingError
      ("duplicate stored embedding for candidate fact " ++ natText e.factId))
  | some next =>
      require (e.dim = backend.dimensions) (storedEmbeddingError
        ("stored embedding dimension mismatch for candidate fact " ++ natText e.factId))
      require (e.embedding.length = backend.dimensions) (storedEmbeddingError
        ("stored embedding byte length mismatch for candidate fact " ++ natText e.factId))
      return next

/-- The canonical rows of one batch. -/
def batchRows (backend : StoredBackend) (s : Store) (batch : List Nat) : List EmbeddingRow :=
  s.factEmbeddings.select fun e =>
    e.embeddingIdentity = backend.documentIdentity ∧ e.factId ∈ batch

/-- A job of the fact is queued. -/
def Queued (backend : StoredBackend) (s : Store) (factId : Nat) : Prop :=
  ∃ j ∈ s.embeddingJobs.rows, j.OfSpec backend.spec ∧
    (j.status = .pending ∨ j.status = .processing) ∧ j.factId = factId

instance (backend : StoredBackend) (s : Store) (factId : Nat) :
    Decidable (backend.Queued s factId) :=
  inferInstanceAs (Decidable (∃ j ∈ s.embeddingJobs.rows, _))

def uncoveredMessage (uncovered : List Nat) : String :=
  "missing " ++ natText uncovered.length ++ " required stored candidate embedding(s) " ++
    "without a viable exact-identity job: " ++
    ", ".intercalate ((uncovered.take 10).map natText) ++
    (if 10 < uncovered.length then "..." else "")

/-- `load_documents`: the vector of every candidate; a zero vector while its job is queued. -/
def loadDocuments (backend : StoredBackend) (s : Store) (factIds : List Nat) :
    Py (List (List Decimal)) := do
  if factIds = [] then return []
  require factIds.Nodup (storedEmbeddingError "candidate fact ids must be unique")
  let rows := (batches backend.sqlBatchSize factIds).flatMap (backend.batchRows s)
  let loaded ← rows.foldlM backend.loadRow Table.empty
  let missing := factIds.filter fun factId => (loaded.get? factId).isNone
  let uncovered := missing.filter fun factId => ¬ backend.Queued s factId
  require (uncovered = []) (storedEmbeddingError (uncoveredMessage uncovered))
  return factIds.map fun factId =>
    match loaded.get? factId with
    | some (_, vector) => vector
    | none => List.replicate backend.dimensions Decimal.zero

end StoredBackend

/-! ## Embedders -/

/-- The embedders a retriever is given: the adapter over stored vectors, or one that embeds
texts itself. -/
inductive DenseEmbedder where
  | stored (backend : StoredBackend)
  | direct (embedQuery : String → List Decimal) (embedDocument : String → List Decimal)

/-- `_validate_vector` of the adapter. -/
def validateVector (backend : StoredBackend) (kind : String) (vector : List Decimal) : Py PUnit :=
  require (vector.length = backend.dimensions)
    (valueError (kind ++ " embedding dimensions do not match backend metadata"))

namespace DenseEmbedder

def embedQuery (embedder : DenseEmbedder) (text : String) : Py (List Decimal) :=
  match embedder with
  | .stored backend => do
      let vector ← backend.embedQuery text
      validateVector backend "query" vector
      return vector
  | .direct embedQuery _ => .ok (embedQuery text)

/-- `embed_candidates` of the adapter, or `embed_documents`. -/
def documentVectors (embedder : DenseEmbedder) (s : Store) (candidates : List FactRow) :
    Py (List (List Decimal)) :=
  match embedder with
  | .stored backend => do
      let vectors ← backend.loadDocuments s (candidates.map FactRow.factId)
      require (vectors.length = candidates.length)
        (valueError "embedding backend returned the wrong number of vectors")
      vectors.forM (validateVector backend "document")
      return vectors
  | .direct _ embedDocument => .ok (candidates.map fun row => embedDocument row.content)

end DenseEmbedder

/-! ## The deterministic embedder -/

/-- What the embedder takes from the standard library: the eight bytes of the BLAKE2b digest of a
feature, and a component divided by the norm whose square is given. -/
structure FeatureHashing where
  blake2b : String → List Nat
  quotient : Int → Int → Decimal

/-- `DeterministicFeatureHashEmbedder`. -/
structure DeterministicFeatureHashEmbedder where
  dimensions : Nat
  enough : 16 ≤ dimensions

namespace DeterministicFeatureHashEmbedder

def make (dimensions : Nat) : Py DeterministicFeatureHashEmbedder :=
  if enough : 16 ≤ dimensions then .ok ⟨dimensions, enough⟩
  else .error (valueError "dimensions must be at least 16")

/-- The words of a text, and the trigrams of its words joined by `_`. -/
def features (text : String) : List String :=
  let compact := ("_".intercalate (tokens text)).toList
  (tokens text).map (fun token => "w:" ++ token) ++
    (List.range (compact.length - 2)).map fun i => "c3:" ++ String.ofList ((compact.drop i).take 3)

variable (embedder : DeterministicFeatureHashEmbedder) (hashing : FeatureHashing)

def addFeature (vector : List Int) (feature : String) : List Int :=
  let digest := hashing.blake2b feature
  let bucket := (digest.take 4).foldl (fun n byte => 256 * n + byte) 0 % embedder.dimensions
  vector.modify bucket fun value => value + if digest.getD 4 0 % 2 = 1 then 1 else -1

/-- `_embed`. -/
def embed (text : String) : List Decimal :=
  let vector := (features text).foldl (embedder.addFeature hashing)
    (List.replicate embedder.dimensions 0)
  let square := (vector.map fun value => value * value).sum
  vector.map fun value => if square = 0 then .zero else hashing.quotient value square

/-- The embedder as a retriever gets it. -/
def dense : DenseEmbedder := .direct (embedder.embed hashing) (embedder.embed hashing)

theorem length_embed (text : String) : (embedder.embed hashing text).length = embedder.dimensions := by
  have kept : ∀ (features : List String) (vector : List Int),
      (features.foldl (embedder.addFeature hashing) vector).length = vector.length := by
    intro features
    induction features with
    | nil => exact fun _ => rfl
    | cons feature _ ih =>
        intro vector
        rw [List.foldl_cons, ih]
        exact List.length_modify _ _ _
  unfold embed
  dsimp only
  rw [List.length_map, kept, List.length_replicate]

end DeterministicFeatureHashEmbedder

/-! ## Scores from the index -/

namespace SQLiteVecIndex

/-- Similarities by fact. -/
abbrev Scores (F : Type) := Table Nat (Nat × F) Prod.fst

/-- One row of the answer of vec0. -/
def scoreRow (numerics : Numerics F) (queryVector : List Decimal) (scores : Scores F)
    (r : VecRow) : Py (Scores F) :=
  match numerics.distance queryVector r.embedding with
  | none => .error (sqliteVecError "vec0 returned an invalid cosine distance")
  | some distance => .ok (scores.replace (r.rowid, max 0 (1 - distance)))

/-- `scores`.  As many neighbours are asked for as there are ids, so none is cut off; vec0
refuses a query vector of another dimension than the column's. -/
def scores (numerics : Numerics F) (index : SQLiteVecIndex) (db : VecDb)
    (queryVector : List Decimal) (factIds : List Nat) : Py (Scores F) := do
  require (queryVector.length = index.dimensions)
    (sqliteVecError "query vector does not match vec0 index dimensions")
  require factIds.Nodup (sqliteVecError "candidate fact ids must be unique")
  if factIds = [] then return Table.empty
  match db.tables index.tableName with
  | none => throw ⟨.foreign, "no such table"⟩
  | some table =>
      require (queryVector.length = table.dimensions) ⟨.foreign, "dimension mismatch"⟩
      let rows := (batches 500 factIds).flatMap fun batch =>
        table.rows.select fun r => r.rowid ∈ batch
      let scores ← rows.foldlM (scoreRow numerics queryVector) Table.empty
      require (scores.rows.length = factIds.length)
        (sqliteVecError "vec0 query did not return every authorized candidate")
      return scores

end SQLiteVecIndex

/-! ## The retriever -/

inductive VectorBackend where
  | auto
  | sqliteVec
  | brute
  deriving DecidableEq, Repr

/-- The arguments of `HybridRetriever` besides the connection, the embedder and the choice of
backend; `now` is the clock in UTC, in microseconds. -/
structure RetrieverSettings (F : Type) [Field F] [LinearOrder F] where
  allowedScopes : List String
  ftsWeight : Option F
  jaccardWeight : Option F
  denseWeight : Option F
  minScore : Option F
  candidateLimit : Nat
  ranking : RankingConfig F
  now : Int

structure HybridRetriever (F : Type) [Field F] [LinearOrder F] where
  embedder : DenseEmbedder
  allowedScopes : List String
  ftsWeight : F
  jaccardWeight : F
  denseWeight : F
  minScore : F
  candidateLimit : Nat
  ranking : RankingConfig F
  now : Int
  vectorIndex : Option SQLiteVecIndex

structure SearchRequest where
  query : String
  category : Option String
  minTrust : Decimal
  limit : Int

/-- A returned row: the fact and the components of its score. -/
structure SearchResult (F : Type) where
  fact : FactRow
  score : F
  mmrEmbedding : Option (List Decimal)
  ftsScore : F
  jaccardScore : F
  denseScore : F
  trustScoreComponent : F
  memoryKindScore : F
  recencyScore : F
  deriving DecidableEq

namespace HybridRetriever

/-- The index of a new retriever. -/
def openFor (loads : Bool) (backend : VectorBackend) (embedder : DenseEmbedder) (db : VecDb) :
    Option SQLiteVecIndex :=
  match backend, embedder with
  | .brute, _ => none
  | _, .direct .. => none
  | _, .stored stored =>
      SQLiteVecIndex.openIndex loads db stored.documentIdentity stored.dimensions

def make (loads : Bool) (settings : RetrieverSettings F) (embedder : DenseEmbedder)
    (backend : VectorBackend) (db : VecDb) : Py (HybridRetriever F) := do
  let ftsWeight := settings.ftsWeight.getD settings.ranking.ftsWeight
  let jaccardWeight := settings.jaccardWeight.getD settings.ranking.jaccardWeight
  let denseWeight := settings.denseWeight.getD settings.ranking.denseWeight
  let minScore := settings.minScore.getD settings.ranking.scoreFloor
  require ((∀ weight ∈ [ftsWeight, jaccardWeight, denseWeight], 0 ≤ weight) ∧
      IsClose (ftsWeight + jaccardWeight + denseWeight) 1)
    (valueError "retrieval weights must be non-negative and sum to 1")
  require ((0 ≤ minScore ∧ minScore ≤ 1) ∧ 1 ≤ settings.candidateLimit)
    (valueError "min_score must be between 0 and 1 and candidate_limit positive")
  return {
    embedder, ftsWeight, jaccardWeight, denseWeight, minScore
    allowedScopes := settings.allowedScopes
    candidateLimit := settings.candidateLimit
    ranking := settings.ranking
    now := settings.now
    vectorIndex := openFor loads backend embedder db }

/-! ## Candidates -/

/-- What a search knows before it looks at vectors. -/
structure Prepared (F : Type) where
  query : String
  candidates : List FactRow
  ftsScores : List (Nat × F)
  queryVector : List Decimal

/-- The eligible facts that meet the trust bound and contain every named anchor. -/
def candidatesOf (retriever : HybridRetriever F) (s : Store) (request : SearchRequest)
    (query : String) : Py (List FactRow) := do
  let active ← activeFacts s (some retriever.allowedScopes) request.category
    retriever.candidateLimit
  let trusted := active.filter fun row => request.minTrust.value ≤ row.trustScore.value
  let anchors := namedAnchorTokens query
  return trusted.filter fun row => ∀ anchor ∈ anchors,
    anchor ∈ tokenSet (row.content ++ " " ++ row.tags)

/-- Reciprocal ranks of the full-text matches. -/
def ftsScoresOf (host : Host) (retriever : HybridRetriever F) (s : Store)
    (request : SearchRequest) (query : String) : Py (List (Nat × F)) := do
  let terms := (tokenSet query).insertionSort (· ≤ ·)
  if terms = [] then return []
  let rows ← searchFts host s terms (some retriever.allowedScopes) request.category
    request.minTrust retriever.candidateLimit
  return rows.zipIdx.map fun (row, rank) => (row.factId, 1 / ((rank : F) + 1))

/-- The search up to the vectors; `none` when it is over with no result. -/
def prepare (host : Host) (retriever : HybridRetriever F) (s : Store) (request : SearchRequest) :
    Py (Option (Prepared F)) := do
  let query := strip request.query
  if query = "" ∨ request.limit ≤ 0 then return none
  let candidates ← retriever.candidatesOf s request query
  if candidates = [] then return none
  let ftsScores ← retriever.ftsScoresOf host s request query
  let queryVector ← retriever.embedder.embedQuery query
  return some ⟨query, candidates, ftsScores, queryVector⟩

/-! ## Ranking -/

/-- The result for a candidate, unless it stays below the floor. -/
def rankRow (numerics : Numerics F) (retriever : HybridRetriever F)
    (updatedAt : Nat → Option String) (prepared : Prepared F) (row : FactRow) (denseScore : F)
    (vector : Option (List Decimal)) : Py (Option (SearchResult F)) := do
  let ftsScore := (prepared.ftsScores.lookup row.factId).getD 0
  let jaccardScore := jaccard (tokenSet prepared.query) (tokenSet row.content)
  let relevanceScore := retriever.ftsWeight * ftsScore + retriever.jaccardWeight * jaccardScore +
    retriever.denseWeight * denseScore
  let trustScore : F := min 1 (max 0 (row.trustScore.value : F))
  let memoryKindScore := memoryKindScore row.memoryKind retriever.ranking
  let recencyScore ← recencyScore numerics row (updatedAt row.factId) retriever.now
    retriever.ranking.recencyHalfLifeDays
  let score := retriever.ranking.relevanceWeight * relevanceScore +
    retriever.ranking.trustWeight * trustScore +
    retriever.ranking.memoryKindWeight * memoryKindScore +
    retriever.ranking.recencyWeight * recencyScore
  if score < retriever.minScore then return none
  return some {
    fact := row, score, mmrEmbedding := vector, ftsScore, jaccardScore, denseScore
    trustScoreComponent := trustScore, memoryKindScore, recencyScore }

/-- The order of the sort key `(-score, -trust_score, fact_id)`. -/
def Before (x y : SearchResult F) : Prop :=
  y.score < x.score ∨ x.score = y.score ∧
    (y.fact.trustScore.value < x.fact.trustScore.value ∨
      x.fact.trustScore.value = y.fact.trustScore.value ∧ x.fact.factId ≤ y.fact.factId)

instance (x y : SearchResult F) : Decidable (Before x y) :=
  inferInstanceAs (Decidable (_ ∨ _ ∧ _))

/-- The first two results are too close to tell apart. -/
def ambiguous (margin : F) : List (SearchResult F) → Bool
  | first :: second :: _ => first.score - second.score < margin
  | _ => false

/-- Sort, abstain on a near tie, and cut. -/
def survivors (retriever : HybridRetriever F) (request : SearchRequest)
    (ranked : List (SearchResult F)) : List (SearchResult F) :=
  let sorted := ranked.insertionSort Before
  if ambiguous retriever.ranking.ambiguityMargin sorted then []
  else sorted.take request.limit.toNat

/-! ## Vectors -/

/-- A candidate scored by its stored vector. -/
def bruteRow (numerics : Numerics F) (retriever : HybridRetriever F)
    (updatedAt : Nat → Option String) (prepared : Prepared F) (row : FactRow)
    (vector : List Decimal) : Py (Option (SearchResult F)) := do
  let similarity ← cosine numerics prepared.queryVector vector
  rankRow numerics retriever updatedAt prepared row (max 0 similarity) (some vector)

/-- The search over the stored vectors. -/
def bruteSearch (numerics : Numerics F) (retriever : HybridRetriever F)
    (updatedAt : Nat → Option String) (s : Store) (request : SearchRequest)
    (prepared : Prepared F) : Py (List (SearchResult F)) := do
  let vectors ← retriever.embedder.documentVectors s prepared.candidates
  let ranked ← (prepared.candidates.zip vectors).mapM fun pair =>
    bruteRow numerics retriever updatedAt prepared pair.1 pair.2
  return survivors retriever request (ranked.filterMap id)

/-- `_stored_mmr_embeddings`: the canonical vectors of the survivors. -/
def storedMmrEmbeddings (embedder : DenseEmbedder) (s : Store) (factIds : List Nat) :
    StoredBackend.Loaded :=
  match embedder with
  | .direct .. => Table.empty
  | .stored backend =>
      let rows := (batches 500 factIds).flatMap (backend.batchRows s)
      let usable := rows.filter fun e =>
        e.dim = backend.dimensions ∧ e.embedding.length = backend.dimensions
      (usable.map fun e => (e.factId, e.embedding)).foldl Table.replace Table.empty

/-- A candidate scored by the index. -/
def indexedRow (numerics : Numerics F) (retriever : HybridRetriever F)
    (updatedAt : Nat → Option String) (prepared : Prepared F) (scores : SQLiteVecIndex.Scores F)
    (row : FactRow) : Py (Option (SearchResult F)) :=
  match scores.get? row.factId with
  | none => .error ⟨.foreign, natText row.factId⟩
  | some (_, denseScore) => rankRow numerics retriever updatedAt prepared row denseScore none

/-- The search over the scores of the index. -/
def indexedSearch (numerics : Numerics F) (retriever : HybridRetriever F)
    (updatedAt : Nat → Option String) (s : Store) (request : SearchRequest)
    (prepared : Prepared F) (scores : SQLiteVecIndex.Scores F) : Py (List (SearchResult F)) := do
  let ranked ← prepared.candidates.mapM
    (indexedRow numerics retriever updatedAt prepared scores)
  let results := survivors retriever request (ranked.filterMap id)
  let vectors := storedMmrEmbeddings retriever.embedder s (results.map fun r => r.fact.factId)
  return results.map fun r =>
    { r with mmrEmbedding := (vectors.get? r.fact.factId).map Prod.snd }

/-- `search`: the answer, and the retriever as it is left. -/
def search (numerics : Numerics F) (host : Host) (retriever : HybridRetriever F) (db : VecDb)
    (updatedAt : Nat → Option String) (request : SearchRequest) :
    Py (List (SearchResult F)) × HybridRetriever F :=
  match retriever.prepare host db.store request with
  | .error e => (.error e, retriever)
  | .ok none => (.ok [], retriever)
  | .ok (some prepared) =>
      match retriever.vectorIndex with
      | none => (bruteSearch numerics retriever updatedAt db.store request prepared, retriever)
      | some index =>
          match index.scores numerics db prepared.queryVector
              (prepared.candidates.map FactRow.factId) with
          | .ok scores =>
              (indexedSearch numerics retriever updatedAt db.store request prepared scores,
                retriever)
          | .error _ =>
              -- An index that failed is not asked again.
              (bruteSearch numerics retriever updatedAt db.store request prepared,
                { retriever with vectorIndex := none })

/-- A retriever built for one search. -/
def searchOnce (numerics : Numerics F) (host : Host) (loads : Bool) (settings : RetrieverSettings F)
    (embedder : DenseEmbedder) (backend : VectorBackend) (db : VecDb)
    (updatedAt : Nat → Option String) (request : SearchRequest) : Py (List (SearchResult F)) := do
  let retriever ← make loads settings embedder backend db
  (search numerics host retriever db updatedAt request).1

end HybridRetriever

namespace Sample

/-- On one-dimensional vectors the cosine is the product of the signs; the sample facts are of
the day of the search. -/
def numerics : Numerics ℚ where
  similarity u v := sign (u.headD .zero).value * sign (v.headD .zero).value
  halving x := if x = 0 then 1 else 1 / 2
  distance u v := if IsZero u ∨ IsZero v then none
    else some (1 - sign (u.headD .zero).value * sign (v.headD .zero).value)
where
  sign (x : ℚ) : ℚ := if 0 < x then 1 else if x < 0 then -1 else 0

def backend : StoredBackend where
  queryEmbedder _ := .ok (some [.one])
  documentIdentity := "sample"
  embeddingVersion := "1"
  dimensions := 1
  queryPrefix := ""
  sqlBatchSize := 500
  batchPositive := by decide

def retrieverSettings : RetrieverSettings ℚ where
  allowedScopes := ["work"]
  ftsWeight := none
  jaccardWeight := none
  denseWeight := none
  minScore := none
  candidateLimit := 10000
  ranking := defaultRankingConfig
  now := 0

def doorSearch : SearchRequest := ⟨"which door", none, .zero, 10⟩

/-- A fact that is stored with a job for its vector. -/
def queuedRed : WriteCall :=
  ⟨{ outboxService with queryEmbedder := none }, tick "2", context "agent-b",
    request "the door is red", none⟩

/-- An indexed fact, and one that only has a queued job. -/
def twoDoors : List VecSystem.Action := indexedDoor ++ [.call (.write queuedRed) trivial]

end Sample

end Enfold.Model
