/-
# Laws.SearchInterference -- what a search notices of other scopes

SQLite ranks the matches of a query by statistics of the whole full-text index, superseded facts and
other scopes included.

Two stores with the same active facts of the scopes answer the searches for a query alike exactly
when every candidate has the same place among the matches of both (`search_agrees_iff`): a search by
ranks alone shows the places (`places_eq`).  A private fact that shares a word with the query can
exchange two of them (`search_interferes`).
-/
import Enfold.Laws.Footprint
import Enfold.Laws.SearchPlaces

namespace Enfold.Laws

open Enfold.Theory Enfold.Model Enfold.Model.HybridRetriever Enfold.Laws.HybridRetriever

set_option autoImplicit false

variable {F : Type} [Field F] [LinearOrder F]

/-! ## What tells the places apart -/

/-- A time of the fact lies outside the calendar, and the search that scores it raises. -/
def OffCalendar (updatedAt : Option String) (row : FactRow) : Prop :=
  asUtc updatedAt = .error ⟨.overflowError, "date value out of range"⟩ ∨
    asUtc updatedAt = .ok none ∧
      asUtc (some row.createdAt) = .error ⟨.overflowError, "date value out of range"⟩

section Ranks

variable {numerics : Numerics F} {host : Host} {embedder : DeterministicFeatureHashEmbedder}
  {hashing : FeatureHashing} {scopes : List String} {retriever : HybridRetriever F}
  {db db' : VecDb} {updatedAt updatedAt' : Nat → Option String} {request : SearchRequest}

theorem asUtc_eq_error {value : Option String} {e : Raised} (failed : asUtc value = .error e) :
    e = ⟨.overflowError, "date value out of range"⟩ := by
  unfold asUtc at failed
  split at failed
  · cases failed
  · split at failed
    · cases failed
      rfl
    · cases failed

theorem recencyScore_eq_error (numerics : Numerics F) (row : FactRow) (time : Option String)
    (now : Int) (halfLife : F) {e : Raised} :
    recencyScore numerics row time now halfLife = .error e ↔
      OffCalendar time row ∧ e = ⟨.overflowError, "date value out of range"⟩ := by
  unfold recencyScore OffCalendar
  cases updated : asUtc time with
  | error e' =>
      obtain rfl := asUtc_eq_error updated
      simp [eq_comm]
  | ok instant =>
      cases instant with
      | some instant => simp [pure, Except.pure]
      | none =>
          cases created : asUtc (some row.createdAt) with
          | error e' =>
              obtain rfl := asUtc_eq_error created
              simp [eq_comm]
          | ok instant => cases instant <;> simp [pure, Except.pure]

/-- The vectors of the embedder have one length, so every candidate is ranked. -/
theorem Deterministic.bruteSearch_eq (numerics : Numerics F)
    (updatedAt : Nat → Option String) (request : SearchRequest)
    (deterministic : Deterministic embedder hashing scopes retriever) (s : Store) (query : String)
    (candidates : List FactRow) (scores : List (Nat × F)) :
    ∃ dense : FactRow → F,
      bruteSearch numerics retriever updatedAt s request
          ⟨query, candidates, scores, embedder.embed hashing query⟩ =
        (candidates.mapM fun row => rankRow numerics retriever updatedAt
            ⟨query, candidates, scores, embedder.embed hashing query⟩ row (dense row)
            (some (embedder.embed hashing row.content))) >>= fun ranked =>
          pure (survivors retriever request (ranked.filterMap id)) := by
  have compared : ∀ row : FactRow, ∃ similarity : F,
      cosine numerics (embedder.embed hashing query) (embedder.embed hashing row.content) =
        .ok similarity := by
    intro row
    unfold cosine
    rw [embedder.length_embed, embedder.length_embed, require_of rfl, ok_bind]
    split <;> exact ⟨_, rfl⟩
  choose similarity compared using compared
  refine ⟨fun row => max 0 (similarity row), ?_⟩
  have vectors : retriever.embedder.documentVectors s candidates =
      .ok (candidates.map fun row => embedder.embed hashing row.content) := by
    rw [deterministic.embedder]
    rfl
  have pairs := List.zip_map' (l := candidates) (f := id)
    (g := fun row => embedder.embed hashing row.content)
  rw [List.map_id] at pairs
  unfold bruteSearch
  dsimp only
  rw [vectors, ok_bind, pairs, List.mapM_map]
  refine congrArg (· >>= _) (mapM_congr_mem fun row _ => ?_)
  show bruteRow numerics retriever updatedAt _ row (embedder.embed hashing row.content) = _
  unfold bruteRow
  dsimp only
  rw [compared, ok_bind]

theorem rankRow_eq_error {prepared : Prepared F} {row : FactRow} {dense : F}
    {vector : Option (List Decimal)} {e : Raised} :
    rankRow numerics retriever updatedAt prepared row dense vector = .error e ↔
      OffCalendar (updatedAt row.factId) row ∧ e = ⟨.overflowError, "date value out of range"⟩ := by
  rw [← recencyScore_eq_error numerics row _ retriever.now retriever.ranking.recencyHalfLifeDays]
  unfold rankRow
  dsimp only
  cases recencyScore numerics row (updatedAt row.factId) retriever.now
    retriever.ranking.recencyHalfLifeDays with
  | error e' => simp only [error_bind, Except.error.injEq]
  | ok recency =>
      rw [ok_bind]
      constructor
      · intro raised
        split at raised <;> cases raised
      · intro raised
        cases raised

/-- A search that reaches a candidate outside the calendar raises. -/
theorem Deterministic.search_raises
    (deterministic : Deterministic embedder hashing scopes retriever)
    (valid : ∀ scope ∈ scopes, Required scope) {row : FactRow}
    (candidate : Candidate db.store scopes request retriever.candidateLimit row)
    (off : OffCalendar (updatedAt row.factId) row) :
    (search numerics host retriever db updatedAt request).1 =
      if strip request.query = "" ∨ request.limit ≤ 0 then .ok []
      else .error ⟨.overflowError, "date value out of range"⟩ := by
  obtain ⟨candidates, listed, member⟩ := candidatesOf_ok db.store request valid
    deterministic.within
  have mem := (member row).2 candidate
  obtain ⟨scores, -, searched⟩ := deterministic.search_brute numerics host updatedAt valid listed
  rw [searched]
  by_cases nothing : strip request.query = "" ∨ request.limit ≤ 0
  · rw [if_pos nothing, if_pos (or_assoc.1 (.inl nothing))]
  rw [if_neg nothing, if_neg fun both => (or_assoc.2 both).elim nothing
    fun none => List.ne_nil_of_mem mem none]
  obtain ⟨dense, ranked⟩ := deterministic.bruteSearch_eq numerics updatedAt request db.store
    (strip request.query) candidates scores
  rw [ranked]
  cases each : candidates.mapM fun row => rankRow numerics retriever updatedAt
      ⟨strip request.query, candidates, scores, embedder.embed hashing (strip request.query)⟩ row
      (dense row) (some (embedder.embed hashing row.content)) with
  | error e =>
      obtain ⟨i, row', -, failed, -⟩ := mapM_eq_error.1 each
      obtain ⟨-, rfl⟩ := rankRow_eq_error.1 failed
      rfl
  | ok rows =>
      obtain ⟨i, here⟩ := List.mem_iff_getElem?.1 mem
      obtain ⟨answer, -, done⟩ := forall₂_getElem? (mapM_eq_ok.1 each) here
      rw [rankRow_eq_error.2 ⟨off, rfl⟩] at done
      cases done

end Ranks

section Converse

variable [IsStrictOrderedRing F] {numerics : Numerics F} {host : Host}
  {embedder : DeterministicFeatureHashEmbedder} {hashing : FeatureHashing} {scopes : List String}
  {db db' : VecDb} {updatedAt updatedAt' : Nat → Option String} {request : SearchRequest}
  {candidateLimit : Nat}

/-- Only the full-text score counts, and nothing is held back. -/
def ranksOnly : RankingConfig F where
  ftsWeight := 1
  jaccardWeight := 0
  denseWeight := 0
  trustWeight := 0
  memoryKindWeight := 0
  recencyWeight := 0
  recencyHalfLifeDays := 1
  stateKindScore := 0
  insightKindScore := 0
  untypedKindScore := 0
  eventKindScore := 0
  scoreFloor := 0
  ambiguityMargin := 0
  nonnegative := by simp
  relevanceSum := by simp [IsClose]
  priorSum := by simp
  kindUnit := by simp
  halfLifePositive := one_pos
  gateUnit := by simp

/-- The arguments of a retriever that shows the places of its candidates. -/
def ranksOnlySettings (scopes : List String) (candidateLimit : Nat) : RetrieverSettings F where
  allowedScopes := scopes
  ftsWeight := none
  jaccardWeight := none
  denseWeight := none
  minScore := none
  candidateLimit := candidateLimit
  ranking := ranksOnly
  now := 0

/-- That retriever. -/
def ranksOnlyRetriever (embedder : DeterministicFeatureHashEmbedder) (hashing : FeatureHashing)
    (scopes : List String) (candidateLimit : Nat) : HybridRetriever F where
  embedder := embedder.dense hashing
  allowedScopes := scopes
  ftsWeight := 1
  jaccardWeight := 0
  denseWeight := 0
  minScore := 0
  candidateLimit := candidateLimit
  ranking := ranksOnly
  now := 0
  vectorIndex := none

theorem make_ranksOnly {candidateLimit : Nat} (some' : 1 ≤ candidateLimit) (db : VecDb) :
    make (F := F) false (ranksOnlySettings scopes candidateLimit) (embedder.dense hashing) .brute
        db = .ok (ranksOnlyRetriever embedder hashing scopes candidateLimit) := by
  have weights : (∀ weight ∈ [(1 : F), 0, 0], 0 ≤ weight) ∧ IsClose ((1 : F) + 0 + 0) 1 :=
    ⟨by simp, by simp [IsClose]⟩
  have gates : ((0 : F) ≤ 0 ∧ (0 : F) ≤ 1) ∧ 1 ≤ candidateLimit := ⟨by simp, some'⟩
  exact bind_eq_ok.2 ⟨⟨⟩, require_of weights, bind_eq_ok.2 ⟨⟨⟩, require_of gates, rfl⟩⟩

theorem ranksOnly_deterministic (embedder : DeterministicFeatureHashEmbedder)
    (hashing : FeatureHashing) (scopes : List String) (candidateLimit : Nat) :
    Deterministic embedder hashing scopes
      (ranksOnlyRetriever (F := F) embedder hashing scopes candidateLimit) :=
  ⟨rfl, rfl, rfl⟩

/-- The full-text score of a place. -/
def placeScore (p : Option Nat) : F := (p.map fun (p : Nat) => 1 / ((p : F) + 1)).getD 0

theorem placeScore_nonneg (p : Option Nat) : (0 : F) ≤ placeScore p := by
  cases p with
  | none => exact le_rfl
  | some p => exact one_div_nonneg.2 (Nat.cast_add_one_pos p).le

theorem placeScore_injective : Function.Injective (placeScore : Option Nat → F) := by
  have positive : ∀ p : Nat, (0 : F) < 1 / ((p : F) + 1) := fun p =>
    one_div_pos.2 (Nat.cast_add_one_pos p)
  rintro (_ | p) (_ | q) same
  · rfl
  · exact absurd same (positive q).ne
  · exact absurd same (positive p).ne'
  · have same : 1 / ((p : F) + 1) = 1 / ((q : F) + 1) := same
    simpa using same

/-- A ranked candidate has its full-text score. -/
theorem ranksOnly_rankRow {prepared : Prepared F} {row : FactRow} {dense : F}
    {vector : Option (List Decimal)} {answer : Option (SearchResult F)} {p : Option Nat}
    (score : (prepared.ftsScores.lookup row.factId).getD 0 = placeScore p)
    (done : rankRow numerics (ranksOnlyRetriever embedder hashing scopes candidateLimit) updatedAt
      prepared row dense vector = .ok answer) :
    ∃ r, answer = some r ∧ r.fact = row ∧ r.score = placeScore p := by
  obtain ⟨recency, -, done⟩ := bind_eq_ok.1 done
  dsimp only [ranksOnlyRetriever, ranksOnly, RankingConfig.relevanceWeight] at done
  rw [score] at done
  simp only [sub_zero, one_mul, zero_mul, add_zero] at done
  rw [if_neg (placeScore_nonneg p).not_gt] at done
  cases pure_eq_ok.1 done
  exact ⟨_, rfl, rfl, rfl⟩

/-- Results that are all asked for are all returned: no two of them are closer than zero. -/
theorem ranksOnly_survivors {scored : List (SearchResult F)}
    (few : scored.length ≤ request.limit.toNat) {r : SearchResult F} :
    r ∈ survivors (ranksOnlyRetriever embedder hashing scopes candidateLimit) request scored ↔
      r ∈ scored := by
  have kept : _ ∨ Best request scored
      (survivors (ranksOnlyRetriever embedder hashing scopes candidateLimit) request scored) :=
    survivors_best request scored
  rcases kept with ⟨close, -⟩ | best
  · obtain ⟨first, second, rest, -, ordered, close⟩ := close
    have close : first.score - second.score < 0 := close
    rcases List.rel_of_pairwise_cons ordered List.mem_cons_self with less | ⟨same, -⟩
    · exact absurd (sub_neg.1 close) less.asymm
    · rw [same, sub_self] at close
      exact absurd close (lt_irrefl 0)
  · refine ⟨fun shown => best.chosen.subset shown, fun mem => ?_⟩
    rcases best.best r mem with shown | ⟨full, -⟩
    · exact shown
    · exact (best.chosen.perm_of_length_le (full ▸ few)).mem_iff.2 mem

/-- A search by ranks alone that asks for all candidates shows each of them, with its place. -/
theorem ranksOnly_shows (numerics : Numerics F) (host : Host) (request : SearchRequest)
    (valid : ∀ scope ∈ scopes, Required scope) {candidates : List FactRow}
    (listed : (ranksOnlyRetriever (F := F) embedder hashing scopes candidateLimit).candidatesOf
      db.store request (strip request.query) = .ok candidates)
    (asks : strip request.query ≠ "") (all : request.limit = candidates.length)
    (dated : ∀ row ∈ candidates, ¬ OffCalendar (updatedAt row.factId) row) :
    ∃ results, (search numerics host (ranksOnlyRetriever embedder hashing scopes candidateLimit) db
        updatedAt request).1 = .ok results ∧
      (∀ row ∈ candidates, ∃ r ∈ results, r.fact = row) ∧
      ∀ r ∈ results, r.score =
        placeScore (place host db.store scopes request candidateLimit r.fact) := by
  have deterministic := ranksOnly_deterministic (F := F) embedder hashing scopes candidateLimit
  obtain ⟨scores, lookup, searched⟩ := deterministic.search_brute numerics host updatedAt valid
    listed
  rw [searched]
  split
  · next nothing =>
    have none : candidates = [] := by
      rcases nothing with blank | few | none
      · exact absurd blank asks
      · exact List.length_eq_zero_iff.1 (by omega)
      · exact none
    rw [none]
    exact ⟨[], rfl, fun row mem => absurd mem List.not_mem_nil,
      fun r mem => absurd mem List.not_mem_nil⟩
  obtain ⟨dense, ranked⟩ := deterministic.bruteSearch_eq numerics updatedAt request db.store
    (strip request.query) candidates scores
  rw [ranked]
  cases each : candidates.mapM fun row => rankRow numerics
      (ranksOnlyRetriever embedder hashing scopes candidateLimit) updatedAt
      ⟨strip request.query, candidates, scores, embedder.embed hashing (strip request.query)⟩ row
      (dense row) (some (embedder.embed hashing row.content)) with
  | error e =>
      obtain ⟨i, row, here, failed, -⟩ := mapM_eq_error.1 each
      exact absurd (rankRow_eq_error.1 failed).1 (dated row (List.mem_of_getElem? here))
  | ok rows =>
      have traversed := mapM_eq_ok.1 each
      have few : (rows.filterMap id).length ≤ request.limit.toNat := by
        have kept := List.length_filterMap_le id rows
        have count := traversed.length_eq
        omega
      refine ⟨_, rfl, fun row mem => ?_, fun r shown => ?_⟩
      · obtain ⟨i, here⟩ := List.mem_iff_getElem?.1 mem
        obtain ⟨answer, there, done⟩ := forall₂_getElem? traversed here
        obtain ⟨r, rfl, fact, -⟩ := ranksOnly_rankRow (by rw [lookup]; rfl) done
        exact ⟨r, (ranksOnly_survivors few).2
          (List.mem_filterMap.2 ⟨some r, List.mem_of_getElem? there, rfl⟩), fact⟩
      · obtain ⟨answer, inside, rfl⟩ :=
          List.mem_filterMap.1 ((ranksOnly_survivors few).1 shown)
        obtain ⟨i, there⟩ := List.mem_iff_getElem?.1 inside
        obtain ⟨row, -, done⟩ := forall₂_getElem? traversed.flip there
        obtain ⟨r', same, rfl, score⟩ := ranksOnly_rankRow (by rw [lookup]; rfl) done
        cases same
        exact score

/-- The places can be read off the answers of the searches by ranks alone. -/
theorem places_eq (numerics : Numerics F) (embedder : DeterministicFeatureHashEmbedder)
    (hashing : FeatureHashing) (valid : ∀ scope ∈ scopes, Required scope)
    (agrees : AgreesOnActive scopes db.store db'.store updatedAt updatedAt')
    (dated : ∀ row, Candidate db.store scopes request candidateLimit row →
      ¬ OffCalendar (updatedAt row.factId) row)
    (alike : ∀ limit : Int,
      (search numerics host (ranksOnlyRetriever (F := F) embedder hashing scopes candidateLimit) db
          updatedAt { request with limit }).1 =
        (search numerics host (ranksOnlyRetriever embedder hashing scopes candidateLimit) db'
          updatedAt' { request with limit }).1)
    {row : FactRow} (candidate : Candidate db.store scopes request candidateLimit row) :
    place host db.store scopes request candidateLimit row =
      place host db'.store scopes request candidateLimit row := by
  by_cases asks : strip request.query = ""
  · have none : tokenSet (strip request.query) = [] := by
      rw [asks]
      rfl
    rw [place, place, if_pos none, if_pos none]
  have deterministic := ranksOnly_deterministic (F := F) embedder hashing scopes candidateLimit
  obtain ⟨candidates, listed, member⟩ := candidatesOf_ok db.store request valid
    deterministic.within
  have mem := (member row).2 candidate
  obtain ⟨results, searched, shown, scored⟩ := ranksOnly_shows numerics host
    { request with limit := candidates.length } valid listed asks rfl
    fun row mem => dated row ((member row).1 mem)
  rw [agrees.candidatesOf_eq valid deterministic.within] at listed
  obtain ⟨results', searched', -, scored'⟩ := ranksOnly_shows numerics host
    { request with limit := candidates.length } valid listed asks rfl
    fun row mem => agrees.time_eq ((member row).1 mem) ▸ dated row ((member row).1 mem)
  obtain rfl : results = results' := by
    have same := alike candidates.length
    rw [searched, searched'] at same
    exact Except.ok.inj same
  obtain ⟨r, inside, rfl⟩ := shown row mem
  exact placeScore_injective ((scored r inside).symm.trans (scored' r inside))

end Converse

/-! ## Searches over two stores -/

section Agreement

variable [IsStrictOrderedRing F]

/-- The retrievers for these scopes and with this candidate limit answer the query alike on both
stores, whatever else they are built with and however many results are asked for. -/
def AnswersAlike (numerics : Numerics F) (host : Host) (embedder : DenseEmbedder)
    (scopes : List String) (candidateLimit : Nat) (request : SearchRequest) (db db' : VecDb)
    (updatedAt updatedAt' : Nat → Option String) : Prop :=
  ∀ (loads : Bool) (settings : RetrieverSettings F) (backend : VectorBackend) (limit : Int),
    settings.allowedScopes = scopes → settings.candidateLimit = candidateLimit →
      searchOnce numerics host loads settings embedder backend db updatedAt { request with limit } =
        searchOnce numerics host loads settings embedder backend db' updatedAt'
          { request with limit }

theorem candidate_limit {s : Store} {scopes : List String} {request : SearchRequest} {limit : Int}
    {candidateLimit : Nat} {row : FactRow} :
    Candidate s scopes { request with limit } candidateLimit row ↔
      Candidate s scopes request candidateLimit row :=
  ⟨fun c => ⟨c.eligible, c.recent, c.trusted, c.anchored⟩,
    fun c => ⟨c.eligible, c.recent, c.trusted, c.anchored⟩⟩

/-- Two stores with the same active facts of an authorized connection's scopes answer its searches
alike exactly when they give every candidate of the query the same place among the matches of the
full-text index, or when one of the candidates makes both searches raise. -/
theorem search_agrees_iff (numerics : Numerics F) (host : Host)
    (embedder : DeterministicFeatureHashEmbedder) (hashing : FeatureHashing) {policy : MemoryPolicy}
    {client : ClientContext} {effective : ConnectionContext}
    (authorized : authorize policy client = .ok effective) {db db' : VecDb}
    {updatedAt updatedAt' : Nat → Option String}
    (agrees : AgreesOnActive effective.accessScopes db.store db'.store updatedAt updatedAt')
    (request : SearchRequest) (candidateLimit : Nat) :
    AnswersAlike numerics host (embedder.dense hashing) effective.accessScopes candidateLimit
        request db db' updatedAt updatedAt' ↔
      (∃ row, Candidate db.store effective.accessScopes request candidateLimit row ∧
        OffCalendar (updatedAt row.factId) row) ∨
      ∀ row, Candidate db.store effective.accessScopes request candidateLimit row →
        place host db.store effective.accessScopes request candidateLimit row =
          place host db'.store effective.accessScopes request candidateLimit row := by
  have valid := authorize_required authorized
  constructor
  · intro alike
    by_cases dated : ∃ row, Candidate db.store effective.accessScopes request candidateLimit row ∧
        OffCalendar (updatedAt row.factId) row
    · exact .inl dated
    refine .inr fun row candidate => ?_
    have positive : 1 ≤ candidateLimit := Nat.lt_of_le_of_lt (Nat.zero_le _) candidate.recent
    refine places_eq numerics embedder hashing valid agrees
      (fun row' candidate' off => dated ⟨row', candidate', off⟩) (fun limit => ?_) candidate
    have same := alike false (ranksOnlySettings effective.accessScopes candidateLimit) .brute limit
      rfl rfl
    unfold searchOnce at same
    rw [make_ranksOnly positive, make_ranksOnly positive] at same
    exact same
  · rintro condition loads settings backend limit within few
    unfold searchOnce
    rw [make_db_eq loads settings backend db' db]
    refine bind_congr_ok fun retriever made => ?_
    obtain ⟨deterministic, kept⟩ := make_deterministic made within
    rw [few] at kept
    subst kept
    rcases condition with ⟨row, candidate, off⟩ | places
    · rw [deterministic.search_raises valid (candidate_limit.2 candidate) off,
        deterministic.search_raises valid (candidate_limit.2 (agrees.candidate_iff.1 candidate))
          (agrees.time_eq candidate ▸ off)]
    · exact deterministic.search_eq valid agrees fun row candidate =>
        places row (candidate_limit.1 candidate)

end Agreement

/-! ## A write of another scope -/

/-- A write under a fresh key adds at most one observation. -/
theorem step_write_observations {host : Host} {call : WriteCall} {s : Store}
    (fresh : loadPrior s call.context.clientId call.request.idempotencyKey = none) :
    GrowsByOne s.observations (step host (.write call) s).observations := by
  rw [step]
  cases done : call.apply host s with
  | error e => exact .inl rfl
  | ok result =>
      obtain ⟨factless, durable⟩ := write_footprint_of_ok fresh done
      show GrowsByOne s.observations result.1.observations
      by_cases accepted : Accepted result.2.outcome
      · exact (durable accepted).observation
      · rw [(factless accepted).frame]
        exact .inl rfl

/-- Stores agree on scopes when queries over them do, there is no conflict, and the second has at
most one observation more, of another scope. -/
theorem agrees_of_select {scopes : List String} {s t : Store}
    (grows : GrowsByOne s.observations t.observations)
    (last : t.observations.rows.length = s.observations.rows.length ∨
      ∃ o ∈ t.observations.rows.getLast?, o.scope ∉ scopes)
    (tables : ((s.facts.table.select fun r => r.scope ∈ scopes) =
        t.facts.table.select fun r => r.scope ∈ scopes) ∧
      (s.provenance.select (ProvenanceRow.Visible s scopes) =
        t.provenance.select (ProvenanceRow.Visible s scopes)) ∧
      s.conflicts.rows = [] ∧ t.conflicts.rows = []) : AgreesOn scopes s t := by
  obtain ⟨facts, provenance, conflicts, conflicts'⟩ := tables
  have none : ∀ c, c ∉ s.conflicts := fun c => by
    rw [← Table.mem_rows, conflicts]
    exact List.not_mem_nil
  have none' : ∀ c, c ∉ t.conflicts := fun c => by
    rw [← Table.mem_rows, conflicts']
    exact List.not_mem_nil
  refine ⟨.of_select_eq facts, ?_, .of_select_eq provenance,
    fun c _ => iff_of_false (none c) (none' c), ?_⟩
  · rcases grows with same | ⟨x, rows⟩
    · rw [same]
      exact .refl _ _
    · rw [rows, List.getLast?_concat] at last
      have outside : x.scope ∉ scopes := by
        rcases last with short | ⟨o, mem, outside⟩
        · simp at short
        · cases mem
          exact outside
      intro o inside
      have apart : o ≠ x := fun same => outside (same ▸ inside)
      rw [← Table.mem_rows, ← Table.mem_rows, rows, List.mem_append, List.mem_singleton,
        or_iff_left apart]
  · rintro m ⟨c, mem, -⟩
    exact absurd mem (none c)

/-! ## A private fact that a search notices -/

namespace Lamps

/-- The BLAKE2b digests of the features of the query; the facts have no others. -/
def digests : List (String × List Nat) :=
  [("w:lamp", [96, 165, 138, 15, 120, 33, 5, 22]),
    ("w:door", [152, 155, 116, 142, 24, 231, 113, 57]),
    ("c3:lam", [57, 119, 131, 240, 200, 59, 103, 13]),
    ("c3:amp", [16, 38, 25, 27, 125, 19, 173, 149]),
    ("c3:mp_", [230, 79, 100, 166, 69, 9, 46, 18]),
    ("c3:p_d", [74, 206, 148, 216, 206, 242, 97, 95]),
    ("c3:_do", [121, 124, 25, 45, 42, 43, 51, 1]),
    ("c3:doo", [243, 71, 246, 158, 9, 247, 230, 124]),
    ("c3:oor", [91, 160, 51, 140, 246, 242, 175, 79])]

/-- The components are ones, of vectors with the norm 3 and with the norm √3. -/
def hashing : FeatureHashing where
  blake2b feature := (digests.lookup feature).getD []
  quotient value square :=
    if value = 0 then .zero
    else if square = 9 then
      ⟨value < 0, "3333333333333333".toList, 0, by decide, by decide, by decide, by decide⟩
    else ⟨value < 0, "5773502691896258".toList, 0, by decide, by decide, by decide, by decide⟩

def embedder : DeterministicFeatureHashEmbedder := ⟨256, by decide⟩

/-- The vectors have the norm one, so their cosine is their product. -/
def numerics : Numerics ℚ :=
  { Sample.numerics with
    similarity := fun u v => (List.zipWith (fun x y => x.value * y.value) u v).sum }

/-- `-ln(2.5 / 1.5)`: the rank by a word that one of three entries has. -/
def rare : Decimal :=
  ⟨true, "5108256237659907".toList, 0, by decide, by decide, by decide, by decide⟩

theorem one_digits (point : Int) : Decimal.one.digits = [] → point = 0 := nofun

/-- `-1e-06`: the rank by a word that half of the entries have, or more. -/
def common : Decimal :=
  { Decimal.one with negative := true, point := -5, zeroPoint := one_digits (-5) }

/-- When every entry is one word, its rank is the inverse frequency of the word, negated. -/
def bm25 (terms : List String) (entries : List FtsRow) (entry : FtsRow) : Option Decimal :=
  match (tokens entry.content).filter (· ∈ terms) with
  | [] => none
  | word :: _ =>
      if entries.length ≤ 2 * entries.countP (fun other => word ∈ tokens other.content) then
        some common
      else some rare

def host : Host := { Sample.host with bm25 := bm25 }

def policy : MemoryPolicy :=
  ⟨[("agent-a", ["work"]), ("agent-b", ["work"]), ("agent-c", ["private"])], [], [], []⟩

/-- The connection of the client that searches. -/
def client : ClientContext where
  clientId := "agent-a"
  surface := "cli"
  agentId := "agent"
  sessionId := "session"
  parentAgentId := none
  projectRoot := none
  repository := none
  branch := none
  commitSha := none
  accessScopes := ["work"]

theorem client_authorized : authorize policy client = .ok (Sample.context "agent-a") := rfl

def service : MemoryWriteService :=
  { Sample.service with policy := policy, queryEmbedder := none }

/-- All is written at the time of the search. -/
def now (tick : Tick) : Tick :=
  { tick with recordedAt := "2026-01-01T00:00:00+00:00", createdAt := "2026-01-01 00:00:00" }

theorem door_required : Required "door" := by
  decide +kernel

theorem lamp_required : Required "lamp" := by
  decide +kernel

theorem cat_required : Required "cat" := by
  decide +kernel

theorem third_required : Required "3" := by
  decide +kernel

theorem private_required : Required "private" := by
  decide +kernel

/-- Two facts of the scope. -/
def workWrites : List Op :=
  [.write ⟨service, now (Sample.tick "1"), Sample.context "agent-a",
      Sample.request "door" door_required, none⟩,
    .write ⟨service, now (Sample.tick "2"), Sample.context "agent-b",
      Sample.request "lamp" lamp_required, none⟩]

/-- A private fact. -/
def privateWrite (word : String) (valid : Required word) : WriteCall :=
  ⟨service, now (Sample.tick "3" third_required),
    { Sample.context "agent-c" with
      accessScopes := ["private"], scopesNonempty := Sample.private_nonempty },
    { Sample.request word valid with scope := "private", scopeValid := private_required }, none⟩

def work : Store := run (step host) workWrites Store.empty

def stored (word : String) (valid : Required word) : Store :=
  run (step host) (workWrites ++ [.write (privateWrite word valid)]) Store.empty

theorem stored_reached (word : String) (valid : Required word) :
    Reached host (fun _ _ => True) (stored word valid) := by
  unfold stored
  exact Exists.intro _ ⟨Admits.always _ _, Eq.refl _⟩

theorem stored_grows (word : String) (valid : Required word)
    (fresh : loadPrior work (privateWrite word valid).context.clientId
      (privateWrite word valid).request.idempotencyKey = none) :
    GrowsByOne work.observations (stored word valid).observations := by
  unfold stored
  rw [run_append, run_cons, run_nil]
  exact step_write_observations fresh

def withDoor : Store := stored "door" door_required

def withLamp : Store := stored "lamp" lamp_required

def withCat : Store := stored "cat" cat_required

/-- The store without vectors. -/
def unembedded (s : Store) : VecDb := { VecDb.empty with store := s }

def updatedAt (_ : Nat) : Option String := some "2026-01-01 00:00:00"

def request : SearchRequest := ⟨"lamp door", none, .zero, 10⟩

/-- The default configuration, at the time of the writes. -/
def settings : RetrieverSettings ℚ := { Sample.retrieverSettings with now := 1767225600000000 }

/-- The returned facts with their full-text scores. -/
def answer (s : Store) : Py (List (Nat × ℚ)) := do
  let results ← searchOnce numerics host true settings (embedder.dense hashing) .auto
    (unembedded s) updatedAt request
  return results.map fun r => (r.fact.factId, r.ftsScore)

theorem withDoor_agrees : AgreesOn ["work"] work withDoor :=
  agrees_of_select (stored_grows _ _ (by decide +kernel)) (by decide +kernel) (by decide +kernel)

theorem withLamp_agrees : AgreesOn ["work"] work withLamp :=
  agrees_of_select (stored_grows _ _ (by decide +kernel)) (by decide +kernel) (by decide +kernel)

theorem withCat_agrees : AgreesOn ["work"] work withCat :=
  agrees_of_select (stored_grows _ _ (by decide +kernel)) (by decide +kernel) (by decide +kernel)

end Lamps

/-- Two facts of the scope are seen, and a third fact of another one.  A private `door` makes the
word common, so the search finds the lamp first; a private `lamp` makes it find the door first. -/
theorem search_interferes :
    DeterministicFeatureHashEmbedder.make 256 = .ok Lamps.embedder ∧
      authorize Lamps.policy Lamps.client = .ok (Sample.context "agent-a") ∧
      Reached Lamps.host (fun _ _ => True) Lamps.withDoor ∧
      Reached Lamps.host (fun _ _ => True) Lamps.withLamp ∧
      AgreesOn (Sample.context "agent-a").accessScopes Lamps.withDoor Lamps.withLamp ∧
      Lamps.answer Lamps.withDoor = .ok [(2, 1), (1, 1 / 2)] ∧
      Lamps.answer Lamps.withLamp = .ok [(1, 1), (2, 1 / 2)] :=
  ⟨rfl, Lamps.client_authorized, Lamps.stored_reached "door" Lamps.door_required,
    Lamps.stored_reached "lamp" Lamps.lamp_required,
    Lamps.withDoor_agrees.symm.trans Lamps.withLamp_agrees, by decide +kernel, by decide +kernel⟩

/-- A private `cat` is as good as no private fact. -/
theorem cat_unnoticed :
    Lamps.work.facts.table ≠ Lamps.withCat.facts.table ∧
      AnswersAlike Lamps.numerics Lamps.host (Lamps.embedder.dense Lamps.hashing)
        (Sample.context "agent-a").accessScopes 10000 Lamps.request
        (Lamps.unembedded Lamps.work) (Lamps.unembedded Lamps.withCat) Lamps.updatedAt
        Lamps.updatedAt := by
  have places : ∀ row ∈ eligibleFacts Lamps.work ["work"] Lamps.request.category,
      place Lamps.host Lamps.work ["work"] Lamps.request 10000 row =
        place Lamps.host Lamps.withCat ["work"] Lamps.request 10000 row := by
    decide +kernel
  have agrees := Lamps.withCat_agrees
  refine ⟨by decide +kernel, ?_⟩
  generalize Lamps.work = s at places agrees ⊢
  generalize Lamps.withCat = t at places agrees ⊢
  have active : AgreesOnActive (Sample.context "agent-a").accessScopes (Lamps.unembedded s).store
      (Lamps.unembedded t).store Lamps.updatedAt Lamps.updatedAt :=
    agrees.onActive fun _ _ _ _ => rfl
  exact (search_agrees_iff Lamps.numerics Lamps.host Lamps.embedder Lamps.hashing
    Lamps.client_authorized active Lamps.request 10000).2
    (.inr fun row candidate => places row candidate.eligible)

end Enfold.Laws
