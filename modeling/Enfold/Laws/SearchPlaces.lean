/-
# Laws.SearchPlaces -- what a search takes from the full-text index

A search with the deterministic embedder reads the active facts of its scopes, and of the full-text
index the order in which SQLite returns their entries.  `place` counts the matches that come before
a fact among those the search may look at.

* `ftsScoresOf_lookup` -- the full-text score of a fact is the reciprocal of its place;
* `candidatesOf_ok` -- the facts a search scores;
* `Deterministic.search_eq` -- stores that hold the same active facts of the scopes, and give the
  candidates the same places, answer alike.
-/
import Enfold.Laws.BestAnswers
import Enfold.Laws.ScopedReads

namespace Enfold.Laws

open Enfold.Theory Enfold.Model Enfold.Model.HybridRetriever Enfold.Laws.HybridRetriever

set_option autoImplicit false

variable {F : Type} [Field F] [LinearOrder F]

/-! ## Places among the matches -/

/-- SQLite returns the first match before the second. -/
def Ahead (m m' : Decimal × FactRow) : Prop :=
  m.1.value < m'.1.value ∨ m.1.value = m'.1.value ∧ m'.2.factId < m.2.factId

instance : DecidableRel Ahead := fun _ _ => inferInstanceAs (Decidable (_ ∨ _ ∧ _))

instance : Std.Asymm Ahead where
  asymm := by
    rintro m m' (less | ⟨same, newer⟩) (less' | ⟨same', newer'⟩)
    · exact lt_asymm less less'
    · exact absurd less (same' ▸ lt_irrefl _)
    · exact absurd less' (same ▸ lt_irrefl _)
    · exact Nat.lt_asymm newer newer'

/-- The matches of a query among the facts a search may look at, with their ranks. -/
def matchesOf (host : Host) (s : Store) (scopes : List String) (request : SearchRequest) :
    List (Decimal × FactRow) :=
  rankedMatches host s ((tokenSet (strip request.query)).insertionSort (· ≤ ·)) (some scopes)
    request.category request.minTrust

/-- How many matches SQLite returns before the fact, if it matches and these are fewer than
`limit`. -/
def place (host : Host) (s : Store) (scopes : List String) (request : SearchRequest) (limit : Nat)
    (row : FactRow) : Option Nat :=
  if tokenSet (strip request.query) = [] then none
  else
    (((matchesOf host s scopes request).find? fun m => m.2.factId = row.factId).map
      (rank Ahead (matchesOf host s scopes request))).filter fun p => p < limit

section Places

variable {host : Host} {s : Store} {scopes : List String} {request : SearchRequest}

theorem rankedMatches_dedup (terms : List String) (category : Option String) (minTrust : Decimal) :
    rankedMatches host s terms (some scopes.dedup) category minTrust =
      rankedMatches host s terms (some scopes) category minTrust := by
  have eligible : ∀ r : FactRow, r.Eligible (some scopes.dedup) category ↔
      r.Eligible (some scopes) category := by
    intro r
    simp [FactRow.Eligible]
  unfold rankedMatches
  simp only [eligible]

theorem filterMap_sublist_map {α β : Type} {f : α → Option β} {g : α → β}
    (same : ∀ a, ∀ b ∈ f a, b = g a) (l : List α) : (l.filterMap f).Sublist (l.map g) := by
  induction l with
  | nil => exact .slnil
  | cons a rest ih =>
      cases here : f a with
      | none =>
          rw [List.filterMap_cons_none here, List.map_cons]
          exact ih.cons (g a)
      | some b =>
          rw [List.filterMap_cons_some here, List.map_cons, same a b here]
          exact ih.cons_cons (g a)

/-- Every entry of the index matches at most once. -/
theorem matches_distinct (host : Host) (s : Store) (scopes : List String)
    (request : SearchRequest) :
    ((matchesOf host s scopes request).map fun m => m.2.factId).Nodup := by
  unfold matchesOf rankedMatches
  rw [List.map_filterMap]
  refine s.factsFts.nodup.sublist (filterMap_sublist_map (fun entry factId made => ?_) _)
  obtain ⟨m, made, rfl⟩ := Option.map_eq_some_iff.1 made
  split at made
  · next fact _ found =>
    split at made
    · rw [← Option.some.inj made]
      exact (Facts.get?_eq_some.1 found).2
    · cases made
  · cases made

/-- The order of the statement, which counts equal matches as ordered. -/
abbrev MatchOrder (a b : Decimal × FactRow) : Prop :=
  a.1.value < b.1.value ∨ a.1.value = b.1.value ∧ b.2.factId ≤ a.2.factId

theorem matches_ordered (host : Host) (s : Store) (scopes : List String)
    (request : SearchRequest) :
    ((matchesOf host s scopes request).insertionSort MatchOrder).Pairwise Ahead := by
  have : Std.Total MatchOrder := by
    refine ⟨fun a b => ?_⟩
    rcases lt_trichotomy a.1.value b.1.value with less | same | more
    · exact .inl (.inl less)
    · exact (Nat.le_total b.2.factId a.2.factId).imp (fun le => .inr ⟨same, le⟩)
        fun le => .inr ⟨same.symm, le⟩
    · exact .inr (.inl more)
  have : IsTrans (Decimal × FactRow) MatchOrder := by
    refine ⟨?_⟩
    rintro a b c (less | ⟨same, le⟩) (less' | ⟨same', le'⟩)
    · exact .inl (lt_trans less less')
    · exact .inl (same' ▸ less)
    · exact .inl (same ▸ less')
    · exact .inr ⟨same.trans same', Nat.le_trans le' le⟩
  have sorted := List.pairwise_insertionSort MatchOrder (matchesOf host s scopes request)
  have perm := List.perm_insertionSort MatchOrder (matchesOf host s scopes request)
  have apart := List.pairwise_map.1
    ((perm.map fun m => m.2.factId).nodup_iff.2 (matches_distinct host s scopes request))
  refine (sorted.and apart).imp ?_
  rintro a b ⟨less | ⟨same, le⟩, differ⟩
  · exact .inl less
  · exact .inr ⟨same, Nat.lt_of_le_of_ne le fun equal => differ equal.symm⟩

/-- A place is the rank of the match with the fact. -/
theorem place_eq_some {limit p : Nat} {row : FactRow} (asks : tokenSet (strip request.query) ≠ []) :
    place host s scopes request limit row = some p ↔
      ∃ m ∈ matchesOf host s scopes request, m.2.factId = row.factId ∧
        rank Ahead (matchesOf host s scopes request) m < limit ∧
        rank Ahead (matchesOf host s scopes request) m = p := by
  unfold place
  rw [if_neg asks, Option.filter_eq_some_iff, decide_eq_true_iff]
  constructor
  · rintro ⟨at', few⟩
    obtain ⟨m, found, rfl⟩ := Option.map_eq_some_iff.1 at'
    have holds := List.find?_some found
    exact ⟨m, List.mem_of_find?_eq_some found, of_decide_eq_true holds, few, rfl⟩
  · rintro ⟨m, mem, same, few, rfl⟩
    refine ⟨Option.map_eq_some_iff.2 ⟨m, ?_, rfl⟩, few⟩
    cases found : (matchesOf host s scopes request).find? fun m => m.2.factId = row.factId with
    | none => exact absurd (decide_eq_true same) (List.find?_eq_none.1 found m mem)
    | some m' =>
        have holds := List.find?_some found
        have same' : m'.2.factId = row.factId := of_decide_eq_true holds
        rw [List.inj_on_of_nodup_map (matches_distinct host s scopes request)
          (List.mem_of_find?_eq_some found) mem (same'.trans same.symm)]

/-- The full-text score of a fact is the reciprocal of its place. -/
theorem ftsScoresOf_lookup {retriever : HybridRetriever F} (host : Host) (s : Store)
    (request : SearchRequest) (valid : ∀ scope ∈ scopes, Required scope)
    (within : retriever.allowedScopes = scopes) :
    ∃ scores, retriever.ftsScoresOf host s request (strip request.query) = .ok scores ∧
      ∀ row, scores.lookup row.factId =
        (place host s scopes request retriever.candidateLimit row).map
          fun (p : Nat) => 1 / ((p : F) + 1) := by
  unfold ftsScoresOf
  dsimp only
  by_cases asks : tokenSet (strip request.query) = []
  · rw [asks]
    refine ⟨[], rfl, fun row => ?_⟩
    rw [place, if_pos asks]
    rfl
  have terms : (tokenSet (strip request.query)).insertionSort (· ≤ ·) ≠ [] := by
    intro none
    have length := List.length_insertionSort (· ≤ ·) (tokenSet (strip request.query))
    rw [none] at length
    exact asks (List.length_eq_zero_iff.1 length.symm)
  rw [if_neg terms, within]
  have found : searchFts host s ((tokenSet (strip request.query)).insertionSort (· ≤ ·))
      (some scopes) request.category request.minTrust retriever.candidateLimit =
      .ok ((((matchesOf host s scopes request).insertionSort MatchOrder).take
        retriever.candidateLimit).map Prod.snd) := by
    unfold searchFts
    split
    · next none =>
      rw [Nat.lt_one_iff.1 none]
      rfl
    · rw [scopePredicate_of valid, ok_bind, rankedMatches_dedup]
      rfl
  rw [found]
  refine ⟨_, rfl, fun row => ?_⟩
  ext score
  have ordered := matches_ordered host s scopes request
  have distinct := ((List.perm_insertionSort MatchOrder (matchesOf host s scopes request)).map
    fun m => m.2.factId).nodup_iff.2 (matches_distinct host s scopes request)
  rw [List.zipIdx_map, List.map_map]
  refine (lookup_places (g := fun (p : Nat) => 1 / ((p : F) + 1)) ordered distinct).trans ?_
  simp only [List.mem_insertionSort, rank_perm (List.perm_insertionSort _ _),
    Option.map_eq_some_iff, place_eq_some asks]
  constructor
  · rintro ⟨m, mem, same, few, rfl⟩
    exact ⟨_, ⟨m, mem, same, few, rfl⟩, rfl⟩
  · rintro ⟨_, ⟨m, mem, same, few, rfl⟩, rfl⟩
    exact ⟨m, mem, same, few, rfl⟩

end Places

/-! ## Agreement -/

/-- The stores hold the same active facts of the scopes, updated at the same times. -/
structure AgreesOnActive (scopes : List String) (s t : Store)
    (updatedAt updatedAt' : Nat → Option String) : Prop where
  facts : SameOn (fun r => r.Active ∧ r.scope ∈ scopes) s.facts.table t.facts.table
  times : ∀ r ∈ s.facts, r.Active → r.scope ∈ scopes → updatedAt r.factId = updatedAt' r.factId

/-- The active facts of the scopes, and of the category if one is asked for. -/
def eligibleFacts (s : Store) (scopes : List String) (category : Option String) : List FactRow :=
  s.facts.table.select fun r => r.Eligible (some scopes) category

/-- A search that takes the newest `limit` eligible facts scores the fact: it is one of them, meets
the trust bound, and contains every named anchor of the query. -/
structure Candidate (s : Store) (scopes : List String) (request : SearchRequest) (limit : Nat)
    (row : FactRow) : Prop where
  eligible : row ∈ eligibleFacts s scopes request.category
  recent : rank Newer (eligibleFacts s scopes request.category) row < limit
  trusted : request.minTrust.value ≤ row.trustScore.value
  anchored : ∀ anchor ∈ namedAnchorTokens (strip request.query),
    anchor ∈ tokenSet (row.content ++ " " ++ row.tags)

section Agreement

variable {scopes : List String} {s t : Store} {updatedAt updatedAt' : Nat → Option String}
  {retriever : HybridRetriever F} {request : SearchRequest}

theorem mem_eligibleFacts {category : Option String} {row : FactRow} :
    row ∈ eligibleFacts s scopes category ↔
      row ∈ s.facts ∧ row.Active ∧ row.scope ∈ scopes ∧ ∀ c ∈ category, row.category = c := by
  unfold eligibleFacts
  rw [Table.mem_select, Facts.mem_table]
  simp [FactRow.Eligible]

theorem searchable_eq (s : Store) (request : SearchRequest)
    (valid : ∀ scope ∈ scopes, Required scope) (within : retriever.allowedScopes = scopes) :
    searchable retriever s request = eligibleFacts s scopes request.category := by
  have stripped : scopes.map strip = scopes :=
    (List.map_congr_left fun scope mem => (valid scope mem).1).trans (List.map_id scopes)
  unfold searchable eligibleFacts
  rw [within, stripped]
  refine List.filter_congr fun r _ => decide_eq_decide.2 ?_
  simp [FactRow.Eligible]

/-- The candidates of a search. -/
theorem candidatesOf_ok (s : Store) (request : SearchRequest)
    (valid : ∀ scope ∈ scopes, Required scope) (within : retriever.allowedScopes = scopes) :
    ∃ candidates, retriever.candidatesOf s request (strip request.query) = .ok candidates ∧
      ∀ row, row ∈ candidates ↔ Candidate s scopes request retriever.candidateLimit row := by
  have listed : ∃ active, activeFacts s (some retriever.allowedScopes) request.category
      retriever.candidateLimit = .ok active := by
    unfold activeFacts
    rw [within, scopePredicate_of valid]
    split <;> exact ⟨_, rfl⟩
  obtain ⟨active, listed⟩ := listed
  have done : ∃ candidates,
      retriever.candidatesOf s request (strip request.query) = .ok candidates := by
    unfold candidatesOf
    rw [listed]
    exact ⟨_, rfl⟩
  obtain ⟨candidates, done⟩ := done
  refine ⟨candidates, done, fun row => ?_⟩
  have looked := searchable_eq s request valid within
  rw [mem_candidates done, looked]
  constructor
  · rintro ⟨showable, recent⟩
    exact ⟨looked ▸ mem_searchable.2 showable.toSearchable, recent, showable.trusted,
      showable.anchored⟩
  · intro candidate
    have may := mem_searchable.1 (looked.symm ▸ candidate.eligible)
    exact ⟨⟨may, candidate.trusted, candidate.anchored⟩, candidate.recent⟩

theorem AgreesOn.onActive (agrees : AgreesOn scopes s t)
    (times : ∀ r ∈ s.facts, r.Active → r.scope ∈ scopes →
      updatedAt r.factId = updatedAt' r.factId) :
    AgreesOnActive scopes s t updatedAt updatedAt' where
  facts := fun r holds => agrees.facts r holds.2
  times := times

theorem AgreesOnActive.candidatesOf_eq (agrees : AgreesOnActive scopes s t updatedAt updatedAt')
    (valid : ∀ scope ∈ scopes, Required scope) (within : retriever.allowedScopes = scopes) :
    retriever.candidatesOf s request (strip request.query) =
      retriever.candidatesOf t request (strip request.query) := by
  unfold candidatesOf
  rw [within, activeFacts_congr valid agrees.facts]

theorem AgreesOnActive.candidate_iff (agrees : AgreesOnActive scopes s t updatedAt updatedAt')
    {limit : Nat} {row : FactRow} :
    Candidate s scopes request limit row ↔ Candidate t scopes request limit row := by
  have perm : (eligibleFacts s scopes request.category).Perm
      (eligibleFacts t scopes request.category) :=
    agrees.facts.select_perm (fun r _ eligible => ⟨eligible.1, eligible.2.1 _ rfl⟩)
      fun r _ eligible => ⟨eligible.1, eligible.2.1 _ rfl⟩
  have newer : rank Newer (eligibleFacts s scopes request.category) row =
      rank Newer (eligibleFacts t scopes request.category) row := rank_perm perm row
  constructor
  · rintro ⟨eligible, recent, trusted, anchored⟩
    exact ⟨perm.mem_iff.1 eligible, newer ▸ recent, trusted, anchored⟩
  · rintro ⟨eligible, recent, trusted, anchored⟩
    exact ⟨perm.mem_iff.2 eligible, newer.symm ▸ recent, trusted, anchored⟩

/-- A candidate was updated at one time. -/
theorem AgreesOnActive.time_eq (agrees : AgreesOnActive scopes s t updatedAt updatedAt')
    {limit : Nat} {row : FactRow} (candidate : Candidate s scopes request limit row) :
    updatedAt row.factId = updatedAt' row.factId := by
  obtain ⟨stored, active, inside, -⟩ := mem_eligibleFacts.1 candidate.eligible
  exact agrees.times row stored active inside

end Agreement

/-! ## A search with the deterministic embedder -/

/-- The retriever embeds texts itself, and searches these scopes. -/
structure Deterministic (embedder : DeterministicFeatureHashEmbedder) (hashing : FeatureHashing)
    (scopes : List String) (retriever : HybridRetriever F) : Prop where
  embedder : retriever.embedder = embedder.dense hashing
  unindexed : retriever.vectorIndex = none
  within : retriever.allowedScopes = scopes

section Search

variable {numerics : Numerics F} {host : Host} {embedder : DeterministicFeatureHashEmbedder}
  {hashing : FeatureHashing} {scopes : List String} {retriever : HybridRetriever F}
  {db db' : VecDb} {updatedAt updatedAt' : Nat → Option String} {request : SearchRequest}

theorem make_deterministic {loads : Bool} {settings : RetrieverSettings F} {backend : VectorBackend}
    (made : make loads settings (embedder.dense hashing) backend db = .ok retriever)
    (within : settings.allowedScopes = scopes) :
    Deterministic embedder hashing scopes retriever ∧
      retriever.candidateLimit = settings.candidateLimit := by
  unfold make at made
  dsimp only at made
  obtain ⟨-, made⟩ := require_bind_eq_ok.1 made
  obtain ⟨-, made⟩ := require_bind_eq_ok.1 made
  cases pure_eq_ok.1 made
  refine ⟨⟨rfl, ?_, within⟩, rfl⟩
  cases backend <;> rfl

theorem make_db_eq (loads : Bool) (settings : RetrieverSettings F) (backend : VectorBackend)
    (db db' : VecDb) : make loads settings (embedder.dense hashing) backend db =
      make loads settings (embedder.dense hashing) backend db' := by
  cases backend <;> rfl

/-- What a search has found before it looks at vectors. -/
theorem Deterministic.prepare_eq (host : Host)
    (deterministic : Deterministic embedder hashing scopes retriever)
    (valid : ∀ scope ∈ scopes, Required scope) {s : Store} {candidates : List FactRow}
    (listed : retriever.candidatesOf s request (strip request.query) = .ok candidates) :
    ∃ scores, (∀ row, scores.lookup row.factId = (place host s scopes request
        retriever.candidateLimit row).map fun (p : Nat) => 1 / ((p : F) + 1)) ∧
      retriever.prepare host s request = .ok
        (if strip request.query = "" ∨ request.limit ≤ 0 ∨ candidates = [] then none
        else some ⟨strip request.query, candidates, scores,
          embedder.embed hashing (strip request.query)⟩) := by
  obtain ⟨scores, scored, lookup⟩ := ftsScoresOf_lookup host s request valid deterministic.within
  refine ⟨scores, lookup, ?_⟩
  unfold prepare
  dsimp only
  split
  · next nothing =>
    rw [if_pos (or_assoc.1 (.inl nothing))]
    rfl
  · next asks =>
    rw [listed, ok_bind]
    split
    · next none =>
      rw [if_pos (.inr (.inr none))]
      rfl
    · next some' =>
      rw [if_neg fun both => (or_assoc.2 both).elim asks some', scored, ok_bind,
        deterministic.embedder]
      rfl

/-- A search with nothing to look for returns nothing; another one ranks the candidates by what the
places give them. -/
theorem Deterministic.search_brute (numerics : Numerics F) (host : Host)
    (updatedAt : Nat → Option String)
    (deterministic : Deterministic embedder hashing scopes retriever)
    (valid : ∀ scope ∈ scopes, Required scope) {candidates : List FactRow}
    (listed : retriever.candidatesOf db.store request (strip request.query) = .ok candidates) :
    ∃ scores, (∀ row, scores.lookup row.factId = (place host db.store scopes request
        retriever.candidateLimit row).map fun (p : Nat) => 1 / ((p : F) + 1)) ∧
      (search numerics host retriever db updatedAt request).1 =
        if strip request.query = "" ∨ request.limit ≤ 0 ∨ candidates = [] then .ok []
        else bruteSearch numerics retriever updatedAt db.store request
          ⟨strip request.query, candidates, scores,
            embedder.embed hashing (strip request.query)⟩ := by
  obtain ⟨scores, lookup, prepared⟩ := deterministic.prepare_eq host valid listed
  refine ⟨scores, lookup, ?_⟩
  unfold search
  rw [prepared]
  by_cases nothing : strip request.query = "" ∨ request.limit ≤ 0 ∨ candidates = []
  · rw [if_pos nothing, if_pos nothing]
  · rw [if_neg nothing, if_neg nothing]
    dsimp only
    rw [deterministic.unindexed]

/-- The scores need the times of the candidates and their full-text scores. -/
theorem Deterministic.bruteSearch_congr
    (deterministic : Deterministic embedder hashing scopes retriever) {s t : Store}
    {query : String} {candidates : List FactRow} {scores scores' : List (Nat × F)}
    {queryVector : List Decimal}
    (same : ∀ row ∈ candidates, scores.lookup row.factId = scores'.lookup row.factId ∧
      updatedAt row.factId = updatedAt' row.factId) :
    bruteSearch numerics retriever updatedAt s request ⟨query, candidates, scores, queryVector⟩ =
      bruteSearch numerics retriever updatedAt' t request
        ⟨query, candidates, scores', queryVector⟩ := by
  unfold bruteSearch
  rw [deterministic.embedder]
  refine bind_congr_ok fun vectors _ => ?_
  dsimp only
  rw [mapM_congr_mem]
  intro pair mem
  obtain ⟨lookup, time⟩ := same pair.1 (List.of_mem_zip mem).1
  unfold bruteRow rankRow
  dsimp only
  rw [lookup, time]

/-- Stores that give the candidates the same places answer alike. -/
theorem Deterministic.search_eq (deterministic : Deterministic embedder hashing scopes retriever)
    (valid : ∀ scope ∈ scopes, Required scope)
    (agrees : AgreesOnActive scopes db.store db'.store updatedAt updatedAt')
    (places : ∀ row, Candidate db.store scopes request retriever.candidateLimit row →
      place host db.store scopes request retriever.candidateLimit row =
        place host db'.store scopes request retriever.candidateLimit row) :
    (search numerics host retriever db updatedAt request).1 =
      (search numerics host retriever db' updatedAt' request).1 := by
  obtain ⟨candidates, listed, member⟩ := candidatesOf_ok db.store request valid
    deterministic.within
  obtain ⟨scores, lookup, searched⟩ := deterministic.search_brute numerics host updatedAt valid
    listed
  rw [agrees.candidatesOf_eq valid deterministic.within] at listed
  obtain ⟨scores', lookup', searched'⟩ := deterministic.search_brute numerics host updatedAt'
    valid listed
  rw [searched, searched']
  refine ite_congr rfl (fun _ => rfl) fun _ => deterministic.bruteSearch_congr fun row mem => ?_
  have candidate := (member row).1 mem
  exact ⟨by rw [lookup, lookup', places row candidate], agrees.time_eq candidate⟩

end Search

end Enfold.Laws
