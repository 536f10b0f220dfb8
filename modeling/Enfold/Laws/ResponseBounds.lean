/-
# Laws.ResponseBounds -- answers to searches are short and say when they were cut

Each loop drops rows from the end, so what is left is a prefix of the ranked rows
(`shrinkSearch_spec`, `contextLoop_spec`), and each stops: with an answer that is short enough, or
without rows.  Without rows the metadata goes, and what is left has a length of its own
(`bare_search_short`, `bare_context_short`), below every bound that can be configured.
-/
import Enfold.Model.SearchRoutes
import Enfold.Laws.ContextPacking
import Enfold.Model.Runs

namespace Enfold.Laws

open Enfold.Theory Enfold.Model

set_option autoImplicit false

/-! ## Answers without rows -/

theorem bare_search_short (truncated : Bool) :
    serializedChars (searchResponse [] [] truncated) ≤ 512 := by
  cases truncated <;> decide +kernel

theorem length_intText {n : Nat} (small : n ≤ 4096) : (Json.intText n).length ≤ 4 := by
  rw [Json.intText, if_neg (Int.not_lt.2 (Int.natCast_nonneg n)), Int.natAbs_natCast]
  exact (Nat.length_toDigits_le_iff (by decide) (by decide)).2 (by omega)

/-- Of a response without facts only the digits of the budget are not fixed. -/
theorem bare_context_short {tokenBudget : Nat} (small : tokenBudget ≤ 4096) (truncated : Bool) :
    serializedChars (contextResponse ⟨"", [], true, tokenBudget, 0, 0, 0⟩ [] truncated) ≤ 512 := by
  have digits := length_intText small
  simp only [serializedChars, contextResponse, Json.dump, Json.dumpMembers, List.length_append,
    List.length_cons, List.map_nil]
  generalize (Json.intText tokenBudget).length = n at digits ⊢
  revert n truncated
  decide +kernel

/-! ## Search -/

/-- The loop keeps the first facts, says so when it dropped one, and ends with an answer that is
short enough or without facts. -/
theorem shrinkSearch_spec (maxChars : Nat) (metadata : List (String × Json))
    (facts : List FactRecord) (truncated : Bool) :
    ∃ n ≤ facts.length,
      (shrinkSearch maxChars metadata facts truncated).1 = facts.take n ∧
      (n < facts.length ∨ truncated = true →
        (shrinkSearch maxChars metadata facts truncated).2 = true) ∧
      ((shrinkSearch maxChars metadata facts truncated).1 = [] ∨
        serializedChars (searchResponse (shrinkSearch maxChars metadata facts truncated).1 metadata
          (shrinkSearch maxChars metadata facts truncated).2) ≤ maxChars) := by
  induction size : facts.length generalizing facts truncated with
  | zero =>
      rw [shrinkSearch, if_neg (by omega)]
      exact ⟨0, Nat.le_refl 0, by simpa using size, by simp, .inl (List.length_eq_zero_iff.1 size)⟩
  | succ count ih =>
      rw [shrinkSearch]
      split
      · have shorter : facts.dropLast.length = count := by
          rw [List.length_dropLast, size]
          rfl
        obtain ⟨n, few, kept, marked, ends⟩ := ih facts.dropLast true shorter
        refine ⟨n, by omega, ?_, fun _ => marked (.inr rfl), ends⟩
        rw [kept, List.dropLast_eq_take, List.take_take, size]
        congr 1
        omega
      · rename_i stops
        refine ⟨count + 1, Nat.le_refl _, (List.take_of_length_le size.le).symm, ?_, ?_⟩
        · rintro (fewer | marked)
          · exact absurd fewer (Nat.lt_irrefl _)
          · exact marked
        · exact .inr (Nat.not_lt.1 fun long => stops ⟨by omega, long⟩)

/-- The answer is short enough, when it was without facts or was short enough already. -/
theorem finishSearch_short {maxChars : Nat} {metadata : List (String × Json)}
    {facts : List FactRecord} {truncated : Bool} (enough : 512 ≤ maxChars)
    (ends : facts = [] ∨ serializedChars (searchResponse facts metadata truncated) ≤ maxChars) :
    (∃ metadata', finishSearch maxChars metadata facts truncated =
        searchResponse facts metadata' truncated) ∧
      serializedChars (finishSearch maxChars metadata facts truncated) ≤ maxChars := by
  unfold finishSearch
  dsimp only
  split
  · rename_i short
    exact ⟨⟨_, rfl⟩, short⟩
  rename_i long
  split
  · rename_i short
    exact ⟨⟨_, rfl⟩, short⟩
  refine ⟨⟨_, rfl⟩, ?_⟩
  obtain rfl | short := ends
  · exact Nat.le_trans (bare_search_short truncated) enough
  · exact absurd short long

/-! ## Rows -/

theorem get_copyField (row fact : FactRecord) (name key : String) :
    (copyField row fact name).get key =
      if key = name ∧ (row.get? key).isSome then row.get key else fact.get key := by
  unfold copyField
  cases found : row.get? name with
  | none =>
      by_cases same : key = name
      · simp [same, found]
      · simp [same]
  | some entry =>
      dsimp only
      rw [get_set]
      by_cases same : key = name
      · subst same
        rw [if_pos rfl, if_pos ⟨rfl, by rw [found]; rfl⟩, FactRecord.get, found]
        rfl
      · rw [if_neg same, if_neg fun both => same both.1]

/-- Copying listed fields copies those the row has. -/
theorem get_copied (row : FactRecord) (names : List String) (fact : FactRecord) (key : String) :
    (names.foldl (copyField row) fact).get key =
      if key ∈ names ∧ (row.get? key).isSome then row.get key else fact.get key := by
  induction names generalizing fact with
  | nil => simp
  | cons name names ih =>
      rw [List.foldl_cons, ih, get_copyField]
      by_cases same : key = name
      · by_cases present : (row.get? name).isSome = true
        · simp [same, present]
        · simp [same, present]
      · simp [same]

theorem get_safeFact (row : FactRecord) {key : String} (listed : key ∈ factFields ++ scoreFields) :
    (safeFact row).get key = row.get key := by
  rw [safeFact, get_copied]
  split
  · rfl
  · rename_i absent
    have none : row.get? key = none := by
      cases found : row.get? key with
      | none => rfl
      | some entry => exact absurd ⟨listed, by rw [found]; rfl⟩ absent
    rw [FactRecord.get, FactRecord.get, none]
    rfl

/-- A content that is not that of the row was shortened. -/
theorem searchedFact_content {retrieval : Retrieval} {scopes : List String} {maxFactChars : Nat}
    {row fact : FactRecord} (shown : searchedFact retrieval scopes maxFactChars row =
      .ok (fact, false)) : fact.get "content" = row.get "content" := by
  obtain ⟨attribution, -, shown⟩ := bind_eq_ok.1 shown
  have made := pure_eq_ok.1 shown
  have before : ((safeFact row).set "attribution" attribution).get "content" =
      row.get "content" := by
    rw [get_set, if_neg (by decide), get_safeFact row (by decide)]
  rw [← before]
  unfold truncateFactContent at made
  split at made
  · split at made
    · cases made
      rfl
    · cases made
  · cases made
    rfl

/-- The fact that a search shows for a row; the flag is raised when its content was shortened. -/
def ShownFor (retrieval : Retrieval) (scopes : List String) (maxFactChars : Nat)
    (truncated : Bool) (row fact : FactRecord) : Prop :=
  (∃ shortened, searchedFact retrieval scopes maxFactChars row = .ok (fact, shortened)) ∧
    (fact.get "content" ≠ row.get "content" → truncated = true)

/-- A search answer of ranked rows: it is short enough, it shows the first rows in order, and it
says so when a row beyond the limit was cut, when a row was dropped, and when a content was
shortened. -/
def SearchAnswer (retrieval : Retrieval) (scopes : List String) (maxFactChars maxChars limit : Nat)
    (rows : List FactRecord) (response : Json) : Prop :=
  serializedChars response ≤ maxChars ∧ ∃ facts metadata truncated,
    response = searchResponse facts metadata truncated ∧
    (∃ n ≤ limit, List.Forall₂ (ShownFor retrieval scopes maxFactChars truncated) (rows.take n)
      facts) ∧
    (limit < rows.length ∨ facts.length < (rows.take limit).length → truncated = true)

section Routes

variable {F : Type} {floats : Floats F} {bounds : OutputBounds floats} {retrieval : Retrieval}
  {context : ConnectionContext} {params : Json}

theorem searchRoute_bounded {response : Json}
    (done : searchRoute bounds retrieval context params = .ok response) :
    ∃ query category minTrust requested rows metadata,
      limitParam (field "limit" params) 20 = .ok requested ∧
      retrieval.search context.accessScopes query category minTrust
        (min requested bounds.searchMaxResults + 1) = .ok (rows, metadata) ∧
      SearchAnswer retrieval context.accessScopes bounds.maxFactChars bounds.searchMaxTotalChars
        (min requested bounds.searchMaxResults) rows response := by
  obtain ⟨-, -, done⟩ := bind_eq_ok.1 done
  obtain ⟨query, -, done⟩ := bind_eq_ok.1 done
  obtain ⟨category, -, done⟩ := bind_eq_ok.1 done
  obtain ⟨minTrust, -, done⟩ := bind_eq_ok.1 done
  obtain ⟨requestedLimit, requested, done⟩ := bind_eq_ok.1 done
  obtain ⟨⟨rows, metadata⟩, found, done⟩ := bind_eq_ok.1 done
  obtain ⟨shown, mapped, done⟩ := bind_eq_ok.1 done
  refine ⟨query, category, minTrust, requestedLimit, rows, metadata, requested, found, ?_⟩
  generalize min requestedLimit bounds.searchMaxResults = limit at *
  have related := mapM_eq_ok.1 mapped
  dsimp only at done
  generalize flagged : (shown.any Prod.snd || decide (limit < requestedLimit) ||
    decide (limit < rows.length)) = before at done
  obtain ⟨n, few, kept, marked, ends⟩ :=
    shrinkSearch_spec bounds.searchMaxTotalChars metadata (shown.map Prod.fst) before
  generalize shrinkSearch bounds.searchMaxTotalChars metadata (shown.map Prod.fst) before =
    result at done kept marked ends
  obtain ⟨facts, truncated⟩ := result
  dsimp only at done kept marked ends
  rw [← pure_eq_ok.1 done]
  obtain ⟨⟨metadata', same⟩, short⟩ := finishSearch_short bounds.charsEnough.1 ends
  rw [List.length_map] at few marked
  have count : (rows.take limit).length = shown.length := related.length_eq
  have shownAll : List.Forall₂ (ShownFor retrieval context.accessScopes bounds.maxFactChars truncated)
      (rows.take limit) (shown.map Prod.fst) := by
    refine forall₂_of_getElem? (by rw [count, List.length_map]) fun i row fact here there => ?_
    obtain ⟨⟨fact', shortened⟩, place, searched⟩ := forall₂_getElem? related here
    rw [List.getElem?_map, place] at there
    cases there
    refine ⟨⟨shortened, searched⟩, fun changed => marked (.inr ?_)⟩
    cases shortened with
    | false => exact absurd (searchedFact_content searched) changed
    | true =>
        have some' : shown.any Prod.snd = true :=
          List.any_eq_true.2 ⟨_, List.mem_of_getElem? place, rfl⟩
        rw [← flagged, some', Bool.true_or, Bool.true_or]
  have withinLimit : n ≤ limit := by
    have bound := List.length_take_le limit rows
    omega
  refine ⟨short, facts, metadata', truncated, same, ⟨n, withinLimit, ?_⟩, ?_⟩
  · have prefix' := List.forall₂_take n shownAll
    rwa [List.take_take, Nat.min_eq_left withinLimit, ← kept] at prefix'
  · rintro (beyond | dropped)
    · refine marked (.inr ?_)
      rw [← flagged, decide_eq_true beyond, Bool.or_true]
    · rw [kept, List.length_take, List.length_map, count] at dropped
      exact marked (.inl (by omega))

/-! ## Context -/

/-- Packing nothing selects nothing. -/
theorem packContext_nil {tokenBudget : Nat} {maxFactChars maxFacts : Option Int} {mmrLambda : F}
    {pack : ContextPack}
    (done : packContext floats [] tokenBudget maxFactChars maxFacts mmrLambda = .ok pack) :
    pack = ⟨"", [], true, tokenBudget, 0, 0, 0⟩ := by
  unfold packContext at done
  obtain ⟨-, done⟩ := require_bind_eq_ok.1 done
  obtain ⟨-, done⟩ := require_bind_eq_ok.1 done
  obtain ⟨-, done⟩ := require_bind_eq_ok.1 done
  obtain ⟨-, done⟩ := require_bind_eq_ok.1 done
  dsimp only at done
  split at done
  · exact (pure_eq_ok.1 done).symm
  obtain ⟨ranked, ordered, done⟩ := bind_eq_ok.1 done
  have none : ranked = [] := by
    obtain ⟨order, places, -⟩ := mmrSelect_places ordered
    exact List.length_eq_zero_iff.1 (Nat.le_zero.1 places.length_le)
  subst none
  obtain ⟨state, packed, done⟩ := bind_eq_ok.1 done
  cases pure_eq_ok.1 packed
  exact (pure_eq_ok.1 done).symm

/-- The loop answers with a pack of the first candidates that is short enough, and it says so when
a candidate was dropped or a content was shortened. -/
theorem contextLoop_spec {tokenBudget : Nat} (small : tokenBudget ≤ 4096)
    {metadata : List (String × Json)} {candidates : List FactRecord} {truncated : Bool}
    {response : Json}
    (done : contextLoop bounds tokenBudget metadata candidates truncated = .ok response) :
    ∃ n ≤ candidates.length, ∃ pack metadata' flag,
      packContext floats (candidates.take n) tokenBudget (some bounds.maxFactChars)
        (some bounds.contextMaxResults) bounds.contextMmrLambda = .ok pack ∧
      response = contextResponse pack metadata' flag ∧
      serializedChars response ≤ bounds.contextMaxTotalChars ∧
      (n < candidates.length ∨ truncated = true ∨ pack.facts.any contextTruncated = true →
        flag = true) := by
  induction size : candidates.length generalizing candidates truncated with
  | zero =>
      rw [contextLoop] at done
      obtain ⟨pack, packed, done⟩ := bind_eq_ok.1 done
      have whole : candidates.take 0 = candidates := List.take_of_length_le size.le
      refine ⟨0, Nat.le_refl 0, ?_⟩
      rw [whole]
      have empty : candidates = [] := List.length_eq_zero_iff.1 size
      dsimp only at done
      rw [if_neg (show ¬ 0 < candidates.length by omega)] at done
      have marked : 0 < 0 ∨ truncated = true ∨ pack.facts.any contextTruncated = true →
          (truncated || pack.facts.any contextTruncated) = true := by
        rw [Bool.or_eq_true]
        rintro (never | mark)
        · exact absurd never (Nat.lt_irrefl 0)
        · exact mark
      split at done
      · rename_i short
        cases pure_eq_ok.1 done
        exact ⟨pack, _, _, packed, rfl, short, marked⟩
      split at done
      · rename_i short
        cases pure_eq_ok.1 done
        exact ⟨pack, _, _, packed, rfl, short, marked⟩
      · cases pure_eq_ok.1 done
        refine ⟨pack, _, _, packed, rfl, ?_, marked⟩
        rw [empty] at packed
        rw [packContext_nil packed]
        exact Nat.le_trans (bare_context_short small _) bounds.charsEnough.2
  | succ count ih =>
      rw [contextLoop] at done
      obtain ⟨pack, packed, done⟩ := bind_eq_ok.1 done
      dsimp only at done
      split at done
      · rename_i short
        cases pure_eq_ok.1 done
        refine ⟨count + 1, Nat.le_refl _, pack, _, _, ?_, rfl, short, ?_⟩
        · rwa [List.take_of_length_le size.le]
        · rw [Bool.or_eq_true]
          rintro (never | mark)
          · exact absurd never (Nat.lt_irrefl _)
          · exact mark
      · rw [if_pos (show 0 < candidates.length by omega)] at done
        have shorter : candidates.dropLast.length = count := by
          rw [List.length_dropLast, size]
          rfl
        obtain ⟨n, few, pack', metadata', flag, packed', same, short, marked⟩ := ih done shorter
        refine ⟨n, by omega, pack', metadata', flag, ?_, same, short,
          fun _ => marked (.inr (.inl rfl))⟩
        rw [List.dropLast_eq_take, List.take_take, size] at packed'
        rwa [show min n (count + 1 - 1) = n by omega] at packed'

theorem contextCandidate_get {row candidate : FactRecord} {scopes : List String} {key : String}
    (made : contextCandidate retrieval scopes row = .ok candidate)
    (listed : key ∈ ["fact_id", "content"]) : candidate.get key = row.get key := by
  obtain ⟨attribution, -, made⟩ := bind_eq_ok.1 made
  rw [← pure_eq_ok.1 made, get_set, get_copyField]
  have apart : key ≠ "attribution" ∧ key ≠ "_mmr_embedding" ∧ key ∈ factFields ++ scoreFields := by
    revert key
    decide
  rw [if_neg apart.1, if_neg fun both => apart.2.1 both.1, get_safeFact row apart.2.2]

/-- A context answer of ranked rows: it is short enough, it is a pack of the first rows, and it
says so when a row beyond the cap was cut, when a row was dropped, and when a packed content was
shortened. -/
def ContextAnswer (bounds : OutputBounds floats) (retrieval : Retrieval) (scopes : List String)
    (tokenBudget cap : Nat) (rows : List FactRecord) (response : Json) : Prop :=
  serializedChars response ≤ bounds.contextMaxTotalChars ∧
    ∃ candidates n pack metadata truncated,
      (rows.take cap).mapM (contextCandidate retrieval scopes) = .ok candidates ∧
      packContext floats (candidates.take n) tokenBudget (some bounds.maxFactChars)
        (some bounds.contextMaxResults) bounds.contextMmrLambda = .ok pack ∧
      response = contextResponse pack metadata truncated ∧
      (∀ fact ∈ pack.facts, ∃ row ∈ rows.take cap, fact.get "fact_id" = row.get "fact_id" ∧
        (fact.get "content" ≠ row.get "content" → truncated = true)) ∧
      (cap < rows.length ∨ n < (rows.take cap).length → truncated = true)

theorem contextRoute_bounded {response : Json}
    (done : contextRoute bounds retrieval context params = .ok response) :
    ∃ scopes query tokenBudget minTrust rows metadata,
      requestedScopes context (field "scope" params) = .ok scopes ∧
      tokenBudgetParam (field "token_budget" params) = .ok tokenBudget ∧
      retrieval.search scopes query none minTrust (bounds.contextMaxResults * 4 + 1) =
        .ok (rows, metadata) ∧
      ContextAnswer bounds retrieval scopes tokenBudget (bounds.contextMaxResults * 4) rows
        response := by
  obtain ⟨-, -, done⟩ := bind_eq_ok.1 done
  obtain ⟨query, -, done⟩ := bind_eq_ok.1 done
  obtain ⟨tokenBudget, budgeted, done⟩ := bind_eq_ok.1 done
  obtain ⟨minTrust, -, done⟩ := bind_eq_ok.1 done
  obtain ⟨scopes, allowed, done⟩ := bind_eq_ok.1 done
  obtain ⟨⟨rows, metadata⟩, found, done⟩ := bind_eq_ok.1 done
  obtain ⟨candidates, mapped, done⟩ := bind_eq_ok.1 done
  have small : tokenBudget ≤ 4096 := by
    unfold tokenBudgetParam at budgeted
    split at budgeted
    · cases budgeted
      decide
    · split at budgeted
      · cases budgeted
        omega
      · cases budgeted
    · cases budgeted
  obtain ⟨n, few, pack, metadata', flag, packed, same, short, marked⟩ := contextLoop_spec small done
  have related := mapM_eq_ok.1 mapped
  refine ⟨scopes, query, tokenBudget, minTrust, rows, metadata, allowed, budgeted, found, short,
    candidates, n, pack, metadata', flag, mapped, packed, same, fun fact selected => ?_, ?_⟩
  · obtain ⟨picks, -, used⟩ := (packContext_eq_ok packed).used
    obtain ⟨j, there⟩ := List.mem_iff_getElem?.1 selected
    obtain ⟨i, -, raw, place, from'⟩ := forall₂_getElem? used.flip there
    obtain ⟨row, mem, made⟩ := mem_of_mapM_eq_ok mapped raw
      (List.mem_of_mem_take (List.mem_of_getElem? place))
    refine ⟨row, mem, ?_, fun changed => ?_⟩
    · rw [from'.rest "fact_id" (by decide), contextCandidate_get made (by decide)]
    · obtain ⟨text, content, -, origin⟩ := from'.content
      rcases origin with whole | cut
      · refine absurd ?_ changed
        rw [content, ← whole, contextCandidate_get made (by decide)]
      · refine marked (.inr (.inr (List.any_eq_true.2 ⟨fact, selected, ?_⟩)))
        rw [contextTruncated, cut]
  · rintro (beyond | dropped)
    · exact marked (.inr (.inl (decide_eq_true beyond)))
    · rw [related.length_eq] at dropped
      exact marked (.inl dropped)

/-- Every answer to a search and to a context request is bounded and says when it was cut. -/
theorem responses_bounded :
    (∀ response, searchRoute bounds retrieval context params = .ok response →
      ∃ query category minTrust requested rows metadata,
        limitParam (field "limit" params) 20 = .ok requested ∧
        retrieval.search context.accessScopes query category minTrust
          (min requested bounds.searchMaxResults + 1) = .ok (rows, metadata) ∧
        SearchAnswer retrieval context.accessScopes bounds.maxFactChars bounds.searchMaxTotalChars
          (min requested bounds.searchMaxResults) rows response) ∧
    (∀ response, contextRoute bounds retrieval context params = .ok response →
      ∃ scopes query tokenBudget minTrust rows metadata,
        requestedScopes context (field "scope" params) = .ok scopes ∧
        tokenBudgetParam (field "token_budget" params) = .ok tokenBudget ∧
        retrieval.search scopes query none minTrust (bounds.contextMaxResults * 4 + 1) =
          .ok (rows, metadata) ∧
        ContextAnswer bounds retrieval scopes tokenBudget (bounds.contextMaxResults * 4) rows
          response) :=
  ⟨fun _ done => searchRoute_bounded done, fun _ done => contextRoute_bounded done⟩

end Routes

/-! ## A sample request -/

def sampleBounds : OutputBounds sampleFloats where
  defaultMinTrust := Decimal.half
  searchMaxResults := 1
  contextMaxResults := 1
  maxFactChars := 20
  searchMaxTotalChars := 2000
  contextMaxTotalChars := 2000
  contextMmrLambda := 1
  trustValid := half_inUnit
  resultsPositive := by decide
  markerFits := by decide
  charsEnough := by decide
  lambdaValid := by decide

def sampleCaller : ConnectionContext where
  clientId := "codex"
  surface := "cli"
  agentId := "a1"
  sessionId := "s1"
  displayName := none
  parentAgentId := none
  projectRoot := none
  repository := none
  branch := none
  commitSha := none
  capabilities := []
  accessScopes := ["work"]
  startedAt := none
  clientValid := Sample.codex_required
  surfaceValid := Sample.cli_required
  agentValid := Sample.a1_required
  sessionValid := Sample.s1_required
  scopesNonempty := Sample.work_nonempty

/-- Two rows for every query. -/
def sampleRetrieval : Retrieval where
  search _ _ _ _ _ := .ok (sampleRecords, [("mode", .str "lexical")])
  attribution _ _ := .ok .null

theorem sample_responses_bounded :
    (∃ response, searchRoute sampleBounds sampleRetrieval sampleCaller
        (.obj [("query", .str "door")]) = .ok response ∧ serializedChars response ≤ 2000) ∧
    ∃ response, contextRoute sampleBounds sampleRetrieval sampleCaller
      (.obj [("query", .str "door"), ("token_budget", .int 40)]) = .ok response ∧
      serializedChars response ≤ 2000 := by
  have searched : ((searchRoute sampleBounds sampleRetrieval sampleCaller
      (.obj [("query", .str "door")])).map fun _ => ()) = .ok () := by decide +kernel
  have packed : ((contextRoute sampleBounds sampleRetrieval sampleCaller
      (.obj [("query", .str "door"), ("token_budget", .int 40)])).map fun _ => ()) = .ok () := by
    decide +kernel
  obtain ⟨response, found, -⟩ := map_eq_ok.1 searched
  obtain ⟨response', made, -⟩ := map_eq_ok.1 packed
  obtain ⟨-, -, -, -, -, -, -, -, short, -⟩ := responses_bounded.1 response found
  obtain ⟨-, -, -, -, -, -, -, -, -, short', -⟩ := responses_bounded.2 response' made
  exact ⟨⟨response, found, short⟩, response', made, short'⟩

end Enfold.Laws
