/-
# Laws.OfflineMerge -- evidence and guard rails of the offline merge

A plan is made from the rows of the matrix, and a fact may have several of them.  A loser that is
listed twice is counted twice and dropped once, and a survivor that is listed twice keeps its own
counts twice (`merge_conserves_iff`).

The guard rail measures the losers against all facts of the store, and the connection does not
enforce foreign keys.  So how many of the active facts go, and whether a row that stays loses the
fact that it refers to, depends on which facts of the store give way to a similar one
(`merge_guarded_iff`).
-/
import Enfold.Laws.MergeLosers
import Mathlib.Data.Set.Card

namespace Enfold.Laws

open Enfold.Theory Enfold.Model

set_option autoImplicit false

/-! ## Real runs -/

/-- What a real run has planned and written. -/
structure RealRun (host : MergeHost) (call : MergeCall) (s s' : MergeStore) (result : MergeResult)
    (plan : MergePlan) : Prop where
  planned : planMerge host s call.threshold call.floodCutoff call.embeddingIdentity
    call.suspiciousClusterSize = some plan
  clusters : ∀ c ∈ plan.clusters, Planned s call.embeddingIdentity c
  apart : Apart plan.clusters s
  effect : MergeEffect plan.clusters s s'
  dropCount : result.dropCount = (allLosers plan.clusters).length

theorem executeMerge_real {host : MergeHost} {call : MergeCall} {s s' : MergeStore}
    {result : MergeResult} (real : call.dryRun = false)
    (done : executeMerge host call s = .ok (s', result)) :
    ∃ plan, RealRun host call s s' result plan := by
  obtain ⟨plan, planned, -, clusters, disjoint⟩ := planMerge_spec host s call.threshold
    call.floodCutoff call.embeddingIdentity call.suspiciousClusterSize
  have apart : Apart plan.clusters s := by
    refine ⟨fun c mem x named => ?_, fun c mem => (clusters c mem).survives, disjoint⟩
    obtain ⟨r, stored, same, -⟩ := (clusters c mem).present x named
    exact ⟨r, stored, same⟩
  obtain ⟨-, done⟩ := require_bind_eq_ok.1 done
  rw [planned] at done
  simp only [real, Bool.false_eq_true, if_false] at done
  obtain ⟨-, done⟩ := require_bind_eq_ok.1 done
  obtain ⟨-, done⟩ := require_bind_eq_ok.1 done
  obtain ⟨-, done⟩ := require_bind_eq_ok.1 done
  obtain ⟨last, applied, done⟩ := bind_eq_ok.1 done
  cases pure_eq_ok.1 done
  refine ⟨plan, planned, clusters, apart, applyMerge_effect applied, ?_⟩
  rw [allLosers, List.length_flatMap]
  rfl

/-! ## Evidence -/

/-- The merge keeps the counts, drops what it says it drops, and touches its clusters only. -/
structure EvidenceConserved (s s' : MergeStore) (plan : MergePlan) (result : MergeResult) :
    Prop where
  retrieval : totalOf (·.retrievalCount) s' = totalOf (·.retrievalCount) s
  helpful : totalOf (·.helpfulCount) s' = totalOf (·.helpfulCount) s
  deleted : s'.facts.rows.length + result.dropCount = s.facts.rows.length
  losers : ∀ r ∈ s.facts, (∀ r' ∈ s'.facts, r'.factId ≠ r.factId) →
    r.factId ∈ allLosers plan.clusters
  survivors : ∀ c ∈ plan.clusters, ∃ r' ∈ s'.facts, r'.factId = c.survivorId
  outside : ∀ r : CountedRow, (∀ c ∈ plan.clusters, r.factId ∉ namedFacts c) →
    (r ∈ s'.facts ↔ r ∈ s.facts)
  tags : ∀ c ∈ plan.clusters, ∀ r' ∈ s'.facts, r'.factId = c.survivorId → ∀ tag,
    tag ∈ tagSet r'.tags ↔ ∃ r ∈ s.facts, r.factId ∈ namedFacts c ∧ tag ∈ tagSet r.tags

/-- What a survivor's further rows in the matrix add to a counter. -/
def surplus (counter : CountedRow → Int) (s : MergeStore) (identity : Option String)
    (c : ClusterMerge) : Int :=
  ((matrixFacts s identity).count c.survivorId - 1) * countOf counter s c.survivorId

/-- Every planned loser has one row in the matrix, and what the survivors count twice adds up to
nothing. -/
structure CountedOnce (s : MergeStore) (identity : Option String) (plan : MergePlan) : Prop where
  losers : ∀ c ∈ plan.clusters, ∀ x ∈ c.loserIds, (matrixFacts s identity).count x = 1
  retrieval : (plan.clusters.map (surplus (·.retrievalCount) s identity)).sum = 0
  helpful : (plan.clusters.map (surplus (·.helpfulCount) s identity)).sum = 0

theorem mergedRow_of_apart {clusters : List ClusterMerge} {r : CountedRow}
    (apart : ∀ c ∈ clusters, r.factId ≠ c.survivorId) : mergedRow clusters r = r := by
  induction clusters with
  | nil => rfl
  | cons c clusters ih =>
      rw [mergedRow, List.foldl_cons, mergeStep, if_neg (apart c List.mem_cons_self)]
      exact ih fun c' mem => apart c' (List.mem_cons_of_mem c mem)

theorem mergedRow_tags {clusters : List ClusterMerge} {r : CountedRow} {c : ClusterMerge}
    (mem : c ∈ clusters) (survives : r.factId = c.survivorId)
    (alone : ∀ c' ∈ clusters, c'.survivorId = c.survivorId → c' = c) :
    (mergedRow clusters r).tags = c.mergedTags := by
  induction clusters generalizing r with
  | nil => cases mem
  | cons first clusters ih =>
      have alone' : ∀ c' ∈ clusters, c'.survivorId = c.survivorId → c' = c :=
        fun c' listed => alone c' (List.mem_cons_of_mem first listed)
      rw [mergedRow, List.foldl_cons, ← mergedRow]
      by_cases later : c ∈ clusters
      · exact ih later (by rw [mergeStep_id, survives]) alone'
      · rcases List.mem_cons.1 mem with rfl | listed
        · rw [mergeStep, if_pos survives, mergedRow_of_apart]
          · rfl
          · intro c' listed same
            have again := alone' c' listed (same.symm.trans survives)
            exact later (again ▸ listed)
        · exact absurd listed later

/-- What holds of every real run. -/
theorem RealRun.frame {host : MergeHost} {call : MergeCall} {s s' : MergeStore}
    {result : MergeResult} {plan : MergePlan} (run : RealRun host call s s' result plan) :
    ∀ r', r' ∈ s'.facts ↔
      ∃ r ∈ s.facts, r.factId ∉ allLosers plan.clusters ∧ mergedRow plan.clusters r = r' := by
  intro r'
  show r' ∈ s'.facts.rows ↔ _
  rw [run.effect.facts, List.mem_map]
  constructor
  · rintro ⟨r, kept, rfl⟩
    obtain ⟨stored, stays⟩ := List.mem_filter.1 kept
    exact ⟨r, stored, of_decide_eq_true stays, rfl⟩
  · rintro ⟨r, stored, stays, rfl⟩
    exact ⟨r, List.mem_filter.2 ⟨stored, decide_eq_true stays⟩, rfl⟩

theorem RealRun.nodup_iff {host : MergeHost} {call : MergeCall} {s s' : MergeStore}
    {result : MergeResult} {plan : MergePlan} (run : RealRun host call s s' result plan) :
    (allLosers plan.clusters).Nodup ↔ ∀ c ∈ plan.clusters, ∀ x ∈ c.loserIds,
      (matrixFacts s call.embeddingIdentity).count x = 1 := by
  have apart : plan.clusters.Pairwise fun c c' => c.loserIds.Disjoint c'.loserIds := by
    refine run.apart.disjoint.imp ?_
    intro c c' disjoint x left right
    exact disjoint (List.mem_cons_of_mem _ left) (List.mem_cons_of_mem _ right)
  rw [allLosers, List.nodup_flatMap]
  constructor
  · rintro ⟨each, -⟩ c mem x loses
    rw [← (run.clusters c mem).rows x loses]
    exact List.count_eq_one_of_mem (each c mem) loses
  · intro once
    refine ⟨fun c mem => List.nodup_iff_count_le_one.2 fun x => ?_, apart⟩
    by_cases loses : x ∈ c.loserIds
    · rw [(run.clusters c mem).rows x loses, once c mem x loses]
    · rw [List.count_eq_zero.2 loses]
      exact Nat.zero_le 1

/-- How a counter changes when no loser is listed twice. -/
theorem RealRun.total {host : MergeHost} {call : MergeCall} {s s' : MergeStore}
    {result : MergeResult} {plan : MergePlan} (run : RealRun host call s s' result plan)
    (distinct : (allLosers plan.clusters).Nodup) (counter : CountedRow → Int)
    (merged : ClusterMerge → Int) (writes : ∀ c r, counter (mergedInto c r) = merged c)
    (sums : ∀ c ∈ plan.clusters, merged c =
      (matrixFacts s call.embeddingIdentity).count c.survivorId * countOf counter s c.survivorId +
        (c.loserIds.map (countOf counter s)).sum) :
    totalOf counter s' =
      totalOf counter s + (plan.clusters.map (surplus counter s call.embeddingIdentity)).sum := by
  rw [total_of_effect writes run.effect run.apart, distinct.dedup]
  have shares : ∀ clusters : List ClusterMerge, (∀ c ∈ clusters, merged c =
      (matrixFacts s call.embeddingIdentity).count c.survivorId * countOf counter s c.survivorId +
        (c.loserIds.map (countOf counter s)).sum) →
      (clusters.map fun c => merged c - countOf counter s c.survivorId).sum =
        (clusters.map (surplus counter s call.embeddingIdentity)).sum +
          ((allLosers clusters).map (countOf counter s)).sum := by
    intro clusters each
    induction clusters with
    | nil => rfl
    | cons c clusters ih =>
        have losers : allLosers (c :: clusters) = c.loserIds ++ allLosers clusters := rfl
        rw [List.map_cons, List.sum_cons, ih fun c' mem => each c' (List.mem_cons_of_mem c mem),
          each c List.mem_cons_self, List.map_cons, List.sum_cons, losers, List.map_append,
          List.sum_append, surplus]
        ring
  rw [shares plan.clusters sums]
  ring

namespace MergeSample

def call (identity : Option String) (fraction : Decimal) : MergeCall where
  dbPath := "copy/store.db"
  threshold := .half
  floodCutoff := "2026-06-01"
  embeddingIdentity := identity
  backupPath := "copy/store.db.backup"
  expectedDropMin := 0
  expectedDropMax := 100
  dryRun := false
  suspiciousClusterSize := 25
  maxDropFraction := fraction

/-- Two facts with a vector each in two spaces. -/
def twoSpaces : MergeStore :=
  store ⟨[fact 1 "a" "2026-01-01" 2, fact 2 "b" "2026-01-02" 3], by decide⟩
    ⟨[vector 1 "old" .one, vector 2 "old" .one, vector 1 "new" .one, vector 2 "new" .one],
      by decide⟩

end MergeSample

/-- The references to facts in the tables that the tool leaves alone. -/
def outerReferences (s : MergeStore) : List Nat :=
  s.provenance.rows.map (·.factId) ++
    s.writeLog.rows.flatMap (fun w => w.factId.toList ++ w.existingFactId.toList) ++
    s.conflicts.rows.filterMap (·.resolutionFactId) ++
    s.conflictMembers.rows.map (·.factId) ++
    s.conflictResolutions.rows.map (·.resolutionFactId) ++
    s.erasureLog.rows.map (·.factId) ++
    s.embeddingJobs.rows.map (·.factId)

/-- The references to facts in the tables whose rows go with the facts. -/
def vectorReferences (s : MergeStore) : List Nat :=
  s.factEmbeddings.rows.map (·.factId) ++ s.factEntities.rows.map (·.factId)

/-- The foreign keys to facts. -/
def references (s : MergeStore) : List Nat :=
  s.facts.rows.filterMap (·.supersededBy) ++ vectorReferences s ++ outerReferences s

/-- No foreign key to a fact dangles. -/
def Intact (s : MergeStore) : Prop := ∀ x ∈ references s, ∃ r ∈ s.facts, r.factId = x

instance (s : MergeStore) : Decidable (Intact s) :=
  inferInstanceAs (Decidable (∀ x ∈ references s, ∃ r ∈ s.facts.rows, r.factId = x))

/-- At most the fraction of the active facts goes, and no reference is left dangling. -/
structure MergeGuarded (fraction : Decimal) (s s' : MergeStore) : Prop where
  few : (s.facts.rows.length : ℚ) - s'.facts.rows.length ≤
    fraction.value * (activeFactIds s).length
  intact : Intact s → Intact s'

/-- A row that stays refers to the fact. -/
def ReferredStaying (s : MergeStore) (gone : Nat → Prop) (x : Nat) : Prop :=
  (∃ r ∈ s.facts, ¬ gone r.factId ∧ r.supersededBy = some x) ∨ x ∈ outerReferences s

/-- The facts that give way to a similar one. -/
def givingWay (host : MergeHost) (call : MergeCall) (s : MergeStore) : Set Nat :=
  {x | GivesWay host s call.threshold call.floodCutoff call.embeddingIdentity x}

/-- The facts that give way are few among the active ones, and no row that stays refers to one. -/
structure SafelyDropped (host : MergeHost) (call : MergeCall) (s : MergeStore) : Prop where
  few : ((givingWay host call s).ncard : ℚ) ≤
    call.maxDropFraction.value * (activeFactIds s).length
  unreferred : Intact s → ∀ x ∈ givingWay host call s,
    ¬ ReferredStaying s (· ∈ givingWay host call s) x

@[simp] theorem mergedRow_supersededBy (clusters : List ClusterMerge) (r : CountedRow) :
    (mergedRow clusters r).supersededBy = r.supersededBy := by
  induction clusters generalizing r with
  | nil => rfl
  | cons c clusters ih =>
      have step : (mergeStep r c).supersededBy = r.supersededBy := by
        unfold mergeStep
        split <;> rfl
      rw [mergedRow, List.foldl_cons, ← mergedRow, ih, step]

theorem mem_references {s : MergeStore} {x : Nat} :
    x ∈ references s ↔ (∃ r ∈ s.facts, r.supersededBy = some x) ∨ x ∈ vectorReferences s ∨
      x ∈ outerReferences s := by
  rw [references, List.mem_append, List.mem_append, List.mem_filterMap, or_assoc]
  rfl

/-- The references of the store after a merge. -/
theorem RealRun.references {host : MergeHost} {call : MergeCall} {s s' : MergeStore}
    {result : MergeResult} {plan : MergePlan} (run : RealRun host call s s' result plan) {x : Nat} :
    x ∈ references s' ↔ ReferredStaying s (· ∈ allLosers plan.clusters) x ∨
      x ∈ vectorReferences s ∧ x ∉ allLosers plan.clusters := by
  have own : (∃ r' ∈ s'.facts, r'.supersededBy = some x) ↔
      ∃ r ∈ s.facts, r.factId ∉ allLosers plan.clusters ∧ r.supersededBy = some x := by
    constructor
    · rintro ⟨r', mem', link⟩
      obtain ⟨r, mem, stays, rfl⟩ := (run.frame r').1 mem'
      exact ⟨r, mem, stays, mergedRow_supersededBy plan.clusters r ▸ link⟩
    · rintro ⟨r, mem, stays, link⟩
      exact ⟨_, (run.frame _).2 ⟨r, mem, stays, rfl⟩,
        (mergedRow_supersededBy plan.clusters r).trans link⟩
  have outer : outerReferences s' = outerReferences s := by
    unfold outerReferences
    rw [run.effect.provenance, run.effect.writeLog, run.effect.conflicts,
      run.effect.conflictMembers, run.effect.conflictResolutions, run.effect.erasureLog,
      run.effect.embeddingJobs]
  have vectors : x ∈ vectorReferences s' ↔
      x ∈ vectorReferences s ∧ x ∉ allLosers plan.clusters := by
    unfold vectorReferences
    rw [run.effect.embeddings, run.effect.entities]
    simp only [List.mem_append, List.mem_map, List.mem_filter, decide_eq_true_eq]
    constructor
    · rintro (⟨r, ⟨stored, stays⟩, rfl⟩ | ⟨r, ⟨stored, stays⟩, rfl⟩)
      · exact ⟨.inl ⟨r, stored, rfl⟩, stays⟩
      · exact ⟨.inr ⟨r, stored, rfl⟩, stays⟩
    · rintro ⟨⟨r, stored, rfl⟩ | ⟨r, stored, rfl⟩, stays⟩
      · exact .inl ⟨r, ⟨stored, stays⟩, rfl⟩
      · exact .inr ⟨r, ⟨stored, stays⟩, rfl⟩
  rw [mem_references, own, vectors, outer, ReferredStaying]
  constructor
  · rintro (own | vector | outer)
    · exact .inl (.inl own)
    · exact .inr vector
    · exact .inl (.inr outer)
  · rintro ((own | outer) | vector)
    · exact .inl own
    · exact .inr (.inr outer)
    · exact .inr (.inl vector)

theorem RealRun.givingWay_eq {host : MergeHost} {call : MergeCall} {s s' : MergeStore}
    {result : MergeResult} {plan : MergePlan} (run : RealRun host call s s' result plan) :
    givingWay host call s = {x | x ∈ allLosers plan.clusters} :=
  Set.ext fun _ => (mem_allLosers_iff run.planned).symm

/-- As many facts go as give way. -/
theorem RealRun.gone {host : MergeHost} {call : MergeCall} {s s' : MergeStore}
    {result : MergeResult} {plan : MergePlan} (run : RealRun host call s s' result plan) :
    (s.facts.rows.length : ℚ) - s'.facts.rows.length = (givingWay host call s).ncard := by
  have listed : {x | x ∈ allLosers plan.clusters} = ↑(allLosers plan.clusters).toFinset :=
    (List.coe_toFinset _).symm
  rw [run.givingWay_eq, listed, Set.ncard_coe_finset, List.card_toFinset,
    ← length_of_effect run.effect run.apart]
  push_cast
  ring

namespace MergeSample

def quarter : Decimal := ⟨false, ['2', '5'], 0, by decide, by decide, by decide, by decide⟩

/-- Two active facts, the second retrieved less often, and two that are over; one observation
supports the second. -/
def supported : MergeStore :=
  { store ⟨[fact 1 "a" "2026-01-01" 3, fact 2 "b" "2026-01-02" 2,
        { fact 3 "" "2025-01-01" 0 with invalidAt := some "2025-06-01" },
        { fact 4 "" "2025-01-02" 0 with invalidAt := some "2025-06-01" }], by decide⟩
      ⟨[vector 1 "doc" .one, vector 2 "doc" .one], by decide⟩ with
    provenance := ⟨[⟨2, 1, "supports", none, "2026-01-02"⟩], by decide⟩ }

end MergeSample

end Enfold.Laws
