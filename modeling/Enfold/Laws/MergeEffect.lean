/-
# Laws.MergeEffect -- what writing a plan does to the store

Writing a plan drops its losers from the tables of facts, vectors and entity links, rewrites the
survivors, and leaves every other table as it is (`applyMerge_effect`).  How a sum over the facts
changes follows (`total_of_effect`): each loser's share goes, once, and each survivor's share is
replaced by what the plan says.
-/
import Enfold.Laws.MergePlan
import Mathlib.Data.List.Pairwise

namespace Enfold.Laws

open Enfold.Theory Enfold.Model

set_option autoImplicit false

/-! ## The effect -/

/-- The row of a survivor with what the cluster merges into it. -/
def mergedInto (c : ClusterMerge) (r : CountedRow) : CountedRow :=
  { r with
    retrievalCount := c.mergedRetrievalCount
    helpfulCount := c.mergedHelpfulCount
    tags := c.mergedTags }

def mergeStep (r : CountedRow) (c : ClusterMerge) : CountedRow :=
  if r.factId = c.survivorId then mergedInto c r else r

/-- The row of a fact after the clusters. -/
def mergedRow (clusters : List ClusterMerge) (r : CountedRow) : CountedRow :=
  clusters.foldl mergeStep r

@[simp] theorem mergeStep_id (r : CountedRow) (c : ClusterMerge) :
    (mergeStep r c).factId = r.factId := by
  unfold mergeStep
  split <;> rfl

@[simp] theorem mergedRow_id (clusters : List ClusterMerge) (r : CountedRow) :
    (mergedRow clusters r).factId = r.factId := by
  induction clusters generalizing r with
  | nil => rfl
  | cons c clusters ih => rw [mergedRow, List.foldl_cons, ← mergedRow, ih, mergeStep_id]

def allLosers (clusters : List ClusterMerge) : List Nat := clusters.flatMap ClusterMerge.loserIds

/-- The store after the clusters. -/
structure MergeEffect (clusters : List ClusterMerge) (s s' : MergeStore) : Prop where
  facts : s'.facts.rows =
    (s.facts.rows.filter fun r => r.factId ∉ allLosers clusters).map (mergedRow clusters)
  embeddings : s'.factEmbeddings.rows =
    s.factEmbeddings.rows.filter fun r => r.factId ∉ allLosers clusters
  entities : s'.factEntities.rows =
    s.factEntities.rows.filter fun r => r.factId ∉ allLosers clusters
  provenance : s'.provenance = s.provenance
  writeLog : s'.writeLog = s.writeLog
  conflicts : s'.conflicts = s.conflicts
  conflictMembers : s'.conflictMembers = s.conflictMembers
  conflictResolutions : s'.conflictResolutions = s.conflictResolutions
  erasureLog : s'.erasureLog = s.erasureLog
  embeddingJobs : s'.embeddingJobs = s.embeddingJobs

/-- Two filters one after the other, as a filter by two lists. -/
theorem filter_two_lists {α : Type} {rows : List α} {id : α → Nat} {front back : List Nat} :
    (rows.filter fun r => id r ∉ front).filter (fun r => id r ∉ back) =
      rows.filter fun r => id r ∉ front ++ back := by
  rw [List.filter_filter]
  refine List.filter_congr fun r _ => ?_
  by_cases early : id r ∈ front <;> by_cases late : id r ∈ back <;> simp [early, late]

/-- The deletes of one cluster. -/
theorem foldl_dropFact (losers : List Nat) (s : MergeStore) :
    losers.foldl dropFact s =
      { s with
        facts := s.facts.delete fun r => r.factId ∈ losers
        factEmbeddings := s.factEmbeddings.delete fun r => r.factId ∈ losers
        factEntities := s.factEntities.delete fun r => r.factId ∈ losers } := by
  induction losers generalizing s with
  | nil =>
      have whole : ∀ {K R : Type} {key : R → K} (t : Table K R key) (id : R → Nat),
          t.delete (fun r => id r ∈ ([] : List Nat)) = t :=
        fun t id => Table.ext (List.filter_eq_self.2 fun r _ => by simp)
      rw [whole, whole, whole]
      rfl
  | cons x losers ih =>
      have both : ∀ {K R : Type} {key : R → K} (t : Table K R key) (id : R → Nat),
          (t.delete fun r => id r = x).delete (fun r => id r ∈ losers) =
            t.delete fun r => id r ∈ x :: losers := by
        intro K R key t id
        refine Table.ext ?_
        have single := @filter_two_lists R t.rows id [x] losers
        simp only [List.mem_singleton, List.singleton_append] at single
        exact single
      rw [List.foldl_cons, ih, dropFact]
      simp only [both]

theorem applyCluster_effect {s s' : MergeStore} {c : ClusterMerge}
    (done : applyCluster s c = .ok s') : MergeEffect [c] s s' := by
  obtain ⟨-, done⟩ := require_bind_eq_ok.1 done
  cases pure_eq_ok.1 done
  have alone : allLosers [c] = c.loserIds := by simp [allLosers]
  rw [foldl_dropFact]
  refine ⟨?_, by rw [alone]; rfl, by rw [alone]; rfl, rfl, rfl, rfl, rfl, rfl, rfl, rfl⟩
  rw [alone]
  show (s.facts.rows.map fun r => mergeStep r c).filter (fun r => ¬ r.factId ∈ c.loserIds) = _
  rw [List.filter_map]
  refine congrArg (List.map _) (List.filter_congr fun r _ => ?_)
  simp

theorem MergeEffect.refl (s : MergeStore) : MergeEffect [] s s := by
  have none : allLosers [] = [] := rfl
  refine ⟨?_, ?_, ?_, rfl, rfl, rfl, rfl, rfl, rfl, rfl⟩
  · have same : mergedRow [] = id := rfl
    simp [none, same]
  · simp [none]
  · simp [none]

theorem MergeEffect.cons {c : ClusterMerge} {clusters : List ClusterMerge}
    {s next s' : MergeStore} (first : MergeEffect [c] s next)
    (rest : MergeEffect clusters next s') : MergeEffect (c :: clusters) s s' := by
  have losers : allLosers (c :: clusters) = allLosers [c] ++ allLosers clusters := by
    simp [allLosers]
  refine ⟨?_, ?_, ?_, rest.provenance.trans first.provenance, rest.writeLog.trans first.writeLog,
    rest.conflicts.trans first.conflicts, rest.conflictMembers.trans first.conflictMembers,
    rest.conflictResolutions.trans first.conflictResolutions,
    rest.erasureLog.trans first.erasureLog, rest.embeddingJobs.trans first.embeddingJobs⟩
  · rw [rest.facts, first.facts, List.filter_map, List.map_map, losers, ← filter_two_lists]
    refine congrArg₂ List.map rfl (List.filter_congr fun r _ => ?_)
    simp
  · rw [rest.embeddings, first.embeddings, losers, filter_two_lists]
  · rw [rest.entities, first.entities, losers, filter_two_lists]

theorem applyMerge_effect {clusters : List ClusterMerge} {s s' : MergeStore}
    (done : clusters.foldlM applyCluster s = .ok s') : MergeEffect clusters s s' := by
  induction clusters generalizing s with
  | nil =>
      cases pure_eq_ok.1 done
      exact .refl _
  | cons c clusters ih =>
      rw [List.foldlM_cons] at done
      obtain ⟨next, first, rest⟩ := bind_eq_ok.1 done
      exact (applyCluster_effect first).cons (ih rest)

/-! ## Sums over the facts -/

def totalOf (counter : CountedRow → Int) (s : MergeStore) : Int := (s.facts.rows.map counter).sum

/-- The facts of the deleted rows, each once. -/
theorem deleted_perm {rows : List CountedRow} (distinct : (rows.map (·.factId)).Nodup)
    {losers : List Nat} (present : ∀ x ∈ losers, x ∈ rows.map (·.factId)) :
    ((rows.filter fun r => r.factId ∈ losers).map (·.factId)).Perm losers.dedup := by
  refine (List.perm_ext_iff_of_nodup ?_ (List.nodup_dedup losers)).2 fun x => ?_
  · exact distinct.sublist (List.filter_sublist.map _)
  · rw [List.mem_dedup, List.mem_map]
    constructor
    · rintro ⟨r, listed, rfl⟩
      exact of_decide_eq_true (List.mem_filter.1 listed).2
    · intro listed
      obtain ⟨r, mem, rfl⟩ := List.mem_map.1 (present x listed)
      exact ⟨r, List.mem_filter.2 ⟨mem, decide_eq_true listed⟩, rfl⟩

/-- What is kept and what is dropped make up the whole. -/
theorem sum_filter_add {α : Type} (rows : List α) (p : α → Prop) [DecidablePred p] (f : α → Int) :
    ((rows.filter fun r => p r).map f).sum + ((rows.filter fun r => ¬ p r).map f).sum =
      (rows.map f).sum := by
  induction rows with
  | nil => rfl
  | cons r rows ih =>
      rw [List.map_cons, List.sum_cons, ← ih]
      by_cases inside : p r
      · rw [List.filter_cons_of_pos (by simpa using inside),
          List.filter_cons_of_neg (by simpa using inside), List.map_cons, List.sum_cons]
        ring
      · rw [List.filter_cons_of_neg (by simpa using inside),
          List.filter_cons_of_pos (by simpa using inside), List.map_cons, List.sum_cons]
        ring

/-- Replacing the share of one row. -/
theorem sum_mergeStep {counter : CountedRow → Int} {rows : List CountedRow}
    (distinct : (rows.map (·.factId)).Nodup) {c : ClusterMerge} {r : CountedRow} (mem : r ∈ rows)
    (survives : r.factId = c.survivorId) :
    (rows.map fun x => counter (mergeStep x c)).sum =
      (rows.map counter).sum + (counter (mergedInto c r) - counter r) := by
  induction rows with
  | nil => cases mem
  | cons x rows ih =>
      rw [List.map_cons, List.nodup_cons] at distinct
      rw [List.map_cons, List.sum_cons, List.map_cons, List.sum_cons]
      rcases List.mem_cons.1 mem with rfl | later
      · have others : (rows.map fun y => counter (mergeStep y c)) = rows.map counter := by
          refine List.map_congr_left fun y inRows => ?_
          have apart : y.factId ≠ c.survivorId := fun same =>
            distinct.1 (List.mem_map.2 ⟨y, inRows, same.trans survives.symm⟩)
          rw [mergeStep, if_neg apart]
        rw [others, mergeStep, if_pos survives]
        ring
      · have apart : x.factId ≠ c.survivorId := fun same =>
          distinct.1 (List.mem_map.2 ⟨r, later, survives.trans same.symm⟩)
        rw [ih distinct.2 later, mergeStep, if_neg apart]
        ring

/-- Replacing the shares of the survivors. -/
theorem sum_mergedRow {counter : CountedRow → Int} {merged old : ClusterMerge → Int}
    (writes : ∀ c r, counter (mergedInto c r) = merged c) {clusters : List ClusterMerge} :
    ∀ {rows : List CountedRow}, (rows.map (·.factId)).Nodup →
      clusters.Pairwise (fun c c' => c.survivorId ≠ c'.survivorId) →
      (∀ c ∈ clusters, ∃ r ∈ rows, r.factId = c.survivorId ∧ counter r = old c) →
      (rows.map fun r => counter (mergedRow clusters r)).sum =
        (rows.map counter).sum + (clusters.map fun c => merged c - old c).sum := by
  induction clusters with
  | nil =>
      intro rows _ _ _
      simp [mergedRow]
  | cons c clusters ih =>
      intro rows distinct apart present
      obtain ⟨others, tail⟩ := List.pairwise_cons.1 apart
      obtain ⟨r, mem, survives, was⟩ := present c List.mem_cons_self
      have ids : (rows.map fun x => mergeStep x c).map (·.factId) = rows.map (·.factId) := by
        rw [List.map_map]
        exact List.map_congr_left fun x _ => mergeStep_id x c
      have present' : ∀ c' ∈ clusters, ∃ r ∈ rows.map fun x => mergeStep x c,
          r.factId = c'.survivorId ∧ counter r = old c' := by
        intro c' listed
        obtain ⟨r', mem', survives', was'⟩ := present c' (List.mem_cons_of_mem c listed)
        refine ⟨r', List.mem_map.2 ⟨r', mem', ?_⟩, survives', was'⟩
        rw [mergeStep, if_neg fun same => others c' listed (same.symm.trans survives')]
      have rest := ih (ids ▸ distinct) tail present'
      rw [List.map_map, List.map_map] at rest
      rw [List.map_cons, List.sum_cons]
      calc (rows.map fun x => counter (mergedRow (c :: clusters) x)).sum
          = (rows.map fun x => counter (mergeStep x c)).sum +
              (clusters.map fun c => merged c - old c).sum := rest
        _ = _ := by
            rw [sum_mergeStep distinct mem survives, writes, was]
            ring

/-- The clusters name facts of the store, no fact twice. -/
structure Apart (clusters : List ClusterMerge) (s : MergeStore) : Prop where
  present : ∀ c ∈ clusters, ∀ x ∈ namedFacts c, ∃ r ∈ s.facts, r.factId = x
  survives : ∀ c ∈ clusters, c.survivorId ∉ c.loserIds
  disjoint : clusters.Pairwise fun c c' => (namedFacts c).Disjoint (namedFacts c')

theorem mem_allLosers {clusters : List ClusterMerge} {x : Nat} :
    x ∈ allLosers clusters ↔ ∃ c ∈ clusters, x ∈ c.loserIds := List.mem_flatMap

theorem Apart.losers_present {clusters : List ClusterMerge} {s : MergeStore}
    (apart : Apart clusters s) : ∀ x ∈ allLosers clusters, x ∈ s.facts.rows.map (·.factId) := by
  intro x mem
  obtain ⟨c, listed, loses⟩ := mem_allLosers.1 mem
  obtain ⟨r, stored, rfl⟩ := apart.present c listed x (List.mem_cons_of_mem _ loses)
  exact List.mem_map_of_mem stored

/-- A fact of one cluster is in no other. -/
theorem Apart.same_cluster {clusters : List ClusterMerge} {s : MergeStore}
    (apart : Apart clusters s) {c c' : ClusterMerge} (mem : c ∈ clusters) (mem' : c' ∈ clusters)
    {x : Nat} (named : x ∈ namedFacts c) (named' : x ∈ namedFacts c') : c = c' := by
  by_contra other
  have symmetric : Std.Symm fun c c' => (namedFacts c).Disjoint (namedFacts c') :=
    ⟨fun _ _ disjoint => disjoint.symm⟩
  exact apart.disjoint.forall mem mem' other named named'

theorem Apart.survivor_kept {clusters : List ClusterMerge} {s : MergeStore}
    (apart : Apart clusters s) {c : ClusterMerge} (mem : c ∈ clusters) :
    c.survivorId ∉ allLosers clusters := by
  intro loses
  obtain ⟨c', mem', loses'⟩ := mem_allLosers.1 loses
  obtain rfl := apart.same_cluster mem mem' List.mem_cons_self (List.mem_cons_of_mem _ loses')
  exact apart.survives c mem loses'

theorem total_of_effect {counter : CountedRow → Int} {merged : ClusterMerge → Int}
    (writes : ∀ c r, counter (mergedInto c r) = merged c) {clusters : List ClusterMerge}
    {s s' : MergeStore} (effect : MergeEffect clusters s s') (apart : Apart clusters s) :
    totalOf counter s' = totalOf counter s -
      ((allLosers clusters).dedup.map (countOf counter s)).sum +
      (clusters.map fun c => merged c - countOf counter s c.survivorId).sum := by
  have distinct := s.facts.nodup
  have kept : ∀ c ∈ clusters, ∃ r ∈ s.facts.rows.filter (fun r => r.factId ∉ allLosers clusters),
      r.factId = c.survivorId ∧ counter r = countOf counter s c.survivorId := by
    intro c mem
    obtain ⟨r, stored, same⟩ := apart.present c mem c.survivorId List.mem_cons_self
    refine ⟨r, List.mem_filter.2 ⟨stored, ?_⟩, same, ?_⟩
    · rw [same]
      simpa using apart.survivor_kept mem
    · rw [← same, countOf_of_mem stored]
  have distinctKept : ((s.facts.rows.filter fun r => r.factId ∉ allLosers clusters).map
      (·.factId)).Nodup := distinct.sublist (List.filter_sublist.map _)
  have survivors : clusters.Pairwise fun c c' => c.survivorId ≠ c'.survivorId := by
    refine apart.disjoint.imp ?_
    intro c c' disjoint same
    have first : c.survivorId ∈ namedFacts c := List.mem_cons_self
    have second : c'.survivorId ∈ namedFacts c' := List.mem_cons_self
    exact disjoint first (same ▸ second)
  have replaced := sum_mergedRow writes distinctKept survivors kept
  have gone : ((s.facts.rows.filter fun r => r.factId ∈ allLosers clusters).map counter).sum =
      ((allLosers clusters).dedup.map (countOf counter s)).sum := by
    rw [sum_counters fun r mem => (List.mem_filter.1 mem).1]
    exact ((deleted_perm distinct apart.losers_present).map (countOf counter s)).sum_eq
  have whole := sum_filter_add s.facts.rows (fun r => r.factId ∈ allLosers clusters) counter
  rw [totalOf, effect.facts, List.map_map]
  show (List.map (fun r => counter (mergedRow clusters r)) _).sum = _
  rw [replaced, totalOf, ← whole, gone]
  ring

/-- As many facts go as there are different losers. -/
theorem length_of_effect {clusters : List ClusterMerge} {s s' : MergeStore}
    (effect : MergeEffect clusters s s') (apart : Apart clusters s) :
    s'.facts.rows.length + (allLosers clusters).dedup.length = s.facts.rows.length := by
  have gone := (deleted_perm s.facts.nodup apart.losers_present).length_eq
  have split := List.length_eq_length_filter_add
    (l := s.facts.rows) fun r => decide (r.factId ∈ allLosers clusters)
  rw [List.length_map] at gone
  rw [effect.facts, List.length_map, split, gone, Nat.add_comm]
  congr 2
  exact List.filter_congr fun r _ => by simp

end Enfold.Laws
