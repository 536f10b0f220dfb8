/-
# Laws.MergePlan -- what the plan of an offline merge says about the store

Every cluster of a plan names facts of the store, no fact in two clusters.  Its survivor and its
losers are the members of a cluster of `buildClusters`, so a fact that has several rows in the
matrix is named, and counted, once for each of them (`Planned`).  The merged tags list what the
tags of the members list (`mem_tagSet_mergeTags`).
-/
import Enfold.Theory.Pieces
import Enfold.Laws.Clusters
import Mathlib.Algebra.BigOperators.Group.List.Basic
import Mathlib.Tactic.Ring

namespace Enfold.Laws

open Enfold.Theory Enfold.Model

set_option autoImplicit false

/-! ## Tags -/

/-- The tags that a text lists. -/
def tagSet (tags : String) : List String := ((splitAt ',' tags).map strip).filter (· ≠ "")

/-- A tag as the merge writes it. -/
def PlainTag (tag : String) : Prop := strip tag = tag ∧ tag ≠ "" ∧ ',' ∉ tag.toList

theorem mem_of_mem_strip {s : String} {c : Char} (mem : c ∈ (strip s).toList) : c ∈ s.toList := by
  rw [strip, String.toList_ofList, stripChars] at mem
  exact (List.dropWhile_suffix isSpace).subset ((List.rdropWhile_prefix isSpace _).subset mem)

theorem mem_tagSet {tags tag : String} :
    tag ∈ tagSet tags ↔ tag ≠ "" ∧ ∃ piece ∈ splitAt ',' tags, strip piece = tag := by
  simp only [tagSet, List.mem_filter, List.mem_map, decide_eq_true_eq]
  exact and_comm

theorem plainTag_of_mem {tags tag : String} (mem : tag ∈ tagSet tags) : PlainTag tag := by
  obtain ⟨nonempty, piece, listed, rfl⟩ := mem_tagSet.1 mem
  refine ⟨strip_strip piece, nonempty, fun comma => ?_⟩
  obtain ⟨chars, inPieces, rfl⟩ := List.mem_map.1 listed
  have inPiece := mem_of_mem_strip comma
  rw [String.toList_ofList] at inPiece
  exact sep_not_mem_piece inPieces inPiece

theorem mem_foldl_addTag {pieces seen : List String} {tag : String} :
    tag ∈ pieces.foldl addTag seen ↔
      tag ∈ seen ∨ tag ≠ "" ∧ ∃ piece ∈ pieces, strip piece = tag := by
  induction pieces generalizing seen with
  | nil => simp
  | cons piece pieces ih =>
      rw [List.foldl_cons, ih]
      have step : tag ∈ addTag seen piece ↔ tag ∈ seen ∨ tag ≠ "" ∧ strip piece = tag := by
        unfold addTag
        split
        · rename_i added
          rw [List.mem_append, List.mem_singleton]
          constructor
          · rintro (old | rfl)
            · exact .inl old
            · exact .inr ⟨added.1, rfl⟩
          · rintro (old | ⟨-, rfl⟩)
            · exact .inl old
            · exact .inr rfl
        · rename_i kept
          refine ⟨.inl, ?_⟩
          rintro (old | ⟨nonempty, rfl⟩)
          · exact old
          · by_contra fresh
            exact kept ⟨nonempty, fresh⟩
      rw [step]
      simp only [List.mem_cons, exists_eq_or_imp, or_assoc, ← and_or_left]

theorem mem_allTags {tagStrings seen : List String} {tag : String} :
    tag ∈ tagStrings.foldl (fun seen tags => (splitAt ',' tags).foldl addTag seen) seen ↔
      tag ∈ seen ∨ ∃ tags ∈ tagStrings, tag ∈ tagSet tags := by
  induction tagStrings generalizing seen with
  | nil => simp
  | cons tags tagStrings ih =>
      rw [List.foldl_cons, ih, mem_foldl_addTag, ← mem_tagSet]
      simp only [List.mem_cons, exists_eq_or_imp, or_assoc]

/-- A text of plain tags lists them. -/
theorem tagSet_join {tags : List String} (plain : ∀ tag ∈ tags, PlainTag tag) :
    tagSet (",".intercalate tags) = tags := by
  cases tags with
  | nil => decide
  | cons first rest =>
      rw [tagSet, splitAt_intercalate fun tag mem => (plain tag mem).2.2]
      have stripped : (first :: rest).map strip = first :: rest :=
        (List.map_congr_left fun tag mem => (plain tag mem).1).trans (List.map_id _)
      rw [stripped, List.filter_eq_self]
      exact fun tag mem => decide_eq_true (plain tag mem).2.1

/-- The merged text lists the tags of all the texts. -/
theorem mem_tagSet_mergeTags {tagStrings : List String} {tag : String} :
    tag ∈ tagSet (mergeTags tagStrings) ↔ ∃ tags ∈ tagStrings, tag ∈ tagSet tags := by
  have plain : ∀ tag ∈ tagStrings.foldl (fun seen tags => (splitAt ',' tags).foldl addTag seen) [],
      PlainTag tag := by
    intro tag mem
    rcases mem_allTags.1 mem with none | ⟨tags, -, listed⟩
    · cases none
    · exact plainTag_of_mem listed
  rw [mergeTags, tagSet_join plain, mem_allTags]
  simp

/-! ## Survivors -/

theorem firstMin_mem {before : CountedRow → CountedRow → Bool} {best : CountedRow}
    {rows : List CountedRow} : firstMin before best rows ∈ best :: rows := by
  induction rows generalizing best with
  | nil => exact List.mem_cons_self
  | cons r rows ih =>
      rw [firstMin]
      have among : firstMin before (if before r best then r else best) rows ∈ _ := ih
      rcases List.mem_cons.1 among with here | later
      · rw [here]
        split
        · exact List.mem_cons_of_mem best List.mem_cons_self
        · exact List.mem_cons_self
      · exact List.mem_cons_of_mem best (List.mem_cons_of_mem r later)

/-- Among active rows the survivor is one of them, and the others lose. -/
theorem chooseSurvivor_spec {host : MergeHost} {rows : List CountedRow} {floodCutoff : String}
    (nonempty : rows ≠ []) (active : ∀ r ∈ rows, r.Active) :
    ∃ survivor ∈ rows, chooseSurvivor host rows floodCutoff =
      some (survivor.factId, (rows.map (·.factId)).filter (· ≠ survivor.factId)) := by
  have all : rows.filter CountedRow.Active = rows :=
    List.filter_eq_self.2 fun r mem => decide_eq_true (active r mem)
  unfold chooseSurvivor
  simp only [all, if_neg nonempty]
  generalize chosen : (if (rows.filter fun r => r.createdAt < floodCutoff) ≠ [] ∧
      (rows.filter fun r => ¬ r.createdAt < floodCutoff) ≠ [] then
        rows.filter fun r => r.createdAt < floodCutoff else rows) = candidates
  have among : candidates ⊆ rows := by
    rw [← chosen]
    split
    · exact List.filter_subset_self rows
    · exact List.Subset.refl rows
  cases candidates with
  | nil =>
      split at chosen
      · rename_i some
        exact absurd chosen some.1
      · exact absurd chosen nonempty
  | cons first rest => exact ⟨_, among firstMin_mem, rfl⟩

/-! ## Plans -/

/-- A counter of a fact; zero where there is no such fact. -/
def countOf (counter : CountedRow → Int) (s : MergeStore) (x : Nat) : Int :=
  ((s.facts.get? x).map counter).getD 0

theorem countOf_of_mem {counter : CountedRow → Int} {s : MergeStore} {r : CountedRow}
    (mem : r ∈ s.facts) : countOf counter s r.factId = counter r := by
  rw [countOf, Table.get?_eq_some.2 ⟨mem, rfl⟩]
  rfl

/-- The rows of the members, each as often as the member is listed. -/
theorem rows_of_members {s : MergeStore} {members : List Nat}
    (present : ∀ x ∈ members, ∃ r ∈ s.facts, r.factId = x ∧ r.Active) :
    ∃ rows, members.mapM s.facts.get? = some rows ∧ rows.map (·.factId) = members ∧
      ∀ r ∈ rows, r ∈ s.facts ∧ r.Active := by
  induction members with
  | nil => exact ⟨[], rfl, rfl, fun r mem => absurd mem List.not_mem_nil⟩
  | cons x members ih =>
      obtain ⟨r, mem, rfl, active⟩ := present x List.mem_cons_self
      obtain ⟨rows, found, ids, each⟩ := ih fun y later => present y (List.mem_cons_of_mem _ later)
      refine ⟨r :: rows, ?_, by rw [List.map_cons, ids], fun r' listed => ?_⟩
      · rw [List.mapM_cons, Table.get?_eq_some.2 ⟨mem, rfl⟩, found]
        rfl
      · rcases List.mem_cons.1 listed with rfl | later
        · exact ⟨mem, active⟩
        · exact each r' later

/-- A sum over a list, the entries of one value apart. -/
theorem sum_map_split {values : List Nat} {f : Nat → Int} (x : Nat) :
    (values.map f).sum = values.count x * f x + ((values.filter (· ≠ x)).map f).sum := by
  induction values with
  | nil => simp
  | cons y values ih =>
      by_cases here : y = x
      · subst here
        rw [List.map_cons, List.sum_cons, ih, List.count_cons_self,
          List.filter_cons_of_neg (by simp)]
        push_cast
        ring
      · rw [List.map_cons, List.sum_cons, ih, List.count_cons_of_ne here,
          List.filter_cons_of_pos (by simpa using here), List.map_cons, List.sum_cons]
        ring

/-- What a planned cluster says about the store. -/
structure Planned (s : MergeStore) (identity : Option String) (c : ClusterMerge) : Prop where
  present : ∀ x ∈ c.survivorId :: c.loserIds, ∃ r ∈ s.facts, r.factId = x ∧ r.Active
  survives : c.survivorId ∉ c.loserIds
  rows : ∀ x ∈ c.loserIds, c.loserIds.count x = (matrixFacts s identity).count x
  retrieval : c.mergedRetrievalCount =
    (matrixFacts s identity).count c.survivorId * countOf (·.retrievalCount) s c.survivorId +
      (c.loserIds.map (countOf (·.retrievalCount) s)).sum
  helpful : c.mergedHelpfulCount =
    (matrixFacts s identity).count c.survivorId * countOf (·.helpfulCount) s c.survivorId +
      (c.loserIds.map (countOf (·.helpfulCount) s)).sum
  tags : ∀ tag, tag ∈ tagSet c.mergedTags ↔
    ∃ r ∈ s.facts, r.factId ∈ c.survivorId :: c.loserIds ∧ tag ∈ tagSet r.tags

/-- The facts that a planned cluster names. -/
def namedFacts (c : ClusterMerge) : List Nat := c.survivorId :: c.loserIds

/-- A sum over rows is a sum over their facts. -/
theorem sum_counters {counter : CountedRow → Int} {s : MergeStore} {rows : List CountedRow}
    (stored : ∀ r ∈ rows, r ∈ s.facts) :
    (rows.map counter).sum = ((rows.map (·.factId)).map (countOf counter s)).sum := by
  rw [List.map_map]
  congr 1
  exact List.map_congr_left fun r mem => (countOf_of_mem (stored r mem)).symm

theorem planCluster_spec {host : MergeHost} {s : MergeStore} {floodCutoff : String}
    {suspiciousClusterSize : Nat} {identity : Option String} {members : List Nat}
    (nonempty : members ≠ [])
    (present : ∀ x ∈ members, ∃ r ∈ s.facts, r.factId = x ∧ r.Active)
    (counts : ∀ x ∈ members, members.count x = (matrixFacts s identity).count x) :
    ∃ c, planCluster host s floodCutoff suspiciousClusterSize members = some c ∧
      Planned s identity c ∧ ∀ x, x ∈ namedFacts c ↔ x ∈ members := by
  obtain ⟨rows, found, ids, each⟩ := rows_of_members present
  have some : rows ≠ [] := by
    rintro rfl
    exact nonempty ids.symm
  obtain ⟨survivor, among, chosen⟩ :=
    @chooseSurvivor_spec host rows floodCutoff some fun r mem => (each r mem).2
  rw [ids] at chosen
  have inMembers : survivor.factId ∈ members := ids ▸ List.mem_map_of_mem among
  have named : ∀ x, x ∈ survivor.factId :: members.filter (· ≠ survivor.factId) ↔ x ∈ members := by
    intro x
    rw [List.mem_cons, List.mem_filter, decide_eq_true_eq]
    constructor
    · rintro (rfl | ⟨listed, -⟩)
      · exact inMembers
      · exact listed
    · intro listed
      by_cases here : x = survivor.factId
      · exact .inl here
      · exact .inr ⟨listed, here⟩
  have merged : ∀ counter : CountedRow → Int, (rows.map counter).sum =
      (matrixFacts s identity).count survivor.factId * countOf counter s survivor.factId +
        ((members.filter (· ≠ survivor.factId)).map (countOf counter s)).sum := by
    intro counter
    rw [sum_counters fun r mem => (each r mem).1, ids, sum_map_split survivor.factId,
      counts survivor.factId inMembers]
  refine ⟨⟨survivor.factId, members.filter (· ≠ survivor.factId),
    (rows.map (·.retrievalCount)).sum, (rows.map (·.helpfulCount)).sum,
    mergeTags (rows.map (·.tags)), suspiciousClusterSize < members.length⟩, ?_,
    ⟨fun x mem => present x ((named x).1 mem), by simp, fun x mem => ?_, merged _, merged _,
      fun tag => ?_⟩, named⟩
  · rw [planCluster, found]
    simp only [Option.bind_eq_bind, Option.bind_some, chosen]
    rfl
  · obtain ⟨listed, other⟩ := List.mem_filter.1 mem
    have kept : (members.filter (· ≠ survivor.factId)).count x = members.count x :=
      List.count_filter (p := fun y => decide (y ≠ survivor.factId)) other
    exact kept.trans (counts x listed)
  · dsimp only
    rw [mem_tagSet_mergeTags]
    constructor
    · rintro ⟨tags, listed, inTags⟩
      obtain ⟨r, mem, rfl⟩ := List.mem_map.1 listed
      exact ⟨r, (each r mem).1, (named _).2 (ids ▸ List.mem_map_of_mem mem), inTags⟩
    · rintro ⟨r, stored, listed, inTags⟩
      have inIds := (named _).1 listed
      rw [← ids] at inIds
      obtain ⟨r', mem, same⟩ := List.mem_map.1 inIds
      obtain rfl := Table.eq_of_key (each r' mem).1 stored same
      exact ⟨r'.tags, List.mem_map_of_mem mem, inTags⟩

/-- A plan is always made, and every cluster of it is planned for the store. -/
theorem planMerge_spec (host : MergeHost) (s : MergeStore) (threshold : Decimal)
    (floodCutoff : String) (identity : Option String) (suspiciousClusterSize : Nat) :
    ∃ plan, planMerge host s threshold floodCutoff identity suspiciousClusterSize = some plan ∧
      plan.startingFactCount = s.facts.rows.length ∧
      (∀ c ∈ plan.clusters, Planned s identity c) ∧
      plan.clusters.Pairwise fun c c' => (namedFacts c).Disjoint (namedFacts c') := by
  obtain ⟨clusters, key, built, spec⟩ := buildClusters_spec host s threshold identity
  have each : ∀ members ∈ clusters, ∃ c,
      planCluster host s floodCutoff suspiciousClusterSize members = some c ∧
        Planned s identity c ∧ ∀ x, x ∈ namedFacts c ↔ x ∈ members := by
    intro members mem
    obtain ⟨two, group⟩ := spec.group members mem
    refine planCluster_spec ?_ (fun x listed => ?_) fun x listed => ?_
    · rintro rfl
      exact absurd two (by decide)
    · exact (mem_matrixFacts.1 (spec.mem_facts mem listed)).1
    · rw [group x listed]
      exact List.count_filter (by simp)
  suffices all : ∃ merges,
      clusters.mapM (planCluster host s floodCutoff suspiciousClusterSize) = some merges ∧
        (∀ c ∈ merges, Planned s identity c ∧
          ∃ members ∈ clusters, ∀ x ∈ namedFacts c, x ∈ members) ∧
        merges.Pairwise fun c c' => (namedFacts c).Disjoint (namedFacts c') by
    obtain ⟨merges, planned, sound, apart⟩ := all
    refine ⟨⟨merges, s.facts.rows.length⟩, ?_, rfl, fun c mem => (sound c mem).1, apart⟩
    rw [planMerge, built]
    simp only [Option.bind_eq_bind, Option.bind_some, planned]
    rfl
  have disjoint := spec.apart
  clear built spec
  induction clusters with
  | nil => exact ⟨[], rfl, fun c mem => absurd mem List.not_mem_nil, List.Pairwise.nil⟩
  | cons members clusters ih =>
      obtain ⟨c, planned, sound, named⟩ := each members List.mem_cons_self
      obtain ⟨others, tail⟩ := List.pairwise_cons.1 disjoint
      obtain ⟨merges, rest, sounds, apart⟩ :=
        ih (fun m mem => each m (List.mem_cons_of_mem members mem)) tail
      refine ⟨c :: merges, ?_, fun c' mem => ?_, List.pairwise_cons.2 ⟨fun c' mem x left right => ?_, apart⟩⟩
      · rw [List.mapM_cons, planned, rest]
        rfl
      · rcases List.mem_cons.1 mem with rfl | later
        · exact ⟨sound, members, List.mem_cons_self, fun x inside => (named x).1 inside⟩
        · obtain ⟨sound', m, listed, inside⟩ := sounds c' later
          exact ⟨sound', m, List.mem_cons_of_mem members listed, inside⟩
      · obtain ⟨-, m, listed, inside⟩ := sounds c' mem
        exact others m listed ((named x).1 left) (inside x right)

end Enfold.Laws
