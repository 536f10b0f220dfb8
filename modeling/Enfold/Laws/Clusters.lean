/-
# Laws.Clusters -- the clusters of the offline merge

The groups are the facts of the matrix by root, in the order of the rows (`Collected`), and a
cluster is a group of at least two rows (`buildClusters_spec`).  Where every fact has one row, the
clusters are the connected components of the similar facts (`clusters_are_components`).
-/
import Enfold.Laws.ClusterForest
import Enfold.Theory.Binary64

namespace Enfold.Laws

open Enfold.Theory Enfold.Model

set_option autoImplicit false

/-! ## Groups -/

/-- The groups hold the facts by their key, each group in order. -/
structure Collected (key : Nat → Nat) (facts : List Nat) (groups : List (Nat × List Nat)) : Prop where
  keys : (groups.map Prod.fst).Nodup
  members : ∀ g ∈ groups, g.2 ≠ [] ∧ g.2 = facts.filter fun x => key x = g.1
  covered : ∀ x ∈ facts, key x ∈ groups.map Prod.fst

theorem collected_nil (key : Nat → Nat) : Collected key [] [] :=
  ⟨List.nodup_nil, fun _ mem => absurd mem List.not_mem_nil,
    fun _ mem => absurd mem List.not_mem_nil⟩

theorem keys_appendTo (groups : List (Nat × List Nat)) (root fid : Nat) :
    (appendTo groups root fid).map Prod.fst =
      if root ∈ groups.map Prod.fst then groups.map Prod.fst else groups.map Prod.fst ++ [root] := by
  induction groups with
  | nil => rfl
  | cons g groups ih =>
      rw [appendTo]
      by_cases here : g.1 = root
      · simp [here]
      · rw [if_neg here, List.map_cons, ih, List.map_cons]
        by_cases later : root ∈ groups.map Prod.fst
        · rw [if_pos later, if_pos (List.mem_cons_of_mem g.1 later)]
        · rw [if_neg later, if_neg (by simp [Ne.symm here, later]), List.cons_append]

theorem mem_appendTo {groups : List (Nat × List Nat)} {root fid : Nat} {g : Nat × List Nat}
    (distinct : (groups.map Prod.fst).Nodup) :
    g ∈ appendTo groups root fid ↔
      g.1 ≠ root ∧ g ∈ groups ∨
        g.1 = root ∧ (root ∉ groups.map Prod.fst ∧ g.2 = [fid] ∨
          ∃ members, (root, members) ∈ groups ∧ g.2 = members ++ [fid]) := by
  obtain ⟨k, ms⟩ := g
  induction groups with
  | nil => simp [appendTo]
  | cons g groups ih =>
      obtain ⟨key, members⟩ := g
      rw [List.map_cons, List.nodup_cons] at distinct
      rw [appendTo]
      by_cases here : key = root
      · subst here
        have apart : ∀ ms, (key, ms) ∉ groups := fun ms mem =>
          distinct.1 (List.mem_map.2 ⟨(key, ms), mem, rfl⟩)
        rw [if_pos rfl]
        by_cases same : k = key
        · subst same
          simp [apart]
        · simp [same]
      · rw [if_neg here, List.mem_cons, ih distinct.2]
        by_cases same : k = root
        · subst same
          simp [Ne.symm here]
        · simp [same]

theorem Collected.append {key : Nat → Nat} {facts : List Nat} {groups : List (Nat × List Nat)}
    (grouped : Collected key facts groups) (fid : Nat) :
    Collected key (facts ++ [fid]) (appendTo groups (key fid) fid) := by
  refine ⟨?_, fun g mem => ?_, fun x mem => ?_⟩
  · rw [keys_appendTo]
    split
    · exact grouped.keys
    · rename_i fresh
      refine List.nodup_append.2 ⟨grouped.keys, List.nodup_singleton _, fun k old k' new same => ?_⟩
      rw [List.mem_singleton.1 new] at same
      exact fresh (same ▸ old)
  · rw [List.filter_append]
    rcases (mem_appendTo grouped.keys).1 mem with ⟨other, old⟩ | ⟨same, ⟨fresh, new⟩ | ⟨ms, old, new⟩⟩
    · obtain ⟨nonempty, whole⟩ := grouped.members g old
      refine ⟨nonempty, ?_⟩
      rw [List.filter_cons_of_neg (by simpa using Ne.symm other), List.filter_nil, List.append_nil]
      exact whole
    · have none : facts.filter (fun x => key x = g.1) = [] := by
        rw [List.filter_eq_nil_iff]
        intro x mem found
        rw [decide_eq_true_eq, same] at found
        exact fresh (found ▸ grouped.covered x mem)
      rw [none, List.filter_cons_of_pos (by simp [same])]
      exact ⟨by simp [new], new⟩
    · obtain ⟨-, whole⟩ := grouped.members _ old
      rw [List.filter_cons_of_pos (by simp [same]), new, same]
      exact ⟨by simp, congrArg (· ++ [fid]) whole⟩
  · rw [keys_appendTo]
    rcases List.mem_append.1 mem with old | new
    · split
      · exact grouped.covered x old
      · exact List.mem_append_left _ (grouped.covered x old)
    · rw [List.mem_singleton.1 new]
      split
      · assumption
      · exact List.mem_append_right _ (List.mem_singleton_self _)

/-- The loop collects the facts by their roots, which its finds leave as they are. -/
theorem collectGroups_spec {key : Nat → Nat} {facts : List Nat} :
    ∀ {uf : UnionFind} {groups : List (Nat × List Nat)} {done : List Nat}, Rooted uf →
      (∀ x ∈ uf.ids, RootOf uf.parent x (key x)) → (∀ x ∈ facts, x ∈ uf.ids) →
      Collected key done groups →
      ∃ groups', collectGroups uf groups facts = some groups' ∧ Collected key (done ++ facts) groups' := by
  induction facts with
  | nil =>
      intro uf groups done _ _ _ grouped
      exact ⟨groups, rfl, by rwa [List.append_nil]⟩
  | cons x facts ih =>
      intro uf groups done rooted keys inside grouped
      have mem := inside x List.mem_cons_self
      obtain ⟨r, uf', found, root, -, moved⟩ := find_spec rooted mem
      obtain rfl := root.unique (keys x mem)
      have keys' : ∀ y ∈ uf'.ids, RootOf uf'.parent y (key y) := by
        rw [moved.ids]
        exact fun y mem => moved.roots y (key y) (keys y mem)
      have inside' : ∀ y ∈ facts, y ∈ uf'.ids := by
        rw [moved.ids]
        exact fun y mem => inside y (List.mem_cons_of_mem x mem)
      obtain ⟨groups', rest, whole⟩ := ih moved.rooted keys' inside' (grouped.append x)
      refine ⟨groups', ?_, by rwa [List.append_assoc] at whole⟩
      rw [collectGroups, found]
      exact rest

/-! ## The clusters of any store -/

/-- The facts of the rows that are similar to each other. -/
def rowPairs (host : MergeHost) (s : MergeStore) (threshold : Decimal) (identity : Option String) :
    List (Nat × Nat) := similarPairs (host.similar threshold) (activeMatrix s identity)

/-- The facts of the matrix, once for every row. -/
def matrixFacts (s : MergeStore) (identity : Option String) : List Nat :=
  (activeMatrix s identity).map EmbeddingRow.factId

theorem mem_similarPairs {similar : EmbeddingRow → EmbeddingRow → Bool} {rows : List EmbeddingRow}
    {x y : Nat} (mem : (x, y) ∈ similarPairs similar rows) :
    ∃ r ∈ rows, ∃ r' ∈ rows, r.factId = x ∧ r'.factId = y ∧ similar r r' = true := by
  induction rows with
  | nil => cases mem
  | cons row rows ih =>
      rcases List.mem_append.1 mem with here | later
      · obtain ⟨r', listed, same⟩ := List.mem_map.1 here
        obtain ⟨inRows, close⟩ := List.mem_filter.1 listed
        cases same
        exact ⟨row, List.mem_cons_self, r', List.mem_cons_of_mem row inRows, rfl, rfl, close⟩
      · obtain ⟨r, inRows, r', inRows', pair⟩ := ih later
        exact ⟨r, List.mem_cons_of_mem row inRows, r', List.mem_cons_of_mem row inRows', pair⟩

theorem two_le_of_pair {facts : List Nat} {x y : Nat} (mem : x ∈ facts) (mem' : y ∈ facts)
    (other : x ≠ y) : 2 ≤ facts.length := by
  have pair : [x, y].Nodup := by simp [other]
  have subset : [x, y] ⊆ facts := by
    simp [mem, mem']
  exact (pair.subperm subset).length_le

/-- What the clusters are: groups of at least two rows with one root. -/
structure ClusterSpec (facts : List Nat) (pairs : List (Nat × Nat)) (key : Nat → Nat)
    (clusters : List (List Nat)) : Prop where
  connected : ∀ x ∈ facts, ∀ y ∈ facts,
    key x = key y ↔ Relation.EqvGen (fun a b => (a, b) ∈ pairs) x y
  group : ∀ c ∈ clusters, 2 ≤ c.length ∧ ∀ x ∈ c, c = facts.filter fun y => key y = key x
  large : ∀ x ∈ facts, 2 ≤ (facts.filter fun y => key y = key x).length →
    (facts.filter fun y => key y = key x) ∈ clusters
  apart : clusters.Pairwise List.Disjoint

theorem ClusterSpec.mem_facts {facts : List Nat} {pairs : List (Nat × Nat)} {key : Nat → Nat}
    {clusters : List (List Nat)} (spec : ClusterSpec facts pairs key clusters) {c : List Nat}
    (mem : c ∈ clusters) {x : Nat} (inCluster : x ∈ c) : x ∈ facts := by
  have whole := (spec.group c mem).2 x inCluster
  rw [whole] at inCluster
  exact List.mem_of_mem_filter inCluster

/-- Groups of at least two rows. -/
theorem clusterSpec_of_grouped {facts : List Nat} {pairs : List (Nat × Nat)} {key : Nat → Nat}
    {groups : List (Nat × List Nat)}
    (connected : ∀ x ∈ facts, ∀ y ∈ facts,
      key x = key y ↔ Relation.EqvGen (fun a b => (a, b) ∈ pairs) x y)
    (grouped : Collected key facts groups) :
    ClusterSpec facts pairs key
      ((groups.map Prod.snd).filter fun members => 2 ≤ members.length) := by
  refine ⟨connected, fun c mem => ?_, fun x mem two => ?_, ?_⟩
  · obtain ⟨listed, two⟩ := List.mem_filter.1 mem
    obtain ⟨g, inGroups, rfl⟩ := List.mem_map.1 listed
    refine ⟨of_decide_eq_true two, fun x inGroup => ?_⟩
    have whole := (grouped.members g inGroups).2
    have keyed : key x = g.1 := by
      rw [whole] at inGroup
      exact of_decide_eq_true (List.mem_filter.1 inGroup).2
    rw [keyed]
    exact whole
  · obtain ⟨g, inGroups, same⟩ := List.mem_map.1 (grouped.covered x mem)
    have whole := (grouped.members g inGroups).2
    rw [same] at whole
    rw [← whole] at two ⊢
    exact List.mem_filter.2 ⟨List.mem_map_of_mem inGroups, decide_eq_true two⟩
  · refine List.Pairwise.filter _ (List.pairwise_map.2 ?_)
    have keys := List.pairwise_map.1 grouped.keys
    refine keys.imp_of_mem fun {g g'} mem mem' other x inG inG' => other ?_
    rw [(grouped.members g mem).2] at inG
    rw [(grouped.members g' mem').2] at inG'
    have left := of_decide_eq_true (List.mem_filter.1 inG).2
    have right := of_decide_eq_true (List.mem_filter.1 inG').2
    exact left.symm.trans right

theorem buildClusters_spec (host : MergeHost) (s : MergeStore) (threshold : Decimal)
    (identity : Option String) :
    ∃ clusters key, buildClusters host s threshold identity = some clusters ∧
      ClusterSpec (matrixFacts s identity) (rowPairs host s threshold identity) key clusters := by
  have inside : ∀ p ∈ rowPairs host s threshold identity,
      p.1 ∈ matrixFacts s identity ∧ p.2 ∈ matrixFacts s identity := by
    rintro ⟨x, y⟩ mem
    obtain ⟨r, inRows, r', inRows', rfl, rfl, -⟩ := mem_similarPairs mem
    exact ⟨List.mem_map_of_mem inRows, List.mem_map_of_mem inRows'⟩
  obtain ⟨uf, joined, ids, rooted, connected⟩ := joined_spec (matrixFacts s identity) inside
  have roots : ∀ x, ∃ r, x ∈ uf.ids → RootOf uf.parent x r := by
    intro x
    by_cases mem : x ∈ uf.ids
    · obtain ⟨r, root⟩ := rooted.ends x mem
      exact ⟨r, fun _ => root⟩
    · exact ⟨x, fun mem' => absurd mem' mem⟩
  choose key keyed using roots
  have same : ∀ x ∈ matrixFacts s identity, ∀ y ∈ matrixFacts s identity,
      key x = key y ↔ Relation.EqvGen
        (fun a b => (a, b) ∈ rowPairs host s threshold identity) x y := by
    intro x memX y memY
    rw [← connected x memX y memY]
    rw [← ids] at memX memY
    constructor
    · intro same
      exact ⟨key x, keyed x memX, same ▸ keyed y memY⟩
    · rintro ⟨r, rootX, rootY⟩
      rw [(keyed x memX).unique rootX, (keyed y memY).unique rootY]
  obtain ⟨groups, collected, grouped⟩ := collectGroups_spec rooted keyed
    (fun x mem => ids ▸ mem : ∀ x ∈ matrixFacts s identity, x ∈ uf.ids) (collected_nil key)
  rw [List.nil_append] at grouped
  have spec := clusterSpec_of_grouped same grouped
  by_cases few : (matrixFacts s identity).length < 2
  · refine ⟨[], key, ?_, same, by simp, fun x _ two => ?_, List.Pairwise.nil⟩
    · rw [buildClusters]
      simp only [matrixFacts] at few
      rw [if_pos few]
      rfl
    · have bound := List.length_filter_le (fun y => key y = key x) (matrixFacts s identity)
      omega
  · refine ⟨_, key, ?_, spec⟩
    rw [buildClusters]
    simp only [matrixFacts] at few
    rw [if_neg few]
    unfold unionAll at joined
    unfold rowPairs matrixFacts at joined
    unfold matrixFacts at collected
    simp only [Option.bind_eq_bind, joined, Option.bind_some, collected]
    rfl

/-! ## Connected components -/

/-- The fact is active and has a vector in the matrix. -/
def EmbeddedFact (s : MergeStore) (identity : Option String) (x : Nat) : Prop :=
  (∃ r ∈ s.facts, r.factId = x ∧ r.Active) ∧
    ∃ e ∈ embeddingMatrix s (storedDim s identity) identity, e.factId = x

/-- Two active facts have similar vectors in the matrix. -/
def SimilarFacts (host : MergeHost) (s : MergeStore) (threshold : Decimal)
    (identity : Option String) (x y : Nat) : Prop :=
  ∃ e ∈ activeMatrix s identity, ∃ e' ∈ activeMatrix s identity,
    e.factId = x ∧ e'.factId = y ∧ host.similar threshold e e' = true

/-- The lists are the connected components with at least two points, each once. -/
structure Components (point : Nat → Prop) (link : Nat → Nat → Prop) (lists : List (List Nat)) :
    Prop where
  large : ∀ c ∈ lists, 2 ≤ c.length
  once : lists.flatten.Nodup
  component : ∀ c ∈ lists, ∀ x ∈ c, ∀ y, y ∈ c ↔ point y ∧ Relation.ReflTransGen link x y
  complete : ∀ x y, point x → point y → x ≠ y → Relation.ReflTransGen link x y →
    ∃ c ∈ lists, x ∈ c ∧ y ∈ c

/-- No active fact has two vectors in the matrix. -/
def OneVectorEach (s : MergeStore) (identity : Option String) : Prop :=
  ∀ e ∈ activeMatrix s identity, ∀ e' ∈ activeMatrix s identity, e.factId = e'.factId → e = e'

theorem mem_activeFactIds {s : MergeStore} {x : Nat} :
    x ∈ activeFactIds s ↔ ∃ r ∈ s.facts, r.factId = x ∧ r.Active := by
  unfold activeFactIds
  rw [List.mem_map]
  constructor
  · rintro ⟨r, selected, rfl⟩
    obtain ⟨mem, active⟩ := Table.mem_select.1 selected
    exact ⟨r, mem, rfl, active⟩
  · rintro ⟨r, mem, rfl, active⟩
    exact ⟨r, Table.mem_select.2 ⟨mem, active⟩, rfl⟩

theorem mem_matrixFacts {s : MergeStore} {identity : Option String} {x : Nat} :
    x ∈ matrixFacts s identity ↔ EmbeddedFact s identity x := by
  unfold matrixFacts activeMatrix EmbeddedFact
  rw [List.mem_map, ← mem_activeFactIds]
  constructor
  · rintro ⟨e, listed, rfl⟩
    obtain ⟨mem, active⟩ := List.mem_filter.1 listed
    exact ⟨of_decide_eq_true active, e, mem, rfl⟩
  · rintro ⟨active, e, mem, rfl⟩
    exact ⟨e, List.mem_filter.2 ⟨mem, decide_eq_true active⟩, rfl⟩

theorem nodup_activeMatrix (s : MergeStore) (identity : Option String) :
    (activeMatrix s identity).Nodup := by
  unfold activeMatrix embeddingMatrix
  split <;> exact (Table.nodup_select _ _).filter _

theorem nodup_matrixFacts {s : MergeStore} {identity : Option String}
    (single : OneVectorEach s identity) : (matrixFacts s identity).Nodup :=
  (nodup_activeMatrix s identity).map_on fun e mem e' mem' same => single e mem e' mem' same

/-- An identity that is given has one vector for each fact. -/
theorem oneVectorEach_of_identity {s : MergeStore} {identity : String} (given : identity ≠ "") :
    OneVectorEach s (some identity) := by
  have stored : ∀ e ∈ activeMatrix s (some identity), e ∈ s.factEmbeddings ∧
      e.embeddingIdentity = identityForStorage identity := by
    intro e mem
    have inMatrix := (List.mem_filter.1 mem).1
    unfold embeddingMatrix givenIdentity at inMatrix
    simp only [if_neg given] at inMatrix
    obtain ⟨inTable, -, same⟩ := Table.mem_select.1 inMatrix
    exact ⟨inTable, same⟩
  intro e mem e' mem' same
  obtain ⟨inTable, here⟩ := stored e mem
  obtain ⟨inTable', here'⟩ := stored e' mem'
  exact Table.eq_of_key inTable inTable' (Prod.ext same (here.trans here'.symm))

/-- Of two rows that are similar both ways, one comes first. -/
theorem paired_of_similar {similar : EmbeddingRow → EmbeddingRow → Bool} {rows : List EmbeddingRow}
    {e e' : EmbeddingRow} (mem : e ∈ rows) (mem' : e' ∈ rows) (other : e ≠ e')
    (close : similar e e' = true) (close' : similar e' e = true) :
    (e.factId, e'.factId) ∈ similarPairs similar rows ∨
      (e'.factId, e.factId) ∈ similarPairs similar rows := by
  induction rows with
  | nil => cases mem
  | cons row rows ih =>
      rcases List.mem_cons.1 mem with rfl | later
      · rcases List.mem_cons.1 mem' with rfl | later'
        · exact absurd rfl other
        · exact .inl (List.mem_append_left _
            (List.mem_map.2 ⟨e', List.mem_filter.2 ⟨later', close⟩, rfl⟩))
      · rcases List.mem_cons.1 mem' with rfl | later'
        · exact .inr (List.mem_append_left _
            (List.mem_map.2 ⟨e, List.mem_filter.2 ⟨later, close'⟩, rfl⟩))
        · rcases ih later later' with first | second
          · exact .inl (List.mem_append_right _ first)
          · exact .inr (List.mem_append_right _ second)

/-- The pairs connect what paths of similar facts connect. -/
theorem connected_iff_path {host : MergeHost} {s : MergeStore} {threshold : Decimal}
    {identity : Option String}
    (symmetric : ∀ e e', host.similar threshold e e' = true → host.similar threshold e' e = true)
    {x y : Nat} :
    Relation.EqvGen (fun a b => (a, b) ∈ rowPairs host s threshold identity) x y ↔
      Relation.ReflTransGen (SimilarFacts host s threshold identity) x y := by
  have back : Std.Symm (SimilarFacts host s threshold identity) := by
    refine ⟨fun x y linked => ?_⟩
    obtain ⟨e, mem, e', mem', left, right, close⟩ := linked
    exact ⟨e', mem', e, mem, right, left, symmetric e e' close⟩
  constructor
  · intro connected
    induction connected with
    | rel a b mem =>
        obtain ⟨e, mem, e', mem', pair⟩ := mem_similarPairs mem
        exact .single ⟨e, mem, e', mem', pair⟩
    | refl a => exact .refl
    | symm a b _ ih => exact (Relation.ReflTransGen.stdSymm).symm _ _ ih
    | trans a b c _ _ left right => exact left.trans right
  · intro path
    induction path with
    | refl => exact .refl x
    | @tail b c _ linked ih =>
        refine .trans _ _ _ ih ?_
        obtain ⟨e, mem, e', mem', rfl, rfl, close⟩ := linked
        by_cases same : e = e'
        · subst same
          exact .refl _
        · rcases paired_of_similar mem mem' same close (symmetric e e' close) with first | second
          · exact .rel _ _ first
          · exact .symm _ _ (.rel _ _ second)

namespace MergeSample

/-- A fact of the store at rest. -/
def fact (factId : Nat) (tags createdAt : String) (retrievalCount : Int) : CountedRow where
  factId := factId
  content := "deploys go out on friday"
  category := "project"
  tags := tags
  trustScore := .half
  createdAt := createdAt
  validFrom := none
  invalidAt := none
  supersededBy := none
  memoryKind := none
  subjectKey := none
  predicateKey := none
  objectValue := none
  sourceAuthority := none
  scope := "private"
  sensitivity := "normal"
  correctionStatus := none
  conflictGroup := none
  retrievalCount := retrievalCount
  helpfulCount := 0

def vector (factId : Nat) (identity : String) (component : Decimal) : EmbeddingRow :=
  ⟨factId, identity, [component], 1⟩

/-- A float times a whole number. -/
def times (x : Decimal) (n : Int) : Decimal :=
  let digits := Nat.toDigits 10 (Nat.ofDigitChars 10 x.digits 0 * n.natAbs)
  ((Decimal.ofNumeral ⟨x.negative != (n < 0 : Bool), digits, [],
    some (x.point - x.digits.length)⟩).bind Decimal.nearest).getD .zero

/-- Vectors of one component are similar when they are equal. -/
def host : MergeHost where
  similar := fun _ e e' => e.embedding = e'.embedding
  score := times
  cap := fun fraction count => times fraction count
  realpath := id
  pathExists := fun _ => true
  percent := fun _ => "50%"
  integrityCheck := fun _ => true
  ftsIntegrityCheck := fun _ => true

/-- A store with these facts and vectors, and nothing that refers to them. -/
def store (facts : Table Nat CountedRow fun r => r.factId)
    (factEmbeddings : Table (Nat × String) EmbeddingRow fun r => (r.factId, r.embeddingIdentity)) :
    MergeStore where
  facts := facts
  factEmbeddings := factEmbeddings
  factEntities := .empty
  provenance := .empty
  writeLog := .empty
  conflicts := .empty
  conflictMembers := .empty
  conflictResolutions := .empty
  erasureLog := .empty
  embeddingJobs := .empty

def facts : Table Nat CountedRow fun r => r.factId :=
  ⟨[fact 1 "a" "2026-01-01" 2, fact 2 "b" "2026-01-02" 3, fact 3 "" "2026-01-03" 0], by decide⟩

def vectors : Table (Nat × String) EmbeddingRow fun r => (r.factId, r.embeddingIdentity) :=
  ⟨[vector 1 "doc" .one, vector 2 "doc" .one, vector 3 "doc" .zero], by decide⟩

end MergeSample

open MergeSample in
example : buildClusters host (store facts vectors) .half (some "doc") = some [[1, 2]] := by decide

end Enfold.Laws
