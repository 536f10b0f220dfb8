/-
# Laws.MergeLosers -- which facts a merge gives up

A cluster keeps the first of its facts by `survivalRank`: facts from before the flood come first, then
the score decides, then the age, then the place in the matrix.  So a fact is a loser of the plan exactly
when a chain of similar rows links it to a fact of lower rank (`mem_allLosers_iff`).
-/
import Enfold.Laws.MergeEffect
import Mathlib.Data.List.MinMax
import Mathlib.Data.Prod.Lex
import Mathlib.Data.String.Basic

namespace Enfold.Laws

open Enfold.Theory Enfold.Model

set_option autoImplicit false

/-! ## Places in a list -/

section Places

variable {α β : Type} [DecidableEq α] [DecidableEq β]

/-- A list with entries left out keeps the order of the others. -/
theorem idxOf_le_of_filter {l : List α} {p : α → Bool} {x y : α} (keeps : p y = true)
    (le : (l.filter p).idxOf x ≤ (l.filter p).idxOf y) :
    l.idxOf x ≤ l.idxOf y := by
  induction l with
  | nil => exact le_rfl
  | cons z l ih =>
      by_cases here : z = x
      · rw [here, List.idxOf_cons_self]
        exact Nat.zero_le _
      rw [List.idxOf_cons_ne l here]
      by_cases there : z = y
      · subst there
        rw [List.filter_cons_of_pos keeps, List.idxOf_cons_self, List.idxOf_cons_ne _ here] at le
        exact absurd le (Nat.not_succ_le_zero _)
      rw [List.idxOf_cons_ne l there]
      refine Nat.succ_le_succ (ih ?_)
      cases kept : p z with
      | false => rwa [List.filter_cons_of_neg (by simp [kept])] at le
      | true =>
          rw [List.filter_cons_of_pos kept, List.idxOf_cons_ne _ here, List.idxOf_cons_ne _ there]
            at le
          exact Nat.le_of_succ_le_succ le

theorem idxOf_map {l : List α} {f : α → β} {x : α}
    (injective : ∀ y ∈ l, f y = f x → y = x) : (l.map f).idxOf (f x) = l.idxOf x := by
  induction l with
  | nil => rfl
  | cons y l ih =>
      rw [List.map_cons]
      by_cases here : y = x
      · rw [here, List.idxOf_cons_self, List.idxOf_cons_self]
      · have apart : f y ≠ f x := fun same => here (injective y List.mem_cons_self same)
        rw [List.idxOf_cons_ne _ apart, List.idxOf_cons_ne _ here,
          ih fun z mem => injective z (List.mem_cons_of_mem y mem)]

end Places

/-! ## Ranks -/

/-- The sort key `(-score, created_at)`. -/
def survivalKey (host : MergeHost) (r : CountedRow) : ℚ ×ₗ String :=
  toLex (-(host.score r.trustScore r.retrievalCount).value, r.createdAt)

/-- The order in which the facts of a cluster survive. -/
def survivalRank (host : MergeHost) (floodCutoff : String) (facts : List Nat) (r : CountedRow) :
    Bool ×ₗ (ℚ ×ₗ String) ×ₗ Nat :=
  toLex (¬ r.createdAt < floodCutoff, toLex (survivalKey host r, facts.idxOf r.factId))

theorem keyBefore_eq (host : MergeHost) :
    keyBefore host = fun r r' => decide (survivalKey host r < survivalKey host r') := by
  funext r r'
  rw [Bool.eq_iff_iff, decide_eq_true_iff]
  unfold keyBefore survivalKey
  rw [Prod.Lex.toLex_lt_toLex, neg_lt_neg_iff, neg_inj]
  simp

/-- `min` is the first least element. -/
theorem firstMin_eq_argmin {γ : Type} [LinearOrder γ] {key : CountedRow → γ} {first : CountedRow}
    {rows : List CountedRow} :
    (first :: rows).argmin key =
      some (firstMin (fun r r' => decide (key r < key r')) first rows) := by
  unfold List.argmin
  rw [List.foldl_cons]
  show rows.foldl _ (some first) = _
  induction rows generalizing first with
  | nil => rfl
  | cons r rows ih =>
      rw [List.foldl_cons, firstMin]
      by_cases less : key r < key first
      · rw [decide_eq_true less, if_pos rfl, ← ih]
        exact congrArg (rows.foldl _) (if_pos less)
      · rw [decide_eq_false less, if_neg (by simp), ← ih]
        exact congrArg (rows.foldl _) (if_neg less)

/-- The candidates of a cluster: the rows from before the flood, if there are any. -/
theorem survivorCandidates {rows : List CountedRow} (nonempty : rows ≠ []) (floodCutoff : String) :
    ∃ q : CountedRow → Bool,
      (if (rows.filter fun r => r.createdAt < floodCutoff) ≠ [] ∧
          (rows.filter fun r => ¬ r.createdAt < floodCutoff) ≠ [] then
        rows.filter fun r => r.createdAt < floodCutoff else rows) = rows.filter q ∧
      rows.filter q ≠ [] ∧ ∀ r ∈ rows.filter q, ∀ r' ∈ rows,
        decide (¬ r.createdAt < floodCutoff) < decide (¬ r'.createdAt < floodCutoff) ∨
          decide (¬ r.createdAt < floodCutoff) = decide (¬ r'.createdAt < floodCutoff) ∧
            r' ∈ rows.filter q := by
  by_cases both : (rows.filter fun r => r.createdAt < floodCutoff) ≠ [] ∧
      (rows.filter fun r => ¬ r.createdAt < floodCutoff) ≠ []
  · refine ⟨fun r => r.createdAt < floodCutoff, if_pos both, both.1, fun r mem r' mem' => ?_⟩
    have early : r.createdAt < floodCutoff := of_decide_eq_true (List.mem_filter.1 mem).2
    by_cases early' : r'.createdAt < floodCutoff
    · exact .inr ⟨by simp [early, early'], List.mem_filter.2 ⟨mem', decide_eq_true early'⟩⟩
    · exact .inl (by simp [early, early'])
  · have all : rows.filter (fun _ => true) = rows := List.filter_eq_self.2 fun _ _ => rfl
    refine ⟨fun _ => true, by rw [if_neg both, all], by rwa [all], fun r mem r' mem' => .inr ?_⟩
    rw [all] at mem ⊢
    refine ⟨?_, mem'⟩
    rcases not_and_or.1 both with none | none
    · have late := List.filter_eq_nil_iff.1 (not_not.1 none)
      have first : ¬ r.createdAt < floodCutoff := by simpa using late r mem
      have second : ¬ r'.createdAt < floodCutoff := by simpa using late r' mem'
      simp [first, second]
    · have early := List.filter_eq_nil_iff.1 (not_not.1 none)
      have first : r.createdAt < floodCutoff := by simpa using early r mem
      have second : r'.createdAt < floodCutoff := by simpa using early r' mem'
      simp [first, second]

/-- Of the rows of a cluster the one of the least rank survives. -/
theorem chooseSurvivor_least {host : MergeHost} {rows : List CountedRow} {floodCutoff : String}
    {facts : List Nat} {p : Nat → Bool} (nonempty : rows ≠ []) (active : ∀ r ∈ rows, r.Active)
    (ids : rows.map (·.factId) = facts.filter p)
    (keyed : ∀ r ∈ rows, ∀ r' ∈ rows, r.factId = r'.factId → r = r') :
    ∃ survivor ∈ rows, chooseSurvivor host rows floodCutoff =
        some (survivor.factId, (rows.map (·.factId)).filter (· ≠ survivor.factId)) ∧
      ∀ r ∈ rows, survivalRank host floodCutoff facts survivor ≤
        survivalRank host floodCutoff facts r := by
  have all : rows.filter CountedRow.Active = rows :=
    List.filter_eq_self.2 fun r mem => decide_eq_true (active r mem)
  have places : ∀ q : CountedRow → Bool, ∀ r ∈ rows.filter q, ∀ r' ∈ rows.filter q,
      (rows.filter q).idxOf r ≤ (rows.filter q).idxOf r' →
        facts.idxOf r.factId ≤ facts.idxOf r'.factId := by
    intro q r mem r' mem' le
    obtain ⟨inRows, -⟩ := List.mem_filter.1 mem
    obtain ⟨inRows', kept⟩ := List.mem_filter.1 mem'
    have inside : p r'.factId = true :=
      (List.mem_filter.1 (ids ▸ List.mem_map_of_mem inRows')).2
    refine idxOf_le_of_filter inside ?_
    rw [← ids, idxOf_map fun x mem => keyed x mem r inRows, idxOf_map fun x mem => keyed x mem r' inRows']
    exact idxOf_le_of_filter kept le
  obtain ⟨q, chosen, some', flood⟩ := survivorCandidates nonempty floodCutoff
  unfold chooseSurvivor
  simp only [all, if_neg nonempty]
  rw [chosen]
  cases listed : rows.filter q with
  | nil => exact absurd listed some'
  | cons first rest =>
      have least : (rows.filter q).argmin (survivalKey host) =
          some (firstMin (keyBefore host) first rest) := by
        rw [listed, firstMin_eq_argmin, keyBefore_eq]
      obtain ⟨mem, below, earliest⟩ := List.argmin_eq_some_iff.1 least
      refine ⟨_, (List.mem_filter.1 mem).1, rfl, fun r inRows => ?_⟩
      unfold survivalRank
      rw [Prod.Lex.toLex_le_toLex]
      refine (flood _ mem r inRows).imp id fun even => ⟨even.1, ?_⟩
      rw [Prod.Lex.toLex_le_toLex]
      rcases lt_or_eq_of_le (below r even.2) with less | same
      · exact .inl less
      · exact .inr ⟨same, places q _ mem r even.2 (earliest r even.2 same.ge)⟩

/-! ## Plans -/

/-- A traversal that succeeds meets every element, and returns nothing else. -/
theorem mapM_eq_some {α β : Type} {f : α → Option β} {l : List α} {l' : List β}
    (mapped : l.mapM f = some l') :
    (∀ a ∈ l, ∃ b ∈ l', f a = some b) ∧ ∀ b ∈ l', ∃ a ∈ l, f a = some b := by
  induction l generalizing l' with
  | nil =>
      cases mapped
      simp
  | cons a l ih =>
      rw [List.mapM_cons] at mapped
      obtain ⟨first, here, mapped⟩ := Option.bind_eq_some_iff.1 mapped
      obtain ⟨rest, later, same⟩ := Option.bind_eq_some_iff.1 mapped
      cases same
      obtain ⟨forth, back⟩ := ih later
      refine ⟨List.forall_mem_cons.2 ⟨⟨first, List.mem_cons_self, here⟩, fun x mem => ?_⟩,
        List.forall_mem_cons.2 ⟨⟨a, List.mem_cons_self, here⟩, fun b mem => ?_⟩⟩
      · obtain ⟨b, listed, made⟩ := forth x mem
        exact ⟨b, List.mem_cons_of_mem first listed, made⟩
      · obtain ⟨x, listed, made⟩ := back b mem
        exact ⟨x, List.mem_cons_of_mem a listed, made⟩

section Plan

variable {host : MergeHost} {s : MergeStore} {threshold : Decimal} {floodCutoff : String}
  {identity : Option String} {suspiciousClusterSize : Nat}

/-- The losers of a cluster are its members but the one of the least rank. -/
theorem planCluster_losers {members : List Nat} {p : Nat → Bool} {c : ClusterMerge}
    (nonempty : members ≠ []) (group : members = (matrixFacts s identity).filter p)
    (planned : planCluster host s floodCutoff suspiciousClusterSize members = some c) :
    ∃ survivor ∈ s.facts, survivor.factId ∈ members ∧
      c.loserIds = members.filter (· ≠ survivor.factId) ∧
      ∀ r ∈ s.facts, r.factId ∈ members →
        survivalRank host floodCutoff (matrixFacts s identity) survivor ≤
          survivalRank host floodCutoff (matrixFacts s identity) r := by
  have present : ∀ x ∈ members, ∃ r ∈ s.facts, r.factId = x ∧ r.Active := by
    intro x mem
    rw [group] at mem
    exact (mem_matrixFacts.1 (List.mem_of_mem_filter mem)).1
  obtain ⟨rows, found, ids, each⟩ := rows_of_members present
  have some' : rows ≠ [] := by
    rintro rfl
    exact nonempty ids.symm
  obtain ⟨survivor, among, chosen, least⟩ := @chooseSurvivor_least host rows floodCutoff _ p some'
    (fun r mem => (each r mem).2) (ids.trans group)
    fun r mem r' mem' same => Table.eq_of_key (each r mem).1 (each r' mem').1 same
  unfold planCluster at planned
  simp only [Option.bind_eq_bind, found, Option.bind_some, chosen] at planned
  cases planned
  refine ⟨survivor, (each survivor among).1, ids ▸ List.mem_map_of_mem among, by rw [ids],
    fun r stored mem => ?_⟩
  rw [← ids] at mem
  obtain ⟨r', inRows, same⟩ := List.mem_map.1 mem
  obtain rfl := Table.eq_of_key (each r' inRows).1 stored same
  exact least r' inRows

/-- The fact is linked to one that is to survive before it. -/
def GivesWay (host : MergeHost) (s : MergeStore) (threshold : Decimal) (floodCutoff : String)
    (identity : Option String) (x : Nat) : Prop :=
  ∃ r ∈ s.facts, ∃ r' ∈ s.facts, r.factId = x ∧ EmbeddedFact s identity r.factId ∧
    EmbeddedFact s identity r'.factId ∧
    Relation.EqvGen (fun a b => (a, b) ∈ rowPairs host s threshold identity) r.factId r'.factId ∧
    survivalRank host floodCutoff (matrixFacts s identity) r' <
      survivalRank host floodCutoff (matrixFacts s identity) r

/-- The losers of a plan are the facts that give way. -/
theorem mem_allLosers_iff {plan : MergePlan} {x : Nat}
    (planned : planMerge host s threshold floodCutoff identity suspiciousClusterSize = some plan) :
    x ∈ allLosers plan.clusters ↔ GivesWay host s threshold floodCutoff identity x := by
  obtain ⟨clusters, key, built, spec⟩ := buildClusters_spec host s threshold identity
  obtain ⟨clusters', found, planned⟩ := Option.bind_eq_some_iff.1 planned
  cases built.symm.trans found
  obtain ⟨merges, mapped, same⟩ := Option.bind_eq_some_iff.1 planned
  cases same
  obtain ⟨forth, back⟩ := mapM_eq_some mapped
  rw [mem_allLosers]
  constructor
  · rintro ⟨c, listed, loses⟩
    obtain ⟨members, mem, made⟩ := back c listed
    obtain ⟨two, group⟩ := spec.group members mem
    have nonempty : members ≠ [] := by
      rintro rfl
      exact absurd two (by decide)
    obtain ⟨first, inside⟩ := List.exists_mem_of_ne_nil members nonempty
    obtain ⟨survivor, stored, among, losers, least⟩ :=
      planCluster_losers nonempty (group first inside) made
    rw [losers] at loses
    obtain ⟨member, apart⟩ := List.mem_filter.1 loses
    have point := spec.mem_facts mem member
    have point' := spec.mem_facts mem among
    obtain ⟨r, stored', rfl, -⟩ := (mem_matrixFacts.1 point).1
    refine ⟨r, stored', survivor, stored, rfl, mem_matrixFacts.1 point, mem_matrixFacts.1 point',
      (spec.connected _ point _ point').1 ?_, lt_of_le_of_ne (least r stored' member) fun even => ?_⟩
    · rw [group _ among] at member
      exact of_decide_eq_true (List.mem_filter.1 member).2
    · have places : (matrixFacts s identity).idxOf survivor.factId =
          (matrixFacts s identity).idxOf r.factId :=
        congrArg (fun rank => (ofLex (ofLex rank).2).2) even
      exact of_decide_eq_true apart ((List.idxOf_inj point').1 places).symm
  · rintro ⟨r, stored, r', stored', rfl, embedded, embedded', linked, less⟩
    have point := mem_matrixFacts.2 embedded
    have point' := mem_matrixFacts.2 embedded'
    have same := (spec.connected _ point _ point').2 linked
    have inX : r.factId ∈ (matrixFacts s identity).filter fun y => key y = key r.factId :=
      List.mem_filter.2 ⟨point, decide_eq_true rfl⟩
    have inY : r'.factId ∈ (matrixFacts s identity).filter fun y => key y = key r.factId :=
      List.mem_filter.2 ⟨point', decide_eq_true same.symm⟩
    have other : r.factId ≠ r'.factId := fun even =>
      less.ne (congrArg _ (Table.eq_of_key stored' stored even.symm))
    obtain ⟨c, listed, made⟩ := forth _ (spec.large _ point (two_le_of_pair inX inY other))
    obtain ⟨survivor, stored'', -, losers, least⟩ :=
      planCluster_losers (List.ne_nil_of_mem inX) rfl made
    refine ⟨c, listed, ?_⟩
    rw [losers]
    refine List.mem_filter.2 ⟨inX, decide_eq_true fun even => ?_⟩
    rw [Table.eq_of_key stored stored'' even] at less
    exact absurd (least r' stored' inY) (not_le.2 less)

end Plan

end Enfold.Laws
