/-
# Laws.EntityNames -- the names of a fact, looked up and counted

A fact is named by its subject and by each of its tags, up to case and surrounding spaces
(`NamedBy`).  `matchesEntity` looks a name up in a dictionary of these (`matchesEntity_iff`), and
`entities` counts facts by them (`TallyInv`); the two dictionaries are built apart, and both have the
names of the fact as keys.
-/
import Enfold.Laws.ProjectionSizes

namespace Enfold.Laws

open Enfold.Theory Enfold.Model

set_option autoImplicit false

/-- The raw name counts under this key. -/
def NameKey (raw key : String) : Prop := strip raw ≠ "" ∧ casefold (strip raw) = key

/-- The key is a name of the fact. -/
def NamedBy (f : FactRow) (key : String) : Prop := ∃ named ∈ rawNames f, NameKey named.2 key

/-! ## Looking names up -/

theorem mem_keys_addName {names : Names} {raw key : String} :
    key ∈ (addName names raw).rows.map Prod.fst ↔ key ∈ names.rows.map Prod.fst ∨ NameKey raw key := by
  unfold addName NameKey
  split
  · rename_i blank
    simp [blank]
  · rename_i filled
    cases inserted : names.insert? (casefold (strip raw), strip raw) with
    | some names' =>
        rw [Option.getD_some, Table.rows_of_insert? inserted, List.map_append, List.mem_append,
          List.map_singleton, List.mem_singleton, and_iff_right filled, eq_comm]
    | none =>
        have taken : casefold (strip raw) ∈ names.rows.map Prod.fst := by
          unfold Table.insert? at inserted
          split at inserted
          · cases inserted
          · rename_i taken
            exact not_not.1 taken
        rw [Option.getD_none]
        refine ⟨.inl, ?_⟩
        rintro (mem | ⟨-, rfl⟩)
        · exact mem
        · exact taken

theorem mem_keys_addNames {raws : List String} {names : Names} {key : String} :
    key ∈ (raws.foldl addName names).rows.map Prod.fst ↔
      key ∈ names.rows.map Prod.fst ∨ ∃ raw ∈ raws, NameKey raw key := by
  induction raws generalizing names with
  | nil => simp
  | cons raw raws ih =>
      rw [List.foldl_cons, ih, mem_keys_addName, or_assoc]
      simp only [List.mem_cons, exists_eq_or_imp]

theorem mem_keys_entityNames {f : FactRow} {key : String} :
    key ∈ (entityNames f).rows.map Prod.fst ↔ NamedBy f key := by
  rw [entityNames, mem_keys_addNames]
  constructor
  · rintro (none | ⟨raw, mem, named⟩)
    · cases none
    · obtain ⟨pair, place, rfl⟩ := List.mem_map.1 mem
      exact ⟨pair, place, named⟩
  · rintro ⟨pair, mem, named⟩
    exact .inr ⟨pair.2, List.mem_map_of_mem mem, named⟩

theorem matchesEntity_iff {name : String} {f : FactRow} :
    matchesEntity name f = true ↔ NamedBy f (casefold name) := by
  rw [matchesEntity, decide_eq_true_iff, mem_keys_entityNames]

/-! ## Counting names -/

/-- What a tally says of the facts that were counted. -/
structure TallyInv (counted : Nat → String → Prop) (tallies : Tallies) : Prop where
  listed : ∀ key, (∃ id, counted id key) ↔ ∃ x ∈ tallies, x.key = key
  shown : ∀ x ∈ tallies, strip x.display = x.display ∧ x.display ≠ "" ∧ casefold x.display = x.key
  ids : ∀ x ∈ tallies, x.factIds.Nodup ∧ ∀ id, id ∈ x.factIds ↔ counted id x.key

theorem TallyInv.congr {counted counted' : Nat → String → Prop} {tallies : Tallies}
    (inv : TallyInv counted tallies) (same : ∀ id key, counted id key ↔ counted' id key) :
    TallyInv counted' tallies := by
  have equal : counted = counted' := funext fun id => funext fun key => propext (same id key)
  exact equal ▸ inv

/-- A name adds the fact to the row of its key, and the rows of other keys count what they counted. -/
theorem tallyName_inv {counted : Nat → String → Prop} {tallies : Tallies} {factId : Nat}
    {named : String × String} (inv : TallyInv counted tallies) :
    TallyInv (fun id key => counted id key ∨ id = factId ∧ NameKey named.2 key)
      (tallyName factId tallies named) := by
  obtain ⟨source, raw⟩ := named
  unfold tallyName
  dsimp only
  split
  · rename_i blank
    exact inv.congr fun id key => by simp [NameKey, blank]
  rename_i filled
  have nameKey : ∀ key, NameKey raw key ↔ casefold (strip raw) = key := fun key =>
    and_iff_right filled
  simp only [nameKey]
  have others : ∀ x ∈ tallies, x.key ≠ casefold (strip raw) → ∀ id,
      id ∈ x.factIds ↔ counted id x.key ∨ id = factId ∧ casefold (strip raw) = x.key := by
    intro x mem other id
    rw [(inv.ids x mem).2 id]
    exact ⟨.inl, fun here => here.resolve_right fun both => other both.2.symm⟩
  cases found : tallies.get? (casefold (strip raw)) with
  | none =>
      have fresh := Table.get?_eq_none.1 found
      have unseen : ∀ id, ¬ counted id (casefold (strip raw)) := fun id seen => by
        obtain ⟨x, mem, same⟩ := (inv.listed _).1 ⟨id, seen⟩
        exact fresh x mem same
      dsimp only
      refine ⟨fun key => ?_, fun x mem => ?_, fun x mem => ?_⟩
      · constructor
        · rintro ⟨id, seen | ⟨rfl, rfl⟩⟩
          · obtain ⟨x, mem, rfl⟩ := (inv.listed key).1 ⟨id, seen⟩
            exact ⟨x, Table.mem_replace.2 (.inl ⟨mem, fresh x mem⟩), rfl⟩
          · exact ⟨_, Table.mem_replace.2 (.inr rfl), rfl⟩
        · rintro ⟨x, mem, rfl⟩
          rcases Table.mem_replace.1 mem with ⟨mem, -⟩ | rfl
          · obtain ⟨id, seen⟩ := (inv.listed x.key).2 ⟨x, mem, rfl⟩
            exact ⟨id, .inl seen⟩
          · exact ⟨factId, .inr ⟨rfl, rfl⟩⟩
      · rcases Table.mem_replace.1 mem with ⟨mem, -⟩ | rfl
        · exact inv.shown x mem
        · exact ⟨strip_strip raw, filled, rfl⟩
      · rcases Table.mem_replace.1 mem with ⟨mem, other⟩ | rfl
        · exact ⟨(inv.ids x mem).1, others x mem other⟩
        · refine ⟨List.nodup_singleton _, fun id => ?_⟩
          simp [unseen]
  | some x =>
      obtain ⟨mem, same⟩ := Table.get?_eq_some.1 found
      dsimp only
      refine ⟨fun key => ?_, fun y mem' => ?_, fun y mem' => ?_⟩
      · constructor
        · rintro ⟨id, seen | ⟨rfl, rfl⟩⟩
          · obtain ⟨y, mem', rfl⟩ := (inv.listed key).1 ⟨id, seen⟩
            by_cases here : y.key = x.key
            · exact ⟨_, Table.mem_replace.2 (.inr rfl), here.symm⟩
            · exact ⟨y, Table.mem_replace.2 (.inl ⟨mem', here⟩), rfl⟩
          · exact ⟨_, Table.mem_replace.2 (.inr rfl), same⟩
        · rintro ⟨y, mem', rfl⟩
          rcases Table.mem_replace.1 mem' with ⟨mem', -⟩ | rfl
          · obtain ⟨id, seen⟩ := (inv.listed y.key).2 ⟨y, mem', rfl⟩
            exact ⟨id, .inl seen⟩
          · exact ⟨factId, .inr ⟨rfl, same.symm⟩⟩
      · rcases Table.mem_replace.1 mem' with ⟨mem', -⟩ | rfl
        · exact inv.shown y mem'
        · exact inv.shown x mem
      · rcases Table.mem_replace.1 mem' with ⟨mem', other⟩ | rfl
        · exact ⟨(inv.ids y mem').1, others y mem' (same ▸ other)⟩
        · refine ⟨(inv.ids x mem).1.insert, fun id => ?_⟩
          dsimp only
          rw [List.mem_insert_iff, (inv.ids x mem).2 id, same, or_comm]
          simp

theorem tallyNames_inv {counted : Nat → String → Prop} {tallies : Tallies} {factId : Nat}
    (names : List (String × String)) (inv : TallyInv counted tallies) :
    TallyInv (fun id key => counted id key ∨ id = factId ∧ ∃ named ∈ names, NameKey named.2 key)
      (names.foldl (tallyName factId) tallies) := by
  induction names generalizing counted tallies with
  | nil => exact inv.congr fun id key => by simp
  | cons named names ih =>
      refine (ih (tallyName_inv inv)).congr fun id key => ?_
      simp only [List.mem_cons, exists_eq_or_imp]
      rw [or_assoc, ← and_or_left]

theorem tallyFacts_inv {counted : Nat → String → Prop} {tallies : Tallies} (facts : List FactRow)
    (inv : TallyInv counted tallies) :
    TallyInv (fun id key => counted id key ∨ ∃ f ∈ facts, f.factId = id ∧ NamedBy f key)
      (facts.foldl tallyFact tallies) := by
  induction facts generalizing counted tallies with
  | nil => exact inv.congr fun id key => by simp
  | cons f facts ih =>
      refine (ih (tallyNames_inv (rawNames f) inv)).congr fun id key => ?_
      simp only [List.mem_cons, exists_eq_or_imp]
      rw [or_assoc]
      exact or_congr_right (or_congr_left (and_congr_left fun _ => eq_comm))

/-- The tallies of all facts count, under each name, the facts that have it. -/
theorem tallies_inv (facts : List FactRow) :
    TallyInv (fun id key => ∃ f ∈ facts, f.factId = id ∧ NamedBy f key)
      (facts.foldl tallyFact Table.empty) := by
  have start : TallyInv (fun _ _ => False) Table.empty :=
    { listed := fun key => by simp
      shown := fun x mem => absurd mem (Table.not_mem_empty x)
      ids := fun x mem => absurd mem (Table.not_mem_empty x) }
  exact (tallyFacts_inv facts start).congr fun id key => by rw [false_or]

/-- Facts with distinct ids are as many as the ids under their name. -/
theorem tally_count {facts : List FactRow} (distinct : (facts.map FactRow.factId).Nodup)
    {x : EntityTally} (mem : x ∈ facts.foldl tallyFact Table.empty) (p : FactRow → Bool)
    (named : ∀ f, p f = true ↔ NamedBy f x.key) : (facts.filter p).length = x.factIds.length := by
  obtain ⟨nodup, ids⟩ := (tallies_inv facts).ids x mem
  rw [← List.length_map FactRow.factId]
  refine List.Perm.length_eq ((List.perm_ext_iff_of_nodup ?_ nodup).2 fun id => ?_)
  · exact distinct.sublist (List.filter_sublist.map FactRow.factId)
  · rw [ids id, List.mem_map]
    constructor
    · rintro ⟨f, place, rfl⟩
      obtain ⟨held, here⟩ := List.mem_filter.1 place
      exact ⟨f, held, rfl, (named f).1 here⟩
    · rintro ⟨f, held, rfl, here⟩
      exact ⟨f, List.mem_filter.2 ⟨held, (named f).2 here⟩, rfl⟩

/-! ## Active facts of the scopes -/

theorem projectionScopes_required {scope scopes : List String}
    (cleaned : projectionScopes scope = .ok scopes) : ∀ value ∈ scopes, Required value := by
  obtain ⟨-, cleaned⟩ := require_bind_eq_ok.1 cleaned
  cases pure_eq_ok.1 cleaned
  intro value mem
  obtain ⟨raw, place, rfl⟩ := List.mem_map.1 (List.mem_eraseDups.1 mem)
  exact required_strip (of_decide_eq_true (List.mem_filter.1 place).2)

theorem scopePredicate_of {scopes : List String} (valid : ∀ value ∈ scopes, Required value) :
    scopePredicate (some scopes) = .ok (some scopes.dedup) := by
  have passed : scopes.mapM (fun scope => do return (← required scope "scope").1) =
      (.ok scopes : Py (List String)) := by
    refine mapM_eq_ok.2 (List.forall₂_same.2 fun value mem => ?_)
    rw [required_of (valid value mem)]
    rfl
  rw [scopePredicate, passed]
  rfl

/-- A current fact of the scopes, outside every conflict. -/
def ActiveIn (s : Store) (scopes : List String) (f : FactRow) : Prop :=
  f ∈ s.facts ∧ f.Active ∧ f.scope ∈ scopes

/-- The scan of the facts is over distinct active facts, and over all of them unless it reaches its
limit. -/
theorem activeFacts_spec (s : Store) {scopes : List String}
    (valid : ∀ value ∈ scopes, Required value) :
    ∃ active, activeFacts s (some scopes) none projectionScanLimit = .ok active ∧
      (active.map FactRow.factId).Nodup ∧ (∀ f ∈ active, ActiveIn s scopes f) ∧
      (active.length ≠ projectionScanLimit → ∀ f, ActiveIn s scopes f → f ∈ active) := by
  have some' : ¬ projectionScanLimit < 1 := by
    unfold projectionScanLimit
    decide
  have returned : activeFacts s (some scopes) none projectionScanLimit =
      .ok (((s.facts.table.select fun r => r.Eligible (some scopes.dedup) none).insertionSort
        fun r r' => r'.factId ≤ r.factId).take projectionScanLimit) := by
    rw [activeFacts, if_neg some', scopePredicate_of valid]
    rfl
  have eligible : ∀ f, f ∈ s.facts.table.select (fun r => r.Eligible (some scopes.dedup) none) ↔
      ActiveIn s scopes f := by
    intro f
    rw [Table.mem_select]
    simp [FactRow.Eligible, ActiveIn, Facts.mem_table]
  have ids : ((s.facts.table.select fun r => r.Eligible (some scopes.dedup) none).map
      FactRow.factId).Nodup := s.facts.table.nodup.sublist (List.filter_sublist.map _)
  have perm := List.perm_insertionSort (fun r r' : FactRow => r'.factId ≤ r.factId)
    (s.facts.table.select fun r => r.Eligible (some scopes.dedup) none)
  generalize (s.facts.table.select fun r => r.Eligible (some scopes.dedup) none).insertionSort
    (fun r r' => r'.factId ≤ r.factId) = sorted at returned perm
  refine ⟨_, returned, ?_, fun f mem => ?_, fun short f active => ?_⟩
  · exact ((perm.map FactRow.factId).nodup_iff.2 ids).sublist ((List.take_sublist _ _).map _)
  · exact (eligible f).1 (perm.mem_iff.1 (List.mem_of_mem_take mem))
  · rw [List.length_take] at short
    rw [List.take_of_length_le (by omega)]
    exact perm.mem_iff.2 ((eligible f).2 active)

end Enfold.Laws
