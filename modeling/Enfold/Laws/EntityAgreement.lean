/-
# Laws.EntityAgreement -- the entity list and the dossiers agree

Both projections scan the same active facts.  When nothing cuts them, the list has an item for every
name of a scanned fact (`mem_rankedEntities`), with the number of facts of that name, and a dossier
has exactly these facts (`dossier_complete`).
-/
import Enfold.Laws.EntityNames

namespace Enfold.Laws

open Enfold.Theory Enfold.Model

set_option autoImplicit false

/-! ## The entity list -/

/-- The items of the list before it is cut. -/
def rankedEntities (active : List FactRow) (minFacts : Int) : List EntityItem :=
  (((active.foldl tallyFact Table.empty).rows.map EntityTally.item).filter fun item =>
    minFacts ≤ item.factCount).insertionSort EntityItem.Before

theorem mem_rankedEntities {active : List FactRow} {minFacts : Int} {item : EntityItem} :
    item ∈ rankedEntities active minFacts ↔
      (∃ x ∈ active.foldl tallyFact Table.empty, x.item = item) ∧ minFacts ≤ item.factCount := by
  rw [rankedEntities, (List.perm_insertionSort _ _).mem_iff, List.mem_filter, decide_eq_true_iff,
    List.mem_map]
  rfl

theorem entities_eq_ok {s : Store} {scope : List String} {minFacts limit : Int} {listing : Entities} :
    entities s scope minFacts limit = .ok listing ↔
      ∃ scopes cap active, 1 ≤ minFacts ∧ projectionScopes scope = .ok scopes ∧
        projectionLimit limit = .ok cap ∧
        activeFacts s (some scopes) none projectionScanLimit = .ok active ∧
        listing = ⟨(bounded EntityItem.toJson (rankedEntities active minFacts) cap).1,
          decide (active.length = projectionScanLimit) ||
            (bounded EntityItem.toJson (rankedEntities active minFacts) cap).2⟩ := by
  constructor
  · intro done
    obtain ⟨positive, done⟩ := require_bind_eq_ok.1 done
    obtain ⟨scopes, cleaned, done⟩ := bind_eq_ok.1 done
    obtain ⟨active, scanned, done⟩ := bind_eq_ok.1 done
    obtain ⟨cap, limited, done⟩ := bind_eq_ok.1 done
    exact ⟨scopes, cap, active, positive, cleaned, limited, scanned, (pure_eq_ok.1 done).symm⟩
  · rintro ⟨scopes, cap, active, positive, cleaned, limited, scanned, rfl⟩
    rw [entities, require_of positive, ok_bind, cleaned, ok_bind, scanned, ok_bind, limited]
    rfl

/-- A list that is not truncated has every item. -/
theorem entities_complete {active : List FactRow} {minFacts : Int} {cap : Nat}
    (complete : (decide (active.length = projectionScanLimit) ||
      (bounded EntityItem.toJson (rankedEntities active minFacts) cap).2) = false) :
    active.length ≠ projectionScanLimit ∧
      (bounded EntityItem.toJson (rankedEntities active minFacts) cap).1 =
        rankedEntities active minFacts := by
  rw [Bool.or_eq_false_iff, decide_eq_false_iff_not] at complete
  exact ⟨complete.1, by rw [bounded_complete (bounded_complete_iff.1 complete.2)]⟩

/-! ## Dossiers -/

section Dossiers

variable {J : Type} [LinearOrder J] (julianday : String → Option J) (columns : FactColumns) (s : Store)
  (entity : String) (scopes : List String) (cap : Nat)

/-- The recent changes of an entity. -/
def recentEvents : List EventRow × Bool :=
  selectEvents columns (eventRows julianday s scopes none) (fun e => matchesEntity entity e.fact) cap

/-- A dossier before it is shortened. -/
def draftDossier (active : List FactRow) (recent : List EventRow) (recentTruncated : Bool) : Dossier where
  entity := entity
  currentFacts := (active.filter (matchesEntity entity)).take cap
  recentChanges := recent
  openConflicts := (scopes.flatMap (entityConflicts s entity)).take cap
  truncated := cap < (active.filter (matchesEntity entity)).length ||
    active.length = projectionScanLimit ||
    cap < (scopes.flatMap (entityConflicts s entity)).length || recentTruncated

variable {julianday columns s entity scopes cap}

theorem entityDossier_eq_ok {name : String} {scope : List String} {limit : Int} {d : Dossier} :
    entityDossier julianday columns s name scope limit = .ok d ↔
      ∃ scopes cap active, strip name ≠ "" ∧ name.length ≤ maxEntityChars ∧
        projectionScopes scope = .ok scopes ∧ projectionLimit limit = .ok cap ∧
        activeFacts s (some scopes) none projectionScanLimit = .ok active ∧
        d = Dossier.shrink columns (draftDossier s (strip name) scopes cap active
          (recentEvents julianday columns s (strip name) scopes cap).1
          (recentEvents julianday columns s (strip name) scopes cap).2) := by
  constructor
  · intro done
    obtain ⟨filled, done⟩ := require_bind_eq_ok.1 done
    obtain ⟨short, done⟩ := require_bind_eq_ok.1 done
    obtain ⟨scopes, cleaned, done⟩ := bind_eq_ok.1 done
    obtain ⟨cap, limited, done⟩ := bind_eq_ok.1 done
    obtain ⟨active, scanned, done⟩ := bind_eq_ok.1 done
    exact ⟨scopes, cap, active, filled, short, cleaned, limited, scanned, (pure_eq_ok.1 done).symm⟩
  · rintro ⟨scopes, cap, active, filled, short, cleaned, limited, scanned, rfl⟩
    rw [entityDossier, require_of filled, ok_bind, require_of short, ok_bind, cleaned, ok_bind,
      limited, ok_bind, scanned]
    rfl

/-- A dossier that is not truncated was not cut anywhere. -/
theorem dossier_complete {active : List FactRow} {recent : List EventRow} {recentTruncated : Bool}
    {d : Dossier} (made : d = Dossier.shrink columns
      (draftDossier s entity scopes cap active recent recentTruncated))
    (complete : d.truncated = false) :
    d.currentFacts = active.filter (matchesEntity entity) ∧ d.recentChanges = recent ∧
      d.openConflicts = scopes.flatMap (entityConflicts s entity) ∧
      active.length ≠ projectionScanLimit ∧ recentTruncated = false := by
  rw [made] at complete
  have whole := (shrink_spec _).2.2 complete
  rw [whole] at made complete
  subst made
  simp only [draftDossier, Bool.or_eq_false_iff, decide_eq_false_iff_not, Nat.not_lt] at complete
  obtain ⟨⟨⟨facts, scan⟩, conflicts⟩, unflagged⟩ := complete
  exact ⟨List.take_of_length_le facts, rfl, List.take_of_length_le conflicts, scan, unflagged⟩

/-- The facts of a dossier are facts of its draft. -/
theorem shrink_currentFacts (d : Dossier) :
    (Dossier.shrink columns d).currentFacts ⊆ d.currentFacts :=
  shrink_preserves (P := fun d' => d'.currentFacts ⊆ d.currentFacts) (fun _ same => same)
    (fun _ fewer => List.Subset.trans (List.dropLast_subset _) fewer) (fun _ same => same)
    (List.Subset.refl _)

end Dossiers

/-! ## Agreement -/

/-- A complete list counts for each name the current facts of its dossier, and has every name under
which a dossier returns a current fact. -/
theorem entities_agree_with_dossiers {J : Type} [LinearOrder J] {julianday : String → Option J}
    {columns : FactColumns} {s : Store} {scope : List String} {minFacts limit : Int}
    {listing : Entities} (listed : entities s scope minFacts limit = .ok listing)
    (complete : listing.truncated = false) :
    (∀ item ∈ listing.entities, item.name.length ≤ maxEntityChars → ∀ limit' cap',
      projectionLimit limit' = .ok cap' →
        ∃ d, entityDossier julianday columns s item.name scope limit' = .ok d ∧
          (d.truncated = false → d.currentFacts.Nodup ∧ d.currentFacts.length = item.factCount)) ∧
    (minFacts = 1 → ∀ name limit' d,
      entityDossier julianday columns s name scope limit' = .ok d → d.currentFacts ≠ [] →
        ∃ item ∈ listing.entities, casefold item.name = casefold (strip name)) := by
  obtain ⟨scopes, cap, active, -, cleaned, -, scanned, rfl⟩ := entities_eq_ok.1 listed
  obtain ⟨unscanned, whole⟩ := entities_complete complete
  dsimp only
  rw [whole]
  obtain ⟨active', scanned', distinct, -, -⟩ :=
    activeFacts_spec s (projectionScopes_required cleaned)
  cases scanned.symm.trans scanned'
  constructor
  · intro item mem short limit' cap' limited
    obtain ⟨⟨x, tallied, rfl⟩, -⟩ := mem_rankedEntities.1 mem
    obtain ⟨stripped, filled, key⟩ := (tallies_inv active).shown x tallied
    have name : x.item.name = x.display := rfl
    rw [name] at short ⊢
    refine ⟨_, entityDossier_eq_ok.2 ⟨scopes, cap', active, by rwa [stripped], short, cleaned, limited,
      scanned, rfl⟩, fun untruncated => ?_⟩
    obtain ⟨facts, -⟩ := dossier_complete rfl untruncated
    rw [facts, stripped]
    refine ⟨(List.Nodup.of_map _ distinct).filter _, ?_⟩
    exact tally_count distinct tallied _ fun f => by rw [matchesEntity_iff, key]
  · rintro rfl name limit' d done nonempty
    obtain ⟨scopes', cap', active', -, -, cleaned', -, scanned', rfl⟩ := entityDossier_eq_ok.1 done
    cases cleaned.symm.trans cleaned'
    cases scanned.symm.trans scanned'
    obtain ⟨f, shown⟩ := List.exists_mem_of_ne_nil _ nonempty
    obtain ⟨held, matched⟩ := List.mem_filter.1 (List.mem_of_mem_take (shrink_currentFacts _ shown))
    have named := matchesEntity_iff.1 matched
    obtain ⟨x, tallied, same⟩ := ((tallies_inv active).listed _).1 ⟨f.factId, f, held, rfl, named⟩
    have counted : f.factId ∈ x.factIds :=
      (((tallies_inv active).ids x tallied).2 _).2 ⟨f, held, rfl, same ▸ named⟩
    refine ⟨x.item, mem_rankedEntities.2 ⟨⟨x, tallied, rfl⟩, ?_⟩, ?_⟩
    · have positive := List.length_pos_of_mem counted
      show (1 : Int) ≤ (x.factIds.length : Int)
      omega
    · exact ((tallies_inv active).shown x tallied).2.2.trans same

/-! ## Three facts about one name -/

/-- A tag, the same name in other letters beside another tag, and a subject. -/
def spelledFacts : List FactRow :=
  [datedFact 1 "2026-01-01T12:00:00.000000+00:00",
    { datedFact 2 "2026-01-02T12:00:00.000000+00:00" with tags := "key, DOOR" },
    { datedFact 3 "2026-01-03T12:00:00.000000+00:00" with
      tags := "", memoryKind := some "state", subjectKey := some "Door"
      predicateKey := some "color", objectValue := some "red" }]

def spelledStore : Store :=
  { Store.empty with
    facts :=
      { table := ⟨spelledFacts, by decide⟩
        sequence := 3
        positive := (by decide : ∀ r ∈ spelledFacts, 0 < r.factId)
        bounded := (by decide : ∀ r ∈ spelledFacts, r.factId ≤ 3)
        slots := by decide
        links := by decide } }

/-- The list counts the name three times, and a dossier has the three facts under any spelling. -/
theorem sample_entities_agree :
    ∃ listing d d', entities spelledStore ["work"] 1 100 = .ok listing ∧
      (listing.entities.map fun item => (item.name, item.factCount)) = [("Door", 3), ("key", 1)] ∧
      entityDossier some noColumns spelledStore "Door" ["work"] 5 = .ok d ∧ d.truncated = false ∧
      d.currentFacts.Nodup ∧ d.currentFacts.length = 3 ∧
      entityDossier some noColumns spelledStore " DOOR " ["work"] 5 = .ok d' ∧
      ∃ item ∈ listing.entities, casefold item.name = casefold (strip " DOOR ") := by
  have evaluated : (entities spelledStore ["work"] 1 100).map (fun listing =>
      (listing.entities.map fun item => (item.name, item.factCount), listing.truncated)) =
        .ok ([("Door", 3), ("key", 1)], false) := by decide +kernel
  have whole : (entityDossier some noColumns spelledStore "Door" ["work"] 5).map Dossier.truncated =
      .ok false := by decide +kernel
  have respelled : (entityDossier some noColumns spelledStore " DOOR " ["work"] 5).map (fun d =>
      d.currentFacts.length) = .ok 3 := by decide +kernel
  obtain ⟨listing, done, shape⟩ := map_eq_ok.1 evaluated
  obtain ⟨shown, complete⟩ := Prod.mk.inj shape
  obtain ⟨agree, listed⟩ :=
    @entities_agree_with_dossiers String _ some noColumns _ _ _ _ _ done complete
  obtain ⟨item, mem, named⟩ :=
    List.mem_map.1 (show ("Door", 3) ∈ _ from shown ▸ List.mem_cons_self)
  obtain ⟨name, count⟩ := Prod.mk.inj named
  have limited : projectionLimit 5 = .ok 5 := by decide
  obtain ⟨d, made, same⟩ := agree item mem (by rw [name]; decide) 5 5 limited
  rw [name] at made
  rw [made] at whole
  obtain ⟨distinct, three⟩ := same (Except.ok.inj whole)
  obtain ⟨d', made', three'⟩ := map_eq_ok.1 respelled
  have shows : d'.currentFacts ≠ [] := by
    intro none
    rw [none] at three'
    cases three'
  exact ⟨listing, d, d', done, shown, made, Except.ok.inj whole, distinct, three.trans count, made',
    listed rfl _ _ _ made' shows⟩

end Enfold.Laws
