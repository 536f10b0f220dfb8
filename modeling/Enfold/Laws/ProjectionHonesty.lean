/-
# Laws.ProjectionHonesty -- projections are short, and complete unless they say otherwise

For each projection: its answer has at most `maxOutputChars` characters, and when it is not
marked as truncated it has everything of its kind that the store holds.
-/
import Enfold.Laws.EntityAgreement
import Enfold.Laws.OpenConflicts

namespace Enfold.Laws

open Enfold.Theory Enfold.Model

set_option autoImplicit false

section Projections

variable {J : Type} [LinearOrder J] {julianday : String → Option J} {columns : FactColumns} {s : Store}
  {scope scopes : List String} {limit : Int} {cap : Nat}

/-- A page whose items come from `bounded` is short. -/
theorem page_short {α : Type} {toJson : α → Json} {key : String} (label : key.length ≤ 8)
    (plain : jsonChars (.str key) = 2 + key.length) (items : List α) (flag : Bool) :
    jsonChars (.obj [(key, .arr ((bounded toJson items cap).1.map toJson)),
      ("truncated", .bool flag)]) ≤ maxOutputChars := by
  have within := @bounded_cost α toJson items cap
  have marked : flagChars flag ≤ 5 := by
    cases flag <;> decide
  rw [jsonChars_page, plain]
  unfold itemsCharBudget maxOutputChars at *
  omega

/-! ## Changes and timelines -/

/-- The changes of a window are short, and all of its settled events unless they are marked. -/
theorem changes_honest {a b : String} {result : Changes}
    (done : changes julianday columns s a b scope limit = .ok result) :
    jsonChars (result.toJson columns) ≤ maxOutputChars ∧
      ∃ scopes x y, projectionScopes scope = .ok scopes ∧ timestampText a "since" = .ok x ∧
        timestampText b "until" = .ok y ∧
        (result.truncated = false → ∀ e, SettledEvent s scopes e →
          inWindow julianday x y e = true → e ∈ result.changes) := by
  obtain ⟨x, y, scopes, cap, since, until', -, cleaned, -, rfl⟩ := changes_eq_ok.1 done
  refine ⟨page_short (by decide) (by rfl) _ _, scopes, x, y, cleaned, since, until',
    fun complete e settled inside => ?_⟩
  rw [windowChanges_complete complete]
  exact mem_windowEvents.2 ⟨settled, inside⟩

/-- Unless it is marked, a selection has every matching event. -/
theorem selectEvents_complete {scanned : List EventRow × Bool} {matching : EventRow → Bool}
    (complete : (selectEvents columns scanned matching cap).2 = false) :
    scanned.2 = false ∧
      (selectEvents columns scanned matching cap).1 = scanned.1.filter matching := by
  unfold selectEvents at complete ⊢
  dsimp only at complete ⊢
  rw [Bool.or_eq_false_iff, Bool.or_eq_false_iff, decide_eq_false_iff_not, Nat.not_lt] at complete
  obtain ⟨⟨scan, few⟩, short⟩ := complete
  refine ⟨scan, ?_⟩
  rw [bounded_complete (bounded_complete_iff.1 short), Nat.sub_eq_zero_of_le few, List.drop_zero]

theorem eventRows_complete (complete : (eventRows julianday s scopes none).2 = false) :
    (eventRows julianday s scopes none).1 = chronicle julianday s scopes := by
  rw [eventRows_eq, windowEvents_none] at complete ⊢
  have unscanned := of_decide_eq_false complete
  rw [Nat.sub_eq_zero_of_le (Nat.le_of_lt (Nat.not_le.1 unscanned)), List.drop_zero]

theorem mem_selectEvents {matching : EventRow → Bool}
    (complete : (selectEvents columns (eventRows julianday s scopes none) matching cap).2 = false)
    {e : EventRow} (settled : SettledEvent s scopes e) (matched : matching e = true) :
    e ∈ (selectEvents columns (eventRows julianday s scopes none) matching cap).1 := by
  obtain ⟨scan, selected⟩ := selectEvents_complete complete
  rw [selected, eventRows_complete scan]
  exact List.mem_filter.2 ⟨mem_chronicle.2 settled, matched⟩

theorem timeline_eq_ok {query : String} {result : Timeline} :
    timeline julianday columns s query scope limit = .ok result ↔
      ∃ scopes cap, strip query ≠ "" ∧ query.length ≤ maxQueryChars ∧
        projectionLimit limit = .ok cap ∧ projectionScopes scope = .ok scopes ∧
        result = ⟨(selectEvents columns (eventRows julianday s scopes none)
            (inTimeline (casefold (strip query))) cap).1,
          (selectEvents columns (eventRows julianday s scopes none)
            (inTimeline (casefold (strip query))) cap).2⟩ := by
  constructor
  · intro done
    obtain ⟨filled, done⟩ := require_bind_eq_ok.1 done
    obtain ⟨short, done⟩ := require_bind_eq_ok.1 done
    obtain ⟨cap, limited, done⟩ := bind_eq_ok.1 done
    obtain ⟨scopes, cleaned, done⟩ := bind_eq_ok.1 done
    exact ⟨scopes, cap, filled, short, limited, cleaned, (pure_eq_ok.1 done).symm⟩
  · rintro ⟨scopes, cap, filled, short, limited, cleaned, rfl⟩
    rw [timeline, require_of filled, ok_bind, require_of short, ok_bind, limited, ok_bind, cleaned]
    rfl

/-- A timeline is short, and has every settled event whose text contains the query unless it is
marked. -/
theorem timeline_honest {query : String} {result : Timeline}
    (done : timeline julianday columns s query scope limit = .ok result) :
    jsonChars (result.toJson columns) ≤ maxOutputChars ∧
      ∃ scopes, projectionScopes scope = .ok scopes ∧
        (result.truncated = false → ∀ e, SettledEvent s scopes e →
          occursIn (casefold (strip query)) (timelineText e.fact) → e ∈ result.events) := by
  obtain ⟨scopes, cap, -, -, -, cleaned, rfl⟩ := timeline_eq_ok.1 done
  refine ⟨page_short (by decide) (by rfl) _ _, scopes, cleaned,
    fun complete e settled found => ?_⟩
  exact mem_selectEvents complete settled (decide_eq_true found)

/-! ## Entities -/

/-- The active facts of the scopes that have a name. -/
def factsNamed (s : Store) (scopes : List String) (key : String) : List FactRow :=
  s.facts.table.select fun f =>
    (f.Active ∧ f.scope ∈ scopes) ∧ key ∈ (entityNames f).rows.map Prod.fst

theorem mem_factsNamed {key : String} {f : FactRow} :
    f ∈ factsNamed s scopes key ↔ ActiveIn s scopes f ∧ NamedBy f key := by
  rw [factsNamed, Table.mem_select, mem_keys_entityNames, ← and_assoc]
  exact Iff.rfl

/-- The list of entities is short, and has every entity with enough active facts, with their exact
number, unless it is marked: the scan has the facts of a name, each once. -/
theorem entities_honest {minFacts : Int} {result : Entities}
    (done : entities s scope minFacts limit = .ok result) :
    jsonChars result.toJson ≤ maxOutputChars ∧
      ∃ scopes, projectionScopes scope = .ok scopes ∧
        (result.truncated = false → ∀ key, minFacts ≤ (factsNamed s scopes key).length →
          ∃ item ∈ result.entities, casefold item.name = key ∧
            item.factCount = (factsNamed s scopes key).length) := by
  obtain ⟨scopes, cap, active, positive, cleaned, -, scanned, rfl⟩ := entities_eq_ok.1 done
  refine ⟨page_short (by decide) (by rfl) _ _, scopes, cleaned,
    fun complete key enough => ?_⟩
  obtain ⟨unscanned, whole⟩ := entities_complete complete
  dsimp only
  rw [whole]
  obtain ⟨active', scanned', distinct, sound, all⟩ :=
    activeFacts_spec s (projectionScopes_required cleaned)
  cases scanned.symm.trans scanned'
  have held : ∀ f, f ∈ factsNamed s scopes key ↔ f ∈ active ∧ NamedBy f key := fun f => by
    rw [mem_factsNamed]
    exact and_congr_left fun _ => ⟨all unscanned f, sound f⟩
  have filled : 0 < (factsNamed s scopes key).length := by omega
  obtain ⟨f, mem⟩ := List.exists_mem_of_length_pos filled
  obtain ⟨inActive, named⟩ := (held f).1 mem
  obtain ⟨x, tallied, rfl⟩ := ((tallies_inv active).listed key).1 ⟨f.factId, f, inActive, rfl, named⟩
  let p : FactRow → Bool := fun f => x.key ∈ (entityNames f).rows.map Prod.fst
  have p_iff : ∀ f, p f = true ↔ NamedBy f x.key := fun f =>
    decide_eq_true_iff.trans mem_keys_entityNames
  have perm : (active.filter p).Perm (factsNamed s scopes x.key) := by
    refine (List.perm_ext_iff_of_nodup ((List.Nodup.of_map _ distinct).filter _)
      (Table.nodup_select _ _)).2 fun g => ?_
    rw [List.mem_filter, p_iff]
    exact (held g).symm
  have count : x.item.factCount = (factsNamed s scopes x.key).length :=
    (tally_count distinct tallied p p_iff).symm.trans perm.length_eq
  refine ⟨x.item, mem_rankedEntities.2 ⟨⟨x, tallied, rfl⟩, ?_⟩,
    ((tallies_inv active).shown x tallied).2.2, count⟩
  rwa [count]

/-! ## Dossiers -/

/-- An open conflict of the scopes concerns the name: it is about the subject of this name, or one
of its members in its scope has it. -/
def Concerns (s : Store) (scopes : List String) (key : String) (c : ConflictRow) : Prop :=
  (c ∈ s.conflicts ∧ c.Unresolved ∧ c.scope ∈ scopes) ∧
    (casefold c.subjectKey = key ∨ ∃ f ∈ s.facts, f.scope = c.scope ∧
      ⟨c.conflictId, f.factId⟩ ∈ s.conflictMembers ∧ NamedBy f key)

theorem mem_historicalFactsById {ids : List Nat} {one : String} {f : FactRow} :
    f ∈ historicalFactsById s ids one ↔ f ∈ s.facts ∧ f.factId ∈ ids ∧ f.scope = one := by
  rw [historicalFactsById, mem_orderById, Table.mem_select]
  exact Iff.rfl

/-- Where open conflicts have members, a dossier looks at all that concern its entity. -/
theorem mem_entityConflicts (membered : OpenMembered s) {entity : String} {c : ConflictRow}
    (concerns : Concerns s scopes (casefold entity) c) :
    ∃ d ∈ entityConflicts s entity c.scope, d.conflict.conflictId = c.conflictId := by
  obtain ⟨⟨held, unresolved, -⟩, matched⟩ := concerns
  obtain ⟨id, member⟩ := membered c held unresolved
  have nonempty : conflictMemberIds s c.conflictId ≠ [] :=
    List.ne_nil_of_mem (mem_conflictMemberIds.2 member)
  let record : ConflictRecord := ⟨c.conflictId, c.scope, c.subjectKey, c.predicateKey,
    conflictMemberIds s c.conflictId, c.detectedAt⟩
  have listed : record ∈ listStateConflicts s c.scope := by
    refine List.mem_filterMap.2 ⟨c, ?_, if_neg nonempty⟩
    exact (List.perm_insertionSort _ _).mem_iff.2 (Table.mem_select.2 ⟨held, rfl, unresolved⟩)
  refine ⟨⟨record, historicalFactsById s record.memberFactIds c.scope⟩,
    List.mem_filter.2 ⟨List.mem_map.2 ⟨record, listed, rfl⟩, ?_⟩, rfl⟩
  rw [Bool.or_eq_true, decide_eq_true_iff]
  refine matched.imp_right fun ⟨f, inFacts, sameScope, ofConflict, named⟩ => ?_
  exact List.any_eq_true.2 ⟨f, mem_historicalFactsById.2
    ⟨inFacts, mem_conflictMemberIds.2 ofConflict, sameScope⟩, matchesEntity_iff.2 named⟩

theorem length_strip_le (text : String) : (strip text).length ≤ text.length := by
  rw [strip, String.length_ofList, ← String.length_toList, stripChars]
  exact Nat.le_trans (List.rdropWhile_prefix _ _).length_le (List.dropWhile_suffix _).length_le

/-- A dossier is short, and has every active fact, every settled event and every open conflict of
its entity unless it is marked. -/
theorem dossier_honest (membered : OpenMembered s) {name : String} {result : Dossier}
    (done : entityDossier julianday columns s name scope limit = .ok result) :
    jsonChars (result.toJson columns) ≤ maxOutputChars ∧
      ∃ scopes, projectionScopes scope = .ok scopes ∧
        (result.truncated = false →
          (∀ f, ActiveIn s scopes f → NamedBy f (casefold (strip name)) → f ∈ result.currentFacts) ∧
          (∀ e, SettledEvent s scopes e → NamedBy e.fact (casefold (strip name)) →
            e ∈ result.recentChanges) ∧
          ∀ c, Concerns s scopes (casefold (strip name)) c →
            ∃ d ∈ result.openConflicts, d.conflict.conflictId = c.conflictId) := by
  obtain ⟨scopes, cap, active, -, short, cleaned, -, scanned, made⟩ := entityDossier_eq_ok.1 done
  obtain ⟨active', scanned', -, -, all⟩ := activeFacts_spec s (projectionScopes_required cleaned)
  cases scanned.symm.trans scanned'
  refine ⟨?_, scopes, cleaned, fun complete => ?_⟩
  · obtain ⟨entity, fits | ⟨facts, events, conflicts⟩, -⟩ := @shrink_spec columns
      (draftDossier s (strip name) scopes cap active
        (recentEvents julianday columns s (strip name) scopes cap).1
        (recentEvents julianday columns s (strip name) scopes cap).2)
    · rwa [made]
    · rw [made]
      refine bare_dossier_short ?_ facts events conflicts
      rw [entity]
      exact Nat.le_trans (length_strip_le name) short
  · obtain ⟨facts, events, conflicts, unscanned, recent⟩ := dossier_complete made complete
    rw [facts, events, conflicts]
    refine ⟨fun f inScopes named => ?_, fun e settled named => ?_, fun c concerns => ?_⟩
    · exact List.mem_filter.2 ⟨all unscanned f inScopes, matchesEntity_iff.2 named⟩
    · exact mem_selectEvents recent settled (matchesEntity_iff.2 named)
    · obtain ⟨d, mem, same⟩ := mem_entityConflicts membered concerns
      exact ⟨d, List.mem_flatMap.2 ⟨c.scope, concerns.1.2.2, mem⟩, same⟩

/-! ## The four projections -/

end Projections

end Enfold.Laws
