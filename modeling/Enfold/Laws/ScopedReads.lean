/-
# Laws.ScopedReads -- reading a store that agrees on the scopes of a connection

Two stores agree on a set of scopes when they hold the same facts, observations and conflicts of
those scopes, with their links and members (`AgreesOn`).  Every list a read route looks at is a
query over such rows, so both stores give it alike.  Two of them follow edges that no scope bounds:
the chain of a fact, and the fact that a resolution chose.  In a reachable store these edges stay in
their scope (`Sealed`), so the routes answer alike there as well (`reads_do_not_interfere`).
-/
import Enfold.Laws.ConflictScopes
import Enfold.Laws.EntityNames
import Enfold.Laws.EnvelopeRoundTrip
import Enfold.Laws.EventLists
import Enfold.Laws.FactHistory
import Enfold.Laws.Snapshot
import Enfold.Model.ReadEndpoints
import Enfold.Theory.TwoRuns

namespace Enfold.Laws

open Enfold.Theory Enfold.Model
open Relation (ReflTransGen)

set_option autoImplicit false

/-! ## Agreement -/

/-- A conflict that can be seen from the scopes owns the member. -/
def MemberVisible (scopes : List String) (s : Store) (m : MemberRow) : Prop :=
  ∃ c ∈ s.conflicts, c.conflictId = m.conflictId ∧ c.scope ∈ scopes

/-- The stores hold the same rows of the scopes. -/
structure AgreesOn (scopes : List String) (s t : Store) : Prop where
  facts : SameOn (fun r => r.scope ∈ scopes) s.facts.table t.facts.table
  observations : SameOn (fun o => o.scope ∈ scopes) s.observations t.observations
  provenance : SameOn (ProvenanceRow.Visible s scopes) s.provenance t.provenance
  conflicts : SameOn (fun c => c.scope ∈ scopes) s.conflicts t.conflicts
  members : SameOn (MemberVisible scopes s) s.conflictMembers t.conflictMembers

/-- What a store does not promise by itself: the edges that a read follows without looking at
scopes stay in one. -/
structure Sealed (s : Store) : Prop where
  supersessions : ∀ r ∈ s.facts, ∀ k ∈ r.supersededBy, ∃ r' ∈ s.facts, r'.factId = k ∧
    r'.scope = r.scope
  resolutions : ∀ c ∈ s.conflicts, ∀ k ∈ c.resolutionFactId, ∃ r ∈ s.facts, r.factId = k ∧
    r.scope = c.scope

section Agreement

variable {scopes scopes' : List String} {s t : Store}

theorem visible_iff (observations : SameOn (fun o => o.scope ∈ scopes) s.observations t.observations)
    (p : ProvenanceRow) : p.Visible s scopes ↔ p.Visible t scopes := by
  constructor
  · rintro ⟨o, found, inside⟩
    exact ⟨o, observations.get?_of found inside, inside⟩
  · rintro ⟨o, found, inside⟩
    exact ⟨o, observations.symm.get?_of found inside, inside⟩

theorem memberVisible_iff (conflicts : SameOn (fun c => c.scope ∈ scopes) s.conflicts t.conflicts)
    (m : MemberRow) : MemberVisible scopes s m ↔ MemberVisible scopes t m := by
  constructor
  · rintro ⟨c, mem, here, inside⟩
    exact ⟨c, (conflicts c inside).1 mem, here, inside⟩
  · rintro ⟨c, mem, here, inside⟩
    exact ⟨c, (conflicts c inside).2 mem, here, inside⟩

theorem AgreesOn.symm (agrees : AgreesOn scopes s t) : AgreesOn scopes t s where
  facts := agrees.facts.symm
  observations := agrees.observations.symm
  provenance := fun p seen => (agrees.provenance p ((visible_iff agrees.observations p).2 seen)).symm
  conflicts := agrees.conflicts.symm
  members := fun m seen => (agrees.members m ((memberVisible_iff agrees.conflicts m).2 seen)).symm

theorem AgreesOn.trans {u : Store} (agrees : AgreesOn scopes s t) (agrees' : AgreesOn scopes t u) :
    AgreesOn scopes s u where
  facts := agrees.facts.trans agrees'.facts
  observations := agrees.observations.trans agrees'.observations
  provenance := fun p seen => (agrees.provenance p seen).trans
    (agrees'.provenance p ((visible_iff agrees.observations p).1 seen))
  conflicts := agrees.conflicts.trans agrees'.conflicts
  members := fun m seen => (agrees.members m seen).trans
    (agrees'.members m ((memberVisible_iff agrees.conflicts m).1 seen))

/-- Stores that agree on scopes agree on some of them. -/
theorem AgreesOn.mono (agrees : AgreesOn scopes s t) (fewer : ∀ scope ∈ scopes', scope ∈ scopes) :
    AgreesOn scopes' s t where
  facts := fun r inside => agrees.facts r (fewer _ inside)
  observations := fun o inside => agrees.observations o (fewer _ inside)
  provenance := by
    rintro p ⟨o, found, inside⟩
    exact agrees.provenance p ⟨o, found, fewer _ inside⟩
  conflicts := fun c inside => agrees.conflicts c (fewer _ inside)
  members := by
    rintro m ⟨c, mem, here, inside⟩
    exact agrees.members m ⟨c, mem, here, fewer _ inside⟩

/-! ## Facts and observations -/

theorem AgreesOn.historicalFact_eq (agrees : AgreesOn scopes s t) (factId : Nat) :
    historicalFact s factId scopes = historicalFact t factId scopes := by
  unfold historicalFact
  refine bind_congr_ok fun id _ => ?_
  exact congrArg pure (SameOn.get?_filter agrees.facts id)

theorem AgreesOn.slotHistory_eq (agrees : AgreesOn scopes s t) (subject predicate : String)
    (limit : Nat) : slotHistory s scopes subject predicate limit =
      slotHistory t scopes subject predicate limit := by
  unfold slotHistory
  rw [SameOn.ordered_select_eq agrees.facts (fun r _ inside => inside.1) (fun r _ inside => inside.1)]
  intro a mem _ b mem' _ first second
  have same := le_antisymm (slotOrder_iff.1 first) (slotOrder_iff.1 second)
  exact Table.eq_of_key mem mem' (congrArg (fun key => (ofLex key).2) same)

/-- The scan of the active facts. -/
theorem activeFacts_congr {category : Option String} (valid : ∀ value ∈ scopes, Required value)
    (same : SameOn (fun r => r.Active ∧ r.scope ∈ scopes) s.facts.table t.facts.table) (limit : Nat) :
    activeFacts s (some scopes) category limit = activeFacts t (some scopes) category limit := by
  have inside : ∀ r : FactRow, r.Eligible (some scopes.dedup) category →
      r.Active ∧ r.scope ∈ scopes :=
    fun r eligible => ⟨eligible.1, List.mem_dedup.1 (eligible.2.1 _ rfl)⟩
  have : Std.Total fun r r' : FactRow => r'.factId ≤ r.factId := ⟨fun r r' => Nat.le_total _ _⟩
  have : IsTrans FactRow fun r r' => r'.factId ≤ r.factId :=
    ⟨fun _ _ _ first second => Nat.le_trans second first⟩
  unfold activeFacts
  rw [scopePredicate_of valid]
  simp only [ok_bind]
  rw [SameOn.sorted_select_eq same (fun r _ => inside r) (fun r _ => inside r)
    fun r mem r' mem' first second => Table.eq_of_key mem mem' (Nat.le_antisymm second first)]

theorem AgreesOn.activeFacts_eq (agrees : AgreesOn scopes s t)
    (valid : ∀ value ∈ scopes, Required value) (limit : Nat) :
    activeFacts s (some scopes) none limit = activeFacts t (some scopes) none limit :=
  activeFacts_congr valid (fun r holds => agrees.facts r holds.2) limit

theorem evidence_total : Std.Total evidenceOrder := ⟨fun _ _ => le_total _ _⟩

theorem evidence_trans : IsTrans ProvenanceRow evidenceOrder := ⟨fun _ _ _ => le_trans⟩

theorem AgreesOn.evidenceRows_eq (agrees : AgreesOn scopes s t) (factId limit : Nat) :
    evidenceRows s factId scopes limit = evidenceRows t factId scopes limit := by
  have := evidence_total
  have := evidence_trans
  have links : (s.provenance.select fun p => p.factId = factId ∧ p.Visible s scopes).insertionSort
      evidenceOrder =
      (t.provenance.select fun p => p.factId = factId ∧ p.Visible t scopes).insertionSort
        evidenceOrder := by
    have alike : (t.provenance.select fun p => p.factId = factId ∧ p.Visible t scopes) =
        t.provenance.select fun p => p.factId = factId ∧ p.Visible s scopes :=
      List.filter_congr fun p _ => decide_eq_decide.2
        (and_congr_right fun _ => (visible_iff agrees.observations p).symm)
    rw [alike]
    refine agrees.provenance.ordered_select_eq (fun p _ holds => holds.2) (fun p _ holds => holds.2)
      fun p mem holds p' mem' holds' first second => ?_
    have same := le_antisymm first second
    have parts := congrArg (fun key => ofLex (ofLex key).2) same
    refine Table.eq_of_key mem mem' ?_
    rw [holds.1, holds'.1]
    exact congrArg (Prod.mk factId) parts
  unfold evidenceRows
  rw [links]
  refine List.filterMap_congr fun p mem => ?_
  have listed := List.mem_of_mem_take mem
  rw [List.mem_insertionSort] at listed
  obtain ⟨o, found, inside⟩ := (Table.mem_select.1 listed).2.2
  rw [found, agrees.symm.observations.get?_of found inside]

/-! ## The chain of a fact -/

theorem Sealed.scope_eq (closed : Sealed s) {a b : FactRow}
    (edge : Superseded s.facts.table a b) : b.scope = a.scope := by
  obtain ⟨r, mem, here, scope⟩ := closed.supersessions a edge.source b.factId edge.edge
  rw [← Facts.eq_of_id mem edge.target here, scope]

theorem Sealed.scope_of_path (closed : Sealed s) {a b : FactRow}
    (path : ReflTransGen (Superseded s.facts.table) a b) : b.scope = a.scope := by
  induction path with
  | refl => rfl
  | tail _ step ih => exact (closed.scope_eq step).trans ih

theorem AgreesOn.superseded (agrees : AgreesOn scopes s t) (closed : Sealed s) {a b : FactRow}
    (edge : Superseded s.facts.table a b) (inside : a.scope ∈ scopes) :
    Superseded t.facts.table a b := by
  have there : b.scope ∈ scopes := (closed.scope_eq edge).symm ▸ inside
  exact ⟨(agrees.facts a inside).1 edge.source, (agrees.facts b there).1 edge.target, edge.edge⟩

theorem AgreesOn.path (agrees : AgreesOn scopes s t) (closed : Sealed s) {a b : FactRow}
    (path : ReflTransGen (Superseded s.facts.table) a b) (inside : a.scope ∈ scopes) :
    ReflTransGen (Superseded t.facts.table) a b := by
  induction path using ReflTransGen.head_induction_on with
  | refl => exact .refl
  | head step _ ih =>
      exact .head (agrees.superseded closed step inside)
        (ih ((closed.scope_eq step).symm ▸ inside))

theorem AgreesOn.followed (agrees : AgreesOn scopes s t) (closed : Sealed s) {a b : FactRow}
    (path : ReflTransGen (Followed s.facts.table) a b) (inside : a.scope ∈ scopes) :
    ReflTransGen (Followed t.facts.table) a b := by
  induction path using ReflTransGen.head_induction_on with
  | refl => exact .refl
  | head step _ ih =>
      exact .head ⟨agrees.superseded closed step.1 inside, step.2⟩
        (ih ((closed.scope_eq step.1).symm ▸ inside))

theorem AgreesOn.mem_history (agrees : AgreesOn scopes s t) (closed : Sealed s) {a r : FactRow}
    (mem : a ∈ s.facts.table) (inside : a.scope ∈ scopes)
    (returned : r ∈ factHistory s.facts.table a.factId) :
    r ∈ factHistory t.facts.table a.factId := by
  obtain ⟨c, back, ahead⟩ := ((factHistory_spec mem).2 r).1 returned
  have here : c.scope ∈ scopes := closed.scope_of_path back ▸ inside
  exact ((factHistory_spec ((agrees.facts a inside).1 mem)).2 r).2
    ⟨c, agrees.path closed back here, agrees.followed closed ahead here⟩

theorem factHistory_sorted (facts : Table Nat FactRow FactRow.factId) (factId : Nat) :
    (factHistory facts factId).Pairwise fun a b =>
      toLex (a.createdAt, a.factId) ≤ toLex (b.createdAt, b.factId) := by
  have order : ∀ a b : FactRow, historyOrder a b = true ↔
      toLex (a.createdAt, a.factId) ≤ toLex (b.createdAt, b.factId) := by
    intro a b
    rw [historyOrder, decide_eq_true_iff, Prod.Lex.toLex_le_toLex]
  unfold factHistory
  split
  · exact .nil
  · refine List.Pairwise.imp (fun le => (order _ _).1 le)
      (List.pairwise_mergeSort (fun a b c first second => ?_) (fun a b => ?_) _)
    · exact (order a c).2 (le_trans ((order a b).1 first) ((order b c).1 second))
    · rw [Bool.or_eq_true, order, order]
      exact le_total _ _

/-- The two histories have the same rows, and one order: rows of one table with one id are the same. -/
theorem AgreesOn.factHistory_eq (agrees : AgreesOn scopes s t) (closed : Sealed s)
    (closed' : Sealed t) {a : FactRow} (mem : a ∈ s.facts.table) (inside : a.scope ∈ scopes) :
    factHistory s.facts.table a.factId = factHistory t.facts.table a.factId := by
  have mem' := (agrees.facts a inside).1 mem
  have spec := factHistory_spec mem
  have spec' := factHistory_spec mem'
  have perm : (factHistory s.facts.table a.factId).Perm (factHistory t.facts.table a.factId) :=
    (List.perm_ext_iff_of_nodup spec.1 spec'.1).2 fun r =>
      ⟨agrees.mem_history closed mem inside, agrees.symm.mem_history closed' mem' inside⟩
  refine @sort_unique _ _ _ (fun r : FactRow => toLex (r.createdAt, r.factId)) _ _ ?_ perm
    (factHistory_sorted _ _) (factHistory_sorted _ _)
  intro r memR r' memR' same
  have stored : ∀ x ∈ factHistory t.facts.table a.factId, x ∈ t.facts.table := by
    intro x returned
    obtain ⟨c, back, ahead⟩ := (spec'.2 x).1 returned
    obtain rfl | ⟨_, -, last⟩ := ReflTransGen.cases_tail ahead
    · obtain rfl | ⟨_, first, -⟩ := ReflTransGen.cases_head back
      · exact mem'
      · exact first.source
    · exact last.1.target
  exact Table.eq_of_key (stored r memR) (stored r' memR') (congrArg (fun key => (ofLex key).2) same)

/-! ## Events -/

section Events

variable {J : Type} [LinearOrder J] {julianday : String → Option J}

/-- The event of a resolved conflict. -/
def resolvedEvent (s : Store) (scopes : List String) (c : ConflictRow) : Option EventRow := do
  let f ← s.facts.get? (← c.resolutionFactId)
  let changedAt ← c.resolvedAt
  if f.scope ∈ scopes then some ⟨.resolved, changedAt, f⟩ else none

theorem Sealed.resolvedEvent_outside (closed : Sealed s) {c : ConflictRow} (mem : c ∈ s.conflicts)
    (outside : c.scope ∉ scopes) : resolvedEvent s scopes c = none := by
  refine Option.eq_none_iff_forall_ne_some.2 fun e made => ?_
  obtain ⟨factId, chosen, made⟩ := Option.bind_eq_some_iff.1 made
  obtain ⟨f, found, made⟩ := Option.bind_eq_some_iff.1 made
  obtain ⟨changedAt, -, made⟩ := Option.bind_eq_some_iff.1 made
  obtain ⟨r, memR, here, scope⟩ := closed.resolutions c mem factId chosen
  obtain ⟨held, same⟩ := Facts.get?_eq_some.1 found
  obtain rfl := Facts.eq_of_id memR held (here.trans same.symm)
  rw [if_neg (scope ▸ outside)] at made
  cases made

theorem AgreesOn.resolvedEvent_eq (agrees : AgreesOn scopes s t) (c : ConflictRow) :
    resolvedEvent s scopes c = resolvedEvent t scopes c := by
  have narrowed : ∀ u : Store, resolvedEvent u scopes c = c.resolutionFactId.bind fun factId =>
      ((u.facts.table.get? factId).filter fun f => f.scope ∈ scopes).bind fun f =>
        c.resolvedAt.map fun changedAt => ⟨.resolved, changedAt, f⟩ := by
    intro u
    unfold resolvedEvent
    refine Option.bind_congr fun factId _ => ?_
    show (u.facts.table.get? factId).bind _ = _
    cases u.facts.table.get? factId with
    | none => rfl
    | some f =>
        by_cases inside : f.scope ∈ scopes
        · rw [Option.filter_some, if_pos (decide_eq_true inside)]
          cases c.resolvedAt with
          | none => rfl
          | some changedAt => exact if_pos inside
        · rw [Option.filter_some, if_neg (by simpa using inside)]
          cases c.resolvedAt with
          | none => rfl
          | some changedAt => exact if_neg inside
  rw [narrowed s, narrowed t]
  refine Option.bind_congr fun factId _ => ?_
  rw [SameOn.get?_filter agrees.facts factId]

theorem AgreesOn.factEvents_perm (agrees : AgreesOn scopes s t) (closed : Sealed s)
    (closed' : Sealed t) : (factEvents s scopes).Perm (factEvents t scopes) := by
  unfold factEvents
  refine (List.Perm.append (List.Perm.append ?_ ?_) ?_)
  · refine agrees.facts.filterMap_perm (fun r _ outside => ?_) (fun r _ outside => ?_) fun _ _ => rfl
    all_goals rw [if_neg fun both => outside both.1]
  · refine agrees.facts.filterMap_perm (fun r _ outside => ?_) (fun r _ outside => ?_) fun _ _ => rfl
    all_goals rw [if_neg fun both => outside both.1]
  · exact agrees.conflicts.filterMap_perm (fun c mem => closed.resolvedEvent_outside mem)
      (fun c mem => closed'.resolvedEvent_outside mem) fun c _ => agrees.resolvedEvent_eq c

theorem AgreesOn.eventRows_eq (agrees : AgreesOn scopes s t) (closed : Sealed s)
    (closed' : Sealed t) (window : Option (String × String)) :
    eventRows julianday s scopes window = eventRows julianday t scopes window := by
  have whole : chronicle julianday s scopes = chronicle julianday t scopes :=
    sort_unique (fun e mem e' mem' => factEvents_distinguished julianday t scopes e
        (mem_ascending.1 mem) e' (mem_ascending.1 mem'))
      (((ascending_perm _).trans (agrees.factEvents_perm closed closed')).trans
        (ascending_perm _).symm)
      (ascending_pairwise _) (ascending_pairwise _)
  rw [Laws.eventRows_eq, Laws.eventRows_eq, windowEvents, windowEvents, whole]

end Events

/-! ## Conflicts -/

theorem AgreesOn.conflictMemberIds_eq (agrees : AgreesOn scopes s t) {c : ConflictRow}
    (mem : c ∈ s.conflicts) (inside : c.scope ∈ scopes) :
    conflictMemberIds s c.conflictId = conflictMemberIds t c.conflictId := by
  have members := agrees.members.select_perm (q := fun m => m.conflictId = c.conflictId)
    (fun m _ same => ⟨c, mem, same.symm, inside⟩) fun m _ same => ⟨c, mem, same.symm, inside⟩
  exact ascending_of_perm (members.map MemberRow.factId)

theorem AgreesOn.conflictRecords_eq (agrees : AgreesOn scopes s t) {scope : String}
    (inside : scope ∈ scopes) (unresolvedOnly : Bool) :
    conflictRecords s scope unresolvedOnly = conflictRecords t scope unresolvedOnly := by
  have : Std.Total fun a b : ConflictRow =>
      toLex (a.detectedAt, a.conflictId) ≤ toLex (b.detectedAt, b.conflictId) :=
    ⟨fun _ _ => le_total _ _⟩
  have : IsTrans ConflictRow fun a b =>
      toLex (a.detectedAt, a.conflictId) ≤ toLex (b.detectedAt, b.conflictId) :=
    ⟨fun _ _ _ => le_trans⟩
  have rows := @SameOn.sorted_select_eq _ _ _ _ _ _ agrees.conflicts
    (fun c => c.scope = scope ∧ (unresolvedOnly = true → c.Unresolved)) _
    (fun a b => toLex (a.detectedAt, a.conflictId) ≤ toLex (b.detectedAt, b.conflictId)) _ _ _
    (fun c _ holds => holds.1 ▸ inside) (fun c _ holds => holds.1 ▸ inside)
    fun c mem c' mem' first second =>
      Table.eq_of_key mem mem' (congrArg (fun key => (ofLex key).2) (le_antisymm first second))
  unfold conflictRecords
  rw [← rows]
  refine List.filterMap_congr fun c listed => ?_
  rw [List.mem_insertionSort] at listed
  obtain ⟨mem, here, -⟩ := Table.mem_select.1 listed
  rw [agrees.conflictMemberIds_eq mem (here ▸ inside)]

theorem AgreesOn.historicalFactsById_eq (agrees : AgreesOn scopes s t) {scope : String}
    (inside : scope ∈ scopes) (factIds : List Nat) :
    historicalFactsById s factIds scope = historicalFactsById t factIds scope := by
  have : Std.Total fun r r' : FactRow => r.factId ≤ r'.factId := ⟨fun _ _ => Nat.le_total _ _⟩
  have : IsTrans FactRow fun r r' => r.factId ≤ r'.factId := ⟨fun _ _ _ => Nat.le_trans⟩
  exact SameOn.sorted_select_eq agrees.facts (fun r _ holds => holds.2 ▸ inside)
    (fun r _ holds => holds.2 ▸ inside) fun r mem r' mem' first second =>
      Table.eq_of_key mem mem' (Nat.le_antisymm first second)

theorem AgreesOn.entityConflicts_eq (agrees : AgreesOn scopes s t) {scope : String}
    (inside : scope ∈ scopes) (entity : String) :
    entityConflicts s entity scope = entityConflicts t entity scope := by
  unfold entityConflicts
  rw [← conflictRecords_unresolved, ← conflictRecords_unresolved,
    agrees.conflictRecords_eq inside]
  simp only [agrees.historicalFactsById_eq inside]

/-! ## Projections -/

section Projected

variable {J : Type} [LinearOrder J] {julianday : String → Option J} {columns : FactColumns}

theorem projectionScopes_within (valid : ∀ value ∈ scopes, Required value)
    (cleaned : projectionScopes scopes = .ok scopes') : ∀ value ∈ scopes', value ∈ scopes := by
  obtain ⟨-, done⟩ := require_bind_eq_ok.1 cleaned
  cases pure_eq_ok.1 done
  intro value mem
  obtain ⟨raw, listed, rfl⟩ := List.mem_map.1 (List.mem_eraseDups.1 mem)
  have written := (List.mem_filter.1 listed).1
  rwa [(valid raw written).1]

theorem AgreesOn.changes_eq (agrees : AgreesOn scopes s t) (closed : Sealed s) (closed' : Sealed t)
    (valid : ∀ value ∈ scopes, Required value) (since until' : String) (limit : Int) :
    changes julianday columns s since until' scopes limit =
      changes julianday columns t since until' scopes limit := by
  unfold changes
  refine bind_congr_ok fun a _ => bind_congr_ok fun b _ => bind_congr_ok fun _ _ =>
    bind_congr_ok fun scopes' cleaned => ?_
  rw [(agrees.mono (projectionScopes_within valid cleaned)).eventRows_eq closed closed']

theorem AgreesOn.timeline_eq (agrees : AgreesOn scopes s t) (closed : Sealed s)
    (closed' : Sealed t) (valid : ∀ value ∈ scopes, Required value) (query : String) (limit : Int) :
    timeline julianday columns s query scopes limit =
      timeline julianday columns t query scopes limit := by
  unfold timeline
  refine bind_congr_ok fun _ _ => bind_congr_ok fun _ _ => bind_congr_ok fun cap _ =>
    bind_congr_ok fun scopes' cleaned => ?_
  rw [(agrees.mono (projectionScopes_within valid cleaned)).eventRows_eq closed closed']

theorem AgreesOn.entities_eq (agrees : AgreesOn scopes s t)
    (valid : ∀ value ∈ scopes, Required value) (minFacts limit : Int) :
    entities s scopes minFacts limit = entities t scopes minFacts limit := by
  unfold entities
  refine bind_congr_ok fun _ _ => bind_congr_ok fun scopes' cleaned => ?_
  rw [(agrees.mono (projectionScopes_within valid cleaned)).activeFacts_eq
    (projectionScopes_required cleaned)]

theorem AgreesOn.entityDossier_eq (agrees : AgreesOn scopes s t) (closed : Sealed s)
    (closed' : Sealed t) (valid : ∀ value ∈ scopes, Required value) (name : String) (limit : Int) :
    entityDossier julianday columns s name scopes limit =
      entityDossier julianday columns t name scopes limit := by
  unfold entityDossier
  refine bind_congr_ok fun _ _ => bind_congr_ok fun _ _ => bind_congr_ok fun scopes' cleaned =>
    bind_congr_ok fun cap _ => ?_
  have inner := agrees.mono (projectionScopes_within valid cleaned)
  have conflicts : scopes'.flatMap (entityConflicts s (strip name)) =
      scopes'.flatMap (entityConflicts t (strip name)) :=
    List.flatMap_congr fun scope mem => inner.entityConflicts_eq mem _
  rw [inner.activeFacts_eq (projectionScopes_required cleaned),
    inner.eventRows_eq closed closed', conflicts]

end Projected

/-! ## Routes -/

section Routes

variable {context : ConnectionContext} {params : Json}

theorem requestedScopes_within {requested : Json}
    (narrowed : requestedScopes context requested = .ok scopes) :
    ∀ scope ∈ scopes, scope ∈ context.accessScopes := by
  unfold requestedScopes at narrowed
  split at narrowed
  · cases narrowed
    exact fun _ mem => mem
  · obtain ⟨text, -, narrowed⟩ := bind_eq_ok.1 narrowed
    split at narrowed
    · cases narrowed
    · obtain ⟨granted, narrowed⟩ := require_bind_eq_ok.1 narrowed
      cases pure_eq_ok.1 narrowed
      intro scope mem
      rwa [List.mem_singleton.1 mem]

theorem AgreesOn.evidenceRoute_eq (agrees : AgreesOn context.accessScopes s t) :
    evidenceRoute s context params = evidenceRoute t context params := by
  unfold evidenceRoute
  refine bind_congr_ok fun _ _ => bind_congr_ok fun factId _ => bind_congr_ok fun limit _ => ?_
  rw [agrees.historicalFact_eq]
  refine bind_congr_ok fun found _ => ?_
  cases found with
  | none => rfl
  | some fact =>
      dsimp only
      rw [agrees.evidenceRows_eq]

theorem AgreesOn.conflictsRoute_eq (agrees : AgreesOn context.accessScopes s t) :
    conflictsRoute s context params = conflictsRoute t context params := by
  unfold conflictsRoute
  refine bind_congr_ok fun _ _ => bind_congr_ok fun scopes narrowed =>
    bind_congr_ok fun unresolved _ => ?_
  have listed : ∀ scope ∈ scopes,
      (conflictRecords s scope unresolved).mapM (listedConflict s scope) =
        (conflictRecords t scope unresolved).mapM (listedConflict t scope) := by
    intro scope mem
    have inside := requestedScopes_within narrowed scope mem
    rw [agrees.conflictRecords_eq inside]
    refine mapM_congr_mem fun record _ => ?_
    have one : ∀ value ∈ [scope], value ∈ context.accessScopes := fun value mem =>
      List.mem_singleton.1 mem ▸ inside
    unfold listedConflict
    rw [mapM_congr_mem fun factId _ => (agrees.mono one).historicalFact_eq factId]
  rw [mapM_congr_mem listed]

theorem AgreesOn.historyRoute_eq (agrees : AgreesOn context.accessScopes s t) (closed : Sealed s)
    (closed' : Sealed t) : historyRoute s context params = historyRoute t context params := by
  unfold historyRoute
  refine bind_congr_ok fun _ _ => ?_
  dsimp only
  refine bind_congr_ok fun _ _ => bind_congr_ok fun limit _ => ?_
  split
  · refine bind_congr_ok fun factId _ => ?_
    rw [← agrees.historicalFact_eq]
    refine bind_congr_ok fun found looked => ?_
    cases found with
    | none => rfl
    | some anchor =>
        obtain ⟨id, checked, found⟩ := bind_eq_ok.1 looked
        obtain ⟨found, inside⟩ := Option.filter_eq_some_iff.1 (pure_eq_ok.1 found)
        have scope : anchor.scope ∈ context.accessScopes := of_decide_eq_true inside
        have one : ∀ value ∈ [anchor.scope], value ∈ context.accessScopes := fun value mem =>
          List.mem_singleton.1 mem ▸ scope
        dsimp only
        split
        · rw [(agrees.mono one).slotHistory_eq]
        · obtain ⟨mem, same⟩ := Facts.get?_eq_some.1 found
          rw [← SQLite.integer_eq_ok checked, ← same,
            agrees.factHistory_eq closed closed' mem scope]
  · refine bind_congr_ok fun _ _ => bind_congr_ok fun scopes narrowed => bind_congr_ok fun subject _ =>
      bind_congr_ok fun predicate _ => ?_
    rw [(agrees.mono (requestedScopes_within narrowed)).slotHistory_eq]

theorem AgreesOn.readRoute_eq {J : Type} [LinearOrder J] {julianday : String → Option J}
    {columns : FactColumns} (agrees : AgreesOn context.accessScopes s t) (closed : Sealed s)
    (closed' : Sealed t) (valid : ∀ scope ∈ context.accessScopes, Required scope)
    (method : ReadMethod) :
    readRoute julianday columns method s context params =
      readRoute julianday columns method t context params := by
  have inner : ∀ {requested : Json} {scopes : List String},
      requestedScopes context requested = .ok scopes →
      AgreesOn scopes s t ∧ ∀ scope ∈ scopes, Required scope := fun narrowed =>
    ⟨agrees.mono (requestedScopes_within narrowed),
      fun scope mem => valid scope (requestedScopes_within narrowed scope mem)⟩
  cases method with
  | evidence =>
      dsimp only [readRoute]
      rw [agrees.evidenceRoute_eq]
  | history =>
      dsimp only [readRoute]
      rw [agrees.historyRoute_eq closed closed']
  | conflicts =>
      dsimp only [readRoute]
      rw [agrees.conflictsRoute_eq]
  | changes =>
      have same : changesRoute julianday columns s context params =
          changesRoute julianday columns t context params := by
        unfold changesRoute
        refine bind_congr_ok fun _ _ => bind_congr_ok fun scopes narrowed => ?_
        obtain ⟨agrees', valid'⟩ := inner narrowed
        simp only [agrees'.changes_eq closed closed' valid']
      dsimp only [readRoute]
      rw [same]
  | timeline =>
      have same : timelineRoute julianday columns s context params =
          timelineRoute julianday columns t context params := by
        unfold timelineRoute
        refine bind_congr_ok fun _ _ => bind_congr_ok fun scopes narrowed => ?_
        obtain ⟨agrees', valid'⟩ := inner narrowed
        simp only [agrees'.timeline_eq closed closed' valid']
      dsimp only [readRoute]
      rw [same]
  | entities =>
      have same : entitiesRoute s context params = entitiesRoute t context params := by
        unfold entitiesRoute
        refine bind_congr_ok fun _ _ => bind_congr_ok fun scopes narrowed => ?_
        obtain ⟨agrees', valid'⟩ := inner narrowed
        simp only [agrees'.entities_eq valid']
      dsimp only [readRoute]
      rw [same]
  | entity =>
      have same : entityRoute julianday columns s context params =
          entityRoute julianday columns t context params := by
        unfold entityRoute
        refine bind_congr_ok fun _ _ => bind_congr_ok fun scopes narrowed => ?_
        obtain ⟨agrees', valid'⟩ := inner narrowed
        simp only [agrees'.entityDossier_eq closed closed' valid']
      dsimp only [readRoute]
      rw [same]

end Routes

end Agreement

/-! ## Reachable stores -/

theorem Sealed.of_reached {host : Host} {s : Store} (reached : Reached host (fun _ _ => True) s) :
    Sealed s where
  supersessions := (lineage_of_reached reached).lineage.sameScope
  resolutions := (conflictScopes_of_reached reached).resolutions

/-- The scopes of an authorized connection are supported. -/
theorem authorize_required {policy : MemoryPolicy} {client : ClientContext}
    {effective : ConnectionContext} (authorized : authorize policy client = .ok effective) :
    ∀ scope ∈ effective.accessScopes, Required scope := by
  unfold authorize at authorized
  split at authorized
  · rename_i granted
    cases authorized
    obtain ⟨context, -, granted⟩ := bind_eq_ok.1 granted
    obtain ⟨-, -, -, supported⟩ := authorizeContext_narrows granted
    exact fun scope mem => scope_required (supported scope mem)
  · split at authorized <;> cases authorized

/-- Whatever other scopes hold, a read request is answered alike. -/
theorem reads_do_not_interfere {J : Type} [LinearOrder J] {julianday : String → Option J}
    {columns : FactColumns} {host host' : Host} {s t : Store}
    (reached : Reached host (fun _ _ => True) s) (reached' : Reached host' (fun _ _ => True) t)
    (policy : MemoryPolicy) (method : ReadMethod) (context : ClientContext) (params : Json)
    (agrees : ∀ effective, authorize policy context = .ok effective →
      AgreesOn effective.accessScopes s t) :
    handleRead julianday columns policy method context params s =
      handleRead julianday columns policy method context params t := by
  unfold handleRead
  refine bind_congr_ok fun _ _ => bind_congr_ok fun effective authorized => ?_
  exact (agrees effective authorized).readRoute_eq (.of_reached reached) (.of_reached reached')
    (authorize_required authorized) method

/-- A store with no row of the scopes agrees with an empty one. -/
theorem agrees_of_outside {scopes : List String} {t : Store}
    (facts : ∀ r ∈ t.facts.table, r.scope ∉ scopes)
    (observations : ∀ o ∈ t.observations, o.scope ∉ scopes)
    (conflicts : ∀ c ∈ t.conflicts, c.scope ∉ scopes) : AgreesOn scopes Store.empty t where
  facts := fun r inside => iff_of_false (Table.not_mem_empty r) fun mem => facts r mem inside
  observations := fun o inside =>
    iff_of_false (Table.not_mem_empty o) fun mem => observations o mem inside
  provenance := by
    rintro p ⟨o, found, -⟩
    exact absurd (Table.get?_eq_some.1 found).1 (Table.not_mem_empty o)
  conflicts := fun c inside => iff_of_false (Table.not_mem_empty c) fun mem => conflicts c mem inside
  members := by
    rintro m ⟨c, mem, -⟩
    exact absurd mem (Table.not_mem_empty c)

/-- A dispute in another scope cannot be seen. -/
theorem sample_reads_alike :
    handleRead (fun text => some text) ⟨fun _ => .null, fun _ => .null, fun _ => .null⟩ sampleGrants
        .conflicts sampleWire (.obj []) Store.empty =
      handleRead (fun text => some text) ⟨fun _ => .null, fun _ => .null, fun _ => .null⟩
        sampleGrants .conflicts sampleWire (.obj [])
        (run (step Sample.host) Sample.dispute Store.empty) := by
  have outside : ((run (step Sample.host) Sample.dispute Store.empty).facts.table.rows.all
        fun r => r.scope = "work") = true ∧
      ((run (step Sample.host) Sample.dispute Store.empty).observations.rows.all
        fun o => o.scope = "work") = true ∧
      ((run (step Sample.host) Sample.dispute Store.empty).conflicts.rows.all
        fun c => c.scope = "work") = true := by
    decide +kernel
  have start : Reached Sample.host (fun _ _ => True) Store.empty := .refl
  have disputed : Reached Sample.host (fun _ _ => True)
      (run (step Sample.host) Sample.dispute Store.empty) := ⟨Sample.dispute, .always _ _, rfl⟩
  refine reads_do_not_interfere start disputed _ _ _ _ fun effective authorized => ?_
  obtain rfl : sampleEffective = effective := Except.ok.inj authorized
  have apart : ∀ {scope : String}, scope = "work" → scope ∉ sampleEffective.accessScopes := by
    rintro scope rfl
    decide
  refine agrees_of_outside (fun r mem => apart ?_) (fun o mem => apart ?_) fun c mem => apart ?_
  · exact of_decide_eq_true (List.all_eq_true.1 outside.1 r mem)
  · exact of_decide_eq_true (List.all_eq_true.1 outside.2.1 o mem)
  · exact of_decide_eq_true (List.all_eq_true.1 outside.2.2 c mem)

end Enfold.Laws
