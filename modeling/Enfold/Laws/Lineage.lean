/-
# Laws.Lineage -- the supersession graph

`superseded_by` makes the facts a graph with at most one edge out of each.  An edge is only
ever added from a fact that has none to a fact that has none afterwards (`LinkStep`), in
whatever order the two were inserted; so chains stay finite (`Theory.Forest`), and edges
stay inside a scope.  The edges of a resolution stay inside because every fact of a conflict
group is in the scope of its conflict (`Grouped`).
-/
import Enfold.Laws.SlotInvariant
import Enfold.Laws.Steps
import Enfold.Theory.Forest

namespace Enfold.Laws

open Enfold.Theory Enfold.Model

set_option autoImplicit false

/-- The fact that superseded a fact. -/
def successor (facts : Facts) (factId : Nat) : Option Nat :=
  (facts.get? factId).bind FactRow.supersededBy

theorem successor_of_mem {facts : Facts} {r : FactRow} (mem : r ∈ facts) :
    successor facts r.factId = r.supersededBy := by
  rw [successor, Facts.get?_eq_some.2 ⟨mem, rfl⟩]
  rfl

theorem successor_of_missing {facts : Facts} {k : Nat} (missing : ∀ r ∈ facts, r.factId ≠ k) :
    successor facts k = none := by
  rw [successor, show facts.get? k = none from Table.get?_eq_none.2 missing]
  rfl

/-- The supersession graph of the facts is in order. -/
structure Lineage (facts : Facts) : Prop where
  sameScope : ∀ r ∈ facts, ∀ k ∈ r.supersededBy, ∃ r' ∈ facts, r'.factId = k ∧ r'.scope = r.scope
  invalid : ∀ r ∈ facts, r.supersededBy ≠ none → r.invalidAt ≠ none
  ends : ∀ k, Ends (successor facts) k

theorem Lineage.empty : Lineage Facts.empty where
  sameScope r mem := absurd mem (Facts.not_mem_empty r)
  invalid r mem := absurd mem (Facts.not_mem_empty r)
  ends _ := ends_of_root (successor_of_missing fun r mem => absurd mem (Facts.not_mem_empty r))

/-! ## Steps of the graph -/

/-- The invalid row points at a fact of its scope that nothing supersedes. -/
def PointsAtRoot (facts : Facts) (r : FactRow) : Prop :=
  r.invalidAt ≠ none ∧ ∃ b ∈ facts, r.supersededBy = some b.factId ∧ b.supersededBy = none ∧
    b.scope = r.scope

theorem supersededRow_pointsAtRoot {facts : Facts} {r b : FactRow} {moment : String} {survivor : Nat}
    (mem : b ∈ facts) (here : b.factId = survivor) (root : b.supersededBy = none)
    (scope : b.scope = r.scope) : PointsAtRoot facts (supersededRow r moment survivor) :=
  ⟨by simp [supersededRow], b, mem, by simp [supersededRow, here], root, scope⟩

/-- Facts keep their scope and their edge; edges are added from roots to roots. -/
structure LinkStep (facts facts' : Facts) : Prop where
  kept : ∀ r ∈ facts, ∃ r' ∈ facts', r'.factId = r.factId ∧ r'.scope = r.scope ∧
    (r'.supersededBy = r.supersededBy ∧ (r.invalidAt ≠ none → r'.invalidAt ≠ none) ∨
      r.supersededBy = none ∧ PointsAtRoot facts' r')
  added : ∀ r' ∈ facts', (∃ r ∈ facts, r.factId = r'.factId) ∨ r'.supersededBy = none ∨
    PointsAtRoot facts' r'

namespace LinkStep

variable {facts facts' : Facts}

theorem refl (facts : Facts) : LinkStep facts facts where
  kept r mem := ⟨r, mem, rfl, rfl, .inl ⟨rfl, id⟩⟩
  added r mem := .inl ⟨r, mem, rfl⟩

/-- What a row of the new facts is to the row it comes from. -/
theorem kept_row (link : LinkStep facts facts') {r r' : FactRow} (mem : r ∈ facts)
    (mem' : r' ∈ facts') (same : r.factId = r'.factId) :
    r'.scope = r.scope ∧
      (r'.supersededBy = r.supersededBy ∧ (r.invalidAt ≠ none → r'.invalidAt ≠ none) ∨
        r.supersededBy = none ∧ PointsAtRoot facts' r') := by
  obtain ⟨r₁, mem₁, same₁, scope, edge⟩ := link.kept r mem
  rw [Facts.eq_of_id mem' mem₁ (same.symm.trans same₁.symm)]
  exact ⟨scope, edge⟩

theorem lineage (link : LinkStep facts facts') (old : Lineage facts) : Lineage facts' := by
  have root : ∀ r' ∈ facts', PointsAtRoot facts' r' →
      (∀ k ∈ r'.supersededBy, ∃ b ∈ facts', b.factId = k ∧ b.scope = r'.scope) ∧
        r'.invalidAt ≠ none := by
    rintro r' - ⟨invalid, b, memB, edge, -, scope⟩
    refine ⟨fun k target => ?_, invalid⟩
    rw [edge] at target
    cases target
    exact ⟨b, memB, rfl, scope⟩
  refine { sameScope := fun r' mem' k target => ?_, invalid := fun r' mem' edge => ?_, ends := fun k => ?_ }
  · rcases link.added r' mem' with ⟨r, mem, same⟩ | none' | points
    · obtain ⟨scope, ⟨edge, -⟩ | ⟨-, points⟩⟩ := link.kept_row mem mem' same
      · rw [edge] at target
        obtain ⟨t, memT, idT, scopeT⟩ := old.sameScope r mem k target
        obtain ⟨t', memT', idT', scopeT', -⟩ := link.kept t memT
        exact ⟨t', memT', idT'.trans idT, by rw [scopeT', scopeT, scope]⟩
      · exact (root r' mem' points).1 k target
    · rw [none'] at target
      cases target
    · exact (root r' mem' points).1 k target
  · rcases link.added r' mem' with ⟨r, mem, same⟩ | none' | points
    · obtain ⟨-, ⟨sameEdge, keeps⟩ | ⟨-, points⟩⟩ := link.kept_row mem mem' same
      · rw [sameEdge] at edge
        exact keeps (old.invalid r mem edge)
      · exact points.1
    · exact absurd none' edge
    · exact points.1
  · refine ends_of_link (fun a => ?_) (old.ends k)
    have redirected : ∀ r' ∈ facts', PointsAtRoot facts' r' →
        ∃ b, successor facts' r'.factId = some b ∧ successor facts' b = none := by
      rintro r' mem' ⟨-, b, memB, edge, last, -⟩
      exact ⟨b.factId, by rw [successor_of_mem mem', edge], by rw [successor_of_mem memB, last]⟩
    by_cases known : ∃ r' ∈ facts', r'.factId = a
    · obtain ⟨r', mem', rfl⟩ := known
      by_cases older : ∃ r ∈ facts, r.factId = r'.factId
      · obtain ⟨r, mem, same⟩ := older
        obtain ⟨-, ⟨edge, -⟩ | ⟨none', points⟩⟩ := link.kept_row mem mem' same
        · left
          rw [successor_of_mem mem', ← same, successor_of_mem mem, edge]
        · right
          rw [← same, successor_of_mem mem, same]
          exact ⟨none', redirected r' mem' points⟩
      · have missing : successor facts r'.factId = none :=
          successor_of_missing fun r mem same => older ⟨r, mem, same⟩
        rcases link.added r' mem' with ⟨r, mem, same⟩ | none' | points
        · exact absurd ⟨r, mem, same⟩ older
        · left
          rw [missing, successor_of_mem mem', none']
        · exact .inr ⟨missing, redirected r' mem' points⟩
    · left
      rw [successor_of_missing fun r' mem' same => known ⟨r', mem', same⟩]
      refine (successor_of_missing fun r mem same => known ?_).symm
      obtain ⟨r', mem', sameId, -⟩ := link.kept r mem
      exact ⟨r', mem', sameId.trans same⟩

/-- Every row of a patch starts as a root, or is new. -/
theorem of_patch {patch : List FactRow} (patched : FactPatch facts facts' patch)
    (edges : ∀ p ∈ patch, p.supersededBy = none ∨ PointsAtRoot facts' p)
    (olds : ∀ p ∈ patch, ∀ r ∈ facts, r.factId = p.factId → r.Current ∧ p.scope = r.scope) :
    LinkStep facts facts' where
  kept r mem := by
    by_cases inPatch : r.factId ∈ patch.map FactRow.factId
    · obtain ⟨p, memP, same⟩ := List.mem_map.1 inPatch
      obtain ⟨⟨valid, root⟩, scope⟩ := olds p memP r mem same.symm
      refine ⟨p, patched.of_mem memP, same, scope, ?_⟩
      rcases edges p memP with none' | points
      · exact .inl ⟨by rw [none', root], fun invalid => absurd valid invalid⟩
      · exact .inr ⟨root, points⟩
    · exact ⟨r, (patched.mem_iff inPatch).2 mem, rfl, rfl, .inl ⟨rfl, id⟩⟩
  added r' mem' := by
    rcases (patched r').1 mem' with memP | ⟨mem, -⟩
    · exact .inr (edges r' memP)
    · exact .inl ⟨r', mem, rfl⟩

/-- Every fact is rewritten in place. -/
theorem of_map {g : FactRow → FactRow} (map : FactMap facts facts' g)
    (kept : ∀ r ∈ facts, (g r).factId = r.factId ∧ (g r).scope = r.scope ∧
      ((g r).supersededBy = r.supersededBy ∧ (r.invalidAt ≠ none → (g r).invalidAt ≠ none) ∨
        r.supersededBy = none ∧ PointsAtRoot facts' (g r))) :
    LinkStep facts facts' where
  kept r mem := ⟨g r, map.of_mem mem, kept r mem⟩
  added r' mem' := by
    obtain ⟨r, mem, rfl⟩ := (map r').1 mem'
    exact .inl ⟨r, mem, (kept r mem).1.symm⟩

end LinkStep

/-! ## Writes -/

section Write

variable {tick : Tick} {request : WriteRequest} {s s' : Store} {factId : Nat}

/-- The new row is a root, and no old row has its id. -/
theorem StateEffect.linkStep {candidate : StateCandidate} {d : SlotDecision}
    (effect : StateEffect tick request candidate d s s' factId) : LinkStep s.facts s'.facts := by
  have new : ∀ group, ∀ r ∈ s.facts,
      r.factId = (stateRow tick request candidate group s.facts.nextId).factId →
        r.Current ∧ (stateRow tick request candidate group s.facts.nextId).scope = r.scope :=
    fun _ r mem same => absurd same (Facts.nextId_fresh mem)
  cases effect with
  | repeated r here repeats result same =>
      rw [same]
      exact LinkStep.refl s.facts
  | added vacant patch conflicts members result =>
      subst result
      refine LinkStep.of_patch patch ?_ ?_
      · simpa using .inl rfl
      · simpa using new none
  | superseded r only ungrouped patch conflicts members result =>
      subst result
      obtain ⟨memR, inSlot, current⟩ := mem_of_only only
      refine LinkStep.of_patch patch ?_ ?_
      · intro p memP
        rcases List.mem_cons.1 memP with rfl | memP
        · have survivor := patch.of_mem (List.mem_cons_of_mem _ List.mem_cons_self)
          exact .inr (supersededRow_pointsAtRoot survivor rfl rfl inSlot.2.1.symm)
        · rw [List.mem_singleton.1 memP]
          exact .inl rfl
      · intro p memP r' mem' same
        rcases List.mem_cons.1 memP with rfl | memP
        · rw [Facts.eq_of_id mem' memR same]
          exact ⟨current, rfl⟩
        · rw [List.mem_singleton.1 memP] at same ⊢
          exact new none r' mem' same
  | disputed r detail joined only ungrouped patch conflicts member newMember result =>
      subst result
      obtain ⟨memR, inSlot, current⟩ := mem_of_only only
      refine LinkStep.of_patch patch ?_ ?_
      · intro p memP
        rcases List.mem_cons.1 memP with rfl | memP
        · exact .inl current.2
        · rw [List.mem_singleton.1 memP]
          exact .inl rfl
      · intro p memP r' mem' same
        rcases List.mem_cons.1 memP with rfl | memP
        · rw [Facts.eq_of_id mem' memR same]
          exact ⟨current, rfl⟩
        · rw [List.mem_singleton.1 memP] at same ⊢
          exact new (some tick.conflictId.text) r' mem' same
  | joined r c here group opened patch conflicts newMember result =>
      subst result
      refine LinkStep.of_patch patch ?_ ?_
      · simpa using .inl rfl
      · simpa using new (some c.conflictId)

variable {near : Option NearDuplicateCandidate}
  (known : ∀ c ∈ near, ∃ r ∈ s.facts, r.factId = c.factId ∧ r.scope = request.scope ∧
    r.Current ∧ r.conflictGroup = none)

include known

theorem UntypedEffect.linkStep (effect : UntypedEffect tick request near s s' factId) :
    LinkStep s.facts s'.facts := by
  have new : ∀ r ∈ s.facts, r.factId ≠ s.facts.nextId := fun r mem => Facts.nextId_fresh mem
  cases effect with
  | repeated r mem inScope sameContent current ungrouped result same =>
      rw [same]
      exact LinkStep.refl s.facts
  | inserted unmatched patch result =>
      subst result
      refine LinkStep.of_patch patch ?_ ?_
      · simpa using .inl rfl
      · intro p memP r mem same
        rw [List.mem_singleton.1 memP] at same
        exact absurd same (new r mem)
  | mergedIntoNew c r found wins mem here current patch result =>
      subst result
      obtain ⟨r₀, mem₀, here₀, inScope, -⟩ := known c found
      obtain rfl : r = r₀ := Facts.eq_of_id mem mem₀ (here.trans here₀.symm)
      refine LinkStep.of_patch patch ?_ ?_
      · intro p memP
        rcases List.mem_cons.1 memP with rfl | memP
        · exact .inl rfl
        · rw [List.mem_singleton.1 memP]
          have survivor := patch.of_mem List.mem_cons_self
          exact .inr (supersededRow_pointsAtRoot survivor rfl rfl inScope.symm)
      · intro p memP r' mem' same
        rcases List.mem_cons.1 memP with rfl | memP
        · exact absurd same (new r' mem')
        · rw [List.mem_singleton.1 memP] at same ⊢
          rw [Facts.eq_of_id mem' mem same]
          exact ⟨current, rfl⟩
  | mergedIntoOld c found loses patch result =>
      obtain ⟨r, mem, here, inScope, current, -⟩ := known c found
      have kept : r ∈ s'.facts :=
        (patch.mem_iff (by simpa [supersededRow, plainRow] using new r mem)).2 mem
      refine LinkStep.of_patch patch ?_ ?_
      · intro p memP
        rw [List.mem_singleton.1 memP]
        exact .inr (supersededRow_pointsAtRoot kept (here.trans result.symm) current.2 inScope)
      · intro p memP r' mem' same
        rw [List.mem_singleton.1 memP] at same
        exact absurd same (new r' mem')

/-- The fact an untyped write returns is current. -/
theorem UntypedEffect.result_current (effect : UntypedEffect tick request near s s' factId) :
    ∃ r ∈ s'.facts, r.factId = factId ∧ r.Current := by
  cases effect with
  | repeated r mem inScope sameContent current ungrouped result same =>
      rw [same, result]
      exact ⟨r, mem, rfl, current⟩
  | inserted unmatched patch result =>
      exact ⟨_, patch.of_mem List.mem_cons_self, rfl, rfl, rfl⟩
  | mergedIntoNew c r found wins mem here current patch result =>
      exact ⟨_, patch.of_mem List.mem_cons_self, rfl, rfl, rfl⟩
  | mergedIntoOld c found loses patch result =>
      obtain ⟨r, mem, here, -, current, -⟩ := known c found
      refine ⟨r, (patch.mem_iff ?_).2 mem, here.trans result.symm, current⟩
      simpa [supersededRow, plainRow] using Facts.nextId_fresh mem

end Write

/-- A requested supersession points at the fact the write returns. -/
theorem Finished.linkStep {tick : Tick} {context : ConnectionContext} {request : WriteRequest}
    {requestHash : String} {observationId : Nat} {state : Option SlotDecision} {applied : Applied}
    {s' : Store} {o : WriteOutcome}
    (finished : Finished tick context request requestHash observationId state applied s' o)
    (result : explicitTarget request state ≠ none →
      ∃ r ∈ applied.store.facts, r.factId = applied.result.factId ∧ r.Current) :
    LinkStep applied.store.facts s'.facts := by
  rcases finished.superseded with ⟨-, facts⟩ | ⟨r, mem, target, distinct, scope, current, -, -, patch⟩
  · rw [facts]
    exact LinkStep.refl _
  · obtain ⟨b, memB, idB, currentB⟩ := result (by simp [target])
    obtain ⟨b', memB', idB', scopeB⟩ := finished.inScope
    obtain rfl : b' = b := Facts.eq_of_id memB' memB (idB'.trans idB.symm)
    have kept : b' ∈ s'.facts :=
      (patch.mem_iff (by simpa [supersededRow, idB] using distinct.symm)).2 memB
    refine LinkStep.of_patch patch ?_ ?_
    · intro p memP
      rw [List.mem_singleton.1 memP]
      exact .inr (supersededRow_pointsAtRoot kept idB currentB.2 (scopeB.trans scope.symm))
    · intro p memP r' mem' same
      rw [List.mem_singleton.1 memP] at same ⊢
      rw [Facts.eq_of_id mem' mem same]
      exact ⟨current, rfl⟩

/-! ## Conflict groups -/

/-- A fact in a conflict group is in the scope of its conflict. -/
def Grouped (s : Store) : Prop :=
  ∀ r ∈ s.facts, ∀ g ∈ r.conflictGroup, ∃ c ∈ s.conflicts, c.conflictId = g ∧ c.scope = r.scope

theorem Grouped.of_patch {s s' : Store} {patch : List FactRow} (grouped : Grouped s)
    (patched : FactPatch s.facts s'.facts patch) (kept : ∀ c ∈ s.conflicts, c ∈ s'.conflicts)
    (new : ∀ p ∈ patch, ∀ g ∈ p.conflictGroup,
      ∃ c ∈ s'.conflicts, c.conflictId = g ∧ c.scope = p.scope) : Grouped s' := by
  intro r mem g group
  rcases (patched r).1 mem with memP | ⟨old, -⟩
  · exact new r memP g group
  · obtain ⟨c, memC, same, scope⟩ := grouped r old g group
    exact ⟨c, kept c memC, same, scope⟩

/-- Facts leave their group or keep it, and conflicts keep their scope. -/
theorem Grouped.of_map {s s' : Store} {g : FactRow → FactRow} {h : ConflictRow → ConflictRow}
    (grouped : Grouped s) (facts : FactMap s.facts s'.facts g)
    (conflicts : Table.Maps s.conflicts s'.conflicts h)
    (rows : ∀ r, (g r).scope = r.scope ∧
      ((g r).conflictGroup = none ∨ (g r).conflictGroup = r.conflictGroup))
    (closed : ∀ c, (h c).conflictId = c.conflictId ∧ (h c).scope = c.scope) : Grouped s' := by
  intro r' mem' group carried
  obtain ⟨r, mem, rfl⟩ := (facts r').1 mem'
  obtain ⟨scope, left | same⟩ := rows r
  · rw [left] at carried
    cases carried
  · rw [same] at carried
    obtain ⟨c, memC, sameId, sameScope⟩ := grouped r mem group carried
    exact ⟨h c, conflicts.of_mem memC, (closed c).1.trans sameId, by
      rw [(closed c).2, sameScope, scope]⟩

theorem StateEffect.grouped {tick : Tick} {request : WriteRequest} {candidate : StateCandidate}
    {d : SlotDecision} {s s' : Store} {factId : Nat}
    (effect : StateEffect tick request candidate d s s' factId)
    (grouped : Grouped s) : Grouped s' := by
  have kept := effect.conflictGrowth.keptConflicts
  cases effect with
  | repeated r here repeats result same =>
      rw [same]
      exact grouped
  | added vacant patch conflicts members result =>
      refine grouped.of_patch patch kept ?_
      simp [stateRow]
  | superseded r only ungrouped patch conflicts members result =>
      refine grouped.of_patch patch kept ?_
      simp [stateRow, supersededRow, ungrouped]
  | disputed r detail joined only ungrouped patch conflicts member newMember result =>
      obtain ⟨memR, inSlot, current⟩ := mem_of_only only
      refine grouped.of_patch patch kept fun p memP g group => ?_
      have opened := (Table.mem_of_insert? conflicts).2 (.inr rfl)
      rcases List.mem_cons.1 memP with rfl | memP
      · exact ⟨_, opened, Option.some.inj group, inSlot.2.1.symm⟩
      · rw [List.mem_singleton.1 memP] at group ⊢
        exact ⟨_, opened, Option.some.inj group, rfl⟩
  | joined r c here group opened patch conflicts newMember result =>
      refine grouped.of_patch patch kept fun p memP g carried => ?_
      rw [List.mem_singleton.1 memP] at carried ⊢
      exact ⟨c, kept c opened.1, Option.some.inj carried, congrArg Slot.scope opened.2.2⟩

theorem UntypedEffect.grouped {tick : Tick} {request : WriteRequest}
    {near : Option NearDuplicateCandidate} {s s' : Store} {factId : Nat}
    (effect : UntypedEffect tick request near s s' factId) (same : s'.conflicts = s.conflicts)
    (grouped : Grouped s) : Grouped s' := by
  have kept : ∀ c ∈ s.conflicts, c ∈ s'.conflicts := fun c mem => by rwa [same]
  cases effect with
  | repeated r mem inScope sameContent current ungrouped result unchanged =>
      rw [unchanged]
      exact grouped
  | inserted unmatched patch result =>
      refine grouped.of_patch patch kept ?_
      simp [plainRow]
  | mergedIntoNew c r found wins mem here current patch result =>
      refine grouped.of_patch patch kept fun p memP g group => ?_
      rcases List.mem_cons.1 memP with rfl | memP
      · cases group
      · rw [List.mem_singleton.1 memP] at group ⊢
        obtain ⟨c', memC', sameId, scope⟩ := grouped r mem g group
        exact ⟨c', kept c' memC', sameId, scope⟩
  | mergedIntoOld c found loses patch result =>
      refine grouped.of_patch patch kept ?_
      simp [supersededRow, plainRow]

theorem Finished.grouped {tick : Tick} {context : ConnectionContext} {request : WriteRequest}
    {requestHash : String} {observationId : Nat} {state : Option SlotDecision} {applied : Applied}
    {s' : Store} {o : WriteOutcome}
    (finished : Finished tick context request requestHash observationId state applied s' o)
    (grouped : Grouped applied.store) : Grouped s' := by
  have same : s'.conflicts = applied.store.conflicts := by rw [finished.frame]
  rcases finished.superseded with ⟨-, facts⟩ | ⟨r, mem, -, -, -, -, -, ungrouped, patch⟩
  · unfold Grouped
    rw [facts, same]
    exact grouped
  · refine grouped.of_patch patch (fun c memC => by rwa [same]) ?_
    simp [supersededRow, ungrouped]

/-! ## Resolutions and erasures -/

theorem ResolveEffect.grouped {s s' : Store} {conflictId : String} {winner : Nat}
    {moment resolvedBy reason : String}
    (effect : ResolveEffect s s' conflictId winner moment resolvedBy reason) (grouped : Grouped s) :
    Grouped s' := by
  have conflicts := effect.conflicts
  refine grouped.of_map effect.facts (h := fun c =>
    if c.conflictId = conflictId ∧ c.Unresolved then
      { c with
        resolvedAt := some moment
        resolutionFactId := some winner
        resolvedBy := some resolvedBy
        resolutionReason := some reason }
    else c) ?_ (fun r => ?_) (fun c => ?_)
  · rw [conflicts]
    exact Table.Maps.of_update (by intro; rfl)
  · unfold resolvedRow
    split
    · exact ⟨rfl, .inl rfl⟩
    split
    · exact ⟨rfl, .inr rfl⟩
    · exact ⟨rfl, .inr rfl⟩
  · split
    · exact ⟨rfl, rfl⟩
    · exact ⟨rfl, rfl⟩

/-- The losers of a resolution point at the winner, in the scope of their conflict. -/
theorem ResolveEffect.linkStep {s s' : Store} {conflictId : String} {winner : Nat}
    {moment resolvedBy reason : String}
    (effect : ResolveEffect s s' conflictId winner moment resolvedBy reason)
    (lineage : Lineage s.facts) (grouped : Grouped s) : LinkStep s.facts s'.facts := by
  obtain ⟨w, memW, idW, groupW, -⟩ := effect.carried winner effect.member
  have currentW := effect.winnerCurrent w memW idW
  have released : { w with conflictGroup := none } ∈ s'.facts :=
    (effect.facts _).2 ⟨w, memW, if_pos idW⟩
  obtain ⟨c, memC, sameC, scopeW⟩ := grouped w memW conflictId groupW
  refine LinkStep.of_map effect.facts fun r mem => ?_
  unfold resolvedRow
  split
  · exact ⟨rfl, rfl, .inl ⟨rfl, id⟩⟩
  split
  · rename_i lost inMembers
    obtain ⟨r₀, mem₀, id₀, group, valid⟩ := effect.carried _ inMembers
    obtain rfl : r = r₀ := Facts.eq_of_id mem mem₀ id₀.symm
    obtain ⟨c', memC', sameC', scope⟩ := grouped r mem conflictId group
    have one : c' = c := Table.eq_of_key memC' memC (sameC'.trans sameC.symm)
    have root : r.supersededBy = none := by
      by_contra edge
      exact lineage.invalid r mem edge valid
    refine ⟨rfl, rfl, .inr ⟨root, supersededRow_pointsAtRoot released idW currentW.2 ?_⟩⟩
    rw [← scope, one, scopeW]
  · exact ⟨rfl, rfl, .inl ⟨rfl, id⟩⟩

/-- An erasure adds no edge and takes none away. -/
theorem erasedRow_edge (tick : ErasureTick) (factId : Nat) (insights ungrouped : List Nat)
    (r : FactRow) :
    (erasedRow tick factId insights ungrouped r).scope = r.scope ∧
      (erasedRow tick factId insights ungrouped r).supersededBy = r.supersededBy ∧
      (r.invalidAt ≠ none → (erasedRow tick factId insights ungrouped r).invalidAt ≠ none) ∧
      ((erasedRow tick factId insights ungrouped r).conflictGroup = none ∨
        (erasedRow tick factId insights ungrouped r).conflictGroup = r.conflictGroup) := by
  simp only [erasedRow, ungroupedRow, invalidatedRow, scrubbedRow]
  refine ⟨?_, ?_, ?_, ?_⟩
  · split_ifs <;> rfl
  · split_ifs <;> rfl
  · intro invalid
    split_ifs <;> simp [invalid]
  · split_ifs <;> simp

theorem EraseEffect.grouped {host : Host} {call : EraseCall} {s s' : Store} {row : FactRow}
    {insights : List Nat} (effect : EraseEffect host call s s' row insights) (grouped : Grouped s) :
    Grouped s' := by
  refine grouped.of_map effect.facts effect.conflicts (fun r => ?_) (fun c => ?_)
  · obtain ⟨scope, -, -, group⟩ := erasedRow_edge call.tick call.factId insights
      (lastMembers (leaveConflicts s call.factId) (conflictsOf s call.factId)) r
    exact ⟨scope, group⟩
  · unfold cleanedConflict
    split
    · exact ⟨rfl, rfl⟩
    · exact ⟨rfl, rfl⟩

theorem EraseEffect.linkStep {host : Host} {call : EraseCall} {s s' : Store} {row : FactRow}
    {insights : List Nat} (effect : EraseEffect host call s s' row insights) :
    LinkStep s.facts s'.facts := by
  refine LinkStep.of_map effect.facts fun r _ => ?_
  obtain ⟨scope, edge, invalid, -⟩ := erasedRow_edge call.tick call.factId insights
    (lastMembers (leaveConflicts s call.factId) (conflictsOf s call.factId)) r
  exact ⟨erasedRow_factId _ _ _ _ _, scope, .inl ⟨edge, invalid⟩⟩

/-! ## Runs -/

/-- The graph is in order, and every edge of `facts₀` is still there. -/
structure LineageSince (facts₀ : Facts) (s : Store) : Prop where
  lineage : Lineage s.facts
  grouped : Grouped s
  kept : ∀ r ∈ facts₀, ∀ k ∈ r.supersededBy, ∃ r' ∈ s.facts, r'.factId = r.factId ∧
    r'.supersededBy = some k

theorem LineageSince.step {facts₀ : Facts} {s s' : Store} (since : LineageSince facts₀ s)
    (link : LinkStep s.facts s'.facts) (grouped : Grouped s') : LineageSince facts₀ s' where
  lineage := link.lineage since.lineage
  grouped := grouped
  kept r mem k edge := by
    obtain ⟨r', mem', same, edge'⟩ := since.kept r mem k edge
    obtain ⟨r'', mem'', same', -, ⟨kept, -⟩ | ⟨root, -⟩⟩ := link.kept r' mem'
    · exact ⟨r'', mem'', same'.trans same, kept.trans edge'⟩
    · rw [root] at edge'
      cases edge'

theorem LineageSince.of_same {facts₀ : Facts} {s s' : Store} (since : LineageSince facts₀ s)
    (facts : s'.facts = s.facts) (conflicts : s'.conflicts = s.conflicts) :
    LineageSince facts₀ s' where
  lineage := by rw [facts]; exact since.lineage
  grouped := by unfold Grouped; rw [facts, conflicts]; exact since.grouped
  kept := by rw [facts]; exact since.kept

theorem write_lineage {host : Host} {facts₀ : Facts} {call : WriteCall} {s s' : Store}
    {o : WriteOutcome} (done : call.apply host s = .ok (s', o)) (since : LineageSince facts₀ s) :
    LineageSince facts₀ s' := by
  obtain ⟨context, -, -, -, branches⟩ := write_cases done
  cases branches with
  | replay prior found sameHash answer frame clients =>
      exact since.of_same (by rw [frame]) (by rw [frame])
  | factless s₀ decision fresh registered decided frame logged answer =>
      exact since.of_same (by rw [frame, registered.frame]) (by rw [frame, registered.frame])
  | typed s₀ s₁ observationId effective d applied fresh registered decided recorded observed accepted
      branch finished =>
      have since₁ : LineageSince facts₀ s₁ :=
        since.of_same (by rw [observed, registered.frame]) (by rw [observed, registered.frame])
      have since₂ := since₁.step branch.2.linkStep (branch.2.grouped since₁.grouped)
      exact since₂.step (finished.linkStep fun target => absurd rfl target)
        (finished.grouped since₂.grouped)
  | untyped s₀ s₁ observationId near applied fresh registered decided recorded observed searched
      accepted branch finished =>
      obtain ⟨-, effect, conflicts, -⟩ := branch
      have known := nearDuplicate_row searched
      have since₁ : LineageSince facts₀ s₁ :=
        since.of_same (by rw [observed, registered.frame]) (by rw [observed, registered.frame])
      have since₂ := since₁.step (effect.linkStep known) (effect.grouped conflicts since₁.grouped)
      exact since₂.step (finished.linkStep fun _ => effect.result_current known)
        (finished.grouped since₂.grouped)

theorem step_lineage {host : Host} {facts₀ : Facts} {op : Op} {s : Store}
    (since : LineageSince facts₀ s) : LineageSince facts₀ (Model.step host op s) := by
  refine step_induction since (fun call s s' o done => write_lineage done)
    (fun call s s' o done since => ?_) (fun call s' o _ done => ?_) (fun s s' aside since => ?_)
  · have effect := resolve_effect done
    exact since.step (effect.linkStep since.lineage since.grouped) (effect.grouped since.grouped)
  · obtain ⟨row, insights, effect⟩ := erase_effect done
    exact since.step effect.linkStep (effect.grouped since.grouped)
  · exact since.of_same (by rw [aside.frame]) (by rw [aside.frame])

theorem lineage_of_reached {host : Host} {s : Store} (reached : Reached host (fun _ _ => True) s) :
    LineageSince Facts.empty s :=
  reached.induction
    { lineage := Lineage.empty
      grouped := fun r mem => absurd mem (Facts.not_mem_empty r)
      kept := fun r mem => absurd mem (Facts.not_mem_empty r) }
    fun _ _ _ since => step_lineage since

/-- The supersession graph of every reachable store: edges lead to facts of the same scope,
leave invalid facts, stay in every later store, and form no cycle. -/
theorem supersession_graph {host : Host} {s : Store} (reached : Reached host (fun _ _ => True) s) :
    (∀ r ∈ s.facts, ∀ k ∈ r.supersededBy, ∃ r' ∈ s.facts, r'.factId = k ∧ r'.scope = r.scope) ∧
      (∀ r ∈ s.facts, r.supersededBy ≠ none → r.invalidAt ≠ none) ∧
      (∀ ops, ∀ r ∈ s.facts, ∀ k ∈ r.supersededBy, ∃ r' ∈ (run (step host) ops s).facts,
        r'.factId = r.factId ∧ r'.supersededBy = some k) ∧
      ∀ k, Ends (successor s.facts) k ∧ ¬ Relation.TransGen (Edge (successor s.facts)) k k := by
  have since := lineage_of_reached reached
  refine ⟨since.lineage.sameScope, since.lineage.invalid, fun ops => ?_, fun k => ?_⟩
  · have start : LineageSince s.facts s :=
      { lineage := since.lineage, grouped := since.grouped
        kept := fun r mem k edge => ⟨r, mem, rfl, edge⟩ }
    have later : LineageSince s.facts (run (Model.step host) ops s) :=
      run_induction (fun _ _ _ since' => step_lineage since') start (Admits.always ops s)
    exact later.kept
  · exact ⟨since.lineage.ends k, (since.lineage.ends k).acyclic⟩

/-- A merged fact points at its survivor. -/
theorem sample_merge_graph :
    successor (run (step Sample.host) Sample.merge Store.empty).facts 1 = some 2 ∧
      Ends (successor (run (step Sample.host) Sample.merge Store.empty).facts) 1 :=
  ⟨by decide +kernel,
    ((supersession_graph ⟨Sample.merge, Admits.always _ _, rfl⟩).2.2.2 1).1⟩

end Enfold.Laws
