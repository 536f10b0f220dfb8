/-
# Laws.FixedColumns -- columns that no statement changes

After its insert a fact is rewritten in three ways: it is superseded, its conflict group is
set or cleared, and it is erased.  What the first two leave alone (`Unmoved`) a row keeps through
every write and resolution; what all three leave alone (`Fixed`) it keeps through every operation
(`step_keeps`), and so through every run (`run_keeps`).  The authority of a fact, its times and
its correction status are fixed; its slot is only unmoved.
-/
import Enfold.Laws.ResolveEffect
import Enfold.Laws.Steps

namespace Enfold.Laws

open Enfold.Theory Enfold.Model

set_option autoImplicit false

/-- A part of a row that the end of its life does not touch. -/
structure Unmoved {α : Type} (part : FactRow → α) : Prop where
  superseded : ∀ r moment survivor, part (supersededRow r moment survivor) = part r
  grouped : ∀ (r : FactRow) group, part { r with conflictGroup := group } = part r

/-- A part of a row that no rewriting of facts touches. -/
structure Fixed {α : Type} (part : FactRow → α) : Prop extends Unmoved part where
  erased : ∀ tick factId insights ungrouped r,
    part (erasedRow tick factId insights ungrouped r) = part r

/-- Every fact is still there, with the same part. -/
def Keeps {α : Type} (part : FactRow → α) (facts facts' : Facts) : Prop :=
  ∀ r ∈ facts, ∃ r' ∈ facts', r'.factId = r.factId ∧ part r' = part r

section

variable {α : Type} {part : FactRow → α}

namespace Keeps

variable {facts facts' facts'' : Facts}

theorem refl (facts : Facts) : Keeps part facts facts := fun r mem => ⟨r, mem, rfl, rfl⟩

theorem trans (first : Keeps part facts facts') (second : Keeps part facts' facts'') :
    Keeps part facts facts'' := by
  intro r mem
  obtain ⟨r', mem', same, kept⟩ := first r mem
  obtain ⟨r'', mem'', same', kept'⟩ := second r' mem'
  exact ⟨r'', mem'', same'.trans same, kept'.trans kept⟩

/-- What a row with the id of an old one has of it. -/
theorem row (keeps : Keeps part facts facts') {r r' : FactRow} (mem : r ∈ facts)
    (mem' : r' ∈ facts') (same : r'.factId = r.factId) : part r' = part r := by
  obtain ⟨r₁, mem₁, same₁, kept⟩ := keeps r mem
  rw [Facts.eq_of_id mem' mem₁ (same.trans same₁.symm)]
  exact kept

/-- A patch that repeats the part of every row it replaces. -/
theorem of_patch {patch : List FactRow} (patched : FactPatch facts facts' patch)
    (olds : ∀ p ∈ patch, ∀ r ∈ facts, r.factId = p.factId → part p = part r) :
    Keeps part facts facts' := by
  intro r mem
  by_cases inPatch : r.factId ∈ patch.map FactRow.factId
  · obtain ⟨p, memP, same⟩ := List.mem_map.1 inPatch
    exact ⟨p, patched.of_mem memP, same, olds p memP r mem same.symm⟩
  · exact ⟨r, (patched.mem_iff inPatch).2 mem, rfl, rfl⟩

theorem of_map {g : FactRow → FactRow} (map : FactMap facts facts' g)
    (kept : ∀ r, (g r).factId = r.factId ∧ part (g r) = part r) : Keeps part facts facts' :=
  fun r mem => ⟨g r, map.of_mem mem, kept r⟩

end Keeps

/-! ## Operations -/

section Unmoved

variable (unmoved : Unmoved part)

include unmoved

section Write

variable {tick : Tick} {request : WriteRequest} {s s' : Store} {factId : Nat}

theorem StateEffect.keeps {candidate : StateCandidate} {d : SlotDecision}
    (effect : StateEffect tick request candidate d s s' factId) :
    Keeps part s.facts s'.facts := by
  have new : ∀ group, ∀ r ∈ s.facts, r.factId =
      (stateRow tick request candidate group s.facts.nextId).factId →
        part (stateRow tick request candidate group s.facts.nextId) = part r :=
    fun _ r mem same => absurd same (Facts.nextId_fresh mem)
  cases effect with
  | repeated r here repeats result same =>
      rw [same]
      exact Keeps.refl s.facts
  | added vacant patch conflicts members result =>
      subst result
      exact Keeps.of_patch patch (by simpa using new none)
  | superseded r only ungrouped patch conflicts members result =>
      subst result
      refine Keeps.of_patch patch fun p memP r' mem' same => ?_
      rcases List.mem_cons.1 memP with rfl | memP
      · rw [Facts.eq_of_id mem' (mem_of_only only).1 same]
        exact unmoved.superseded r _ _
      · rw [List.mem_singleton.1 memP] at same ⊢
        exact new none r' mem' same
  | disputed r detail joined only ungrouped patch conflicts member newMember result =>
      subst result
      refine Keeps.of_patch patch fun p memP r' mem' same => ?_
      rcases List.mem_cons.1 memP with rfl | memP
      · rw [Facts.eq_of_id mem' (mem_of_only only).1 same]
        exact unmoved.grouped r _
      · rw [List.mem_singleton.1 memP] at same ⊢
        exact new (some tick.conflictId.text) r' mem' same
  | joined r c here group opened patch conflicts newMember result =>
      subst result
      exact Keeps.of_patch patch (by simpa using new (some c.conflictId))

theorem UntypedEffect.keeps {near : Option NearDuplicateCandidate}
    (effect : UntypedEffect tick request near s s' factId) : Keeps part s.facts s'.facts := by
  have new : ∀ r ∈ s.facts, r.factId ≠ s.facts.nextId := fun r mem => Facts.nextId_fresh mem
  cases effect with
  | repeated r mem inScope sameContent current ungrouped result same =>
      rw [same]
      exact Keeps.refl s.facts
  | inserted unmatched patch result =>
      subst result
      refine Keeps.of_patch patch fun p memP r mem same => ?_
      rw [List.mem_singleton.1 memP] at same
      exact absurd same (new r mem)
  | mergedIntoNew c r found wins mem here current patch result =>
      subst result
      refine Keeps.of_patch patch fun p memP r' mem' same => ?_
      rcases List.mem_cons.1 memP with rfl | memP
      · exact absurd same (new r' mem')
      · rw [List.mem_singleton.1 memP] at same ⊢
        rw [Facts.eq_of_id mem' mem same]
        exact unmoved.superseded r _ _
  | mergedIntoOld c found loses patch result =>
      refine Keeps.of_patch patch fun p memP r' mem' same => ?_
      rw [List.mem_singleton.1 memP] at same
      exact absurd same (new r' mem')

theorem Finished.keeps {context : ConnectionContext} {requestHash : String} {observationId : Nat}
    {state : Option SlotDecision} {applied : Applied} {o : WriteOutcome}
    (finished : Finished tick context request requestHash observationId state applied s' o) :
    Keeps part applied.store.facts s'.facts := by
  rcases finished.superseded with ⟨-, facts⟩ | ⟨r, mem, -, -, -, -, -, -, patch⟩
  · rw [facts]
    exact Keeps.refl _
  · refine Keeps.of_patch patch fun p memP r' mem' same => ?_
    rw [List.mem_singleton.1 memP] at same ⊢
    rw [Facts.eq_of_id mem' mem same]
    exact unmoved.superseded r _ _

end Write

theorem write_keeps {host : Host} {call : WriteCall} {s s' : Store} {o : WriteOutcome}
    (done : call.apply host s = .ok (s', o)) : Keeps part s.facts s'.facts := by
  obtain ⟨context, -, -, -, branches⟩ := write_cases done
  cases branches with
  | replay prior found sameHash answer frame clients =>
      rw [frame]
      exact Keeps.refl s.facts
  | factless s₀ decision fresh registered decided frame logged answer =>
      rw [frame, registered.frame]
      exact Keeps.refl s.facts
  | typed s₀ s₁ observationId effective d applied fresh registered decided recorded observed accepted
      branch finished =>
      have before : s₁.facts = s.facts := by rw [observed, registered.frame]
      rw [← before]
      exact (branch.2.keeps unmoved).trans (finished.keeps unmoved)
  | untyped s₀ s₁ observationId near applied fresh registered decided recorded observed searched
      accepted branch finished =>
      have before : s₁.facts = s.facts := by rw [observed, registered.frame]
      rw [← before]
      exact (branch.2.1.keeps unmoved).trans (finished.keeps unmoved)

theorem ResolveEffect.keeps {s s' : Store} {conflictId : String} {winner : Nat}
    {moment resolvedBy reason : String}
    (effect : ResolveEffect s s' conflictId winner moment resolvedBy reason) :
    Keeps part s.facts s'.facts := by
  refine Keeps.of_map effect.facts fun r => ⟨resolvedRow_factId _ _ _ r, ?_⟩
  unfold resolvedRow
  split
  · exact unmoved.grouped r _
  split
  · exact unmoved.superseded r _ _
  · rfl

end Unmoved

/-! ## Runs -/

variable (fixed : Fixed part)

include fixed

theorem step_keeps {host : Host} (op : Op) (s : Store) :
    Keeps part s.facts (Model.step host op s).facts := by
  refine step_induction (P := fun s' => Keeps part s.facts s'.facts) (Keeps.refl s.facts)
    (fun call s₁ s₂ o done kept => kept.trans (write_keeps fixed.toUnmoved done))
    (fun call s₁ s₂ o done kept => kept.trans ((resolve_effect done).keeps fixed.toUnmoved))
    (fun call s' o _ done => ?_) (fun s₁ s₂ aside kept => ?_)
  · obtain ⟨row, insights, effect⟩ := erase_effect done
    exact Keeps.of_map effect.facts fun r =>
      ⟨erasedRow_factId _ _ _ _ r, fixed.erased _ _ _ _ r⟩
  · rw [aside.frame]
    exact kept

theorem run_keeps {host : Host} (ops : List Op) (s : Store) :
    Keeps part s.facts (run (step host) ops s).facts :=
  run_induction (P := fun s' => Keeps part s.facts s'.facts)
    (fun op s' _ kept => kept.trans (step_keeps fixed op s')) (Keeps.refl s.facts)
    (Admits.always ops s)

end

/-! ## The columns -/

/-- Valid from, created, source authority and correction status. -/
def fixedColumns (r : FactRow) : Option String × String × Option Decimal × Option String :=
  (r.validFrom, r.createdAt, r.sourceAuthority, r.correctionStatus)

theorem fixedColumns_fixed : Fixed fixedColumns where
  superseded _ _ _ := rfl
  grouped _ _ := rfl
  erased _ _ _ _ _ := by
    simp only [erasedRow, ungroupedRow, invalidatedRow, scrubbedRow]
    split_ifs <;> rfl

end Enfold.Laws
