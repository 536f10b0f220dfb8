/-
# Laws.Footprint -- what a write may change

A write that raises changes nothing.  One that is rejected or sent to review registers its
connection and appends its log row.  Any other appends one log row and adds at most one
observation, one fact and one conflict; of the facts that were there it changes at most
one, in its own scope, and in no column but `invalid_at`, `superseded_by` and
`conflict_group`.
-/
import Enfold.Laws.WriteEffect

namespace Enfold.Laws

open Enfold.Theory Enfold.Model

set_option autoImplicit false

/-! ## Facts -/

/-- The rows agree but for the lifecycle columns. -/
def SameButLifecycle (r r' : FactRow) : Prop :=
  r' = { r with
    invalidAt := r'.invalidAt, supersededBy := r'.supersededBy, conflictGroup := r'.conflictGroup }

/-- At most one fact is added, and at most one is changed: in the scope, and in its
lifecycle columns. -/
structure FactFootprint (scope : String) (facts facts' : Facts) : Prop where
  added : ∃ new, ∀ r' ∈ facts', r'.factId = new ∨ ∃ r ∈ facts, r.factId = r'.factId
  changed : ∃ old, ∀ r ∈ facts, ∃ r' ∈ facts', r'.factId = r.factId ∧ SameButLifecycle r r' ∧
    (r' ≠ r → r.factId = old ∧ r.scope = scope)

theorem FactFootprint.refl (scope : String) (facts : Facts) : FactFootprint scope facts facts where
  added := ⟨0, fun r mem => .inr ⟨r, mem, rfl⟩⟩
  changed := ⟨0, fun r mem => ⟨r, mem, rfl, rfl, fun other => absurd rfl other⟩⟩

/-- A patch of one new row and one changed row, or fewer. -/
theorem FactFootprint.of_patch {scope : String} {facts facts' : Facts} {patch : List FactRow}
    (patched : FactPatch facts facts' patch) (old : Nat)
    (rows : ∀ p ∈ patch, p.factId = facts.nextId ∨ p.factId = old ∧
      ∃ r ∈ facts, r.factId = old ∧ r.scope = scope ∧ SameButLifecycle r p) :
    FactFootprint scope facts facts' where
  added := by
    refine ⟨facts.nextId, fun r' mem' => ?_⟩
    rcases (patched r').1 mem' with inPatch | ⟨mem, -⟩
    · rcases rows r' inPatch with new | ⟨here, r, mem, same, -⟩
      · exact .inl new
      · exact .inr ⟨r, mem, same.trans here.symm⟩
    · exact .inr ⟨r', mem, rfl⟩
  changed := by
    refine ⟨old, fun r mem => ?_⟩
    by_cases inPatch : r.factId ∈ patch.map FactRow.factId
    · obtain ⟨p, memP, same⟩ := List.mem_map.1 inPatch
      rcases rows p memP with new | ⟨here, r₀, mem₀, same₀, inScope, lifecycle⟩
      · exact absurd (same.symm.trans new) (Facts.nextId_fresh mem)
      · obtain rfl : r = r₀ := Facts.eq_of_id mem mem₀ (by rw [← same, here, same₀])
        exact ⟨p, patched.of_mem memP, same, lifecycle, fun _ => ⟨same₀, inScope⟩⟩
    · exact ⟨r, (patched.mem_iff inPatch).2 mem, rfl, rfl, fun other => absurd rfl other⟩

theorem StateEffect.footprint {tick : Tick} {request : WriteRequest} {candidate : StateCandidate}
    {d : SlotDecision} {s s' : Store} {factId : Nat}
    (effect : StateEffect tick request candidate d s s' factId)
    (sameScope : candidate.scope = request.scope) :
    FactFootprint request.scope s.facts s'.facts := by
  cases effect with
  | repeated r here repeats result same =>
      rw [same]
      exact FactFootprint.refl request.scope s.facts
  | added vacant patch conflicts members result =>
      refine FactFootprint.of_patch patch 0 fun p memP => ?_
      rw [List.mem_singleton.1 memP]
      exact .inl result
  | superseded r only ungrouped patch conflicts members result =>
      obtain ⟨memR, inSlot, -⟩ := mem_of_only only
      refine FactFootprint.of_patch patch r.factId fun p memP => ?_
      rcases List.mem_cons.1 memP with rfl | memP
      · exact .inr ⟨rfl, r, memR, rfl, inSlot.2.1.trans sameScope, rfl⟩
      · rw [List.mem_singleton.1 memP]
        exact .inl result
  | disputed r detail joined only ungrouped patch conflicts member newMember result =>
      obtain ⟨memR, inSlot, -⟩ := mem_of_only only
      refine FactFootprint.of_patch patch r.factId fun p memP => ?_
      rcases List.mem_cons.1 memP with rfl | memP
      · exact .inr ⟨rfl, r, memR, rfl, inSlot.2.1.trans sameScope, rfl⟩
      · rw [List.mem_singleton.1 memP]
        exact .inl result
  | joined r c here group opened patch conflicts newMember result =>
      refine FactFootprint.of_patch patch 0 fun p memP => ?_
      rw [List.mem_singleton.1 memP]
      exact .inl result

theorem UntypedEffect.footprint {tick : Tick} {request : WriteRequest}
    {near : Option NearDuplicateCandidate} {s s' : Store} {factId : Nat}
    (effect : UntypedEffect tick request near s s' factId)
    (known : ∀ c ∈ near, ∃ r ∈ s.facts, r.factId = c.factId ∧ r.scope = request.scope ∧
      r.Current ∧ r.conflictGroup = none) : FactFootprint request.scope s.facts s'.facts := by
  cases effect with
  | repeated r mem inScope sameContent current ungrouped result same =>
      rw [same]
      exact FactFootprint.refl request.scope s.facts
  | inserted unmatched patch result =>
      refine FactFootprint.of_patch patch 0 fun p memP => ?_
      rw [List.mem_singleton.1 memP]
      exact .inl result
  | mergedIntoNew c r found wins mem here current patch result =>
      obtain ⟨r₀, mem₀, here₀, inScope, -⟩ := known c found
      obtain rfl : r = r₀ := Facts.eq_of_id mem mem₀ (here.trans here₀.symm)
      refine FactFootprint.of_patch patch r.factId fun p memP => ?_
      rcases List.mem_cons.1 memP with rfl | memP
      · exact .inl result
      · rw [List.mem_singleton.1 memP]
        exact .inr ⟨rfl, r, mem, rfl, inScope, rfl⟩
  | mergedIntoOld c found loses patch result =>
      refine FactFootprint.of_patch patch 0 fun p memP => ?_
      rw [List.mem_singleton.1 memP]
      exact .inl rfl

/-- A requested supersession comes with no near duplicate, so its target is the one fact
that changes. -/
theorem UntypedEffect.footprint_superseded {tick : Tick} {request : WriteRequest}
    {near : Option NearDuplicateCandidate} {s s' : Store} {factId : Nat} {facts' : Facts}
    {r : FactRow} (effect : UntypedEffect tick request near s s' factId) (unmatched : near = none)
    (mem : r ∈ s'.facts) (distinct : r.factId ≠ factId) (inScope : r.scope = request.scope)
    (superseded : FactPatch s'.facts facts' [supersededRow r tick.recordedAt factId]) :
    FactFootprint request.scope s.facts facts' := by
  cases effect with
  | repeated r₀ mem₀ inScope₀ sameContent current ungrouped result same =>
      rw [same] at mem superseded
      refine FactFootprint.of_patch superseded r.factId fun p memP => ?_
      rw [List.mem_singleton.1 memP]
      exact .inr ⟨rfl, r, mem, rfl, inScope, rfl⟩
  | inserted _ patch result =>
      have old : r ∈ s.facts := (patch.mem_iff (by simpa [plainRow] using distinct)).1 mem
      have both := patch.trans_disjoint superseded (by
        intro x memX
        rw [List.mem_singleton.1 memX]
        simpa [plainRow, supersededRow] using distinct.symm)
      refine FactFootprint.of_patch both r.factId fun p memP => ?_
      rcases List.mem_cons.1 memP with rfl | memP
      · exact .inl result
      · rw [List.mem_singleton.1 memP]
        exact .inr ⟨rfl, r, old, rfl, inScope, rfl⟩
  | mergedIntoNew c _ found => simp [unmatched] at found
  | mergedIntoOld c found => simp [unmatched] at found

/-! ## Whole writes -/

/-- The table has at most one row more, at its end. -/
def GrowsByOne {K R : Type} {key : R → K} (t t' : Table K R key) : Prop :=
  t' = t ∨ ∃ r, t'.rows = t.rows ++ [r]

theorem growsByOne_of_insert? {K R : Type} {key : R → K} [DecidableEq K] {t t' : Table K R key}
    {r : R} (inserted : t.insert? r = some t') : GrowsByOne t t' :=
  .inr ⟨r, Table.rows_of_insert? inserted⟩

/-- A write that stopped at a policy. -/
structure FactlessFootprint (s s' : Store) : Prop where
  frame : s' = { s with clients := s'.clients, sessions := s'.sessions, writeLog := s'.writeLog }
  log : ∃ row, s'.writeLog.rows = s.writeLog.rows ++ [row] ∧ row.factId = none ∧
    row.observationId = none

/-- A write that left a fact. -/
structure DurableFootprint (scope : String) (s s' : Store) : Prop where
  log : ∃ row, s'.writeLog.rows = s.writeLog.rows ++ [row]
  observation : GrowsByOne s.observations s'.observations
  conflict : GrowsByOne s.conflicts s'.conflicts
  facts : FactFootprint scope s.facts s'.facts

/-- The observation of a write. -/
theorem recordObservation_grows {host : Host} {s s' : Store} {context : ConnectionContext}
    {request : WriteRequest} {now : String} {observationId : Nat}
    (recorded : recordObservation host s context request now = .ok (s', observationId)) :
    GrowsByOne s.observations s'.observations := by
  obtain ⟨-, ⟨same, -⟩ | inserted⟩ := recordObservation_eq_ok recorded
  · exact .inl same
  · exact growsByOne_of_insert? inserted

theorem StateEffect.conflict_grows {tick : Tick} {request : WriteRequest}
    {candidate : StateCandidate} {d : SlotDecision} {s s' : Store} {factId : Nat}
    (effect : StateEffect tick request candidate d s s' factId) :
    GrowsByOne s.conflicts s'.conflicts := by
  cases effect with
  | repeated r here repeats result same => exact .inl (by rw [same])
  | added vacant patch conflicts members result => exact .inl conflicts
  | superseded r only ungrouped patch conflicts members result => exact .inl conflicts
  | disputed r detail joined only ungrouped patch conflicts member newMember result =>
      exact growsByOne_of_insert? conflicts
  | joined r c here group opened patch conflicts newMember result => exact .inl conflicts

/-- The candidate a typed write decides about is in the request's scope. -/
theorem decide_scope {service : MemoryWriteService} {s : Store} {tick : Tick}
    {context : ConnectionContext} {request : WriteRequest} {candidate : Option StateCandidate}
    {effective : StateCandidate} {d : SlotDecision}
    (decided : decide service s tick context request candidate = .ok (.proceed (some (effective, d))))
    (valid : validateStateCandidate request candidate = .ok ()) :
    effective.scope = request.scope := by
  obtain ⟨-, filled, -, -⟩ := decide_typed decided
  obtain ⟨original, given, slot, -⟩ := effectiveCandidate_eq_ok filled
  rw [given] at valid
  obtain ⟨-, valid⟩ := require_bind_eq_ok.1 valid
  obtain ⟨-, valid⟩ := require_bind_eq_ok.1 valid
  obtain ⟨scope, -⟩ := require_bind_eq_ok.1 valid
  exact (congrArg Slot.scope slot).trans scope

/-- What finishing a write appends to the log. -/
theorem Finished.log_grows {tick : Tick} {context : ConnectionContext} {request : WriteRequest}
    {requestHash : String} {observationId : Nat} {state : Option SlotDecision} {applied : Applied}
    {s' : Store} {o : WriteOutcome}
    (finished : Finished tick context request requestHash observationId state applied s' o) :
    ∃ row, s'.writeLog.rows = applied.store.writeLog.rows ++ [row] := by
  obtain ⟨detail, inserted, -⟩ := finished.logged
  exact ⟨_, Table.rows_of_insert? inserted⟩

/-- The footprint of a write under a fresh key. -/
theorem write_footprint_of_ok {host : Host} {call : WriteCall} {s s' : Store} {o : WriteOutcome}
    (fresh : loadPrior s call.context.clientId call.request.idempotencyKey = none)
    (done : call.apply host s = .ok (s', o)) :
    (¬ Accepted o.outcome → FactlessFootprint s s') ∧
      (Accepted o.outcome → DurableFootprint call.request.scope s s') := by
  obtain ⟨context, authorized, valid, -, branches⟩ := write_cases done
  obtain ⟨scopes, nonempty, narrowed⟩ := authorizeContext_eq_ok authorized
  have client : context.clientId = call.context.clientId := by rw [narrowed]
  rw [← client] at fresh
  cases branches with
  | replay prior found sameHash answer frame clients =>
      rw [fresh] at found
      cases found
  | factless s₀ decision _ registered decided frame logged answer =>
      refine ⟨fun _ => ?_, fun accepted => ?_⟩
      · have rows := Table.rows_of_insert? logged
        rw [show s₀.writeLog = s.writeLog by rw [registered.frame]] at rows
        exact { frame := by rw [frame, registered.frame], log := ⟨_, rows, rfl, rfl⟩ }
      · obtain ⟨-, outcome, -⟩ := make_eq_ok answer
        rw [outcome] at accepted
        rcases decision.factless with rejected | review
        · exact absurd rejected accepted.1
        · exact absurd review accepted.2
  | typed s₀ s₁ observationId effective d applied _ registered decided recorded observed accepted
      branch finished =>
      refine ⟨fun factless => absurd (finished.outcome.2.1 ▸ accepted) factless, fun _ => ?_⟩
      obtain ⟨frame, effect⟩ := branch
      have facts : s₁.facts = s.facts := by rw [observed, registered.frame]
      have footprint := effect.footprint (decide_scope decided valid)
      refine { log := ?_, observation := ?_, conflict := ?_, facts := ?_ }
      · have same : applied.store.writeLog = s.writeLog := by rw [frame, observed, registered.frame]
        rw [← same]
        exact finished.log_grows
      · have before : s₀.observations = s.observations := by rw [registered.frame]
        have after : s'.observations = s₁.observations := by rw [finished.frame, frame]
        rw [← before, after]
        exact recordObservation_grows recorded
      · have before : s₁.conflicts = s.conflicts := by rw [observed, registered.frame]
        have after : s'.conflicts = applied.store.conflicts := by rw [finished.frame]
        rw [← before, after]
        exact effect.conflict_grows
      · rcases finished.superseded with ⟨-, same⟩ | ⟨r, -, target, -⟩
        · rw [same, ← facts]
          exact footprint
        · cases target
  | untyped s₀ s₁ observationId near applied _ registered decided recorded observed searched
      accepted branch finished =>
      refine ⟨fun factless => absurd (finished.outcome.2.1 ▸ accepted) factless, fun _ => ?_⟩
      obtain ⟨frame, effect, conflicts, members⟩ := branch
      have facts : s₁.facts = s.facts := by rw [observed, registered.frame]
      refine { log := ?_, observation := ?_, conflict := ?_, facts := ?_ }
      · have same : applied.store.writeLog = s.writeLog := by rw [frame, observed, registered.frame]
        rw [← same]
        exact finished.log_grows
      · have before : s₀.observations = s.observations := by rw [registered.frame]
        have after : s'.observations = s₁.observations := by rw [finished.frame, frame]
        rw [← before, after]
        exact recordObservation_grows recorded
      · exact .inl (by rw [finished.frame, conflicts, observed, registered.frame])
      · rw [← facts]
        rcases finished.superseded with ⟨-, same⟩ | ⟨r, mem, target, distinct, scope, -, -, -, patch⟩
        · rw [same]
          exact effect.footprint (nearDuplicate_row searched)
        · have requested : call.request.supersedeFactId = some r.factId := target
          rw [nearDuplicate_of_requested (by simp [requested])] at searched
          cases searched
          exact effect.footprint_superseded rfl mem distinct scope patch

/-- The footprint of every write that is not the replay of a logged key. -/
theorem write_footprint (host : Host) (call : WriteCall) (s : Store)
    (fresh : loadPrior s call.context.clientId call.request.idempotencyKey = none) :
    (∀ e, call.apply host s = .error e → step host (.write call) s = s) ∧
      ∀ s' o, call.apply host s = .ok (s', o) → step host (.write call) s = s' ∧
        (¬ Accepted o.outcome → FactlessFootprint s s') ∧
        (Accepted o.outcome → DurableFootprint call.request.scope s s') := by
  refine ⟨fun e raised => ?_, fun s' o done => ⟨?_, write_footprint_of_ok fresh done⟩⟩
  · rw [step, raised]
    rfl
  · rw [step, done]
    rfl

/-- The write that opens the sample dispute: one fact changed, one added. -/
theorem sample_write_footprint :
    ∃ s' o, Sample.blue.apply Sample.host (step Sample.host (.write Sample.red) Store.empty) =
        .ok (s', o) ∧ o.outcome = .conflict ∧
      DurableFootprint "work" (step Sample.host (.write Sample.red) Store.empty) s' := by
  have outcome : ((Sample.blue.apply Sample.host
      (step Sample.host (.write Sample.red) Store.empty)).toOption.map fun result =>
        result.2.outcome) = some .conflict := by decide +kernel
  have fresh : loadPrior (step Sample.host (.write Sample.red) Store.empty)
      Sample.blue.context.clientId Sample.blue.request.idempotencyKey = none := by decide +kernel
  cases done : Sample.blue.apply Sample.host (step Sample.host (.write Sample.red) Store.empty) with
  | error e =>
      rw [done] at outcome
      cases outcome
  | ok result =>
      rw [done] at outcome
      have conflict : result.2.outcome = .conflict := Option.some.inj outcome
      obtain ⟨-, -, footprint⟩ := (write_footprint Sample.host Sample.blue
        (step Sample.host (.write Sample.red) Store.empty) fresh).2 result.1 result.2 done
      exact ⟨result.1, result.2, rfl, conflict, footprint (by rw [conflict]; decide)⟩

end Enfold.Laws
