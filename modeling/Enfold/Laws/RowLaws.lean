/-
# Laws.RowLaws -- properties of single rows

Apart from the rows a write inserts, operations change a fact in two ways only: they move
it through its lifecycle (`invalid_at`, `superseded_by`, `conflict_group`), or an erasure
scrubs it.  A property of rows that survives both and holds of inserted rows holds of every
fact of every reachable store (`RowLaw.of_reached`).

The last section is the one law of this kind for observations: their ids are positive.
-/
import Enfold.Laws.Steps

namespace Enfold.Laws

open Enfold.Theory Enfold.Model

set_option autoImplicit false

/-- A property that no lifecycle change breaks. -/
def Moves (Q : FactRow → Prop) : Prop :=
  ∀ r invalidAt supersededBy conflictGroup, Q r →
    Q { r with invalidAt := invalidAt, supersededBy := supersededBy, conflictGroup := conflictGroup }

namespace Moves

variable {Q : FactRow → Prop}

theorem of_patch {facts facts' : Facts} {patch : List FactRow} (rows : ∀ r ∈ facts, Q r)
    (patched : FactPatch facts facts' patch) (new : ∀ r ∈ patch, Q r) : ∀ r ∈ facts', Q r := by
  intro r mem
  rcases (patched r).1 mem with inPatch | ⟨old, -⟩
  · exact new r inPatch
  · exact rows r old

theorem of_map {facts facts' : Facts} {g : FactRow → FactRow} (rows : ∀ r ∈ facts, Q r)
    (map : FactMap facts facts' g) (kept : ∀ r, Q r → Q (g r)) : ∀ r ∈ facts', Q r := by
  intro r' mem'
  obtain ⟨r, mem, rfl⟩ := (map r').1 mem'
  exact kept r (rows r mem)

variable (moves : Moves Q)

include moves

theorem superseded {r : FactRow} {moment : String} {survivor : Nat} (holds : Q r) :
    Q (supersededRow r moment survivor) :=
  moves r (some moment) (some survivor) r.conflictGroup holds

theorem resolved {members : List Nat} {winner : Nat} {moment : String} {r : FactRow} (holds : Q r) :
    Q (resolvedRow members winner moment r) := by
  unfold resolvedRow
  split
  · exact moves r r.invalidAt r.supersededBy none holds
  · split
    · exact moves.superseded holds
    · exact holds

theorem stateEffect {tick : Tick} {request : WriteRequest} {candidate : StateCandidate}
    {d : SlotDecision} {s s' : Store} {factId : Nat}
    (effect : StateEffect tick request candidate d s s' factId)
    (rows : ∀ r ∈ s.facts, Q r) (new : ∀ group, Q (stateRow tick request candidate group factId)) :
    ∀ r ∈ s'.facts, Q r := by
  cases effect with
  | repeated r here repeats result same =>
      rw [same]
      exact rows
  | added vacant patch conflicts members result =>
      refine of_patch rows patch ?_
      simpa using new none
  | superseded r only ungrouped patch conflicts members result =>
      refine of_patch rows patch ?_
      simpa using ⟨moves.superseded (rows r (mem_of_only only).1), new none⟩
  | disputed r detail joined only ungrouped patch conflicts member newMember result =>
      refine of_patch rows patch ?_
      simpa using ⟨moves r r.invalidAt r.supersededBy (some tick.conflictId.text)
        (rows r (mem_of_only only).1), new (some tick.conflictId.text)⟩
  | joined r c here group opened patch conflicts newMember result =>
      refine of_patch rows patch ?_
      simpa using new (some c.conflictId)

theorem untypedEffect {tick : Tick} {request : WriteRequest} {near : Option NearDuplicateCandidate}
    {s s' : Store} {factId : Nat} (effect : UntypedEffect tick request near s s' factId)
    (rows : ∀ r ∈ s.facts, Q r) (new : ∀ id, Q (plainRow tick request id)) :
    ∀ r ∈ s'.facts, Q r := by
  cases effect with
  | repeated r mem inScope sameContent current ungrouped result same =>
      rw [same]
      exact rows
  | inserted unmatched patch result =>
      refine of_patch rows patch ?_
      simpa using new factId
  | mergedIntoNew c r found wins mem here current patch result =>
      refine of_patch rows patch ?_
      simpa using ⟨new factId, moves.superseded (rows r mem)⟩
  | mergedIntoOld c found loses patch result =>
      refine of_patch rows patch ?_
      simpa using moves.superseded (new s.facts.nextId)

theorem finished {tick : Tick} {context : ConnectionContext} {request : WriteRequest}
    {requestHash : String} {observationId : Nat} {state : Option SlotDecision} {applied : Applied}
    {s' : Store} {o : WriteOutcome}
    (done : Finished tick context request requestHash observationId state applied s' o)
    (rows : ∀ r ∈ applied.store.facts, Q r) : ∀ r ∈ s'.facts, Q r := by
  rcases done.superseded with ⟨-, same⟩ | ⟨r, mem, -, -, -, -, -, -, patch⟩
  · rw [same]
    exact rows
  · refine of_patch rows patch ?_
    simpa using moves.superseded (rows r mem)

/-- A write keeps the property when the rows that it inserts, once it has passed the policy,
have it. -/
theorem write {host : Host} {call : WriteCall} {s s' : Store} {o : WriteOutcome}
    (done : call.apply host s = .ok (s', o)) (rows : ∀ r ∈ s.facts, Q r)
    (plain : ∀ context s₀, policyDecision call.service s₀ context call.request call.candidate =
      .ok none → ∀ factId, Q (plainRow call.tick call.request factId))
    (typed : ∀ context s₀ effective,
      policyDecision call.service s₀ context call.request call.candidate = .ok none →
        effectiveCandidate call.tick call.request call.candidate = .ok (some effective) →
          ∀ group factId, Q (stateRow call.tick call.request effective group factId)) :
    ∀ r ∈ s'.facts, Q r := by
  obtain ⟨context, -, -, -, branches⟩ := write_cases done
  cases branches with
  | replay prior found sameHash answer frame clients =>
      rw [frame]
      exact rows
  | factless s₀ decision fresh registered decided frame logged answer =>
      rw [frame, registered.frame]
      exact rows
  | typed s₀ s₁ observationId effective d applied fresh registered decided recorded observed accepted
      branch finished =>
      have before : s₁.facts = s.facts := by rw [observed, registered.frame]
      obtain ⟨passed, filled, -⟩ := decide_typed decided
      refine moves.finished finished (moves.stateEffect branch.2 (by rwa [before]) ?_)
      exact fun group => typed context s₀ effective passed filled group _
  | untyped s₀ s₁ observationId near applied fresh registered decided recorded observed searched
      accepted branch finished =>
      have before : s₁.facts = s.facts := by rw [observed, registered.frame]
      refine moves.finished finished (moves.untypedEffect branch.2.1 (by rwa [before]) ?_)
      exact plain context s₀ (decide_untyped decided).2

end Moves

/-- A property that inserted rows have and that no lifecycle change and no scrub breaks. -/
structure RowLaw (Q : FactRow → Prop) : Prop where
  plain : ∀ tick request factId, Q (plainRow tick request factId)
  typed : ∀ tick request candidate group factId, Q (stateRow tick request candidate group factId)
  moved : Moves Q
  scrubbed : ∀ tick factId r, Q r → Q (scrubbedRow tick factId r)

namespace RowLaw

variable {Q : FactRow → Prop} (law : RowLaw Q)

include law

theorem erased {tick : ErasureTick} {factId : Nat} {insights ungrouped : List Nat} {r : FactRow}
    (holds : Q r) : Q (erasedRow tick factId insights ungrouped r) := by
  have scrubbed := law.scrubbed tick factId r holds
  have invalidated : Q (invalidatedRow insights tick.erasedAt (scrubbedRow tick factId r)) := by
    unfold invalidatedRow
    split
    · exact law.moved _ (some tick.erasedAt) (scrubbedRow tick factId r).supersededBy
        (scrubbedRow tick factId r).conflictGroup scrubbed
    · exact scrubbed
  unfold erasedRow ungroupedRow
  split
  · exact law.moved _ (invalidatedRow insights tick.erasedAt (scrubbedRow tick factId r)).invalidAt
      (invalidatedRow insights tick.erasedAt (scrubbedRow tick factId r)).supersededBy none invalidated
  · exact invalidated

/-- Every operation keeps the law. -/
theorem step {host : Host} {op : Op} {s : Store} (rows : ∀ r ∈ s.facts, Q r) :
    ∀ r ∈ (Model.step host op s).facts, Q r := by
  refine step_induction (P := fun s => ∀ r ∈ s.facts, Q r) rows
    (fun call s s' o done rows => ?_) (fun call s s' o done rows => ?_)
    (fun call s' o _ done => ?_) (fun s s' aside rows => ?_)
  · exact law.moved.write done rows (fun _ _ _ => law.plain call.tick call.request)
      fun _ _ effective _ _ => law.typed call.tick call.request effective
  · exact Moves.of_map rows (resolve_effect done).facts fun r holds => law.moved.resolved holds
  · obtain ⟨row, insights, effect⟩ := erase_effect done
    exact Moves.of_map rows effect.facts fun r holds => law.erased holds
  · rw [aside.frame]
    exact rows

/-- Every fact of a reachable store obeys the law. -/
theorem of_reached {host : Host} {ok : Op → Store → Prop} {s : Store} (reached : Reached host ok s) :
    ∀ r ∈ s.facts, Q r :=
  reached.induction (P := fun s => ∀ r ∈ s.facts, Q r)
    (fun r mem => absurd mem (Facts.not_mem_empty r)) fun _ _ _ rows => law.step rows

end RowLaw

/-! ## State facts have a slot -/

/-- A state fact has a slot whose parts are validated texts, so that it can be asked for. -/
def Addressable (r : FactRow) : Prop :=
  r.memoryKind = some "state" →
    ∃ k, r.InSlot k ∧ Required k.scope ∧ Required k.subjectKey ∧ Required k.predicateKey

theorem addressable : RowLaw Addressable where
  plain tick request factId kind := by cases kind
  typed tick request candidate group factId _ :=
    ⟨candidate.slot, stateRow_inSlot group factId, candidate.scopeValid, candidate.subjectValid,
      candidate.predicateValid⟩
  moved r _ _ _ holds kind := holds kind
  scrubbed tick factId r holds kind := by
    unfold scrubbedRow at kind ⊢
    split at kind
    · simp at kind
    · rename_i other
      rw [if_neg other]
      exact holds kind

/-! ## Observation ids -/

/-- A write builds its outcome from the id its observation got. -/
theorem write_observations_positive {host : Host} {call : WriteCall} {s s' : Store}
    {o : WriteOutcome} (done : call.apply host s = .ok (s', o))
    (positive : ∀ x ∈ s.observations, 0 < x.observationId) :
    ∀ x ∈ s'.observations, 0 < x.observationId := by
  have recorded : ∀ {s₀ s₁ : Store} {context : ConnectionContext} {observationId : Nat},
      Registered s s₀ → recordObservation host s₀ context call.request call.tick.recordedAt =
        .ok (s₁, observationId) → 0 < observationId → ∀ x ∈ s₁.observations, 0 < x.observationId := by
    intro s₀ s₁ context observationId registered recorded new x mem
    have before : s₀.observations = s.observations := by rw [registered.frame]
    rcases recordObservation_eq_ok recorded with ⟨-, ⟨same, -⟩ | inserted⟩
    · rw [same, before] at mem
      exact positive x mem
    · rcases (Table.mem_of_insert? inserted).1 mem with old | rfl
      · rw [before] at old
        exact positive x old
      · exact new
  obtain ⟨context, -, -, -, branches⟩ := write_cases done
  cases branches with
  | replay prior found sameHash answer frame clients =>
      rw [frame]
      exact positive
  | factless s₀ decision fresh registered decided frame logged answer =>
      rw [frame, registered.frame]
      exact positive
  | typed s₀ s₁ observationId effective d applied fresh registered decided record observed accepted
      branch finished =>
      have after : s'.observations = s₁.observations := by rw [finished.frame, branch.1]
      rw [after]
      exact recorded registered record (o.observationPositive _ finished.outcome.2.2.2.2.1)
  | untyped s₀ s₁ observationId near applied fresh registered decided record observed searched
      accepted branch finished =>
      have after : s'.observations = s₁.observations := by rw [finished.frame, branch.1]
      rw [after]
      exact recorded registered record (o.observationPositive _ finished.outcome.2.2.2.2.1)

theorem observations_positive {host : Host} {ok : Op → Store → Prop} {s : Store}
    (reached : Reached host ok s) : ∀ x ∈ s.observations, 0 < x.observationId := by
  refine reached.induction (P := fun s => ∀ x ∈ s.observations, 0 < x.observationId)
    (fun x mem => absurd mem (Table.not_mem_empty x)) fun op s _ positive => ?_
  refine step_induction (P := fun s => ∀ x ∈ s.observations, 0 < x.observationId) positive
    (fun call s s' o done => write_observations_positive done) (fun call s s' o done positive => ?_)
    (fun call s' o _ done => ?_) (fun s s' aside positive => ?_)
  · rw [(resolve_effect done).frame]
    exact positive
  · obtain ⟨row, insights, effect⟩ := erase_effect done
    intro x' mem'
    obtain ⟨x, mem, rfl⟩ := (effect.observations x').1 mem'
    have same : (erasedObservation call.tick (linkedObservations s call.factId) x).observationId =
        x.observationId := by
      unfold erasedObservation
      split <;> rfl
    rw [same]
    exact positive x mem
  · rw [aside.frame]
    exact positive

end Enfold.Laws
