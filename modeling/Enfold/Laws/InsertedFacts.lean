/-
# Laws.InsertedFacts -- the facts a step adds to a slot

No operation but a write adds a fact (`unwritten_adds_none`), and a write adds one with a slot only
in a typed branch (`inserted_typed`).  A fact that was there keeps its slot, unless it is erased
and loses it (`step_fades`), and has a validity time as long as it has one (`dated_of_run`).
-/
import Enfold.Laws.FixedColumns
import Enfold.Laws.RowLaws
import Enfold.Model.ReadRoutes

namespace Enfold.Laws

open Enfold.Theory Enfold.Model

set_option autoImplicit false

/-! ## Slots of facts that are there -/

/-- Scope, subject and predicate. -/
def slotColumns (r : FactRow) : String × Option String × Option String :=
  (r.scope, r.subjectKey, r.predicateKey)

theorem slotColumns_unmoved : Unmoved slotColumns where
  superseded _ _ _ := rfl
  grouped _ _ := rfl

theorem inHistory_congr {scopes : List String} {subject predicate : String} {r r' : FactRow}
    (same : slotColumns r' = slotColumns r) :
    r'.InHistory scopes subject predicate ↔ r.InHistory scopes subject predicate := by
  obtain ⟨scope, rest⟩ := Prod.mk.inj same
  obtain ⟨subject, predicate⟩ := Prod.mk.inj rest
  unfold FactRow.InHistory
  rw [scope, subject, predicate]

/-- Every fact is still there, with its slot or without one. -/
def Fades (facts facts' : Facts) : Prop :=
  ∀ r ∈ facts, ∃ r' ∈ facts', r'.factId = r.factId ∧
    (r'.subjectKey ≠ none → slotColumns r' = slotColumns r)

namespace Fades

variable {facts facts' facts'' : Facts}

theorem refl (facts : Facts) : Fades facts facts := fun r mem => ⟨r, mem, rfl, fun _ => rfl⟩

theorem trans (first : Fades facts facts') (second : Fades facts' facts'') :
    Fades facts facts'' := by
  intro r mem
  obtain ⟨r', mem', same, kept⟩ := first r mem
  obtain ⟨r'', mem'', same', kept'⟩ := second r' mem'
  refine ⟨r'', mem'', same'.trans same, fun keyed => ?_⟩
  have columns := kept' keyed
  have subject : r''.subjectKey = r'.subjectKey := congrArg (fun p => p.2.1) columns
  exact columns.trans (kept (subject ▸ keyed))

theorem of_keeps (keeps : Keeps slotColumns facts facts') : Fades facts facts' := by
  intro r mem
  obtain ⟨r', mem', same, kept⟩ := keeps r mem
  exact ⟨r', mem', same, fun _ => kept⟩

end Fades

theorem erasedRow_slot (tick : ErasureTick) (factId : Nat) (insights ungrouped : List Nat)
    (r : FactRow) (keyed : (erasedRow tick factId insights ungrouped r).subjectKey ≠ none) :
    slotColumns (erasedRow tick factId insights ungrouped r) = slotColumns r := by
  have shape : slotColumns (erasedRow tick factId insights ungrouped r) =
      slotColumns (scrubbedRow tick factId r) := by
    unfold erasedRow ungroupedRow invalidatedRow
    split_ifs <;> rfl
  have subject : (erasedRow tick factId insights ungrouped r).subjectKey =
      (scrubbedRow tick factId r).subjectKey := congrArg (fun p => p.2.1) shape
  rw [subject] at keyed
  rw [shape]
  unfold scrubbedRow at keyed ⊢
  split at keyed
  · exact absurd rfl keyed
  · rename_i other
    rw [if_neg other]

theorem step_fades {host : Host} (op : Op) (s : Store) :
    Fades s.facts (Model.step host op s).facts := by
  refine step_induction (P := fun s' => Fades s.facts s'.facts) (Fades.refl s.facts)
    (fun call s₁ s₂ o done kept => kept.trans (.of_keeps (write_keeps slotColumns_unmoved done)))
    (fun call s₁ s₂ o done kept => kept.trans
      (.of_keeps ((resolve_effect done).keeps slotColumns_unmoved)))
    (fun call s' o _ done => ?_) (fun s₁ s₂ aside kept => ?_)
  · obtain ⟨row, insights, effect⟩ := erase_effect done
    intro r mem
    exact ⟨_, effect.facts.of_mem mem, erasedRow_factId _ _ _ _ r, erasedRow_slot _ _ _ _ r⟩
  · rw [aside.frame]
    exact kept

/-! ## New facts -/

/-- No fact of the store has the id. -/
def New (facts : Facts) (new : FactRow) : Prop := ∀ r ∈ facts, r.factId ≠ new.factId

theorem unwritten_adds_none {host : Host} {op : Op} {s : Store}
    (unwritten : ∀ call, op ≠ .write call) :
    ∀ r' ∈ (Model.step host op s).facts, ¬ New s.facts r' := by
  suffices ∀ r' ∈ (Model.step host op s).facts, ∃ r ∈ s.facts, r.factId = r'.factId by
    intro r' mem' new
    obtain ⟨r, mem, same⟩ := this r' mem'
    exact new r mem same
  refine step_induction_of_unwritten
    (P := fun s' => ∀ r' ∈ s'.facts, ∃ r ∈ s.facts, r.factId = r'.factId) unwritten
    (fun r mem => ⟨r, mem, rfl⟩) (fun call s₁ s₂ o done known => ?_) (fun call s' o _ done => ?_)
    (fun s₁ s₂ aside known => ?_)
  · intro r' mem'
    obtain ⟨r₁, mem₁, rfl⟩ := ((resolve_effect done).facts r').1 mem'
    obtain ⟨r, mem, same⟩ := known r₁ mem₁
    exact ⟨r, mem, same.trans (resolvedRow_factId _ _ _ r₁).symm⟩
  · obtain ⟨row, insights, effect⟩ := erase_effect done
    intro r' mem'
    obtain ⟨r, mem, rfl⟩ := (effect.facts r').1 mem'
    exact ⟨r, mem, (erasedRow_factId _ _ _ _ r).symm⟩
  · rw [aside.frame]
    exact known

section Write

variable {host : Host} {call : WriteCall} {s s' : Store} {o : WriteOutcome} {new : FactRow}

/-- What a typed branch decided on the store with the observation, and what it did to that store. -/
structure TypedBranch (call : WriteCall) (s s' : Store) (candidate : StateCandidate)
    (d : SlotDecision) (observed applied : Store) (factId : Nat) : Prop where
  before : observed.facts = s.facts
  after : s'.facts = applied.facts
  filled : effectiveCandidate call.tick call.request call.candidate = .ok (some candidate)
  kind : candidate.memoryKind = "state"
  decided : decideStateWrite observed candidate = .ok d
  effect : StateEffect call.tick call.request candidate d observed applied factId

/-- A typed write leaves the facts alone or takes a typed branch. -/
theorem write_typed (done : call.apply host s = .ok (s', o)) (typed : call.candidate ≠ none) :
    s'.facts = s.facts ∨ ∃ candidate d observed applied factId,
      TypedBranch call s s' candidate d observed applied factId := by
  obtain ⟨context, -, valid, -, branches⟩ := write_cases done
  cases branches with
  | replay prior found sameHash answer frame clients => exact .inl (by rw [frame])
  | factless s₀ decision fresh registered decided frame logged answer =>
      exact .inl (by rw [frame, registered.frame])
  | typed s₀ s₁ observationId effective d applied fresh registered decided recorded observed accepted
      branch finished =>
      obtain ⟨-, filled, stateDecided, -⟩ := decide_typed decided
      obtain ⟨original, given, -, -, -, sameKind, -⟩ := effectiveCandidate_eq_ok filled
      rw [given] at valid
      rcases finished.superseded with ⟨-, facts⟩ | ⟨r, -, target, -⟩
      · exact .inr ⟨effective, d, s₁, applied.store, _, {
          before := by rw [observed, registered.frame]
          after := facts
          filled
          kind := sameKind.trans (require_bind_eq_ok.1 valid).1
          decided := (decideStateWrite_observed observed).trans stateDecided
          effect := branch.2 }⟩
      · cases target
  | untyped s₀ s₁ observationId near applied fresh registered decided recorded observed searched
      accepted branch finished => exact absurd (decide_untyped decided).1 typed

/-- The row a typed branch adds. -/
theorem StateEffect.new_eq {tick : Tick} {request : WriteRequest} {candidate : StateCandidate}
    {d : SlotDecision} {factId : Nat} (effect : StateEffect tick request candidate d s s' factId)
    (mem : new ∈ s'.facts) (added : New s.facts new) :
    factId = s.facts.nextId ∧ ∃ group, new = stateRow tick request candidate group factId := by
  have old : new ∉ s.facts := fun here => added new here rfl
  cases effect with
  | repeated r here repeats result same =>
      rw [same] at mem
      exact absurd mem old
  | added vacant patch conflicts members result =>
      rcases (patch new).1 mem with here | ⟨here, -⟩
      · exact ⟨result, none, List.mem_singleton.1 here⟩
      · exact absurd here old
  | superseded r only ungrouped patch conflicts members result =>
      rcases (patch new).1 mem with here | ⟨here, -⟩
      · rcases List.mem_cons.1 here with rfl | here
        · exact absurd rfl (added r (mem_of_only only).1)
        · exact ⟨result, none, List.mem_singleton.1 here⟩
      · exact absurd here old
  | disputed r detail joined only ungrouped patch conflicts member newMember result =>
      rcases (patch new).1 mem with here | ⟨here, -⟩
      · rcases List.mem_cons.1 here with rfl | here
        · exact absurd rfl (added r (mem_of_only only).1)
        · exact ⟨result, _, List.mem_singleton.1 here⟩
      · exact absurd here old
  | joined r c here group opened patch conflicts newMember result =>
      rcases (patch new).1 mem with here | ⟨here, -⟩
      · exact ⟨result, _, List.mem_singleton.1 here⟩
      · exact absurd here old

/-- A new fact with a subject was added by a typed branch. -/
theorem inserted_typed (done : call.apply host s = .ok (s', o)) (mem : new ∈ s'.facts)
    (added : New s.facts new) (keyed : new.subjectKey ≠ none) :
    ∃ candidate d observed applied group,
      TypedBranch call s s' candidate d observed applied s.facts.nextId ∧
        new = stateRow call.tick call.request candidate group s.facts.nextId := by
  by_cases typed : call.candidate = none
  · have moves : Moves fun r => r.subjectKey = none ∨ ∃ old ∈ s.facts, old.factId = r.factId :=
      fun _ _ _ _ holds => holds
    have rows := moves.write done (fun r here => .inr ⟨r, here, rfl⟩) (fun _ _ _ _ => .inl rfl)
      fun _ _ effective _ filled => by
        obtain ⟨original, given, -⟩ := effectiveCandidate_eq_ok filled
        rw [typed] at given
        cases given
    rcases rows new mem with unkeyed | ⟨old, here, same⟩
    · exact absurd unkeyed keyed
    · exact absurd same (added old here)
  · rcases write_typed done typed with same | ⟨candidate, d, observed, applied, factId, branch⟩
    · rw [same] at mem
      exact absurd rfl (added new mem)
    · have effect := branch.effect
      rw [branch.after] at mem
      rw [← branch.before] at added ⊢
      obtain ⟨rfl, group, row⟩ := effect.new_eq mem added
      exact ⟨candidate, d, observed, applied, group, branch, row⟩

end Write

/-! ## Validity times -/

/-- A fact with a subject has a validity time. -/
def Dated (r : FactRow) : Prop := r.subjectKey ≠ none → r.validFrom ≠ none

theorem effectiveCandidate_dated {tick : Tick} {request : WriteRequest}
    {candidate : Option StateCandidate} {effective : StateCandidate}
    (filled : effectiveCandidate tick request candidate = .ok (some effective)) :
    effective.validFrom ≠ none := by
  unfold effectiveCandidate at filled
  split at filled
  · cases pure_eq_ok.1 filled
  split at filled
  · obtain ⟨replaced, timed, filled⟩ := bind_eq_ok.1 filled
    cases pure_eq_ok.1 filled
    unfold StateCandidate.withValidFrom at timed
    split at timed
    · cases timed
      exact Option.some_ne_none _
    · cases timed
  · rename_i given
    cases pure_eq_ok.1 filled
    exact given

theorem erasedRow_dated (tick : ErasureTick) (factId : Nat) (insights ungrouped : List Nat)
    {r : FactRow} (dated : Dated r) : Dated (erasedRow tick factId insights ungrouped r) := by
  intro keyed
  have columns := erasedRow_slot tick factId insights ungrouped r keyed
  have subject : (erasedRow tick factId insights ungrouped r).subjectKey = r.subjectKey :=
    congrArg (fun p => p.2.1) columns
  have time : (erasedRow tick factId insights ungrouped r).validFrom = r.validFrom :=
    congrArg Prod.fst (fixedColumns_fixed.erased tick factId insights ungrouped r)
  rw [time]
  exact dated (subject ▸ keyed)

theorem step_dated {host : Host} {op : Op} {s : Store} (dated : ∀ r ∈ s.facts, Dated r) :
    ∀ r ∈ (Model.step host op s).facts, Dated r := by
  have moves : Moves Dated := fun _ _ _ _ holds => holds
  refine step_induction (P := fun s => ∀ r ∈ s.facts, Dated r) dated
    (fun call s s' o done dated => ?_) (fun call s s' o done dated => ?_)
    (fun call s' o _ done => ?_) (fun s s' aside dated => ?_)
  · refine moves.write done dated (fun _ _ _ _ keyed => absurd rfl keyed) ?_
    exact fun _ _ effective _ filled _ _ _ => effectiveCandidate_dated filled
  · exact Moves.of_map dated (resolve_effect done).facts fun r holds => moves.resolved holds
  · obtain ⟨row, insights, effect⟩ := erase_effect done
    exact Moves.of_map dated effect.facts fun r holds => erasedRow_dated _ _ _ _ holds
  · rw [aside.frame]
    exact dated

theorem dated_of_run (host : Host) (ops : List Op) :
    ∀ r ∈ (run (Model.step host) ops Store.empty).facts, Dated r :=
  run_induction (P := fun s : Store => ∀ r ∈ s.facts, Dated r) (fun _ _ _ dated => step_dated dated)
    (fun r mem => absurd mem (Facts.not_mem_empty r)) (Admits.always ops _)

end Enfold.Laws
