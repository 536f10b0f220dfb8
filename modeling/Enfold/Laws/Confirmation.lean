/-
# Laws.Confirmation -- whether a confirmation reaches the fact

Only the insertion of a fact stores its correction status.  A write that answers with a fact
that is there already (`existingAnswer`: a replay, a repeated value of the slot, an exact
duplicate, a near duplicate that survives) leaves that fact's status as it is.  So the fact a
confirming write returns has a human status exactly when the existing one, if it answers with
one, had it before (`confirmation_sticks_iff`).
-/
import Enfold.Laws.FixedColumns
import Enfold.Laws.ProtectedTruth

namespace Enfold.Laws

open Enfold.Theory Enfold.Model

set_option autoImplicit false

/-! ## The branch of a write -/

section Branch

variable {host : Host} {call : WriteCall} {s s' : Store} {o : WriteOutcome} {f : Nat}

/-- A write that is no replay and leaves a fact goes down one branch. -/
theorem write_branch (done : call.apply host s = .ok (s', o))
    (unlogged : loadPrior s call.context.clientId call.request.idempotencyKey = none)
    (returned : o.factId = some f) :
    ∃ context s₀ s₁ observationId state near applied, Registered s s₀ ∧
      decide call.service s₀ call.tick context call.request call.candidate = .ok (.proceed state) ∧
      validateStateCandidate call.request call.candidate = .ok () ∧ Observed s₀ s₁ ∧
      nearDuplicate host call.service s₁ call.request state.isSome = .ok near ∧
      applyDecision s₁ call.tick call.request state near = .ok applied ∧
      Finished call.tick context call.request
        (requestSha256 host context call.request call.candidate) observationId
        (state.map Prod.snd) applied s' o := by
  obtain ⟨context, authorized, done⟩ := bind_eq_ok.1 done
  obtain ⟨⟨⟩, valid, done⟩ := bind_eq_ok.1 done
  obtain ⟨s₀, client, done⟩ := bind_eq_ok.1 done
  obtain ⟨frame₀, clients, -⟩ := registerClient_eq_ok client
  obtain ⟨_, _, narrowed⟩ := authorizeContext_eq_ok authorized
  have sameClient : context.clientId = call.context.clientId := by rw [narrowed]
  have fresh : loadPrior s₀ context.clientId call.request.idempotencyKey = none := by
    rw [frame₀, sameClient]
    exact unlogged
  rw [fresh] at done
  obtain ⟨s₁, session, done⟩ := bind_eq_ok.1 done
  have frame₁ := registerSession_eq_ok session
  have registered : Registered s s₁ :=
    ⟨by rw [frame₁, frame₀], fun c mem => by rw [frame₁]; exact clients c mem⟩
  obtain ⟨decided, decision, done⟩ := bind_eq_ok.1 done
  cases decided with
  | factless policy =>
      obtain ⟨-, -, answer⟩ := recordFactlessDecision_eq_ok done
      have none := (make_eq_ok answer).2.2.1
      rw [returned] at none
      cases none
  | proceed state =>
      obtain ⟨⟨s₂, observationId⟩, recorded, done⟩ := bind_eq_ok.1 done
      obtain ⟨near, searched, done⟩ := bind_eq_ok.1 done
      obtain ⟨applied, branch, done⟩ := bind_eq_ok.1 done
      exact ⟨context, s₁, s₂, observationId, state, near, applied, registered, decision, valid,
        (recordObservation_eq_ok recorded).1, searched, branch, finish_eq_ok done⟩

end Branch

/-! ## The existing fact -/

/-- The first current fact of the candidate's slot that repeats it. -/
def repeatedFact (s : Store) (candidate : StateCandidate) : Option Nat :=
  ((currentRows s.facts candidate.slot).find? fun r => Repeats candidate (.ofRow r)).map
    FactRow.factId

/-- The near duplicate that survives the write. -/
def survivingDuplicate (host : Host) (call : WriteCall) (s : Store) : Option Nat :=
  match nearDuplicate host call.service s call.request false with
  | .ok (some c) =>
      if IncomingWins call.request call.tick.recordedAt c then none else some c.factId
  | _ => none

/-- The fact of the store that a write answers with, when it inserts none or inserts in vain. -/
def existingAnswer (host : Host) (call : WriteCall) (s : Store) : Option Nat :=
  match loadPrior s call.context.clientId call.request.idempotencyKey with
  | some prior => prior.factId
  | none =>
      match call.candidate with
      | some candidate => repeatedFact s candidate
      | none =>
          (findUntypedExactDuplicate s call.request).or (survivingDuplicate host call s)

/-- The candidate that is decided on repeats what the given one repeats. -/
theorem repeatedFact_effective {s : Store} {candidate effective : StateCandidate}
    (slot : effective.slot = candidate.slot) (content : effective.content = candidate.content)
    (value : effective.objectValue = candidate.objectValue) :
    repeatedFact s effective = repeatedFact s candidate := by
  have same : ∀ fact, Repeats effective fact ↔ Repeats candidate fact := by
    intro fact
    unfold Repeats
    rw [content, value]
  simp only [repeatedFact, slot, same]

/-- The decision targets the repeated fact, and only a supersession has another target. -/
theorem decideStateWrite_target {s : Store} {candidate : StateCandidate} {d : SlotDecision}
    (kind : candidate.memoryKind = "state") (decided : decideStateWrite s candidate = .ok d) :
    (∃ k, repeatedFact s candidate = some k ∧ d.targetFactId = some k ∧
        (d.action = .dedup ∨ d.action = .conflict)) ∨
      repeatedFact s candidate = none ∧ (d.action = .supersede ∨ d.targetFactId = none) := by
  unfold decideStateWrite at decided
  rw [if_neg (by simp [kind]), currentStateFacts_of candidate.subjectValid candidate.predicateValid
    candidate.scopeValid, ok_bind] at decided
  have rows : currentRows s.facts ⟨candidate.scope, candidate.subjectKey, candidate.predicateKey⟩ =
    currentRows s.facts candidate.slot := rfl
  have matching : (((currentRows s.facts candidate.slot).map CurrentStateFact.ofRow).find?
      fun fact => Repeats candidate fact).map CurrentStateFact.factId =
        repeatedFact s candidate := by
    rw [List.find?_map, Option.map_map]
    rfl
  rw [rows] at decided
  generalize current : (currentRows s.facts candidate.slot).map CurrentStateFact.ofRow = facts
    at decided matching
  unfold decideAmong at decided
  split at decided
  · cases decided
    exact .inr ⟨matching.symm, .inr rfl⟩
  · rename_i existing others
    split at decided
    · cases decided
      cases found : repeatedFact s candidate with
      | none => exact .inr ⟨rfl, .inr (matching.trans found)⟩
      | some k => exact .inl ⟨k, rfl, matching.trans found, .inr rfl⟩
    dsimp only at decided
    split at decided
    · rename_i fact found
      rw [found] at matching
      cases decided
      exact .inl ⟨fact.factId, matching.symm, rfl, .inl rfl⟩
    · rename_i missing
      rw [missing] at matching
      refine .inr ⟨matching.symm, ?_⟩
      obtain ⟨_, -, decided⟩ := bind_eq_ok.1 decided
      obtain ⟨_, -, decided⟩ := bind_eq_ok.1 decided
      split at decided
      · cases pure_eq_ok.1 decided
        exact .inl rfl
      split at decided
      · cases pure_eq_ok.1 decided
        exact .inl rfl
      · cases pure_eq_ok.1 decided
        exact .inr rfl

theorem mem_of_repeatedFact {s : Store} {candidate : StateCandidate} {k : Nat}
    (found : repeatedFact s candidate = some k) : ∃ r ∈ s.facts, r.factId = k := by
  obtain ⟨r, first, here⟩ := Option.map_eq_some_iff.1 found
  exact ⟨r, (mem_currentRows.1 (List.mem_of_find?_eq_some first)).1, here⟩

/-! ## What a write answers with -/

/-- The write answers with an existing fact, or with one it inserted. -/
inductive Answer (host : Host) (call : WriteCall) (s s' : Store) (f : Nat) : Prop where
  | replayed (existing : existingAnswer host call s = some f) (same : s'.facts = s.facts)
  | existing (existing : existingAnswer host call s = some f) (known : ∃ r ∈ s.facts, r.factId = f)
  | inserted (novel : existingAnswer host call s = none)
      (row : ∃ r ∈ s'.facts, r.factId = f ∧ r.correctionStatus = call.request.correctionStatus)

section Answer

variable {host : Host} {call : WriteCall} {s s₁ s' : Store} {near : Option NearDuplicateCandidate}
  {applied : Applied}

/-- The typed branches. -/
theorem applyState_answer {candidate : StateCandidate} {d : SlotDecision}
    (kind : candidate.memoryKind = "state") (decided : decideStateWrite s candidate = .ok d)
    (done : applyState s call.tick call.request candidate d = .ok applied) :
    repeatedFact s candidate = some applied.result.factId ∨
      repeatedFact s candidate = none ∧ ∃ r ∈ applied.store.facts,
        r.factId = applied.result.factId ∧
          r.correctionStatus = call.request.correctionStatus := by
  obtain ⟨-, effect⟩ := applyState_effect kind decided done
  rcases decideStateWrite_target kind decided with
    ⟨k, found, target, action | action⟩ | ⟨missing, -⟩
  · rw [applyState, action, target] at done
    cases done
    exact .inl found
  · rw [applyState, action, target] at done
    cases done
    exact .inl found
  · refine .inr ⟨missing, ?_⟩
    cases effect with
    | repeated r here repeats result same =>
        have none := List.find?_eq_none.1 (Option.map_eq_none_iff.1 missing) r here
        exact absurd (decide_eq_true repeats) none
    | added vacant patch conflicts members result =>
        exact ⟨_, patch.of_mem List.mem_cons_self, rfl, rfl⟩
    | superseded r only ungrouped patch conflicts members result chosen =>
        exact ⟨_, patch.of_mem (List.mem_cons_of_mem _ List.mem_cons_self), rfl, rfl⟩
    | disputed r detail joined only ungrouped patch conflicts member newMember result =>
        exact ⟨_, patch.of_mem (List.mem_cons_of_mem _ List.mem_cons_self), rfl, rfl⟩
    | joined r c here group opened patch conflicts newMember result =>
        exact ⟨_, patch.of_mem List.mem_cons_self, rfl, rfl⟩

/-- The untyped branches. -/
theorem applyUntyped_answer
    (searched : nearDuplicate host call.service s call.request false = .ok near)
    (done : applyUntyped s call.tick call.request (findUntypedExactDuplicate s call.request) near =
      .ok applied) :
    (findUntypedExactDuplicate s call.request).or (survivingDuplicate host call s) =
        some applied.result.factId ∧ (∃ r ∈ s.facts, r.factId = applied.result.factId) ∨
      (findUntypedExactDuplicate s call.request).or (survivingDuplicate host call s) = none ∧
        ∃ r ∈ applied.store.facts, r.factId = applied.result.factId ∧
          r.correctionStatus = call.request.correctionStatus := by
  unfold applyUntyped at done
  cases exact' : findUntypedExactDuplicate s call.request with
  | some k =>
      rw [exact'] at done
      cases done
      obtain ⟨r, mem, here, -⟩ := findUntypedExactDuplicate_eq_some exact'
      exact .inl ⟨rfl, r, mem, here⟩
  | none =>
      rw [exact'] at done
      obtain ⟨-, effect, -⟩ := insertUntyped_effect (nearDuplicate_row searched) done
      rw [Option.none_or]
      unfold survivingDuplicate
      rw [searched]
      cases effect with
      | repeated r mem inScope sameContent current ungrouped result same =>
          have empty := List.head?_eq_none_iff.1 (Option.map_eq_none_iff.1 exact')
          have listed : r ∈ orderById (s.facts.table.select fun r =>
              r.scope = call.request.scope ∧ r.content = call.request.content ∧ r.Current ∧
                r.conflictGroup = none) :=
            mem_orderById.2 (Table.mem_select.2 ⟨mem, inScope, sameContent, current, ungrouped⟩)
          rw [empty] at listed
          cases listed
      | inserted unmatched patch result =>
          rw [unmatched]
          exact .inr ⟨rfl, _, patch.of_mem List.mem_cons_self, rfl, rfl⟩
      | mergedIntoNew c r found wins mem here current patch result =>
          rw [found]
          refine .inr ⟨if_pos wins, _, patch.of_mem List.mem_cons_self, rfl, rfl⟩
      | mergedIntoOld c found loses patch result =>
          rw [found]
          obtain ⟨r, mem, here, -⟩ := nearDuplicate_row searched c found
          exact .inl ⟨(if_neg loses).trans (congrArg some result.symm), r, mem, here.trans result.symm⟩

/-- What a write that leaves a fact answers with. -/
theorem write_answer {o : WriteOutcome} {f : Nat} (done : call.apply host s = .ok (s', o))
    (returned : o.factId = some f) : Answer host call s s' f := by
  cases logged : loadPrior s call.context.clientId call.request.idempotencyKey with
  | some prior =>
      obtain ⟨context, authorized, -, -, branches⟩ := write_cases done
      obtain ⟨_, _, narrowed⟩ := authorizeContext_eq_ok authorized
      have client : context.clientId = call.context.clientId := by rw [narrowed]
      have taken : loadPrior s context.clientId call.request.idempotencyKey = some prior := by
        rw [client]
        exact logged
      cases branches with
      | replay prior' found sameHash answer frame clients =>
          rw [taken] at found
          cases found
          refine .replayed ?_ (by rw [frame])
          rw [existingAnswer, logged]
          exact (make_eq_ok answer).2.2.1.symm.trans returned
      | factless s₀ decision fresh => exact absurd (taken.symm.trans fresh) (by simp)
      | typed s₀ s₁ observationId effective d applied fresh => exact absurd (taken.symm.trans fresh) (by simp)
      | untyped s₀ s₁ observationId near applied fresh => exact absurd (taken.symm.trans fresh) (by simp)
  | none =>
      obtain ⟨context, s₀, s₁, observationId, state, near, applied, registered, decided, valid, observed,
        searched, branch, finished⟩ := write_branch done logged returned
      have facts : s₁.facts = s.facts := by rw [observed, registered.frame]
      have same : applied.result.factId = f :=
        Option.some.inj (finished.outcome.2.2.1.symm.trans returned)
      have later : ∀ r ∈ applied.store.facts, r.factId = applied.result.factId →
          r.correctionStatus = call.request.correctionStatus →
          ∃ r' ∈ s'.facts, r'.factId = f ∧ r'.correctionStatus = call.request.correctionStatus := by
        intro r mem here status
        obtain ⟨r', mem', here', kept⟩ := finished.keeps fixedColumns_fixed.toUnmoved r mem
        have status' : r'.correctionStatus = r.correctionStatus :=
          congrArg (fun columns => columns.2.2.2) kept
        exact ⟨r', mem', (here'.trans here).trans same, status'.trans status⟩
      cases state with
      | none =>
          obtain ⟨untyped, -⟩ := decide_untyped decided
          have answer : existingAnswer host call s =
              (findUntypedExactDuplicate s₁ call.request).or (survivingDuplicate host call s₁) := by
            obtain ⟨sameExact, sameNear⟩ :=
              near_registered registered observed host call.service call.request
            rw [existingAnswer, logged, untyped, survivingDuplicate, survivingDuplicate, nearDuplicate,
              nearDuplicate, sameExact, sameNear]
          rcases applyUntyped_answer searched branch with
            ⟨found, known⟩ | ⟨missing, r, mem, here, status⟩
          · rw [same, facts] at known
            exact .existing (answer.trans (found.trans (congrArg some same))) known
          · exact .inserted (answer.trans missing) (later r mem here status)
      | some pair =>
          obtain ⟨effective, d⟩ := pair
          obtain ⟨-, filled, stateDecided, -⟩ := decide_typed decided
          obtain ⟨original, given, slot, content, value, sameKind, -⟩ := effectiveCandidate_eq_ok filled
          rw [given] at valid
          have kind : effective.memoryKind = "state" := sameKind.trans (require_bind_eq_ok.1 valid).1
          have answer : existingAnswer host call s = repeatedFact s₁ effective := by
            have before : repeatedFact s₁ original = repeatedFact s original := by
              unfold repeatedFact
              rw [facts]
            rw [existingAnswer, logged, given, repeatedFact_effective slot content value, before]
          rcases applyState_answer kind ((decideStateWrite_observed observed).trans stateDecided) branch with
            found | ⟨missing, r, mem, here, status⟩
          · have known := mem_of_repeatedFact found
            rw [same, facts] at known
            exact .existing (answer.trans (found.trans (congrArg some same))) known
          · exact .inserted (answer.trans missing) (later r mem here status)

end Answer

/-! ## Confirmation -/

/-- The fact carries a human status. -/
def HumanFact (facts : Facts) (f : Nat) : Prop :=
  ∃ r ∈ facts, r.factId = f ∧ ∃ status ∈ r.correctionStatus, status ∈ humanStatuses

theorem Keeps.humanFact_iff {facts facts' : Facts} (keeps : Keeps fixedColumns facts facts') {f : Nat}
    (known : ∃ r ∈ facts, r.factId = f) : HumanFact facts' f ↔ HumanFact facts f := by
  obtain ⟨r, mem, rfl⟩ := known
  obtain ⟨r', mem', here, kept⟩ := keeps r mem
  have same : r'.correctionStatus = r.correctionStatus :=
    congrArg (fun columns => columns.2.2.2) kept
  constructor
  · rintro ⟨r₁, mem₁, here₁, status⟩
    rw [Facts.eq_of_id mem₁ mem' (here₁.trans here.symm), same] at status
    exact ⟨r, mem, rfl, status⟩
  · rintro ⟨r₁, mem₁, here₁, status⟩
    rw [Facts.eq_of_id mem₁ mem here₁, ← same] at status
    exact ⟨r', mem', here, status⟩

/-- A write with a human status returns a fact that carries one, exactly when the existing
fact it answers with, if there is one, carried it before. -/
theorem confirmation_sticks_iff {host : Host} {call : WriteCall} {s s' : Store} {o : WriteOutcome}
    {f : Nat} (confirms : ∃ status ∈ call.request.correctionStatus, status ∈ humanStatuses)
    (done : call.apply host s = .ok (s', o)) (returned : o.factId = some f) :
    HumanFact s'.facts f ↔ ∀ k, existingAnswer host call s = some k → HumanFact s.facts k := by
  cases write_answer done returned with
  | replayed existing same =>
      rw [same]
      constructor
      · intro human k found
        rw [existing] at found
        cases found
        exact human
      · exact fun humans => humans f existing
  | existing existing known =>
      rw [(write_keeps fixedColumns_fixed.toUnmoved done).humanFact_iff known]
      constructor
      · intro human k found
        rw [existing] at found
        cases found
        exact human
      · exact fun humans => humans f existing
  | inserted novel row =>
      obtain ⟨r, mem, here, status⟩ := row
      constructor
      · intro _ k found
        rw [novel] at found
        cases found
      · intro _
        exact ⟨r, mem, here, by rwa [status]⟩

/-- A confirmation that inserts its fact. -/
theorem sample_confirmation_sticks :
    ∃ s' o, confirmedWrite.apply Sample.host Store.empty = .ok (s', o) ∧ o.factId = some 1 ∧
      (HumanFact s'.facts 1 ↔ ∀ k, existingAnswer Sample.host confirmedWrite Store.empty = some k →
        HumanFact Store.empty.facts k) := by
  have answer : ((confirmedWrite.apply Sample.host Store.empty).toOption.map fun result =>
      result.2.factId) = some (some 1) := by decide +kernel
  cases done : confirmedWrite.apply Sample.host Store.empty with
  | error e =>
      rw [done] at answer
      cases answer
  | ok result =>
      rw [done] at answer
      have returned : result.2.factId = some 1 := Option.some.inj answer
      exact ⟨result.1, result.2, rfl, returned, confirmation_sticks_iff
        ⟨"human_confirmed", rfl, by decide⟩ (show _ = Except.ok (result.1, result.2) from done)
        returned⟩

/-- An authority restates a plain fact: the write is a repetition and confirms nothing. -/
theorem restated_fact_unconfirmed :
    Sample.service.policy.canAssertCorrection "agent-a" = true ∧
      (∃ status ∈ confirmedWrite.request.correctionStatus, status ∈ humanStatuses) ∧
      ∃ s' o, confirmedWrite.apply Sample.host
          (run (step Sample.host) [.write (secondWrite "the door opens")] Store.empty) = .ok (s', o) ∧
        o.outcome = .dedup ∧ o.factId = some 1 ∧ ¬ HumanFact s'.facts 1 := by
  refine ⟨by decide +kernel, ⟨"human_confirmed", rfl, by decide⟩, ?_⟩
  have answer : ((confirmedWrite.apply Sample.host
      (run (step Sample.host) [.write (secondWrite "the door opens")] Store.empty)).toOption.map
        fun result => (result.2.outcome, result.2.factId,
          result.1.facts.table.rows.map FactRow.correctionStatus)) =
      some (.dedup, some 1, [none]) := by decide +kernel
  cases done : confirmedWrite.apply Sample.host
      (run (step Sample.host) [.write (secondWrite "the door opens")] Store.empty) with
  | error e =>
      rw [done] at answer
      cases answer
  | ok result =>
      rw [done] at answer
      obtain ⟨outcome, returned, statuses⟩ : result.2.outcome = .dedup ∧ result.2.factId = some 1 ∧
          result.1.facts.table.rows.map FactRow.correctionStatus = [none] := by
        simpa [Except.toOption] using answer
      refine ⟨result.1, result.2, rfl, outcome, returned, ?_⟩
      rintro ⟨r, mem, -, status, given, -⟩
      have listed := List.mem_map_of_mem (f := FactRow.correctionStatus) (Table.mem_rows.2 mem)
      rw [statuses, List.mem_singleton] at listed
      rw [listed] at given
      cases given

end Enfold.Laws
