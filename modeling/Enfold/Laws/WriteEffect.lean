/-
# Laws.WriteEffect -- everything a write can do

`write_cases` is the inversion of `write`: a call that returned either answered a replay,
or recorded a factless decision, or applied a typed or an untyped branch.  Each case says
which tables differ and how.  The invariants over runs are proved from these cases and
from the effects they name (`StateEffect`, `UntypedEffect`), never by unfolding `write`.
-/
import Enfold.Laws.SlotSteps
import Enfold.Model.Runs

namespace Enfold.Laws

open Enfold.Theory Enfold.Model

set_option autoImplicit false

/-! ## Untyped branches -/

/-- What an untyped write does to the facts before any requested supersession. -/
inductive UntypedEffect (tick : Tick) (request : WriteRequest) (near : Option NearDuplicateCandidate)
    (s s' : Store) (factId : Nat) : Prop where
  /-- A current fact of the scope has the same content. -/
  | repeated (r : FactRow) (mem : r ∈ s.facts) (inScope : r.scope = request.scope)
      (sameContent : r.content = request.content) (current : r.Current)
      (ungrouped : r.conflictGroup = none) (result : factId = r.factId) (same : s' = s)
  | inserted (unmatched : near = none)
      (patch : FactPatch s.facts s'.facts [plainRow tick request factId])
      (result : factId = s.facts.nextId)
  /-- The new fact supersedes its near duplicate. -/
  | mergedIntoNew (c : NearDuplicateCandidate) (r : FactRow) (found : near = some c)
      (wins : IncomingWins request tick.recordedAt c) (mem : r ∈ s.facts)
      (here : r.factId = c.factId) (current : r.Current)
      (patch : FactPatch s.facts s'.facts
        [plainRow tick request factId, supersededRow r tick.recordedAt factId])
      (result : factId = s.facts.nextId)
  /-- The new fact is superseded by its near duplicate. -/
  | mergedIntoOld (c : NearDuplicateCandidate) (found : near = some c)
      (loses : ¬ IncomingWins request tick.recordedAt c)
      (patch : FactPatch s.facts s'.facts
        [supersededRow (plainRow tick request s.facts.nextId) tick.recordedAt factId])
      (result : factId = c.factId)

theorem findUntypedExactDuplicate_eq_some {s : Store} {request : WriteRequest} {k : Nat}
    (found : findUntypedExactDuplicate s request = some k) :
    ∃ r ∈ s.facts, r.factId = k ∧ r.scope = request.scope ∧ r.content = request.content ∧
      r.Current ∧ r.conflictGroup = none := by
  obtain ⟨r, first, here⟩ := Option.map_eq_some_iff.1 found
  have mem := mem_orderById.1 (List.mem_of_mem_head? first)
  obtain ⟨inFacts, inScope, sameContent, current, ungrouped⟩ := Table.mem_select.1 mem
  exact ⟨r, inFacts, here, inScope, sameContent, current, ungrouped⟩

/-- A near duplicate is an unconflicted current fact of the request's scope. -/
theorem findUntypedNearDuplicate_eq_ok {host : Host} {service : MemoryWriteService} {s : Store}
    {request : WriteRequest} {c : NearDuplicateCandidate}
    (found : findUntypedNearDuplicate host service s request = .ok (some c)) :
    ∃ r ∈ s.facts, r.factId = c.factId ∧ r.scope = request.scope ∧ r.Current ∧
      r.conflictGroup = none ∧ r.trustScore = c.trustScore ∧ r.createdAt = c.createdAt := by
  unfold findUntypedNearDuplicate at found
  split at found
  · split at found
    · cases found
    · cases found
    · cases found
    · exact mem_findWriteNearDuplicates (mem_strongest (Except.ok.inj found))
  · cases found

theorem insertUntyped_effect {s : Store} {tick : Tick} {request : WriteRequest}
    {near : Option NearDuplicateCandidate} {applied : Applied}
    (known : ∀ c ∈ near, ∃ r ∈ s.facts, r.factId = c.factId ∧ r.scope = request.scope ∧
      r.Current ∧ r.conflictGroup = none)
    (done : insertUntyped s tick request near = .ok applied) :
    FactFrame s applied.store ∧
      UntypedEffect tick request near s applied.store applied.result.factId ∧
      applied.store.conflicts = s.conflicts ∧
      applied.store.conflictMembers = s.conflictMembers := by
  obtain ⟨⟨s₁, inserted⟩, wrote, done⟩ := bind_eq_ok.1 done
  obtain ⟨rfl, frame, -, patch⟩ := factWriter_eq_ok wrote
  cases near with
  | none =>
      cases pure_eq_ok.1 done
      exact ⟨by rw [FactFrame, frame], .inserted rfl patch rfl, by rw [frame], by rw [frame]⟩
  | some c =>
      obtain ⟨⟨s₂, result, enqueue⟩, merged, done⟩ := bind_eq_ok.1 done
      cases pure_eq_ok.1 done
      unfold mergeNearDuplicate at merged
      split at merged
      · rename_i wins
        obtain ⟨s₃, superseded, merged⟩ := bind_eq_ok.1 merged
        cases pure_eq_ok.1 merged
        obtain ⟨frame', -, r, mem, ⟨here, current⟩, patch'⟩ :=
          supersedeNearDuplicate_eq_ok superseded
        obtain ⟨r₀, mem₀, sameId, -⟩ := known c rfl
        have apart : r.factId ≠ s.facts.nextId := by
          rw [here, ← sameId]
          exact Facts.nextId_fresh mem₀
        have memOld : r ∈ s.facts :=
          (patch.mem_iff (by simpa [plainRow] using apart)).1 mem
        have both := patch.trans_disjoint patch' (by
          intro x memX
          obtain rfl := List.mem_singleton.1 memX
          simpa [plainRow, supersededRow] using apart.symm)
        exact ⟨by rw [FactFrame, frame', frame],
          .mergedIntoNew c r rfl wins memOld here current both rfl, by rw [frame', frame],
          by rw [frame', frame]⟩
      · rename_i loses
        obtain ⟨s₃, superseded, merged⟩ := bind_eq_ok.1 merged
        cases pure_eq_ok.1 merged
        obtain ⟨frame', -, r, mem, ⟨here, -⟩, patch'⟩ := supersedeNearDuplicate_eq_ok superseded
        obtain rfl : r = plainRow tick request s.facts.nextId :=
          Facts.eq_of_id mem (patch.of_mem (List.mem_singleton.2 rfl)) here
        exact ⟨by rw [FactFrame, frame', frame],
          .mergedIntoOld c rfl loses (patch.trans_same patch' rfl) rfl, by rw [frame', frame],
          by rw [frame', frame]⟩

theorem applyUntyped_effect {s : Store} {tick : Tick} {request : WriteRequest}
    {near : Option NearDuplicateCandidate} {applied : Applied}
    (known : ∀ c ∈ near, ∃ r ∈ s.facts, r.factId = c.factId ∧ r.scope = request.scope ∧
      r.Current ∧ r.conflictGroup = none)
    (done : applyUntyped s tick request (findUntypedExactDuplicate s request) near = .ok applied) :
    FactFrame s applied.store ∧
      UntypedEffect tick request near s applied.store applied.result.factId ∧
      applied.store.conflicts = s.conflicts ∧
      applied.store.conflictMembers = s.conflictMembers := by
  unfold applyUntyped at done
  split at done
  · rename_i k found
    cases done
    obtain ⟨r, mem, here, inScope, sameContent, current, ungrouped⟩ :=
      findUntypedExactDuplicate_eq_some found
    exact ⟨rfl, .repeated r mem inScope sameContent current ungrouped here.symm rfl, rfl, rfl⟩
  · exact insertUntyped_effect known done

/-! ## Registration, observation and provenance -/

/-- The client of the connection is registered with its surface, and enabled. -/
def ClientEnabled (s : Store) (context : ConnectionContext) : Prop :=
  ∃ c ∈ s.clients, c.clientId = context.clientId ∧ c.surface = context.surface ∧
    c.disabledAt = none

theorem registerClient_eq_ok {s s' : Store} {context : ConnectionContext} {now : String}
    (registered : registerClient s context now = .ok s') :
    s' = { s with clients := s'.clients } ∧ (∀ c ∈ s.clients, c ∈ s'.clients) ∧
      ClientEnabled s' context := by
  unfold registerClient at registered
  dsimp only at registered
  split at registered
  · cases registered
  rename_i row found
  obtain ⟨surface, registered⟩ := require_bind_eq_ok.1 registered
  obtain ⟨enabled, registered⟩ := require_bind_eq_ok.1 registered
  cases pure_eq_ok.1 registered
  obtain ⟨mem, here⟩ := Table.get?_eq_some.1 found
  exact ⟨rfl, fun c mem => mem_insertOrIgnore_of_mem mem, row, mem, here, surface, enabled⟩

theorem registerSession_eq_ok {s s' : Store} {context : ConnectionContext} {now : String}
    (registered : registerSession s context now = .ok s') :
    s' = { s with sessions := s'.sessions } := by
  unfold registerSession at registered
  obtain ⟨-, registered⟩ := require_bind_eq_ok.1 registered
  dsimp only at registered
  split at registered
  · cases registered
  obtain ⟨-, registered⟩ := require_bind_eq_ok.1 registered
  cases pure_eq_ok.1 registered
  rfl

/-- The row `_record_observation` inserts. -/
def observationRow (host : Host) (context : ConnectionContext) (request : WriteRequest)
    (now : String) (observationId : Nat) : ObservationRow :=
  { observationId, clientId := context.clientId, sessionId := context.sessionId
    sourceType := request.sourceType, sourceUri := request.sourceUri
    projectRoot := context.projectRoot, repository := context.repository
    branch := context.branch, commitSha := context.commitSha, content := observedText request
    contentSha256 := observationSha256 host context request, assertedBy := request.assertedBy
    performedBy := request.performedBy, observedAt := request.observedAt, recordedAt := now
    scope := request.scope, sensitivity := request.sensitivity, redactedAt := none
    metadataJson := request.metadataJson }

/-- An observation is reused, or one is added. -/
theorem recordObservation_eq_ok {host : Host} {s s' : Store} {context : ConnectionContext}
    {request : WriteRequest} {now : String} {observationId : Nat}
    (recorded : recordObservation host s context request now = .ok (s', observationId)) :
    s' = { s with observations := s'.observations } ∧
      ((s'.observations = s.observations ∧ ∃ o ∈ s.observations, o.observationId = observationId ∧
          o.clientId = context.clientId ∧ o.sessionId = context.sessionId ∧
          o.sourceType = request.sourceType ∧
          o.contentSha256 = observationSha256 host context request) ∨
        s.observations.insert? (observationRow host context request now observationId) =
          some s'.observations) := by
  unfold recordObservation at recorded
  dsimp only at recorded
  split at recorded
  · rename_i o rest found
    cases pure_eq_ok.1 recorded
    have mem : o ∈ s.observations.select _ := found ▸ List.mem_cons_self
    obtain ⟨inTable, client, hash, session, source⟩ := Table.mem_select.1 mem
    exact ⟨rfl, .inl ⟨rfl, o, inTable, rfl, client, session, source, hash⟩⟩
  · obtain ⟨-, recorded⟩ := require_bind_eq_ok.1 recorded
    obtain ⟨observations, inserted, recorded⟩ := bind_eq_ok.1 recorded
    cases pure_eq_ok.1 recorded
    exact ⟨rfl, .inr (insertRow_eq_ok.1 inserted)⟩

theorem enqueueEmbedding_eq_ok {host : Host} {service : MemoryWriteService} {now : String}
    {s s' : Store} {factId : Option Nat}
    (enqueued : enqueueEmbedding host service now s factId = .ok s') :
    s' = { s with embeddingJobs := s'.embeddingJobs } := by
  unfold enqueueEmbedding at enqueued
  split at enqueued
  · unfold enqueueInTransaction at enqueued
    split at enqueued
    · cases enqueued
    dsimp only at enqueued
    split at enqueued
    · cases pure_eq_ok.1 enqueued
      rfl
    · cases pure_eq_ok.1 enqueued
      rfl
  · cases enqueued
    rfl

/-- The provenance row a write attaches. -/
def provenanceRow (request : WriteRequest) (now : String) (factId observationId : Nat) :
    ProvenanceRow :=
  ⟨factId, observationId, request.relation, request.evidenceExcerpt, now⟩

theorem attachProvenance_eq_ok {s s' : Store} {factId observationId : Nat} {request : WriteRequest}
    {now : String} (attached : attachProvenance s factId observationId request now = .ok s') :
    s' = { s with provenance := s'.provenance } ∧
      s'.provenance = insertOrIgnore s.provenance
        (provenanceRow request now factId observationId) := by
  obtain ⟨-, attached⟩ := require_bind_eq_ok.1 attached
  cases pure_eq_ok.1 attached
  exact ⟨rfl, rfl⟩

theorem appendLog_eq_ok {s s' : Store} {row : WriteLogRow} (appended : appendLog s row = .ok s') :
    s' = { s with writeLog := s'.writeLog } ∧ s.writeLog.insert? row = some s'.writeLog ∧
      ∀ l ∈ s.writeLog.rows, l.writeId ≠ row.writeId := by
  obtain ⟨freshId, appended⟩ := require_bind_eq_ok.1 appended
  obtain ⟨-, appended⟩ := require_bind_eq_ok.1 appended
  obtain ⟨log, inserted, appended⟩ := bind_eq_ok.1 appended
  cases pure_eq_ok.1 appended
  exact ⟨rfl, insertRow_eq_ok.1 inserted, freshId⟩

theorem authorizeFactScope_eq_ok {s : Store} {factId : Nat} {scope : String} {r : Unit}
    (authorized : authorizeFactScope s factId scope = .ok r) :
    ∃ row ∈ s.facts, row.factId = factId ∧ row.scope = scope := by
  unfold authorizeFactScope at authorized
  split at authorized
  · cases authorized
  · rename_i row found
    obtain ⟨mem, here⟩ := Facts.get?_eq_some.1 found
    exact ⟨row, mem, here, require_eq_ok.1 authorized⟩

/-! ## Decisions -/

/-- A candidate keeps its fields when its validity time is filled in. -/
theorem withValidFrom_eq_ok {candidate effective : StateCandidate} {validFrom : Option String}
    (replaced : candidate.withValidFrom validFrom = .ok effective) :
    effective.slot = candidate.slot ∧ effective.content = candidate.content ∧
      effective.objectValue = candidate.objectValue ∧ effective.memoryKind = candidate.memoryKind ∧
      effective.sourceAuthority = candidate.sourceAuthority := by
  unfold StateCandidate.withValidFrom at replaced
  split at replaced
  · cases replaced
    exact ⟨rfl, rfl, rfl, rfl, rfl⟩
  · cases replaced

theorem effectiveCandidate_eq_ok {tick : Tick} {request : WriteRequest}
    {candidate : Option StateCandidate} {effective : StateCandidate}
    (filled : effectiveCandidate tick request candidate = .ok (some effective)) :
    ∃ original, candidate = some original ∧ effective.slot = original.slot ∧
      effective.content = original.content ∧ effective.objectValue = original.objectValue ∧
      effective.memoryKind = original.memoryKind ∧
      effective.sourceAuthority = original.sourceAuthority := by
  unfold effectiveCandidate at filled
  split at filled
  · cases pure_eq_ok.1 filled
  · rename_i original
    refine ⟨original, rfl, ?_⟩
    split at filled
    · obtain ⟨replaced, timed, filled⟩ := bind_eq_ok.1 filled
      cases pure_eq_ok.1 filled
      exact withValidFrom_eq_ok timed
    · cases pure_eq_ok.1 filled
      exact ⟨rfl, rfl, rfl, rfl, rfl⟩

section Decide

variable {service : MemoryWriteService} {s : Store} {tick : Tick} {context : ConnectionContext}
  {request : WriteRequest} {candidate : Option StateCandidate}

theorem decide_untyped
    (decided : decide service s tick context request candidate = .ok (.proceed none)) :
    candidate = none ∧ policyDecision service s context request candidate = .ok none := by
  obtain ⟨decision, policy, decided⟩ := bind_eq_ok.1 decided
  obtain ⟨effective, filled, decided⟩ := bind_eq_ok.1 decided
  split at decided
  · cases pure_eq_ok.1 decided
  · refine ⟨?_, policy⟩
    cases candidate with
    | none => rfl
    | some candidate =>
        unfold effectiveCandidate at filled
        dsimp only at filled
        split at filled
        · obtain ⟨replaced, -, filled⟩ := bind_eq_ok.1 filled
          cases pure_eq_ok.1 filled
        · cases pure_eq_ok.1 filled
  · obtain ⟨state, -, decided⟩ := bind_eq_ok.1 decided
    split at decided
    · obtain ⟨refusal, -, decided⟩ := bind_eq_ok.1 decided
      cases refusal with
      | some refusal => cases pure_eq_ok.1 decided
      | none => cases pure_eq_ok.1 decided
    · cases pure_eq_ok.1 decided

/-- A typed write that passes was decided in its slot, and a supersession passed the
supersession policy. -/
theorem decide_typed {effective : StateCandidate} {d : SlotDecision}
    (decided : decide service s tick context request candidate = .ok (.proceed (some (effective, d)))) :
    policyDecision service s context request candidate = .ok none ∧
      effectiveCandidate tick request candidate = .ok (some effective) ∧
      decideStateWrite s effective = .ok d ∧
      (d.action = .supersede →
        supersessionPolicy s request d.targetFactId (some effective.sourceAuthority) =
          .ok none) := by
  obtain ⟨decision, policy, decided⟩ := bind_eq_ok.1 decided
  obtain ⟨filled, filling, decided⟩ := bind_eq_ok.1 decided
  split at decided
  · cases pure_eq_ok.1 decided
  · cases pure_eq_ok.1 decided
  · obtain ⟨state, stateDecided, decided⟩ := bind_eq_ok.1 decided
    split at decided
    · rename_i supersedes
      obtain ⟨refusal, passed, decided⟩ := bind_eq_ok.1 decided
      cases refusal with
      | some refusal => cases pure_eq_ok.1 decided
      | none =>
          cases pure_eq_ok.1 decided
          exact ⟨policy, filling, stateDecided, fun _ => passed⟩
    · rename_i other
      cases pure_eq_ok.1 decided
      exact ⟨policy, filling, stateDecided, fun supersedes => absurd supersedes other⟩

end Decide

/-! ## Outcomes -/

theorem make_eq_ok {writeId : String} {outcome : Outcome}
    {factId existingFactId observationId : Option Nat} {replayed : Bool} {detail : Json}
    {o : WriteOutcome}
    (made : WriteOutcome.make writeId outcome factId existingFactId observationId replayed detail =
      .ok o) :
    o.writeId = strip writeId ∧ o.outcome = outcome ∧ o.factId = factId ∧
      o.existingFactId = existingFactId ∧ o.observationId = observationId ∧
      o.replayed = replayed ∧ o.detailJson = detail := by
  obtain ⟨⟨text, valid⟩, checkedId, made⟩ := bind_eq_ok.1 made
  obtain ⟨⟨fact⟩, -, made⟩ := bind_eq_ok.1 made
  obtain ⟨⟨existing⟩, -, made⟩ := bind_eq_ok.1 made
  obtain ⟨⟨observation⟩, -, made⟩ := bind_eq_ok.1 made
  cases pure_eq_ok.1 made
  exact ⟨required_eq_ok checkedId, rfl, rfl, rfl, rfl, rfl, rfl⟩

/-- The outcomes that leave a fact. -/
def Accepted (outcome : Outcome) : Prop := outcome ≠ .rejected ∧ outcome ≠ .needsReview

instance (outcome : Outcome) : Decidable (Accepted outcome) := inferInstanceAs (Decidable (_ ∧ _))

theorem insertState_accepted {s : Store} {tick : Tick} {request : WriteRequest}
    {candidate : StateCandidate} {d : SlotDecision} {applied : Applied}
    (done : insertState s tick request candidate d = .ok applied) :
    Accepted applied.result.outcome := by
  obtain ⟨⟨s₁, conflictId⟩, -, done⟩ := bind_eq_ok.1 done
  obtain ⟨⟨s₂, inserted⟩, -, done⟩ := bind_eq_ok.1 done
  obtain ⟨s₃, -, done⟩ := bind_eq_ok.1 done
  obtain ⟨s₄, -, done⟩ := bind_eq_ok.1 done
  cases pure_eq_ok.1 done
  cases d.action <;> simp [Accepted, DecisionAction.outcome]

theorem insertUntyped_accepted {s : Store} {tick : Tick} {request : WriteRequest}
    {near : Option NearDuplicateCandidate} {applied : Applied}
    (done : insertUntyped s tick request near = .ok applied) : Accepted applied.result.outcome := by
  obtain ⟨⟨s₁, inserted⟩, wrote, done⟩ := bind_eq_ok.1 done
  obtain ⟨rfl, -⟩ := factWriter_eq_ok wrote
  cases near with
  | none =>
      cases pure_eq_ok.1 done
      simp [Accepted]
  | some c =>
      obtain ⟨⟨s₂, result, enqueue⟩, merged, done⟩ := bind_eq_ok.1 done
      cases pure_eq_ok.1 done
      unfold mergeNearDuplicate at merged
      split at merged
      · obtain ⟨s₃, -, merged⟩ := bind_eq_ok.1 merged
        cases pure_eq_ok.1 merged
        simp [Accepted]
      · obtain ⟨s₃, -, merged⟩ := bind_eq_ok.1 merged
        cases pure_eq_ok.1 merged
        simp [Accepted]

/-- A branch that writes is never reported as rejected or left for review. -/
theorem applyDecision_accepted {s : Store} {tick : Tick} {request : WriteRequest}
    {state : Option (StateCandidate × SlotDecision)} {near : Option NearDuplicateCandidate}
    {applied : Applied} (done : applyDecision s tick request state near = .ok applied) :
    Accepted applied.result.outcome := by
  unfold applyDecision at done
  split at done
  · unfold applyState at done
    split at done
    · cases done
      simp [Accepted]
    · cases done
      simp [Accepted]
    · exact insertState_accepted done
  · unfold applyUntyped at done
    split at done
    · cases done
      simp [Accepted]
    · exact insertUntyped_accepted done

/-! ## Finishing -/

/-- The log row of a write that left a fact. -/
def logRow (tick : Tick) (context : ConnectionContext) (request : WriteRequest)
    (requestHash : String) (observationId : Nat) (result : FactWriteResult) (detailJson : Json) :
    WriteLogRow :=
  { writeId := tick.writeId.text, idempotencyKey := request.idempotencyKey
    clientId := context.clientId, sessionId := context.sessionId, operation := request.operation
    outcome := result.outcome, factId := some result.factId
    existingFactId := result.existingFactId, observationId := some observationId
    recordedAt := tick.recordedAt, requestSha256 := requestHash, detailJson }

/-- What `finish` adds to the store a branch left. -/
structure Finished (tick : Tick) (context : ConnectionContext) (request : WriteRequest)
    (requestHash : String) (observationId : Nat) (state : Option SlotDecision) (applied : Applied)
    (s' : Store) (o : WriteOutcome) : Prop where
  frame : s' = { applied.store with facts := s'.facts, embeddingJobs := s'.embeddingJobs
                                    provenance := s'.provenance, writeLog := s'.writeLog }
  provenance : s'.provenance = insertOrIgnore applied.store.provenance
    (provenanceRow request tick.recordedAt applied.result.factId observationId)
  freshId : ∀ l ∈ applied.store.writeLog.rows, l.writeId ≠ tick.writeId.text
  logged : ∃ detail, applied.store.writeLog.insert?
      (logRow tick context request requestHash observationId applied.result detail) =
        some s'.writeLog ∧
      outcomeFromRow (logRow tick context request requestHash observationId applied.result detail)
        false = .ok o
  outcome : o.writeId = tick.writeId.text ∧ o.outcome = applied.result.outcome ∧
    o.factId = some applied.result.factId ∧ o.existingFactId = applied.result.existingFactId ∧
    o.observationId = some observationId ∧ o.replayed = false
  inScope : ∃ r ∈ applied.store.facts, r.factId = applied.result.factId ∧ r.scope = request.scope
  superseded : explicitTarget request state = none ∧ s'.facts = applied.store.facts ∨
    ∃ r ∈ applied.store.facts, explicitTarget request state = some r.factId ∧
      r.factId ≠ applied.result.factId ∧ r.scope = request.scope ∧ r.Current ∧
      r.memoryKind ≠ some "state" ∧ r.conflictGroup = none ∧
      FactPatch applied.store.facts s'.facts
        [supersededRow r tick.recordedAt applied.result.factId]
  detailed : ∀ l ∈ s'.writeLog, l ∈ applied.store.writeLog ∨
    l.idempotencyKey = request.idempotencyKey ∧
      ∃ host near flag, l.detailJson = detailOf host request near state applied flag

theorem finish_eq_ok {host : Host} {service : MemoryWriteService} {tick : Tick}
    {context : ConnectionContext} {request : WriteRequest} {requestHash : String}
    {observationId : Nat} {near : Option NearDuplicateCandidate} {state : Option SlotDecision}
    {applied : Applied} {s' : Store} {o : WriteOutcome}
    (done : finish host service tick context request requestHash observationId near state applied =
      .ok (s', o)) :
    Finished tick context request requestHash observationId state applied s' o := by
  obtain ⟨s₁, enqueued, done⟩ := bind_eq_ok.1 done
  obtain ⟨_, authorized, done⟩ := bind_eq_ok.1 done
  obtain ⟨s₂, attached, done⟩ := bind_eq_ok.1 done
  obtain ⟨⟨s₃, flag⟩, requested, done⟩ := bind_eq_ok.1 done
  obtain ⟨s₄, appended, done⟩ := bind_eq_ok.1 done
  obtain ⟨outcome, made, done⟩ := bind_eq_ok.1 done
  cases pure_eq_ok.1 done
  have frame₁ := enqueueEmbedding_eq_ok enqueued
  obtain ⟨row, memRow, sameRow, scopeRow⟩ := authorizeFactScope_eq_ok authorized
  obtain ⟨frame₂, provenance⟩ := attachProvenance_eq_ok attached
  obtain ⟨frame₄, logged, freshId⟩ := appendLog_eq_ok appended
  obtain ⟨writeId, kind, fact, existing, observation, replayed, -⟩ := make_eq_ok made
  have frame₃ : s₃ = { s₂ with facts := s₃.facts } := by
    rcases supersedeIfRequested_eq_ok requested with ⟨-, rfl, -⟩ | ⟨_, _, _, _, -, -, -, -, -, -, -, -, frame, -⟩
    · rfl
    · exact frame
  have facts₂ : s₂.facts = applied.store.facts := by rw [frame₂, frame₁]
  rw [show s₁.facts = applied.store.facts by rw [frame₁]] at memRow
  refine
    { frame := by rw [frame₄, frame₃, frame₂, frame₁]
      provenance := by rw [frame₄, frame₃, provenance, frame₁]
      freshId := by rwa [frame₃, frame₂, frame₁] at freshId
      logged := ⟨detailOf host request near state applied flag, ?_, made⟩
      outcome := ⟨writeId.trans tick.writeId.valid.1, kind, fact, existing, observation, replayed⟩
      inScope := ⟨row, memRow, sameRow, scopeRow⟩
      superseded := ?_
      detailed := ?_ }
  · rw [frame₃, frame₂, frame₁] at logged
    exact logged
  · rw [show s'.facts = s₃.facts by rw [frame₄]]
    rcases supersedeIfRequested_eq_ok requested with
      ⟨noTarget, rfl, -⟩ | ⟨r, mem, replacement, memNew, target, -, sameNew, distinct, sameScope,
        current, untyped, ungrouped, -, -, patch⟩
    · exact .inl ⟨noTarget, facts₂⟩
    · rw [facts₂] at mem memNew patch
      obtain rfl : replacement = row := Facts.eq_of_id memNew memRow (sameNew.trans sameRow.symm)
      exact .inr ⟨r, mem, target, distinct, sameScope.trans scopeRow, current, untyped, ungrouped,
        patch⟩
  · intro l mem
    have log : s₃.writeLog = applied.store.writeLog := by rw [frame₃, frame₂, frame₁]
    rcases (Table.mem_of_insert? logged).1 mem with old | rfl
    · exact .inl (log ▸ old)
    · exact .inr ⟨rfl, host, near, flag, rfl⟩

/-! ## The whole write -/

/-- The log row of a write that left no fact. -/
def factlessRow (tick : Tick) (context : ConnectionContext) (request : WriteRequest)
    (requestHash : String) (decision : PolicyDecision) : WriteLogRow :=
  { writeId := tick.writeId.text, idempotencyKey := request.idempotencyKey
    clientId := context.clientId, sessionId := context.sessionId, operation := request.operation
    outcome := decision.outcome, factId := none, existingFactId := none, observationId := none
    recordedAt := tick.recordedAt, requestSha256 := requestHash
    detailJson := .obj [("policy_reason", .str decision.reason)] }

theorem recordFactlessDecision_eq_ok {s s' : Store} {tick : Tick} {context : ConnectionContext}
    {request : WriteRequest} {requestHash : String} {decision : PolicyDecision} {o : WriteOutcome}
    (done : recordFactlessDecision s tick context request requestHash decision = .ok (s', o)) :
    s' = { s with writeLog := s'.writeLog } ∧
      s.writeLog.insert? (factlessRow tick context request requestHash decision) =
        some s'.writeLog ∧
      outcomeFromRow (factlessRow tick context request requestHash decision) false = .ok o := by
  obtain ⟨s₁, appended, done⟩ := bind_eq_ok.1 done
  obtain ⟨outcome, made, done⟩ := bind_eq_ok.1 done
  cases pure_eq_ok.1 done
  obtain ⟨frame, logged, -⟩ := appendLog_eq_ok appended
  exact ⟨frame, logged, made⟩

/-- Only the registration of the connection differs, and no client is lost. -/
structure Registered (s s₀ : Store) : Prop where
  frame : s₀ = { s with clients := s₀.clients, sessions := s₀.sessions }
  clients : ∀ c ∈ s.clients, c ∈ s₀.clients

/-- Only the observations differ. -/
def Observed (s₀ s₁ : Store) : Prop := s₁ = { s₀ with observations := s₁.observations }

/-- What a write that returned has done.  `context` is the authorized connection, `s₀` the
store with the connection registered, `s₁` the store with the observation recorded. -/
inductive WriteCase (host : Host) (call : WriteCall) (context : ConnectionContext) (s s' : Store)
    (o : WriteOutcome) : Prop where
  | replay (prior : WriteLogRow)
      (found : loadPrior s context.clientId call.request.idempotencyKey = some prior)
      (sameHash : prior.requestSha256 =
        requestSha256 host context call.request call.candidate)
      (answer : outcomeFromRow prior true = .ok o)
      (frame : s' = { s with clients := s'.clients })
      (clients : ∀ c ∈ s.clients, c ∈ s'.clients)
  | factless (s₀ : Store) (decision : PolicyDecision)
      (fresh : loadPrior s context.clientId call.request.idempotencyKey = none)
      (registered : Registered s s₀)
      (decided : decide call.service s₀ call.tick context call.request call.candidate =
        .ok (.factless decision))
      (frame : s' = { s₀ with writeLog := s'.writeLog })
      (logged : s₀.writeLog.insert? (factlessRow call.tick context call.request
        (requestSha256 host context call.request call.candidate) decision) = some s'.writeLog)
      (answer : outcomeFromRow (factlessRow call.tick context call.request
        (requestSha256 host context call.request call.candidate) decision) false = .ok o)
  | typed (s₀ s₁ : Store) (observationId : Nat) (effective : StateCandidate) (d : SlotDecision)
      (applied : Applied)
      (fresh : loadPrior s context.clientId call.request.idempotencyKey = none)
      (registered : Registered s s₀)
      (decided : decide call.service s₀ call.tick context call.request call.candidate =
        .ok (.proceed (some (effective, d))))
      (recorded : recordObservation host s₀ context call.request call.tick.recordedAt =
        .ok (s₁, observationId))
      (observed : Observed s₀ s₁)
      (accepted : Accepted applied.result.outcome)
      (branch : FactFrame s₁ applied.store ∧
        StateEffect call.tick call.request effective d s₁ applied.store applied.result.factId)
      (finished : Finished call.tick context call.request
        (requestSha256 host context call.request call.candidate) observationId (some d) applied s' o)
  | untyped (s₀ s₁ : Store) (observationId : Nat) (near : Option NearDuplicateCandidate)
      (applied : Applied)
      (fresh : loadPrior s context.clientId call.request.idempotencyKey = none)
      (registered : Registered s s₀)
      (decided : decide call.service s₀ call.tick context call.request call.candidate =
        .ok (.proceed none))
      (recorded : recordObservation host s₀ context call.request call.tick.recordedAt =
        .ok (s₁, observationId))
      (observed : Observed s₀ s₁)
      (searched : nearDuplicate host call.service s₁ call.request false = .ok near)
      (accepted : Accepted applied.result.outcome)
      (branch : FactFrame s₁ applied.store ∧
        UntypedEffect call.tick call.request near s₁ applied.store applied.result.factId ∧
        applied.store.conflicts = s₁.conflicts ∧
        applied.store.conflictMembers = s₁.conflictMembers)
      (finished : Finished call.tick context call.request
        (requestSha256 host context call.request call.candidate) observationId none applied s' o)

/-- The near duplicate of a write is a current fact of its scope, outside every conflict. -/
theorem nearDuplicate_row {host : Host} {service : MemoryWriteService} {s : Store}
    {request : WriteRequest} {typed : Bool} {near : Option NearDuplicateCandidate}
    (searched : nearDuplicate host service s request typed = .ok near) :
    ∀ c ∈ near, ∃ r ∈ s.facts, r.factId = c.factId ∧ r.scope = request.scope ∧ r.Current ∧
      r.conflictGroup = none := by
  intro c found
  unfold nearDuplicate at searched
  split at searched
  · cases searched
    cases found
  · cases found
    obtain ⟨r, mem, here, inScope, current, ungrouped, -⟩ := findUntypedNearDuplicate_eq_ok searched
    exact ⟨r, mem, here, inScope, current, ungrouped⟩

/-- A write that names its target looks for no near duplicate. -/
theorem nearDuplicate_of_requested {host : Host} {service : MemoryWriteService} {s : Store}
    {request : WriteRequest} {typed : Bool} (requested : request.supersedeFactId ≠ none) :
    nearDuplicate host service s request typed = .ok none := by
  unfold nearDuplicate
  exact if_pos (.inr (.inl requested))

theorem decideStateWrite_observed {s₀ s₁ : Store} {candidate : StateCandidate}
    (observed : Observed s₀ s₁) : decideStateWrite s₁ candidate = decideStateWrite s₀ candidate := by
  rw [observed]
  rfl

/-- Authorization narrows the scopes of a connection and nothing else. -/
theorem authorizeContext_eq_ok {policy : MemoryPolicy} {given context : ConnectionContext}
    (authorized : policy.authorizeContext given = .ok context) :
    ∃ scopes nonempty, context =
      { given with accessScopes := scopes, scopesNonempty := nonempty } := by
  unfold MemoryPolicy.authorizeContext at authorized
  split at authorized
  · cases authorized
  · obtain ⟨requested, -, authorized⟩ := bind_eq_ok.1 authorized
    obtain ⟨⟨nonempty⟩, -, authorized⟩ := bind_eq_ok.1 authorized
    cases pure_eq_ok.1 authorized
    exact ⟨_, nonempty, rfl⟩

/-- The inversion of a write. -/
theorem write_cases {host : Host} {call : WriteCall} {s s' : Store} {o : WriteOutcome}
    (done : call.apply host s = .ok (s', o)) :
    ∃ context, call.service.policy.authorizeContext call.context = .ok context ∧
      validateStateCandidate call.request call.candidate = .ok () ∧ ClientEnabled s' context ∧
      WriteCase host call context s s' o := by
  obtain ⟨context, authorized, done⟩ := bind_eq_ok.1 done
  obtain ⟨⟨⟩, valid, done⟩ := bind_eq_ok.1 done
  obtain ⟨s₀, client, done⟩ := bind_eq_ok.1 done
  obtain ⟨frame₀, clients, enabled⟩ := registerClient_eq_ok client
  have prior₀ : loadPrior s₀ context.clientId call.request.idempotencyKey =
      loadPrior s context.clientId call.request.idempotencyKey := by
    rw [frame₀]
    rfl
  refine ⟨context, authorized, valid, ?_⟩
  split at done
  · rename_i prior found
    obtain ⟨sameHash, done⟩ := require_bind_eq_ok.1 done
    obtain ⟨outcome, answer, done⟩ := bind_eq_ok.1 done
    cases pure_eq_ok.1 done
    exact ⟨enabled, .replay prior (prior₀ ▸ found) sameHash answer frame₀ clients⟩
  · rename_i fresh
    rw [prior₀] at fresh
    obtain ⟨s₁, session, done⟩ := bind_eq_ok.1 done
    have frame₁ := registerSession_eq_ok session
    have sameClients : s₁.clients = s₀.clients := by rw [frame₁]
    have registered : Registered s s₁ :=
      ⟨by rw [frame₁, frame₀], fun c mem => by rw [sameClients]; exact clients c mem⟩
    have enabled₁ : ClientEnabled s₁ context := by rwa [ClientEnabled, sameClients]
    obtain ⟨decided, decision, done⟩ := bind_eq_ok.1 done
    cases decided with
    | factless policy =>
        obtain ⟨frame, logged, answer⟩ := recordFactlessDecision_eq_ok done
        refine ⟨?_, .factless s₁ policy fresh registered decision frame logged answer⟩
        rwa [ClientEnabled, show s'.clients = s₁.clients by rw [frame]]
    | proceed state =>
        obtain ⟨⟨s₂, observationId⟩, recorded, done⟩ := bind_eq_ok.1 done
        obtain ⟨near, searched, done⟩ := bind_eq_ok.1 done
        obtain ⟨applied, branch, done⟩ := bind_eq_ok.1 done
        obtain ⟨observed, -⟩ := recordObservation_eq_ok recorded
        have accepted := applyDecision_accepted branch
        have finished := finish_eq_ok done
        have enabled' : applied.store.clients = s₁.clients → ClientEnabled s' context := by
          intro same
          rwa [ClientEnabled, show s'.clients = s₁.clients by rw [finished.frame, same]]
        cases state with
        | none =>
            have effect := applyUntyped_effect (nearDuplicate_row searched) branch
            refine ⟨enabled' (by rw [effect.1, observed]), ?_⟩
            exact .untyped s₁ s₂ observationId near applied fresh registered decision recorded
              observed searched accepted effect finished
        | some pair =>
            obtain ⟨effective, d⟩ := pair
            obtain ⟨-, filled, stateDecided, -⟩ := decide_typed decision
            obtain ⟨original, given, -, -, -, sameKind, -⟩ := effectiveCandidate_eq_ok filled
            rw [given] at valid
            have kind : effective.memoryKind = "state" :=
              sameKind.trans (require_bind_eq_ok.1 valid).1
            have effect := applyState_effect kind
              ((decideStateWrite_observed observed).trans stateDecided) branch
            refine ⟨enabled' (by rw [effect.1, observed]), ?_⟩
            exact .typed s₁ s₂ observationId effective d applied fresh registered decision recorded
              observed accepted effect finished

end Enfold.Laws
