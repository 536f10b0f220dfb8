/-
# Laws.MergeBranch -- when a write replaces its near duplicate

`Merges` says, of the store and the arguments before the call, that an untyped write goes
down the branch in which the new fact supersedes its near duplicate: the connection
registers, the policies pass, no fact has the very content, the search finds a candidate
and the incoming trust and time win.  It is exact: such a write returns and supersedes the
candidate (`Merges.apply_ok`), and a write that supersedes a near duplicate meets it
(`merges_of_merged`).

The supersession policy has no part in this branch.
-/
import Enfold.Laws.Progress
import Enfold.Laws.RowLaws
import Mathlib.Data.Fintype.Basic

namespace Enfold.Laws

open Enfold.Theory Enfold.Model

set_option autoImplicit false

/-! ## Registration -/

/-- No other surface holds the client, and it is not disabled. -/
def ClientFits (s : Store) (context : ConnectionContext) : Prop :=
  ∀ row ∈ s.clients.get? context.clientId, row.surface = context.surface ∧ row.disabledAt = none

instance (s : Store) (context : ConnectionContext) : Decidable (ClientFits s context) :=
  inferInstanceAs (Decidable (∀ row ∈ s.clients.get? context.clientId, _))

/-- The session, when it is known, was opened with the same identity. -/
def SessionFits (s : Store) (context : ConnectionContext) : Prop :=
  ∀ row ∈ s.sessions.get? (context.clientId, context.sessionId), row.Matches context

instance (s : Store) (context : ConnectionContext) : Decidable (SessionFits s context) :=
  inferInstanceAs (Decidable (∀ row ∈ s.sessions.get? (context.clientId, context.sessionId), _))

/-- A key that some row has is found. -/
theorem get?_ne_none {K R : Type} {key : R → K} [DecidableEq K] {t : Table K R key} {k : K}
    (known : ∃ r ∈ t, key r = k) : t.get? k ≠ none := by
  obtain ⟨r, mem, here⟩ := known
  rw [Table.get?_eq_some.2 ⟨mem, here⟩]
  simp

theorem get?_insertOrIgnore {K R : Type} {key : R → K} [DecidableEq K] {t : Table K R key} {r : R} :
    (insertOrIgnore t r).get? (key r) = some ((t.get? (key r)).getD r) := by
  cases found : t.get? (key r) with
  | some old =>
      obtain ⟨mem, same⟩ := Table.get?_eq_some.1 found
      rw [insertOrIgnore_of_taken mem same, found]
      rfl
  | none =>
      have fresh := Table.get?_eq_none.1 found
      have free : key r ∉ t.rows.map key := by
        intro taken
        obtain ⟨r', mem, same⟩ := List.mem_map.1 taken
        exact fresh r' mem same
      have inserted : t.insert? r = some (t.insert r free) := Table.insert?_eq_some.2 ⟨free, rfl⟩
      refine Table.get?_eq_some.2 ⟨?_, rfl⟩
      rw [insertOrIgnore, inserted]
      exact (Table.mem_of_insert? inserted).2 (.inr rfl)

theorem registerClient_ok {s : Store} {context : ConnectionContext} (now : String)
    (fits : ClientFits s context) : ∃ s', registerClient s context now = .ok s' := by
  have found := get?_insertOrIgnore (t := s.clients)
    (r := ⟨context.clientId, context.surface, context.displayName, now, none⟩)
  unfold registerClient
  dsimp only at found ⊢
  rw [found]
  cases known : s.clients.get? context.clientId with
  | none => exact ⟨_, require_bind_eq_ok.2 ⟨rfl, require_bind_eq_ok.2 ⟨rfl, rfl⟩⟩⟩
  | some row =>
      obtain ⟨surface, enabled⟩ := fits row known
      exact ⟨_, require_bind_eq_ok.2 ⟨surface, require_bind_eq_ok.2 ⟨enabled, rfl⟩⟩⟩

theorem clientFits_of_registered {s s' : Store} {context : ConnectionContext} {now : String}
    (registered : registerClient s context now = .ok s') : ClientFits s context := by
  intro row found
  obtain ⟨mem, here⟩ := Table.get?_eq_some.1 found
  unfold registerClient at registered
  dsimp only at registered
  rw [insertOrIgnore_of_taken mem here, found] at registered
  obtain ⟨surface, registered⟩ := require_bind_eq_ok.1 registered
  exact ⟨surface, (require_bind_eq_ok.1 registered).1⟩

theorem registerSession_ok {s : Store} {context : ConnectionContext} (now : String)
    (client : s.clients.get? context.clientId ≠ none) (fits : SessionFits s context) :
    ∃ s', registerSession s context now = .ok s' := by
  have found := get?_insertOrIgnore (t := s.sessions)
    (r := { clientId := context.clientId, sessionId := context.sessionId, agentId := context.agentId
            parentAgentId := context.parentAgentId, projectRoot := context.projectRoot
            repository := context.repository, branch := context.branch
            commitSha := context.commitSha, capabilities := context.capabilities
            accessScopes := context.accessScopes, startedAt := orElse context.startedAt now })
  unfold registerSession
  dsimp only at found ⊢
  rw [Table.get?_update, found, Option.map_some]
  refine ⟨_, require_bind_eq_ok.2 ⟨client, require_bind_eq_ok.2 ⟨?_, rfl⟩⟩⟩
  cases known : s.sessions.get? (context.clientId, context.sessionId) with
  | none =>
      dsimp only [Option.getD_none]
      split <;> exact ⟨rfl, rfl, rfl, rfl, rfl, rfl⟩
  | some row =>
      have matching := fits row known
      dsimp only [Option.getD_some]
      split <;> exact matching

theorem sessionFits_of_registered {s s' : Store} {context : ConnectionContext} {now : String}
    (registered : registerSession s context now = .ok s') : SessionFits s context := by
  intro row found
  obtain ⟨mem, here⟩ := Table.get?_eq_some.1 found
  unfold registerSession at registered
  obtain ⟨-, registered⟩ := require_bind_eq_ok.1 registered
  dsimp only at registered
  rw [insertOrIgnore_of_taken mem here, Table.get?_update, found, Option.map_some] at registered
  have matching := (require_bind_eq_ok.1 registered).1
  split at matching <;> exact matching

theorem session_of_registered {s s' : Store} {context : ConnectionContext} {now : String}
    (registered : registerSession s context now = .ok s') :
    s'.sessions.get? (context.clientId, context.sessionId) ≠ none := by
  unfold registerSession at registered
  obtain ⟨-, registered⟩ := require_bind_eq_ok.1 registered
  dsimp only at registered
  split at registered
  · cases registered
  · rename_i row found
    obtain ⟨-, registered⟩ := require_bind_eq_ok.1 registered
    cases pure_eq_ok.1 registered
    rw [found]
    simp

/-- A registered session fits its connection. -/
theorem registered_sessionFits {s s' : Store} {context : ConnectionContext} {now : String}
    (registered : registerSession s context now = .ok s') : SessionFits s' context := by
  intro row found
  unfold registerSession at registered
  obtain ⟨-, registered⟩ := require_bind_eq_ok.1 registered
  dsimp only at registered
  split at registered
  · cases registered
  · rename_i row' found'
    obtain ⟨matching, registered⟩ := require_bind_eq_ok.1 registered
    cases pure_eq_ok.1 registered
    obtain rfl : row' = row := Option.some.inj (found'.symm.trans found)
    exact matching

/-- A connection that fits registers, and fits afterwards. -/
theorem register_ok {s : Store} {context : ConnectionContext} (now : String)
    (clientFits : ClientFits s context) (sessionFits : SessionFits s context) :
    ∃ sc s₀, registerClient s context now = .ok sc ∧ sc = { s with clients := sc.clients } ∧
      registerSession sc context now = .ok s₀ ∧ Registered s s₀ ∧
      (∃ row ∈ s₀.clients, row.clientId = context.clientId) ∧
      ClientFits s₀ context ∧ SessionFits s₀ context := by
  obtain ⟨sc, registeredClient⟩ := registerClient_ok now clientFits
  obtain ⟨frameC, clients, row, mem, here, surface, enabled⟩ := registerClient_eq_ok registeredClient
  have fits : SessionFits sc context := by
    rw [frameC]
    exact sessionFits
  obtain ⟨s₀, registeredSession⟩ := registerSession_ok now (get?_ne_none ⟨row, mem, here⟩) fits
  have frame := registerSession_eq_ok registeredSession
  have same : s₀.clients = sc.clients := by rw [frame]
  refine ⟨sc, s₀, registeredClient, frameC, registeredSession,
    ⟨by rw [frame, frameC], fun x old => same ▸ clients x old⟩, ⟨row, same ▸ mem, here⟩, ?_,
    registered_sessionFits registeredSession⟩
  intro row' found
  rw [same, Table.get?_eq_some.2 ⟨mem, here⟩] at found
  cases found
  exact ⟨surface, enabled⟩

/-! ## Facts -/

/-- A row outside every slot that supersedes nothing is inserted. -/
theorem insert_ok (facts : Facts) (row : FactRow) (kind : row.memoryKind = none)
    (unlinked : row.supersededBy = none) : ∃ facts', facts.insert row = .ok facts' := by
  have slots : UniqueSlots (facts.table.insert { row with factId := facts.nextId }
      (Facts.nextId_not_mem facts _ rfl)).rows := by
    intro x mem y mem' k _ indexed indexed'
    have outside : ∀ k, ¬ ({ row with factId := facts.nextId } : FactRow).Indexed k := by
      intro k inIndex
      rw [FactRow.Indexed, FactRow.InSlot, kind] at inIndex
      cases inIndex.1.1
    rcases Table.mem_insert.1 mem with old | rfl
    · rcases Table.mem_insert.1 mem' with old' | rfl
      · exact congrArg FactRow.factId (Facts.eq_of_indexed old old' indexed indexed')
      · exact absurd indexed' (outside k)
    · exact absurd indexed (outside k)
  have links : Linked (facts.table.insert { row with factId := facts.nextId }
      (Facts.nextId_not_mem facts _ rfl)).rows := by
    intro x mem k link
    rcases Table.mem_insert.1 mem with old | rfl
    · obtain ⟨r, mem, same⟩ := List.mem_map.1 (facts.links x old k link)
      exact List.mem_map.2 ⟨r, Table.mem_insert.2 (.inl mem), same⟩
    · rw [unlinked] at link
      cases link
  exact ⟨_, Facts.checkRows_of slots links⟩

theorem setCorrectionStatus_ok (s : Store) (factId : Nat) (status : Option String) :
    ∃ s', setCorrectionStatus s factId status = .ok s' := by
  cases status with
  | none => exact ⟨s, rfl⟩
  | some status =>
      refine updateFacts_ok (uniqueSlots_update fun r mem _ k indexed r' mem' indexed' => ?_)
        (linked_update fun r mem _ k link => .inl link)
      have there : r'.Indexed k := by
        split at indexed' <;> exact indexed'
      exact congrArg FactRow.factId (Facts.eq_of_indexed mem' mem there indexed)

/-- The fact writer never refuses a validated request. -/
theorem factWriter_ok (s : Store) (tick : Tick) (request : WriteRequest) :
    ∃ result, factWriter s tick request = .ok result := by
  obtain ⟨facts, inserted⟩ := insert_ok s.facts
    (plainRow tick { request with correctionStatus := none } 0) rfl rfl
  obtain ⟨s', updated⟩ := setCorrectionStatus_ok
    (indexFact { s with facts } s.facts.nextId request.content request.tags) s.facts.nextId
    request.correctionStatus
  refine ⟨(s', ⟨s.facts.nextId, .inserted, none⟩), bind_eq_ok.2
    ⟨(indexFact { s with facts } s.facts.nextId request.content request.tags, s.facts.nextId), ?_,
      bind_eq_ok.2 ⟨s', updated, rfl⟩⟩⟩
  simp only [insertFact, required_of request.contentValid, required_of request.categoryValid,
    required_of request.scopeValid, required_of request.sensitivityValid, ok_bind]
  refine require_bind_eq_ok.2 ⟨request.trustUnit, require_bind_eq_ok.2 ⟨?_, ?_⟩⟩
  · intro x given
    cases given
    exact request.authorityUnit
  · exact bind_eq_ok.2 ⟨facts, inserted, rfl⟩

/-- A current fact is superseded by a fact that exists. -/
theorem supersedeNearDuplicate_ok {s : Store} {loser survivor : Nat} (moment : String) {r : FactRow}
    (mem : r ∈ s.facts) (here : r.factId = loser) (current : r.Current)
    (target : ∃ r' ∈ s.facts, r'.factId = survivor) :
    ∃ s', supersedeNearDuplicate s loser survivor moment = .ok s' := by
  obtain ⟨s', updated⟩ : ∃ s', updateFacts s (fun r => r.factId = loser ∧ r.Current)
      (fun r => supersededRow r moment survivor) (fun _ => rfl) = .ok s' := supersede_ok target
  refine ⟨s', bind_eq_ok.2 ⟨s', updated, require_bind_eq_ok.2 ⟨?_, rfl⟩⟩⟩
  refine Table.rowcount_eq_one mem ⟨here, current⟩ fun r' mem' there => ?_
  exact there.1.trans here.symm

/-! ## Observation and finish -/

theorem recordObservation_ok (host : Host) {s : Store} {context : ConnectionContext}
    (request : WriteRequest) (now : String)
    (session : s.sessions.get? (context.clientId, context.sessionId) ≠ none) :
    ∃ result, recordObservation host s context request now = .ok result := by
  unfold recordObservation
  dsimp only
  split
  · exact ⟨_, rfl⟩
  · obtain ⟨u, inserted⟩ := insertRow_ok s.observations
      (observationRow host context request now
        (nextRowId (s.observations.rows.map ObservationRow.observationId)))
      "observations.observation_id" fun o mem =>
        (lt_nextRowId (List.mem_map_of_mem mem)).ne
    exact ⟨_, require_bind_eq_ok.2 ⟨session, bind_eq_ok.2 ⟨u, inserted, rfl⟩⟩⟩

/-- The observation a write recorded is there. -/
theorem recorded_mem {host : Host} {s s' : Store} {context : ConnectionContext}
    {request : WriteRequest} {now : String} {observationId : Nat}
    (recorded : recordObservation host s context request now = .ok (s', observationId)) :
    ∃ o ∈ s'.observations, o.observationId = observationId := by
  rcases recordObservation_eq_ok recorded with ⟨-, ⟨same, o, mem, here, -⟩ | inserted⟩
  · rw [same]
    exact ⟨o, mem, here⟩
  · exact ⟨_, (Table.mem_of_insert? inserted).2 (.inr rfl), rfl⟩

theorem recorded_positive {host : Host} {s s' : Store} {context : ConnectionContext}
    {request : WriteRequest} {now : String} {observationId : Nat}
    (recorded : recordObservation host s context request now = .ok (s', observationId))
    (positive : ∀ x ∈ s.observations, 0 < x.observationId) : 0 < observationId := by
  unfold recordObservation at recorded
  dsimp only at recorded
  split at recorded
  · rename_i o rest found
    cases pure_eq_ok.1 recorded
    have mem : o ∈ s.observations.select _ := found ▸ List.mem_cons_self
    exact positive o (Table.mem_select.1 mem).1
  · obtain ⟨-, recorded⟩ := require_bind_eq_ok.1 recorded
    obtain ⟨observations, -, recorded⟩ := bind_eq_ok.1 recorded
    cases pure_eq_ok.1 recorded
    exact Nat.succ_pos _

theorem enqueueEmbedding_ok (host : Host) (service : MemoryWriteService) (now : String) {s : Store}
    {factId : Option Nat} (known : ∀ k ∈ factId, ∃ r ∈ s.facts, r.factId = k) :
    ∃ s', enqueueEmbedding host service now s factId = .ok s' := by
  unfold enqueueEmbedding
  split
  · rename_i k spec _
    obtain ⟨r, mem, here⟩ := known k rfl
    unfold enqueueInTransaction
    rw [Facts.get?_eq_some.2 ⟨mem, here⟩]
    dsimp only
    split
    · exact ⟨_, rfl⟩
    · exact ⟨_, rfl⟩
  · exact ⟨s, rfl⟩

theorem make_ok (writeId : Uuid) (outcome : Outcome) (replayed : Bool) (detail : Json)
    {factId existingFactId observationId : Option Nat} (fact : ∀ k ∈ factId, 0 < k)
    (existing : ∀ k ∈ existingFactId, 0 < k) (observation : ∀ k ∈ observationId, 0 < k) :
    ∃ o, WriteOutcome.make writeId.text outcome factId existingFactId observationId replayed detail =
      .ok o := by
  simp only [WriteOutcome.make, required_of writeId.valid, checked_of fact, checked_of existing,
    checked_of observation, ok_bind]
  exact ⟨_, rfl⟩

/-- What a branch has to leave for the rest of an untyped write without a target to go
through. -/
structure Finishable (s : Store) (tick : Tick) (context : ConnectionContext) (request : WriteRequest)
    (observationId : Nat) (applied : Applied) : Prop where
  untargeted : request.supersedeFactId = none
  result : ∃ r ∈ applied.store.facts, r.factId = applied.result.factId ∧ r.scope = request.scope
  existing : ∀ k ∈ applied.result.existingFactId, ∃ r ∈ applied.store.facts, r.factId = k
  enqueue : ∀ k ∈ applied.enqueue, ∃ r ∈ applied.store.facts, r.factId = k
  observation : ∃ o ∈ applied.store.observations, o.observationId = observationId ∧
    0 < o.observationId
  client : ∃ c ∈ applied.store.clients, c.clientId = context.clientId
  log : applied.store.writeLog = s.writeLog
  unlogged : loadPrior s context.clientId request.idempotencyKey = none
  freshId : ∀ l ∈ s.writeLog.rows, l.writeId ≠ tick.writeId.text

/-- What follows a branch returns: the key and the id of the log row are new, and what it refers to is
there. -/
theorem Finishable.finish_ok {s : Store} {tick : Tick} {context : ConnectionContext}
    {request : WriteRequest} {observationId : Nat} {applied : Applied}
    (ready : Finishable s tick context request observationId applied) (host : Host)
    (service : MemoryWriteService) (requestHash : String) (near : Option NearDuplicateCandidate) :
    ∃ result, finish host service tick context request requestHash observationId near none applied =
      .ok result := by
  obtain ⟨r, memR, idR, scopeR⟩ := ready.result
  obtain ⟨x, memX, idX, positiveX⟩ := ready.observation
  obtain ⟨s₁, enqueued⟩ := enqueueEmbedding_ok host service tick.recordedAt ready.enqueue
  have frame₁ := enqueueEmbedding_eq_ok enqueued
  have facts₁ : s₁.facts = applied.store.facts := by rw [frame₁]
  have observations₁ : s₁.observations = applied.store.observations := by rw [frame₁]
  have found : s₁.facts.get? applied.result.factId = some r := by
    rw [facts₁]
    exact Facts.get?_eq_some.2 ⟨memR, idR⟩
  have authorized : authorizeFactScope s₁ applied.result.factId request.scope = .ok ⟨⟩ := by
    unfold authorizeFactScope
    rw [found]
    exact require_of scopeR
  have seen : s₁.observations.get? observationId ≠ none := by
    rw [observations₁]
    exact get?_ne_none ⟨x, memX, idX⟩
  obtain ⟨s₂, attached⟩ : ∃ s₂, attachProvenance s₁ applied.result.factId observationId request
      tick.recordedAt = .ok s₂ :=
    ⟨_, require_bind_eq_ok.2 ⟨⟨by rw [found]; simp, seen⟩, rfl⟩⟩
  obtain ⟨frame₂, -⟩ := attachProvenance_eq_ok attached
  have before : s₂ = { applied.store with
      embeddingJobs := s₂.embeddingJobs, provenance := s₂.provenance } := by rw [frame₂, frame₁]
  obtain ⟨log, inserted⟩ := insertRow_ok s₂.writeLog
    (logRow tick context request requestHash observationId applied.result
      (detailOf host request near none applied false))
    "memory_write_log.client_id, memory_write_log.idempotency_key" fun l mem => by
      rw [before] at mem
      exact Table.get?_eq_none.1 ready.unlogged l (ready.log ▸ mem)
  have known : ∀ k, (∃ r ∈ applied.store.facts, r.factId = k) → s₂.facts.get? k ≠ none := by
    rintro k ⟨r', mem', here⟩
    rw [before, Facts.get?_eq_some.2 ⟨mem', here⟩]
    simp
  have positive : ∀ k, (∃ r ∈ applied.store.facts, r.factId = k) → 0 < k := by
    rintro k ⟨r', mem', rfl⟩
    exact applied.store.facts.positive r' mem'
  have isResult : ∀ k ∈ some applied.result.factId, ∃ r ∈ applied.store.facts, r.factId = k := by
    intro k same
    exact ⟨r, memR, idR.trans (Option.some.inj same)⟩
  have isObservation : ∀ k ∈ some observationId, 0 < k := by
    intro k same
    cases same
    rwa [idX] at positiveX
  obtain ⟨o, made⟩ := make_ok tick.writeId applied.result.outcome false
    (detailOf host request near none applied false) (fun k same => positive k (isResult k same))
    (fun k same => positive k (ready.existing k same)) isObservation
  refine ⟨({ s₂ with writeLog := log }, o), bind_eq_ok.2 ⟨s₁, enqueued, bind_eq_ok.2 ⟨⟨⟩, authorized,
    bind_eq_ok.2 ⟨s₂, attached, bind_eq_ok.2 ⟨(s₂, false), ?_, bind_eq_ok.2
      ⟨{ s₂ with writeLog := log }, ?_, bind_eq_ok.2 ⟨o, made, rfl⟩⟩⟩⟩⟩⟩⟩
  · rw [explicitTarget, ready.untargeted]
    rfl
  · refine require_bind_eq_ok.2 ⟨?_, require_bind_eq_ok.2 ⟨⟨?_, ?_, ?_, ?_⟩,
      bind_eq_ok.2 ⟨log, inserted, rfl⟩⟩⟩
    · intro l mem
      rw [before] at mem
      exact ready.freshId l (ready.log ▸ mem)
    · rw [before]
      exact get?_ne_none ready.client
    · exact fun k same => known k (isResult k same)
    · exact fun k same => known k (ready.existing k same)
    · intro k same
      cases same
      rw [before]
      exact get?_ne_none ⟨x, memX, idX⟩

/-! ## The branch -/

/-- An untyped write is going to supersede the near duplicate `c`. -/
structure Merges (host : Host) (call : WriteCall) (s : Store) (c : NearDuplicateCandidate) : Prop where
  untyped : call.candidate = none
  untargeted : call.request.supersedeFactId = none
  connects : ∃ context, call.service.policy.authorizeContext call.context = .ok context ∧
    ClientFits s context ∧ SessionFits s context ∧ call.request.scope ∈ context.accessScopes
  unlogged : loadPrior s call.context.clientId call.request.idempotencyKey = none
  passes : call.service.policy.evaluateWrite call.request (some call.context.clientId) [] = .ok none
  freshId : ∀ l ∈ s.writeLog.rows, l.writeId ≠ call.tick.writeId.text
  novel : findUntypedExactDuplicate s call.request = none
  near : findUntypedNearDuplicate host call.service s call.request = .ok (some c)
  wins : IncomingWins call.request call.tick.recordedAt c

section Branch

variable {host : Host} {call : WriteCall} {s : Store} {c : NearDuplicateCandidate}

/-- The searches read the facts, their index and their vectors. -/
theorem near_registered {s₀ s₁ : Store} (registered : Registered s s₀) (observed : Observed s₀ s₁)
    (host : Host) (service : MemoryWriteService) (request : WriteRequest) :
    findUntypedExactDuplicate s₁ request = findUntypedExactDuplicate s request ∧
      findUntypedNearDuplicate host service s₁ request =
        findUntypedNearDuplicate host service s request := by
  rw [observed, registered.frame]
  exact ⟨rfl, rfl⟩

theorem decide_untyped_ok {service : MemoryWriteService} {tick : Tick} {context : ConnectionContext}
    {request : WriteRequest} (untargeted : request.supersedeFactId = none)
    (passes : service.policy.evaluateWrite request (some context.clientId) [] = .ok none)
    (granted : request.scope ∈ context.accessScopes) :
    decide service s tick context request none = .ok (.proceed none) := by
  have policy : policyDecision service s context request none = .ok none := by
    refine bind_eq_ok.2 ⟨none, passes, ?_⟩
    dsimp only
    rw [if_neg (not_not.2 granted), supersessionPolicy, untargeted]
    rfl
  exact bind_eq_ok.2 ⟨none, policy, bind_eq_ok.2 ⟨none, rfl, rfl⟩⟩

/-- Inserting the fact and superseding the candidate goes through. -/
theorem insertUntyped_merge_ok {tick : Tick} {request : WriteRequest} {r : FactRow} (mem : r ∈ s.facts)
    (here : r.factId = c.factId) (current : r.Current)
    (wins : IncomingWins request tick.recordedAt c) :
    ∃ applied, insertUntyped s tick request (some c) = .ok applied ∧
      applied.result = ⟨s.facts.nextId, .nearDedup, some c.factId⟩ ∧
      applied.enqueue = some s.facts.nextId ∧
      plainRow tick request s.facts.nextId ∈ applied.store.facts ∧
      supersededRow r tick.recordedAt s.facts.nextId ∈ applied.store.facts := by
  obtain ⟨⟨s₁, inserted⟩, wrote⟩ := factWriter_ok s tick request
  obtain ⟨rfl, -, -, patch⟩ := factWriter_eq_ok wrote
  have kept : r ∈ s₁.facts :=
    (patch.mem_iff (by simpa [plainRow] using Facts.nextId_fresh mem)).2 mem
  obtain ⟨s₂, superseded⟩ := supersedeNearDuplicate_ok tick.recordedAt kept here current
    ⟨_, patch.of_mem List.mem_cons_self, rfl⟩
  obtain ⟨-, -, r', mem', ⟨here', -⟩, patch'⟩ := supersedeNearDuplicate_eq_ok superseded
  obtain rfl : r' = r := Facts.eq_of_id mem' kept (here'.trans here.symm)
  refine ⟨⟨s₂, ⟨s.facts.nextId, .nearDedup, some c.factId⟩, none, some s.facts.nextId⟩,
    bind_eq_ok.2 ⟨_, wrote, bind_eq_ok.2 ⟨(s₂, ⟨s.facts.nextId, .nearDedup, some c.factId⟩,
      some s.facts.nextId), ?_, rfl⟩⟩, rfl, rfl, ?_, patch'.of_mem List.mem_cons_self⟩
  · unfold mergeNearDuplicate
    rw [if_pos wins]
    exact bind_eq_ok.2 ⟨s₂, superseded, rfl⟩
  · refine (patch'.mem_iff ?_).2 (patch.of_mem List.mem_cons_self)
    simpa [plainRow, supersededRow] using (Facts.nextId_fresh mem).symm

/-- Everything up to the facts has been recorded. -/
def Recorded (s s₁ : Store) : Prop :=
  s₁ = { s with clients := s₁.clients, sessions := s₁.sessions, observations := s₁.observations }

/-- What a branch leaves behind is there: its result in the scope of the request, the fact it found and
the fact to embed. -/
structure Branched (request : WriteRequest) (s₁ : Store) (applied : Applied) : Prop where
  frame : FactFrame s₁ applied.store
  result : ∃ r ∈ applied.store.facts, r.factId = applied.result.factId ∧ r.scope = request.scope
  existing : ∀ k ∈ applied.result.existingFactId, ∃ r ∈ applied.store.facts, r.factId = k
  enqueue : ∀ k ∈ applied.enqueue, ∃ r ∈ applied.store.facts, r.factId = k

/-- What a branch leaves behind is ready for the rest of the write: the observation was recorded, and
the key and the id of the log row are new. -/
theorem Branched.finishable {context : ConnectionContext} {s₀ s₁ : Store} {observationId : Nat}
    {applied : Applied} (branched : Branched call.request s₁ applied)
    (untargeted : call.request.supersedeFactId = none)
    (unlogged : loadPrior s context.clientId call.request.idempotencyKey = none)
    (freshId : ∀ l ∈ s.writeLog.rows, l.writeId ≠ call.tick.writeId.text)
    (positive : ∀ x ∈ s.observations, 0 < x.observationId) (registered : Registered s s₀)
    (client : ∃ row ∈ s₀.clients, row.clientId = context.clientId)
    (recorded : recordObservation host s₀ context call.request call.tick.recordedAt =
      .ok (s₁, observationId)) :
    Finishable s call.tick context call.request observationId applied := by
  have frame := branched.frame
  obtain ⟨observed, -⟩ := recordObservation_eq_ok recorded
  have observations : s₀.observations = s.observations := by rw [registered.frame]
  obtain ⟨o, memO, idO⟩ := recorded_mem recorded
  have numbered : 0 < o.observationId := by
    rw [idO]
    exact recorded_positive recorded (observations ▸ positive)
  have clients : applied.store.clients = s₀.clients := by rw [frame, observed]
  exact
    { untargeted
      result := branched.result
      existing := branched.existing
      enqueue := branched.enqueue
      observation := ⟨o, by rw [frame]; exact memO, idO, numbered⟩
      client := clients ▸ client
      log := by rw [frame, observed, registered.frame]
      unlogged
      freshId }

/-- An untyped write without a target returns when its connection fits, the policies pass, its key
and its id are new and its branch goes through.  The same connection fits again afterwards. -/
theorem untyped_write_ok {near : Option NearDuplicateCandidate} (untyped : call.candidate = none)
    (untargeted : call.request.supersedeFactId = none)
    (connects : ∃ context, call.service.policy.authorizeContext call.context = .ok context ∧
      ClientFits s context ∧ SessionFits s context ∧ call.request.scope ∈ context.accessScopes)
    (unlogged : loadPrior s call.context.clientId call.request.idempotencyKey = none)
    (passes : call.service.policy.evaluateWrite call.request (some call.context.clientId) [] =
      .ok none)
    (freshId : ∀ l ∈ s.writeLog.rows, l.writeId ≠ call.tick.writeId.text)
    (positive : ∀ x ∈ s.observations, 0 < x.observationId)
    (branch : ∀ s₁, Recorded s s₁ → nearDuplicate host call.service s₁ call.request false = .ok near ∧
      ∃ applied, applyDecision s₁ call.tick call.request none near = .ok applied ∧
        Branched call.request s₁ applied) :
    ∃ s' o s₁ applied, call.apply host s = .ok (s', o) ∧ Recorded s s₁ ∧
      applyDecision s₁ call.tick call.request none near = .ok applied ∧
      s'.facts = applied.store.facts ∧ s'.conflicts = applied.store.conflicts ∧
      (∀ context, call.service.policy.authorizeContext call.context = .ok context →
        ClientFits s' context ∧ SessionFits s' context) ∧
      ∀ l ∈ s'.writeLog.rows, l ∈ s.writeLog.rows ∨
        l.writeId = call.tick.writeId.text ∧ l.idempotencyKey = call.request.idempotencyKey := by
  obtain ⟨context, authorized, clientFits, sessionFits, granted⟩ := connects
  obtain ⟨_, _, narrowed⟩ := authorizeContext_eq_ok authorized
  have client : context.clientId = call.context.clientId := by rw [narrowed]
  rw [← client] at unlogged passes
  obtain ⟨sc, s₀, registeredClient, frameC, registeredSession, registered, known, clientAgain,
    sessionAgain⟩ := register_ok call.tick.recordedAt clientFits sessionFits
  have decided : decide call.service s₀ call.tick context call.request call.candidate =
      .ok (.proceed none) := by
    rw [untyped]
    exact decide_untyped_ok untargeted passes granted
  obtain ⟨⟨s₁, observationId⟩, recorded⟩ := recordObservation_ok host call.request
    call.tick.recordedAt (session_of_registered registeredSession)
  obtain ⟨observed, -⟩ := recordObservation_eq_ok recorded
  have before : Recorded s s₁ := by rw [Recorded, observed, registered.frame]
  obtain ⟨searched, applied, wrote, branched⟩ := branch s₁ before
  have frame := branched.frame
  have ready := branched.finishable untargeted unlogged freshId positive registered known recorded
  obtain ⟨⟨s', o⟩, done⟩ := ready.finish_ok host call.service
    (requestSha256 host context call.request call.candidate) near
  have finished := finish_eq_ok done
  refine ⟨s', o, s₁, applied, bind_eq_ok.2 ⟨context, authorized, bind_eq_ok.2 ⟨⟨⟩, ?_, bind_eq_ok.2
    ⟨sc, registeredClient, ?_⟩⟩⟩, before, wrote, ?_, by rw [finished.frame], ?_, ?_⟩
  · rw [untyped]
    rfl
  · rw [show loadPrior sc context.clientId call.request.idempotencyKey = none by
      rw [frameC]
      exact unlogged]
    exact bind_eq_ok.2 ⟨s₀, registeredSession, bind_eq_ok.2 ⟨_, decided, bind_eq_ok.2
      ⟨(s₁, observationId), recorded, bind_eq_ok.2 ⟨_, searched, bind_eq_ok.2
        ⟨applied, wrote, done⟩⟩⟩⟩⟩
  · rcases finished.superseded with ⟨-, same⟩ | ⟨_, -, target, -⟩
    · exact same
    · rw [explicitTarget, untargeted] at target
      cases target
  · intro context' authorized'
    obtain rfl : context = context' := Except.ok.inj (authorized.symm.trans authorized')
    have clients' : s'.clients = s₀.clients := by rw [finished.frame, frame, observed]
    have sessions' : s'.sessions = s₀.sessions := by rw [finished.frame, frame, observed]
    rw [ClientFits, SessionFits, clients', sessions']
    exact ⟨clientAgain, sessionAgain⟩
  · intro l mem
    obtain ⟨detail, inserted, -⟩ := finished.logged
    rw [ready.log] at inserted
    refine ((Table.mem_of_insert? inserted).1 mem).imp_right fun same => ?_
    rw [same]
    exact ⟨rfl, rfl⟩

/-- The searches read the facts, their index and their vectors. -/
theorem near_recorded {s₁ : Store} (recorded : Recorded s s₁) (host : Host)
    (service : MemoryWriteService) (request : WriteRequest) :
    findUntypedExactDuplicate s₁ request = findUntypedExactDuplicate s request ∧
      findUntypedNearDuplicate host service s₁ request =
        findUntypedNearDuplicate host service s request := by
  rw [recorded]
  exact ⟨rfl, rfl⟩

/-- Such a write returns, and the near duplicate is superseded. -/
theorem Merges.apply_ok (merges : Merges host call s c)
    (positive : ∀ x ∈ s.observations, 0 < x.observationId) :
    ∃ s' o r, call.apply host s = .ok (s', o) ∧ r ∈ s.facts ∧ r.factId = c.factId ∧ r.Current ∧
      supersededRow r call.tick.recordedAt s.facts.nextId ∈ s'.facts := by
  have goes : ∀ s₁, Recorded s s₁ →
      nearDuplicate host call.service s₁ call.request false = .ok (some c) ∧
        ∃ applied, applyDecision s₁ call.tick call.request none (some c) = .ok applied ∧
          Branched call.request s₁ applied ∧ ∃ r ∈ s.facts, r.factId = c.factId ∧ r.Current ∧
            supersededRow r call.tick.recordedAt s.facts.nextId ∈ applied.store.facts := by
    intro s₁ recorded
    obtain ⟨sameExact, sameNear⟩ := near_recorded recorded host call.service call.request
    have searched : nearDuplicate host call.service s₁ call.request false = .ok (some c) := by
      unfold nearDuplicate
      rw [if_neg, sameNear, merges.near]
      rw [sameExact, merges.novel, merges.untargeted]
      simp
    obtain ⟨r, memR, hereR, scopeR, currentR, -⟩ := nearDuplicate_row searched c rfl
    obtain ⟨applied, inserted, result, enqueue, new, old⟩ :=
      insertUntyped_merge_ok memR hereR currentR merges.wins
    obtain ⟨frame, -⟩ := insertUntyped_effect (nearDuplicate_row searched) inserted
    have facts : s₁.facts = s.facts := by rw [recorded]
    refine ⟨searched, applied, ?_, ⟨frame, ⟨_, new, by rw [result]; rfl, rfl⟩, ?_, ?_⟩, r,
      facts ▸ memR, hereR, currentR, facts ▸ old⟩
    · rw [applyDecision, sameExact, merges.novel]
      exact inserted
    · intro k same
      rw [result] at same
      cases same
      exact ⟨_, old, hereR⟩
    · intro k same
      rw [enqueue] at same
      cases same
      exact ⟨_, new, rfl⟩
  obtain ⟨s', o, s₁, applied, done, recorded, wrote, facts, -⟩ :=
    untyped_write_ok merges.untyped merges.untargeted merges.connects merges.unlogged merges.passes
      merges.freshId positive fun s₁ recorded =>
        (goes s₁ recorded).imp_right fun ⟨applied, parts⟩ => ⟨applied, parts.1, parts.2.1⟩
  obtain ⟨-, applied', wrote', -, r, memR, hereR, currentR, old⟩ := goes s₁ recorded
  obtain rfl : applied' = applied := Except.ok.inj (wrote'.symm.trans wrote)
  exact ⟨s', o, r, done, memR, hereR, currentR, facts ▸ old⟩

/-- A write that was not answered from the log found its connection fitting. -/
theorem connection_fits {s' : Store} {o : WriteOutcome} {context : ConnectionContext}
    (done : call.apply host s = .ok (s', o))
    (authorized : call.service.policy.authorizeContext call.context = .ok context)
    (unlogged : loadPrior s context.clientId call.request.idempotencyKey = none) :
    ClientFits s context ∧ SessionFits s context := by
  obtain ⟨given, authorized', done⟩ := bind_eq_ok.1 done
  obtain rfl : given = context := Except.ok.inj (authorized'.symm.trans authorized)
  obtain ⟨⟨⟩, -, done⟩ := bind_eq_ok.1 done
  obtain ⟨sc, registeredClient, done⟩ := bind_eq_ok.1 done
  obtain ⟨frameC, -⟩ := registerClient_eq_ok registeredClient
  have unlogged' : loadPrior sc given.clientId call.request.idempotencyKey = none := by
    rw [frameC]
    exact unlogged
  rw [unlogged'] at done
  obtain ⟨s₀, registeredSession, -⟩ := bind_eq_ok.1 done
  refine ⟨clientFits_of_registered registeredClient, ?_⟩
  have fits := sessionFits_of_registered registeredSession
  rw [frameC] at fits
  exact fits

/-- The policies let an untyped write that proceeds pass. -/
theorem passes_of_proceed {context : ConnectionContext} {s₀ : Store}
    (decided : decide call.service s₀ call.tick context call.request call.candidate =
      .ok (.proceed none)) :
    call.service.policy.evaluateWrite call.request (some context.clientId) [] = .ok none ∧
      call.request.scope ∈ context.accessScopes ∧
      supersessionPolicy s₀ call.request none none = .ok none := by
  obtain ⟨untyped, policy⟩ := decide_untyped decided
  rw [untyped] at policy
  obtain ⟨decision, evaluated, policy⟩ := bind_eq_ok.1 policy
  cases decision with
  | some decision => cases pure_eq_ok.1 policy
  | none =>
      refine ⟨evaluated, ?_⟩
      dsimp only at policy
      split at policy
      · cases pure_eq_ok.1 policy
      · rename_i granted
        exact ⟨not_not.1 granted, policy⟩

/-- A write that superseded a near duplicate was going to. -/
theorem merges_of_merged {context : ConnectionContext} {s' s₀ s₁ : Store} {o : WriteOutcome}
    {observationId : Nat} {applied : Applied} (done : call.apply host s = .ok (s', o))
    (authorized : call.service.policy.authorizeContext call.context = .ok context)
    (unlogged : loadPrior s context.clientId call.request.idempotencyKey = none)
    (registered : Registered s s₀)
    (decided : decide call.service s₀ call.tick context call.request call.candidate =
      .ok (.proceed none))
    (observed : Observed s₀ s₁)
    (searched : nearDuplicate host call.service s₁ call.request false = .ok (some c))
    (frame : FactFrame s₁ applied.store)
    (finished : Finished call.tick context call.request
      (requestSha256 host context call.request call.candidate) observationId none applied s' o)
    (wins : IncomingWins call.request call.tick.recordedAt c) : Merges host call s c := by
  obtain ⟨_, _, narrowed⟩ := authorizeContext_eq_ok authorized
  have client : context.clientId = call.context.clientId := by rw [narrowed]
  obtain ⟨clientFits, sessionFits⟩ := connection_fits done authorized unlogged
  obtain ⟨passes, granted, -⟩ := passes_of_proceed decided
  obtain ⟨sameExact, sameNear⟩ := near_registered registered observed host call.service call.request
  have log : applied.store.writeLog = s.writeLog := by rw [frame, observed, registered.frame]
  unfold nearDuplicate at searched
  rw [sameExact, sameNear] at searched
  split at searched
  · cases searched
  · rename_i eligible
    obtain ⟨-, eligible⟩ := not_or.1 eligible
    obtain ⟨untargeted, novel⟩ := not_or.1 eligible
    exact
      { untyped := (decide_untyped decided).1
        untargeted := not_not.1 untargeted
        connects := ⟨context, authorized, clientFits, sessionFits, granted⟩
        unlogged := client ▸ unlogged
        passes := client ▸ passes
        freshId := log ▸ finished.freshId
        novel := not_not.1 novel
        near := searched
        wins }

end Branch

end Enfold.Laws
