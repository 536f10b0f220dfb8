/-
# Laws.JobEffects -- calls and workers as edits of the embedding jobs

A write and a resolution through the service enqueue at most one fact, and it is the only fact
they can make active (`Enqueues`).  An erasure ends the jobs of its fact.  No other call touches
the jobs.  The functions of a worker are the moves of its claim.
-/
import Enfold.Laws.EraseEffect
import Enfold.Laws.JobMoves

namespace Enfold.Laws

open Enfold.Theory Enfold.Model

set_option autoImplicit false

/-! ## Writes and resolutions -/

/-- The jobs after the call come from one enqueue; only its fact can have become active. -/
structure Enqueues (host : Host) (service : MemoryWriteService) (s s' : Store) : Prop where
  vectors : s'.factEmbeddings = s.factEmbeddings
  enqueued : ∃ middle next now factId,
    middle.embeddingJobs = s.embeddingJobs ∧ middle.factEmbeddings = s.factEmbeddings ∧
      enqueueEmbedding host service now middle factId = .ok next ∧
      s'.embeddingJobs = next.embeddingJobs ∧
      ∀ r ∈ s'.facts, r.Active → r ∈ s.facts ∨ factId = some r.factId

theorem Enqueues.edits {host : Host} {service : MemoryWriteService} {s s' : Store}
    (enqueues : Enqueues host service s s') :
    JobEdits Restarts s.embeddingJobs s'.embeddingJobs := by
  obtain ⟨middle, next, now, factId, jobs, -, enqueued, same, -⟩ := enqueues.enqueued
  rw [same, ← jobs]
  exact enqueueEmbedding_edits enqueued

/-- A call that leaves facts, vectors and jobs alone. -/
theorem Enqueues.of_same {host : Host} {service : MemoryWriteService} {s s' : Store}
    (facts : s'.facts = s.facts) (vectors : s'.factEmbeddings = s.factEmbeddings)
    (jobs : s'.embeddingJobs = s.embeddingJobs) : Enqueues host service s s' := by
  refine ⟨vectors, s, s, "", none, rfl, rfl, ?_, jobs, fun r mem _ => .inl (facts ▸ mem)⟩
  unfold enqueueEmbedding
  rfl

theorem supersededRow_inactive (r : FactRow) (moment : String) (survivor : Nat) :
    ¬ (supersededRow r moment survivor).Active :=
  fun active => Option.some_ne_none _ active.1.1

/-- The active facts of a typed branch are old ones, or the one it inserted. -/
theorem StateEffect.active {tick : Tick} {request : WriteRequest} {candidate : StateCandidate}
    {d : SlotDecision} {s s' : Store} {factId : Nat}
    (effect : StateEffect tick request candidate d s s' factId) {r : FactRow} (mem : r ∈ s'.facts)
    (active : r.Active) : r ∈ s.facts ∨ s' ≠ s ∧ r.factId = factId := by
  by_cases same : s' = s
  · exact .inl (same ▸ mem)
  cases effect with
  | repeated _ _ _ _ repeated => exact absurd repeated same
  | added vacant patch conflicts members result =>
      rcases (patch r).1 mem with new | ⟨old, -⟩
      · cases List.mem_singleton.1 new
        exact .inr ⟨same, rfl⟩
      · exact .inl old
  | superseded loser only ungrouped patch conflicts members result chosen =>
      rcases (patch r).1 mem with new | ⟨old, -⟩
      · rcases List.mem_cons.1 new with rfl | new
        · exact absurd active (supersededRow_inactive _ _ _)
        · cases List.mem_singleton.1 new
          exact .inr ⟨same, rfl⟩
      · exact .inl old
  | disputed first detail joined only ungrouped patch conflicts member newMember result =>
      rcases (patch r).1 mem with new | ⟨old, -⟩
      · rcases List.mem_cons.1 new with rfl | new
        · exact absurd active.2 (Option.some_ne_none _)
        · cases List.mem_singleton.1 new
          exact .inr ⟨same, rfl⟩
      · exact .inl old
  | joined first conflict here group open_ patch conflicts newMember result =>
      rcases (patch r).1 mem with new | ⟨old, -⟩
      · cases List.mem_singleton.1 new
        exact .inr ⟨same, rfl⟩
      · exact .inl old

/-- The active facts of an untyped branch are old ones, or the one it inserted. -/
theorem UntypedEffect.active {tick : Tick} {request : WriteRequest}
    {near : Option NearDuplicateCandidate} {s s' : Store} {factId : Nat}
    (effect : UntypedEffect tick request near s s' factId) {r : FactRow} (mem : r ∈ s'.facts)
    (active : r.Active) : r ∈ s.facts ∨ r = plainRow tick request s.facts.nextId := by
  cases effect with
  | repeated r₀ mem₀ inScope sameContent current ungrouped result same =>
      rw [same] at mem
      exact .inl mem
  | inserted unmatched patch result =>
      rcases (patch r).1 mem with new | ⟨old, -⟩
      · rw [List.mem_singleton.1 new, result]
        exact .inr rfl
      · exact .inl old
  | mergedIntoNew c loser found wins mem₀ here current patch result =>
      rcases (patch r).1 mem with new | ⟨old, -⟩
      · rcases List.mem_cons.1 new with rfl | new
        · rw [result]
          exact .inr rfl
        · cases List.mem_singleton.1 new
          exact absurd active (supersededRow_inactive _ _ _)
      · exact .inl old
  | mergedIntoOld c found loses patch result =>
      rcases (patch r).1 mem with new | ⟨old, -⟩
      · cases List.mem_singleton.1 new
        exact absurd active (supersededRow_inactive _ _ _)
      · exact .inl old

/-- A typed branch that changes the store enqueues its fact. -/
theorem applyState_enqueue {s : Store} {tick : Tick} {request : WriteRequest}
    {candidate : StateCandidate} {d : SlotDecision} {applied : Applied}
    (done : applyState s tick request candidate d = .ok applied) :
    applied.store = s ∨ applied.enqueue = some applied.result.factId := by
  unfold applyState at done
  split at done
  · cases done
    exact .inl rfl
  · cases done
    exact .inl rfl
  · obtain ⟨_, -, done⟩ := bind_eq_ok.1 done
    obtain ⟨_, -, done⟩ := bind_eq_ok.1 done
    obtain ⟨_, -, done⟩ := bind_eq_ok.1 done
    obtain ⟨_, -, done⟩ := bind_eq_ok.1 done
    cases pure_eq_ok.1 done
    exact .inr rfl

/-- An untyped branch enqueues what it inserted, if that is active afterwards. -/
theorem applyUntyped_enqueue {s : Store} {tick : Tick} {request : WriteRequest}
    {duplicate : Option Nat} {near : Option NearDuplicateCandidate} {applied : Applied}
    (done : applyUntyped s tick request duplicate near = .ok applied)
    {r : FactRow} (mem : r ∈ applied.store.facts) (active : r.Active)
    (new : r = plainRow tick request s.facts.nextId) :
    r ∈ s.facts ∨ applied.enqueue = some r.factId := by
  unfold applyUntyped at done
  split at done
  · cases done
    exact .inl mem
  · obtain ⟨⟨s₁, inserted⟩, wrote, done⟩ := bind_eq_ok.1 done
    obtain ⟨rfl, -, -, patch⟩ := factWriter_eq_ok wrote
    cases near with
    | none =>
        cases pure_eq_ok.1 done
        rw [new]
        exact .inr rfl
    | some c =>
        obtain ⟨⟨s₂, result, enqueue⟩, merged, done⟩ := bind_eq_ok.1 done
        cases pure_eq_ok.1 done
        unfold mergeNearDuplicate at merged
        split at merged
        · obtain ⟨s₃, -, merged⟩ := bind_eq_ok.1 merged
          cases pure_eq_ok.1 merged
          rw [new]
          exact .inr rfl
        · obtain ⟨s₃, superseded, merged⟩ := bind_eq_ok.1 merged
          cases pure_eq_ok.1 merged
          obtain ⟨-, -, loser, memLoser, ⟨here, -⟩, patch'⟩ := supersedeNearDuplicate_eq_ok superseded
          have gone := patch'.of_mem (List.mem_singleton.2 rfl)
          have same : r = supersededRow loser tick.recordedAt c.factId :=
            Facts.eq_of_id mem gone (by rw [new]; exact here.symm)
          rw [same] at active
          exact absurd active (supersededRow_inactive _ _ _)

theorem finish_enqueue {host : Host} {service : MemoryWriteService} {tick : Tick}
    {context : ConnectionContext} {request : WriteRequest} {requestHash : String}
    {observationId : Nat} {near : Option NearDuplicateCandidate} {state : Option SlotDecision}
    {applied : Applied} {s' : Store} {o : WriteOutcome}
    (done : finish host service tick context request requestHash observationId near state applied =
      .ok (s', o)) :
    ∃ next, enqueueEmbedding host service tick.recordedAt applied.store applied.enqueue = .ok next ∧
      s'.embeddingJobs = next.embeddingJobs := by
  obtain ⟨s₁, enqueued, done⟩ := bind_eq_ok.1 done
  obtain ⟨_, -, done⟩ := bind_eq_ok.1 done
  obtain ⟨s₂, attached, done⟩ := bind_eq_ok.1 done
  obtain ⟨⟨s₃, flag⟩, requested, done⟩ := bind_eq_ok.1 done
  obtain ⟨s₄, appended, done⟩ := bind_eq_ok.1 done
  obtain ⟨outcome, -, done⟩ := bind_eq_ok.1 done
  cases pure_eq_ok.1 done
  obtain ⟨frame₂, -⟩ := attachProvenance_eq_ok attached
  obtain ⟨frame₄, -, -⟩ := appendLog_eq_ok appended
  have frame₃ : s₃ = { s₂ with facts := s₃.facts } := by
    rcases supersedeIfRequested_eq_ok requested with
      ⟨-, rfl, -⟩ | ⟨_, _, _, _, -, -, -, -, -, -, -, -, frame, -⟩
    · rfl
    · exact frame
  exact ⟨s₁, enqueued, by rw [frame₄, frame₃, frame₂]⟩

/-- A requested supersession makes no fact active. -/
theorem Finished.active {tick : Tick} {context : ConnectionContext} {request : WriteRequest}
    {requestHash : String} {observationId : Nat} {state : Option SlotDecision} {applied : Applied}
    {s' : Store} {o : WriteOutcome}
    (finished : Finished tick context request requestHash observationId state applied s' o)
    {r : FactRow} (mem : r ∈ s'.facts) (active : r.Active) : r ∈ applied.store.facts := by
  rcases finished.superseded with ⟨-, same⟩ | ⟨loser, -, -, -, -, -, -, -, patch⟩
  · rwa [same] at mem
  · rcases (patch r).1 mem with new | ⟨old, -⟩
    · cases List.mem_singleton.1 new
      exact absurd active (supersededRow_inactive _ _ _)
    · exact old

/-- A write enqueues the only fact that it can make active. -/
theorem write_enqueues {host : Host} {call : WriteCall} {s s' : Store} {o : WriteOutcome}
    (done : call.apply host s = .ok (s', o)) : Enqueues host call.service s s' := by
  obtain ⟨context, authorized, done⟩ := bind_eq_ok.1 done
  obtain ⟨⟨⟩, valid, done⟩ := bind_eq_ok.1 done
  obtain ⟨s₀, client, done⟩ := bind_eq_ok.1 done
  obtain ⟨frame₀, -, -⟩ := registerClient_eq_ok client
  split at done
  · obtain ⟨-, done⟩ := require_bind_eq_ok.1 done
    obtain ⟨outcome, -, done⟩ := bind_eq_ok.1 done
    cases pure_eq_ok.1 done
    exact .of_same (by rw [frame₀]) (by rw [frame₀]) (by rw [frame₀])
  · obtain ⟨s₁, session, done⟩ := bind_eq_ok.1 done
    have frame₁ := registerSession_eq_ok session
    obtain ⟨decided, decision, done⟩ := bind_eq_ok.1 done
    cases decided with
    | factless policy =>
        obtain ⟨frame, -, -⟩ := recordFactlessDecision_eq_ok done
        exact .of_same (by rw [frame, frame₁, frame₀]) (by rw [frame, frame₁, frame₀])
          (by rw [frame, frame₁, frame₀])
    | proceed state =>
        obtain ⟨⟨s₂, observationId⟩, recorded, done⟩ := bind_eq_ok.1 done
        obtain ⟨near, searched, done⟩ := bind_eq_ok.1 done
        obtain ⟨applied, branch, done⟩ := bind_eq_ok.1 done
        obtain ⟨observed, -⟩ := recordObservation_eq_ok recorded
        have finished := finish_eq_ok done
        obtain ⟨next, enqueued, jobs⟩ := finish_enqueue done
        have facts₂ : s₂.facts = s.facts := by rw [observed, frame₁, frame₀]
        have branchFrame : FactFrame s₂ applied.store ∧ ∀ r ∈ applied.store.facts, r.Active →
            r ∈ s₂.facts ∨ applied.enqueue = some r.factId := by
          cases state with
          | none =>
              have effect := applyUntyped_effect (nearDuplicate_row searched) branch
              refine ⟨effect.1, fun r mem active => ?_⟩
              rcases effect.2.1.active mem active with old | new
              · exact .inl old
              · exact applyUntyped_enqueue branch mem active new
          | some pair =>
              obtain ⟨effective, d⟩ := pair
              obtain ⟨-, filled, stateDecided, -⟩ := decide_typed decision
              obtain ⟨original, given, -, -, -, sameKind, -⟩ := effectiveCandidate_eq_ok filled
              rw [given] at valid
              have kind : effective.memoryKind = "state" :=
                sameKind.trans (require_bind_eq_ok.1 valid).1
              have effect := applyState_effect kind
                ((decideStateWrite_observed observed).trans stateDecided) branch
              refine ⟨effect.1, fun r mem active => ?_⟩
              rcases effect.2.active mem active with old | ⟨changed, here⟩
              · exact .inl old
              · rcases applyState_enqueue branch with same | enqueue
                · exact absurd same changed
                · exact .inr (by rw [enqueue, here])
        obtain ⟨frame, active⟩ := branchFrame
        refine ⟨by rw [finished.frame, frame, observed, frame₁, frame₀], applied.store, next,
          call.tick.recordedAt, applied.enqueue, by rw [frame, observed, frame₁, frame₀],
          by rw [frame, observed, frame₁, frame₀], enqueued, jobs, fun r mem isActive => ?_⟩
        rcases active r (finished.active mem isActive) isActive with old | new
        · exact .inl (facts₂ ▸ old)
        · exact .inr new

theorem resolve_untouched {call : ResolveCall} {s s' : Store} {resolution : ConflictResolution}
    (done : call.apply s = .ok (s', resolution)) :
    s'.factEmbeddings = s.factEmbeddings ∧ s'.embeddingJobs = s.embeddingJobs := by
  have effect := resolve_effect done
  exact ⟨by rw [effect.frame], by rw [effect.frame]⟩

/-- A resolution makes at most its winner active. -/
theorem resolve_active {call : ResolveCall} {s s' : Store} {resolution : ConflictResolution}
    (done : call.apply s = .ok (s', resolution)) {r : FactRow} (mem : r ∈ s'.facts)
    (active : r.Active) : r ∈ s.facts ∨ call.resolutionFactId = r.factId := by
  obtain ⟨r₀, old, rfl⟩ := ((resolve_effect done).facts r).1 mem
  unfold resolvedRow at active ⊢
  split
  · rename_i winner
    exact .inr winner.symm
  · rename_i other
    rw [if_neg other] at active
    split
    · rename_i member
      rw [if_pos member] at active
      exact absurd active (supersededRow_inactive _ _ _)
    · exact .inl old

/-- A resolution through the service enqueues its winner. -/
theorem resolveConflict_enqueues {host : Host} {service : MemoryWriteService} {resolvedAt : String}
    {context : ConnectionContext} {conflictId : String} {winner : Nat} {reason : String}
    {s s' : Store} {resolution : ConflictResolution}
    (done : resolveConflict host service resolvedAt context conflictId winner reason s =
      .ok (s', resolution)) : Enqueues host service s s' := by
  unfold resolveConflict at done
  obtain ⟨-, done⟩ := require_bind_eq_ok.1 done
  dsimp only at done
  obtain ⟨-, done⟩ := require_bind_eq_ok.1 done
  obtain ⟨-, done⟩ := require_bind_eq_ok.1 done
  obtain ⟨-, done⟩ := require_bind_eq_ok.1 done
  obtain ⟨-, done⟩ := require_bind_eq_ok.1 done
  unfold asInvalidResolution at done
  split at done
  · rename_i pair returned
    cases done
    obtain ⟨s₀, client, returned⟩ := bind_eq_ok.1 returned
    obtain ⟨s₁, session, returned⟩ := bind_eq_ok.1 returned
    obtain ⟨⟨s₂, inner⟩, resolved, returned⟩ := bind_eq_ok.1 returned
    obtain ⟨s₃, enqueued, returned⟩ := bind_eq_ok.1 returned
    cases pure_eq_ok.1 returned
    obtain ⟨frame₀, -, -⟩ := registerClient_eq_ok client
    have frame₁ := registerSession_eq_ok session
    have frame₃ := enqueueEmbedding_eq_ok enqueued
    let call : ResolveCall := ⟨resolvedAt, strip conflictId, winner, context.agentId, strip reason,
      some resolvedAt, some context.clientId, some context.sessionId, some context.agentId⟩
    have applied : call.apply s₁ = .ok (s₂, inner) := resolved
    obtain ⟨vectors, jobs⟩ := resolve_untouched applied
    have facts₁ : s₁.facts = s.facts := by rw [frame₁, frame₀]
    have vectors₂ : s₂.factEmbeddings = s.factEmbeddings := by rw [vectors, frame₁, frame₀]
    refine ⟨by rw [frame₃, vectors₂], s₂, s', resolvedAt, some winner, by rw [jobs, frame₁, frame₀],
      vectors₂, enqueued, rfl, fun r mem active => ?_⟩
    rw [show s'.facts = s₂.facts by rw [frame₃]] at mem
    rcases resolve_active applied mem active with old | here
    · exact .inl (facts₁ ▸ old)
    · exact .inr (congrArg some here)
  · split at done
    all_goals cases done

/-! ## Erasures -/

/-- An erasure ends the jobs of its fact. -/
theorem erase_edits {host : Host} {call : EraseCall} {s s' : Store} {report : ErasureReport}
    (done : call.apply host s = .ok (s', report)) :
    JobEdits (ErasesJob call.factId) s.embeddingJobs s'.embeddingJobs := by
  rw [(erase_jobs done).1]
  exact .of_edit (.update rfl (fun _ => ⟨rfl, rfl, rfl⟩) fun j _ about =>
    ⟨about, rfl, rfl, rfl, rfl, rfl⟩)

/-! ## Calls -/

/-- What a call may do to a job. -/
def CallMove : Op → JobRow → JobRow → Prop
  | .erase call => ErasesJob call.factId
  | _ => Restarts

theorem QueueFrame.jobs {s s' : Store} (frame : QueueFrame s s') :
    s'.embeddingJobs = s.embeddingJobs := by
  rw [frame]

theorem QueueFrame.vectors {s s' : Store} (frame : QueueFrame s s') :
    s'.factEmbeddings = s.factEmbeddings := by
  rw [frame]

theorem call_edits (host : Host) (op : Op) (s : Store) :
    JobEdits (CallMove op) s.embeddingJobs (Model.step host op s).embeddingJobs := by
  cases op with
  | write call =>
      exact commit_induction (P := fun t : Store => JobEdits Restarts s.embeddingJobs t.embeddingJobs) .refl
        fun s' o done => (write_enqueues done).edits
  | resolve call =>
      exact commit_induction (P := fun t : Store => JobEdits Restarts s.embeddingJobs t.embeddingJobs) .refl
        fun s' o done => .of_eq (resolve_untouched done).2
  | resolveConflict service resolvedAt context conflictId winner reason =>
      exact commit_induction (P := fun t : Store => JobEdits Restarts s.embeddingJobs t.embeddingJobs) .refl
        fun s' o done => (resolveConflict_enqueues done).edits
  | storeEmbedding spec factId embedding =>
      refine commit_induction (P := fun t : Store => JobEdits Restarts s.embeddingJobs t.embeddingJobs) .refl
        fun s' o done => ?_
      obtain ⟨s₁, stored, same⟩ := map_eq_ok.1 done
      cases same
      exact .of_eq (by rw [upsertInTransaction_eq_ok stored])
  | erase call =>
      exact commit_induction
        (P := fun t : Store => JobEdits (ErasesJob call.factId) s.embeddingJobs t.embeddingJobs) .refl
        fun s' o done => erase_edits done
  | enqueueExtraction context transcript source scope metadata =>
      exact commit_induction (P := fun t : Store => JobEdits Restarts s.embeddingJobs t.embeddingJobs) .refl
        fun s' o done => .of_eq (enqueueAfterCommit_eq_ok done).jobs
  | claim maxAttempts lease now leaseUntil =>
      exact commit_induction (P := fun t : Store => JobEdits Restarts s.embeddingJobs t.embeddingJobs) .refl
        fun s' o done => .of_eq (claim_eq_ok done).jobs
  | renew id lease now leaseUntil =>
      exact commit_induction (P := fun t : Store => JobEdits Restarts s.embeddingJobs t.embeddingJobs) .refl
        fun s' o done => .of_eq (renew_eq_ok done).jobs
  | persistSnapshot id lease proposals =>
      exact commit_induction (P := fun t : Store => JobEdits Restarts s.embeddingJobs t.embeddingJobs) .refl
        fun s' o done => .of_eq (persistSnapshot_eq_ok done).jobs
  | complete id lease =>
      exact commit_induction (P := fun t : Store => JobEdits Restarts s.embeddingJobs t.embeddingJobs) .refl
        fun s' o done => .of_eq (complete_eq_ok done).jobs
  | fail maxAttempts id lease errorCode permanent retryAt =>
      exact commit_induction (P := fun t : Store => JobEdits Restarts s.embeddingJobs t.embeddingJobs) .refl
        fun s' o done => .of_eq (fail_eq_ok done).jobs

/-! ## Workers -/

namespace EmbeddingJobProcessor

open Enfold.Model.EmbeddingJobProcessor

section Claim

variable {spec : EmbeddingSpec} {maxAttempts : Nat} {workerId token now leaseUntil : String}

theorem buryExhausted_edits (jobs : JobTable) :
    JobEdits (Claims maxAttempts token) jobs (buryExhausted spec maxAttempts now jobs) :=
  .of_edit (.update rfl (fun _ => ⟨rfl, rfl, rfl⟩) fun _ _ exhausted =>
    .inl ⟨exhausted.2.2.imp_right And.left, exhausted.2.1, rfl, rfl, rfl, rfl, rfl⟩)

/-- A job that is due after the exhausted ones are buried was there before. -/
theorem due_of_buryExhausted {jobs : JobTable} {j : JobRow}
    (mem : j ∈ buryExhausted spec maxAttempts now jobs) (due : j.Due spec maxAttempts now) :
    j ∈ jobs := by
  obtain ⟨j₀, mem₀, rfl⟩ := Table.mem_update.1 mem
  by_cases exhausted : j₀.Exhausted spec maxAttempts now
  · rw [if_pos exhausted] at due
    rcases due.2.2 with ⟨pending, -⟩ | ⟨processing, -⟩
    · cases pending
    · cases processing
  · rw [if_neg exhausted]
    exact mem₀

/-- What a claim does: it leaves all but the jobs alone, and leases the job it returns. -/
theorem claim_effect {s s' : Store} {job : Option ClaimedEmbeddingJob}
    (distinct : JobsDistinct s.embeddingJobs)
    (claimed : EmbeddingJobProcessor.claim spec maxAttempts workerId token now leaseUntil s =
      (s', job)) :
    s' = { s with embeddingJobs := s'.embeddingJobs } ∧
      JobEdits (Claims maxAttempts token) s.embeddingJobs s'.embeddingJobs ∧
      ∀ taken ∈ job, taken.leaseToken = token ∧
        ∃ j ∈ s.embeddingJobs, ∃ j' ∈ s'.embeddingJobs, SameJob j j' ∧
          Leases maxAttempts token j j' ∧ j.jobId = taken.jobId ∧ j.factId = taken.factId ∧
          j'.attempts = taken.attempts := by
  have buries := @buryExhausted_edits spec maxAttempts token now s.embeddingJobs
  unfold EmbeddingJobProcessor.claim at claimed
  dsimp only at claimed
  split at claimed
  · cases claimed
    exact ⟨rfl, buries, by simp⟩
  · rename_i row rows sorted
    cases claimed
    have selected : row ∈ (buryExhausted spec maxAttempts now s.embeddingJobs).select
        fun j => j.Due spec maxAttempts now := by
      have first : row ∈ List.insertionSort (fun j j' : JobRow => j.jobId ≤ j'.jobId) _ :=
        sorted ▸ List.mem_cons_self
      exact (List.perm_insertionSort _ _).mem_iff.1 first
    obtain ⟨mem, due⟩ := Table.mem_select.1 selected
    have old := due_of_buryExhausted mem due
    have claimable : Claimable row := due.2.2.imp And.left And.left
    have leases : JobEdit (Claims maxAttempts token)
        (buryExhausted spec maxAttempts now s.embeddingJobs)
        (leaseJob row workerId token now leaseUntil
          (buryExhausted spec maxAttempts now s.embeddingJobs)) := by
      refine .update rfl (fun _ => ⟨rfl, rfl, rfl⟩) fun j memJ here => .inr ?_
      obtain rfl := (buries.distinct distinct).eq_of_id memJ mem here
      exact ⟨claimable, due.2.1, rfl, rfl, rfl, by simp, by simp⟩
    refine ⟨rfl, buries.trans (.of_edit leases), ?_⟩
    intro taken returned
    cases Option.mem_some_iff.1 returned
    refine ⟨rfl, row, old, _, List.mem_map_of_mem (Table.mem_rows.2 mem), ?_⟩
    rw [if_pos rfl]
    exact ⟨⟨rfl, rfl, rfl⟩, ⟨claimable, due.2.1, rfl, rfl, rfl, by simp, by simp⟩, rfl, rfl, rfl⟩

end Claim

/-- The fact is there and active, with this content. -/
theorem activeContent_eq_some {s : Store} {factId : Nat} {content : String} :
    activeContent s factId = some content ↔
      ∃ r ∈ s.facts, r.factId = factId ∧ r.Active ∧ r.content = content := by
  simp only [activeContent, Option.map_eq_some_iff, Option.filter_eq_some_iff, decide_eq_true_eq,
    Facts.get?_eq_some]
  constructor
  · rintro ⟨r, ⟨⟨mem, here⟩, active⟩, same⟩
    exact ⟨r, mem, here, active, same⟩
  · rintro ⟨r, mem, here, active, same⟩
    exact ⟨r, ⟨⟨mem, here⟩, active⟩, same⟩

/-- The fact is missing or not active. -/
theorem activeContent_eq_none {s : Store} {factId : Nat} :
    activeContent s factId = none ↔ ∀ r ∈ s.facts, r.factId = factId → ¬ r.Active := by
  rw [Option.eq_none_iff_forall_not_mem]
  constructor
  · intro none r mem here active
    exact none r.content (activeContent_eq_some.2 ⟨r, mem, here, active, rfl⟩)
  · intro inactive content found
    obtain ⟨r, mem, here, active, -⟩ := activeContent_eq_some.1 found
    exact inactive r mem here active

/-- What settling does: the worker gives its lease back, and a job it completes is about a fact
that is not active. -/
theorem settleInactive_effect {host : Host} {now : String} {job : ClaimedEmbeddingJob}
    {s s' : Store} {outcome : EmbeddingJobProcessor.Outcome}
    (done : settleInactive host now job s = .ok (s', outcome)) :
    s' = { s with embeddingJobs := s'.embeddingJobs } ∧
      JobEdits (fun j j' => j ∈ s.embeddingJobs ∧ Releases job j j' ∧
        (j'.status = .completed → activeContent s job.factId = none))
        s.embeddingJobs s'.embeddingJobs := by
  unfold settleInactive at done
  dsimp only at done
  split at done
  · obtain ⟨-, done⟩ := require_bind_eq_ok.1 done
    cases pure_eq_ok.1 done
    refine ⟨rfl, .of_edit (.update rfl (fun _ => ⟨rfl, rfl, rfl⟩) fun j mem held => ?_)⟩
    exact ⟨mem, ⟨held, by simp [requeued], rfl, rfl, rfl, rfl⟩, fun completed => by cases completed⟩
  · rename_i inactive
    obtain ⟨-, done⟩ := require_bind_eq_ok.1 done
    cases pure_eq_ok.1 done
    refine ⟨rfl, .of_edit (.update rfl (fun _ => ⟨rfl, rfl, rfl⟩) fun j mem held => ?_)⟩
    exact ⟨mem, ⟨held, by simp [finished], rfl, rfl, rfl, rfl⟩, fun _ => inactive⟩

theorem fail_effect {maxAttempts : Nat} {now available errorType : String}
    {job : ClaimedEmbeddingJob} {s s' : Store} {outcome : EmbeddingJobProcessor.Outcome}
    (done : EmbeddingJobProcessor.fail maxAttempts now available errorType job s =
      .ok (s', outcome)) :
    s' = { s with embeddingJobs := s'.embeddingJobs } ∧
      JobEdits (fun j j' => Releases job j j' ∧ j'.status ≠ .completed)
        s.embeddingJobs s'.embeddingJobs := by
  obtain ⟨-, done⟩ := require_bind_eq_ok.1 done
  cases pure_eq_ok.1 done
  refine ⟨rfl, .of_edit (.update rfl (fun _ => ⟨rfl, rfl, rfl⟩) fun j _ held => ?_)⟩
  refine ⟨⟨held, ?_, rfl, rfl, rfl, rfl⟩, ?_⟩
  · dsimp only
    split <;> simp
  · dsimp only
    split <;> simp

/-- A stored vector is there afterwards, and is one that was there, or the new one. -/
theorem upsert_effect {spec : EmbeddingSpec} {s s' : Store} {factId : Nat}
    {embedding : List Decimal} (done : upsertInTransaction spec s factId embedding = .ok s') :
    s' = { s with factEmbeddings := s'.factEmbeddings } ∧
      ⟨factId, spec.documentIdentity, embedding, spec.dimensions⟩ ∈ s'.factEmbeddings ∧
      (∀ other, HasVector s spec other → HasVector s' spec other) ∧
      ∀ e ∈ s'.factEmbeddings, e ∈ s.factEmbeddings ∨
        e = ⟨factId, spec.documentIdentity, embedding, spec.dimensions⟩ := by
  refine ⟨upsertInTransaction_eq_ok done, ?_⟩
  unfold upsertInTransaction at done
  obtain ⟨-, done⟩ := require_bind_eq_ok.1 done
  obtain ⟨-, done⟩ := require_bind_eq_ok.1 done
  dsimp only at done
  split at done
  · rename_i inserted
    cases pure_eq_ok.1 done
    have mem := fun e => @Table.mem_of_insert? _ _ _ _ _ _ _ e inserted
    refine ⟨(mem _).2 (.inr rfl), ?_, fun e here => (mem e).1 here⟩
    rintro other ⟨e, here, about⟩
    exact ⟨e, (mem e).2 (.inl here), about⟩
  · rename_i present
    cases pure_eq_ok.1 done
    have moved : ∀ e ∈ s.factEmbeddings, (if e.factId = factId ∧
        e.embeddingIdentity = spec.documentIdentity then
          { e with embedding := embedding, dim := spec.dimensions } else e) ∈
        s.factEmbeddings.update (fun old => old.factId = factId ∧
          old.embeddingIdentity = spec.documentIdentity)
          (fun old => { old with embedding := embedding, dim := spec.dimensions }) (fun _ => rfl) :=
      fun e here => Table.mem_update.2 ⟨e, here, rfl⟩
    refine ⟨?_, ?_, ?_⟩
    · unfold Table.insert? at present
      split at present
      · cases present
      · rename_i taken
        obtain ⟨e, here, key⟩ := List.mem_map.1 (not_not.1 taken)
        obtain ⟨fact, identity⟩ := Prod.mk.inj key
        have stored := moved e here
        rw [if_pos ⟨fact, identity⟩, fact, identity] at stored
        exact stored
    · rintro other ⟨e, here, fact, identity, dim⟩
      have stored := moved e here
      by_cases same : e.factId = factId ∧ e.embeddingIdentity = spec.documentIdentity
      · rw [if_pos same] at stored
        exact ⟨_, stored, fact, identity, rfl⟩
      · rw [if_neg same] at stored
        exact ⟨_, stored, fact, identity, dim⟩
    · intro e here
      obtain ⟨old, mem, rfl⟩ := List.mem_map.1 (Table.mem_rows.2 here)
      split
      · rename_i same
        right
        rw [← same.1, ← same.2]
      · exact .inl mem

/-- What committing does: the worker gives its lease back; a job it completes is about a fact that
is not active or has its vector; and a new vector is the prepared one, stored for an active fact
whose content has the expected digest. -/
structure CommitEffect (host : Host) (spec : EmbeddingSpec) (job : ClaimedEmbeddingJob)
    (expectedHash : String) (embedding : List Decimal) (s s' : Store)
    (outcome : EmbeddingJobProcessor.Outcome) : Prop where
  frame : s' = { s with embeddingJobs := s'.embeddingJobs, factEmbeddings := s'.factEmbeddings }
  edits : JobEdits (fun j j' => j ∈ s.embeddingJobs ∧ Releases job j j' ∧
      (j'.status = .completed →
        activeContent s job.factId = none ∨ HasVector s' spec job.factId))
    s.embeddingJobs s'.embeddingJobs
  vectors : ∀ other, HasVector s spec other → HasVector s' spec other
  stored : ∀ e ∈ s'.factEmbeddings, e ∈ s.factEmbeddings ∨ outcome = .embedded ∧
    e = ⟨job.factId, spec.documentIdentity, embedding, spec.dimensions⟩
  checked : outcome = .embedded →
    ⟨job.factId, spec.documentIdentity, embedding, spec.dimensions⟩ ∈ s'.factEmbeddings ∧
    ∃ content, activeContent s job.factId = some content ∧ host.sha256 content = expectedHash

theorem commitPrepared_effect {host : Host} {spec : EmbeddingSpec} {now : String}
    {job : ClaimedEmbeddingJob} {expectedHash : String} {embedding : List Decimal} {s s' : Store}
    {outcome : EmbeddingJobProcessor.Outcome} (distinct : JobsDistinct s.embeddingJobs)
    (done : commitPrepared host spec now job expectedHash embedding s = .ok (s', outcome)) :
    CommitEffect host spec job expectedHash embedding s s' outcome := by
  unfold commitPrepared at done
  obtain ⟨⟨held, mem, holds, -⟩, done⟩ := require_bind_eq_ok.1 done
  have only : ∀ j ∈ s.embeddingJobs, j.jobId = job.jobId → j.HeldFor job := by
    intro j memJ here
    rw [distinct.eq_of_id memJ mem (here.trans holds.1.symm)]
    exact holds
  split at done
  · rename_i inactive
    cases pure_eq_ok.1 done
    refine ⟨rfl, .of_edit (.update rfl (fun _ => ⟨rfl, rfl, rfl⟩) fun j memJ here => ?_),
      fun _ stored => stored, fun e here => .inl here, fun embedded => by cases embedded⟩
    exact ⟨memJ, ⟨only j memJ here, by simp [finished], rfl, rfl, rfl, rfl⟩, fun _ => .inl inactive⟩
  · rename_i content active
    split at done
    · cases pure_eq_ok.1 done
      refine ⟨rfl, .of_edit (.update rfl (fun _ => ⟨rfl, rfl, rfl⟩) fun j memJ here => ?_),
        fun _ stored => stored, fun e here => .inl here, fun embedded => by cases embedded⟩
      exact ⟨memJ, ⟨only j memJ here, by simp [requeued], rfl, rfl, rfl, rfl⟩,
        fun completed => by cases completed⟩
    · rename_i same
      obtain ⟨s₁, stored, done⟩ := bind_eq_ok.1 done
      cases pure_eq_ok.1 done
      obtain ⟨frame, here, others, origin⟩ := upsert_effect stored
      have jobs : s₁.embeddingJobs = s.embeddingJobs := by rw [frame]
      refine ⟨by rw [frame], ?_, others, fun e mem => (origin e mem).imp_right fun new => ⟨rfl, new⟩,
        fun _ => ⟨here, content, active, not_not.1 same⟩⟩
      rw [← jobs]
      refine .of_edit (.update rfl (fun _ => ⟨rfl, rfl, rfl⟩) fun j memJ isJob => ?_)
      exact ⟨memJ, ⟨only j (jobs ▸ memJ) isJob, by simp [finished], rfl, rfl, rfl, rfl⟩,
        fun _ => .inr ⟨_, here, rfl, rfl, rfl⟩⟩

end EmbeddingJobProcessor

/-! ## Steps -/

namespace EmbeddingSystem

open Enfold.Model.EmbeddingSystem

/-- What a step may do to a job. -/
def StepMove (setting : Setting) (state : State) : Action → JobRow → JobRow → Prop
  | .call op => CallMove op
  | .backfill _ => Restarts
  | .claim _ _ token _ _ => Claims setting.maxAttempts token
  | .settle worker _ | .commit worker _ | .fail worker _ _ => fun j j' =>
      ∃ phase, state.workers worker = some phase ∧ Releases phase.job j j'
  | .embed .. | .crash _ => fun _ _ => False

theorem advance_edits {setting : Setting} (action : Action) {state : State}
    (distinct : JobsDistinct state.store.embeddingJobs) :
    JobEdits (StepMove setting state action) state.store.embeddingJobs
      (advance setting action state).store.embeddingJobs := by
  cases action with
  | call op => exact call_edits setting.host op state.store
  | backfill now => exact enqueueBackfill_edits setting.host setting.spec now state.store
  | claim worker workerId token now leaseUntil =>
      dsimp only [advance]
      split
      · exact .refl
      · exact (EmbeddingJobProcessor.claim_effect distinct rfl).2.1
  | embed worker raised =>
      dsimp only [advance]
      split
      · exact .refl
      · exact .refl
  | settle worker now =>
      dsimp only [advance]
      split
      · rename_i job phase
        refine commit_induction (P := fun t : Store => JobEdits _ _ t.embeddingJobs) .refl
          fun s' outcome done => ?_
        exact (EmbeddingJobProcessor.settleInactive_effect done).2.mono
          fun j j' moved => ⟨_, phase, moved.2.1⟩
      · exact .refl
  | commit worker now =>
      dsimp only [advance]
      split
      · rename_i job currentHash embedding phase
        refine commit_induction (P := fun t : Store => JobEdits _ _ t.embeddingJobs) .refl
          fun s' outcome done => ?_
        exact (EmbeddingJobProcessor.commitPrepared_effect distinct done).edits.mono
          fun j j' moved => ⟨_, phase, moved.2.1⟩
      · exact .refl
  | fail worker now available =>
      dsimp only [advance]
      split
      · rename_i job errorType phase
        refine commit_induction (P := fun t : Store => JobEdits _ _ t.embeddingJobs) .refl
          fun s' outcome done => ?_
        exact (EmbeddingJobProcessor.fail_effect done).2.mono
          fun j j' moved => ⟨_, phase, moved.1⟩
      · exact .refl
  | crash worker => exact .refl

end EmbeddingSystem

end Enfold.Laws
