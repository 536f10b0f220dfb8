/-
# Laws.JobLeases -- what a worker commits, and what it can no longer change

A worker prepares a vector outside any transaction.  What makes its commit safe is checked there:
the lease, the lifecycle of the fact, and the digest of its content.  So a committed vector is the
model's answer for the content the fact has at that moment, whatever happened in between; and a
worker whose lease is gone changes nothing, then or later, because no token is issued twice
(`lease_safety`).
-/
import Enfold.Laws.JobMachine

namespace Enfold.Laws.EmbeddingSystem

open Enfold.Theory Enfold.Model Enfold.Model.EmbeddingSystem
open Enfold.Model.EmbeddingJobProcessor (activeContent settleInactive commitPrepared)

set_option autoImplicit false

/-! ## Lost claims -/

/-- No row is leased under the claim: it was replaced, its job was completed or put back, or its
fact was erased. -/
def Lost (s : Store) (job : ClaimedEmbeddingJob) : Prop := ∀ j ∈ s.embeddingJobs, ¬ j.HeldFor job

theorem rowcount_of_lost {s : Store} {job : ClaimedEmbeddingJob} (lost : Lost s job) :
    s.embeddingJobs.rowcount (fun j => j.HeldFor job) ≠ 1 := by
  intro one
  obtain ⟨j, mem, held⟩ := Table.exists_of_rowcount_eq_one one
  exact lost j mem held

theorem settleInactive_lost {host : Host} {now : String} {job : ClaimedEmbeddingJob} {s : Store}
    (lost : Lost s job) : Theory.commit s (settleInactive host now job s) = s := by
  refine commit_induction (P := fun t : Store => t = s) rfl fun s' outcome done => ?_
  unfold settleInactive at done
  dsimp only at done
  split at done
  · exact absurd (require_bind_eq_ok.1 done).1 (rowcount_of_lost lost)
  · exact absurd (require_bind_eq_ok.1 done).1 (rowcount_of_lost lost)

theorem commitPrepared_lost {host : Host} {spec : EmbeddingSpec} {now : String}
    {job : ClaimedEmbeddingJob} {expectedHash : String} {embedding : List Decimal} {s : Store}
    (lost : Lost s job) :
    Theory.commit s (commitPrepared host spec now job expectedHash embedding s) = s := by
  refine commit_induction (P := fun t : Store => t = s) rfl fun s' outcome done => ?_
  obtain ⟨⟨j, mem, held, -⟩, -⟩ := require_bind_eq_ok.1 done
  exact absurd held (lost j mem)

theorem fail_lost {maxAttempts : Nat} {now available errorType : String}
    {job : ClaimedEmbeddingJob} {s : Store} (lost : Lost s job) :
    Theory.commit s (EmbeddingJobProcessor.fail maxAttempts now available errorType job s) = s := by
  refine commit_induction (P := fun t : Store => t = s) rfl fun s' outcome done => ?_
  exact absurd (require_bind_eq_ok.1 done).1 (rowcount_of_lost lost)

/-- The steps of `process_one` after the claim. -/
def OfWorker (worker : Nat) : Action → Prop
  | .embed other _ | .settle other _ | .commit other _ | .fail other _ _ | .crash other =>
      other = worker
  | _ => False

/-- A worker that has lost its claim leaves the store as it is. -/
theorem lost_worker_idle {setting : Setting} {state : State} {worker : Nat} {phase : Phase}
    (here : state.workers worker = some phase) (lost : Lost state.store phase.job) {action : Action}
    (own : OfWorker worker action) : (advance setting action state).store = state.store := by
  cases action with
  | call op => exact own.elim
  | backfill now => exact own.elim
  | claim other workerId token now leaseUntil => exact own.elim
  | embed other raised =>
      dsimp only [advance]
      split <;> rfl
  | settle other now =>
      cases own
      dsimp only [advance]
      split
      · rename_i job found
        rw [here] at found
        cases found
        exact settleInactive_lost lost
      · rfl
  | commit other now =>
      cases own
      dsimp only [advance]
      split
      · rename_i job currentHash embedding found
        rw [here] at found
        cases found
        exact commitPrepared_lost lost
      · rfl
  | fail other now available =>
      cases own
      dsimp only [advance]
      split
      · rename_i job errorType found
        rw [here] at found
        cases found
        exact fail_lost lost
      · rfl
  | crash other => rfl

/-! ## Tokens -/

/-- What holds of tokens and prepared vectors in every reachable state. -/
structure LeaseInvariant (setting : Setting) (state : State) : Prop where
  distinct : JobsDistinct state.store.embeddingJobs
  /-- The tokens of claims have been issued. -/
  issued : ∀ worker phase, state.workers worker = some phase → phase.job.leaseToken ∈ state.issued
  /-- The job of every claim is there, and is about the fact of the claim. -/
  claims : ∀ worker phase, state.workers worker = some phase →
    ∃ j ∈ state.store.embeddingJobs, j.jobId = phase.job.jobId ∧ j.factId = phase.job.factId
  /-- A prepared vector is the model's answer for a content with the digest at hand. -/
  prepared : ∀ worker job currentHash embedding,
    state.workers worker = some (.prepared job currentHash embedding) →
    ∃ content, currentHash = setting.host.sha256 content ∧ setting.model content = some embedding

theorem issued_grows {setting : Setting} (action : Action) {state : State} {token : String}
    (old : token ∈ state.issued) : token ∈ (advance setting action state).issued := by
  cases action with
  | call op => exact old
  | backfill now => exact old
  | claim worker workerId fresh now leaseUntil =>
      dsimp only [advance]
      split
      · exact old
      · exact List.mem_cons_of_mem _ old
  | embed worker raised =>
      dsimp only [advance]
      split <;> exact old
  | settle worker now =>
      dsimp only [advance]
      split <;> exact old
  | commit worker now =>
      dsimp only [advance]
      split <;> exact old
  | fail worker now available =>
      dsimp only [advance]
      split <;> exact old
  | crash worker => exact old

/-- A worker that is free issues the token it claims with. -/
theorem advance_claim {setting : Setting} {state : State} {worker : Nat}
    {workerId token now leaseUntil : String} (idle : state.workers worker = none) :
    (advance setting (.claim worker workerId token now leaseUntil) state).issued =
      token :: state.issued := by
  simp only [advance, idle]

/-- A worker with a prepared vector commits it. -/
theorem advance_commit {setting : Setting} {state : State} {worker : Nat} {now : String}
    {job : ClaimedEmbeddingJob} {currentHash : String} {embedding : List Decimal}
    (here : state.workers worker = some (.prepared job currentHash embedding)) :
    advance setting (.commit worker now) state = finishWith state worker
      (commitPrepared setting.host setting.spec now job currentHash embedding state.store) := by
  simp only [advance, here]

/-- A step that claims a job issues its token. -/
theorem issued_of_claimed {setting : Setting} {action : Action} {state : State}
    (distinct : JobsDistinct state.store.embeddingJobs) {job : ClaimedEmbeddingJob}
    (claimed : claimedJob setting state action = some job) :
    job.leaseToken ∈ (advance setting action state).issued := by
  obtain ⟨worker, workerId, now, leaseUntil, rfl, -⟩ := claimedJob_effect distinct claimed
  dsimp only [claimedJob] at claimed
  split at claimed
  · cases claimed
  · rename_i idle
    rw [advance_claim idle]
    exact List.mem_cons_self

theorem embedDocument_model {model : DocumentModel} {spec : EmbeddingSpec} {content : String}
    {embedding : List Decimal} (embedded : embedDocument model spec content = .ok embedding) :
    model content = some embedding := by
  unfold embedDocument at embedded
  split at embedded
  · cases embedded
  · rename_i vector answer
    split at embedded
    · cases embedded
      exact answer
    · cases embedded

/-- A prepared phase was there before the step, or the step has just prepared it. -/
theorem prepared_origin {setting : Setting} {action : Action} {state : State} {worker : Nat}
    {job : ClaimedEmbeddingJob} {currentHash : String} {embedding : List Decimal}
    (here : (advance setting action state).workers worker =
      some (.prepared job currentHash embedding)) :
    state.workers worker = some (.prepared job currentHash embedding) ∨
      ∃ content, currentHash = setting.host.sha256 content ∧
        setting.model content = some embedding := by
  have cleared : ∀ {other : Nat} {phase : Phase},
      Function.update state.workers other none worker = some phase →
      state.workers worker = some phase := by
    intro other phase found
    by_cases same : worker = other
    · rw [same, Function.update_self] at found
      cases found
    · rwa [Function.update_of_ne same] at found
  cases action with
  | call op => exact .inl here
  | backfill now => exact .inl here
  | claim other workerId token now leaseUntil =>
      dsimp only [advance] at here
      split at here
      · exact .inl here
      · dsimp only at here
        by_cases same : worker = other
        · rw [same, Function.update_self] at here
          obtain ⟨taken, -, phase⟩ := Option.map_eq_some_iff.1 here
          cases phase
        · rw [Function.update_of_ne same] at here
          exact .inl here
  | embed other raised =>
      dsimp only [advance] at here
      split at here
      · rename_i claimed found
        dsimp only [State.setWorker] at here
        by_cases same : worker = other
        · rw [same, Function.update_self] at here
          right
          have phase := Option.some.inj here
          unfold embedPhase at phase
          split at phase
          · cases phase
          · rename_i content active
            split at phase
            · cases phase
            · split at phase
              · cases phase
              · rename_i vector embedded
                cases phase
                exact ⟨content, rfl, embedDocument_model embedded⟩
        · rw [Function.update_of_ne same] at here
          exact .inl here
      · exact .inl here
  | settle other now =>
      dsimp only [advance] at here
      split at here
      · exact .inl (cleared here)
      · exact .inl here
  | commit other now =>
      dsimp only [advance] at here
      split at here
      · exact .inl (cleared here)
      · exact .inl here
  | fail other now available =>
      dsimp only [advance] at here
      split at here
      · exact .inl (cleared here)
      · exact .inl here
  | crash other => exact .inl (cleared here)

theorem advance_leases {setting : Setting} (action : Action) {state : State}
    (invariant : LeaseInvariant setting state) :
    LeaseInvariant setting (advance setting action state) := by
  have edits := @advance_edits setting action state invariant.distinct
  refine ⟨edits.distinct invariant.distinct, ?_, ?_, ?_⟩
  · intro worker phase here
    rcases phase_origin here with ⟨before, held, same⟩ | claimed
    · rw [← same]
      exact issued_grows action (invariant.issued worker before held)
    · exact issued_of_claimed invariant.distinct claimed
  · intro worker phase here
    exact claims_advance invariant.distinct invariant.claims here
  · intro worker job currentHash embedding here
    rcases prepared_origin here with held | fresh
    · exact invariant.prepared worker job currentHash embedding held
    · exact fresh

theorem leases_hold {setting : Setting} {ok : Action → State → Prop} {state : State}
    (reached : Reachable (advance setting) ok .initial state) : LeaseInvariant setting state :=
  reached.induction (P := LeaseInvariant setting)
    ⟨List.nodup_nil, fun _ _ here => (by cases here), fun _ _ here => (by cases here),
      fun _ _ _ _ here => (by cases here)⟩
    fun action _ _ invariant => advance_leases action invariant

/-- A move leases a row under a token that has just been issued, or under none. -/
theorem stepMove_token {setting : Setting} {state : State} {action : Action} {j j' : JobRow}
    (fresh : FreshToken action state) (moved : StepMove setting state action j j')
    {job : ClaimedEmbeddingJob} (issued : job.leaseToken ∈ state.issued) : ¬ j'.HeldFor job := by
  have unleased : Unleased j' → ¬ j'.HeldFor job := by
    intro free held
    have token := held.2.2
    rw [free.1] at token
    cases token
  cases action with
  | call op =>
      cases op with
      | erase call => exact unleased moved.unleased
      | _ => exact unleased moved.starts.unleased
  | backfill now => exact unleased moved.starts.unleased
  | claim worker workerId token now leaseUntil =>
      rcases moved with buries | leases
      · exact unleased buries.unleased
      · intro held
        have same : job.leaseToken = token := by
          have both := held.2.2
          rw [leases.token] at both
          exact (Option.some.inj both).symm
        exact fresh (same ▸ issued)
  | embed worker raised => exact moved.elim
  | settle worker now =>
      obtain ⟨_, _, releases⟩ := moved
      exact unleased releases.unleased
  | commit worker now =>
      obtain ⟨_, _, releases⟩ := moved
      exact unleased releases.unleased
  | fail worker now available =>
      obtain ⟨_, _, releases⟩ := moved
      exact unleased releases.unleased
  | crash worker => exact moved.elim

/-- A lost claim stays lost. -/
theorem advance_lost {setting : Setting} {action : Action} {state : State}
    (fresh : FreshToken action state) (invariant : LeaseInvariant setting state)
    {job : ClaimedEmbeddingJob} (issued : job.leaseToken ∈ state.issued)
    (lost : Lost state.store job) : Lost (advance setting action state).store job := by
  have edits := @advance_edits setting action state invariant.distinct
  refine edits.invariant (Q := fun j => ¬ j.HeldFor job) ?_ ?_ lost
  · intro j starts held
    have processing := held.2.1
    rw [starts.pending] at processing
    cases processing
  · intro j j' _ _ moved
    exact stepMove_token fresh moved issued

theorem run_lost {setting : Setting} {actions : List Action} {state : State}
    (admitted : Admits (advance setting) FreshToken actions state)
    (invariant : LeaseInvariant setting state) {job : ClaimedEmbeddingJob}
    (issued : job.leaseToken ∈ state.issued) (lost : Lost state.store job) :
    Lost (run (advance setting) actions state).store job := by
  have all := run_induction
    (P := fun state => LeaseInvariant setting state ∧ job.leaseToken ∈ state.issued ∧
      Lost state.store job)
    (fun action state fresh ⟨invariant, issued, lost⟩ =>
      ⟨advance_leases action invariant, issued_grows action issued,
        advance_lost fresh invariant issued lost⟩)
    ⟨invariant, issued, lost⟩ admitted
  exact all.2.2

/-! ## Committed vectors -/

/-- The row that a commit of a worker stores. -/
def committedRow (setting : Setting) (state : State) : Action → Option EmbeddingRow
  | .commit worker now =>
      match state.workers worker with
      | some (.prepared job currentHash embedding) =>
          match commitPrepared setting.host setting.spec now job currentHash embedding
              state.store with
          | .ok (_, .embedded) =>
              some ⟨job.factId, setting.spec.documentIdentity, embedding, setting.spec.dimensions⟩
          | _ => none
      | _ => none
  | _ => none

theorem committedRow_commit {setting : Setting} {state : State} {worker : Nat} {now : String}
    {job : ClaimedEmbeddingJob} {currentHash : String} {embedding : List Decimal}
    (here : state.workers worker = some (.prepared job currentHash embedding)) {s' : Store}
    (done : commitPrepared setting.host setting.spec now job currentHash embedding state.store =
      .ok (s', .embedded)) :
    committedRow setting state (.commit worker now) =
      some ⟨job.factId, setting.spec.documentIdentity, embedding, setting.spec.dimensions⟩ := by
  simp only [committedRow, here, done]

/-- What a commit stores is there afterwards, for an active fact, and is the model's answer for
its content. -/
theorem committedRow_sound {setting : Setting} {state : State} {action : Action}
    {e : EmbeddingRow} (collisionFree : Function.Injective setting.host.sha256)
    (invariant : LeaseInvariant setting state)
    (committed : committedRow setting state action = some e) :
    e ∈ (advance setting action state).store.factEmbeddings ∧
      ∃ r ∈ (advance setting action state).store.facts, r.factId = e.factId ∧ r.Active ∧
        setting.model r.content = some e.embedding := by
  cases action with
  | commit worker now =>
      dsimp only [committedRow] at committed
      split at committed
      · rename_i job currentHash embedding here
        split at committed
        · rename_i s' done
          cases committed
          have after : (finishWith state worker (commitPrepared setting.host setting.spec now job
              currentHash embedding state.store)).store = s' := by
            dsimp only [finishWith]
            rw [done]
            rfl
          have effect := EmbeddingJobProcessor.commitPrepared_effect invariant.distinct done
          obtain ⟨stored, content, active, sameHash⟩ := effect.checked rfl
          obtain ⟨embedded, hash, answer⟩ :=
            invariant.prepared worker job currentHash embedding here
          obtain rfl : content = embedded := collisionFree (sameHash.trans hash)
          obtain ⟨r, mem, about, isActive, rfl⟩ :=
            EmbeddingJobProcessor.activeContent_eq_some.1 active
          rw [advance_commit here, after]
          refine ⟨stored, r, ?_, about, isActive, answer⟩
          rw [effect.frame]
          exact mem
        · cases committed
      · cases committed
  | _ => cases committed

/-- Workers and backfills add no other vector. -/
theorem new_vector_committed {setting : Setting} {state : State} {action : Action}
    (invariant : LeaseInvariant setting state) (own : ∀ op, action ≠ .call op) :
    ∀ e ∈ (advance setting action state).store.factEmbeddings,
      e ∈ state.store.factEmbeddings ∨ committedRow setting state action = some e := by
  intro e mem
  cases action with
  | call op => exact absurd rfl (own op)
  | backfill now => exact .inl mem
  | claim worker workerId token now leaseUntil =>
      dsimp only [advance] at mem
      split at mem
      · exact .inl mem
      · cases claimed : EmbeddingJobProcessor.claim setting.spec setting.maxAttempts workerId token
            now leaseUntil state.store with
        | mk s' job =>
            rw [claimed] at mem
            rw [(EmbeddingJobProcessor.claim_effect invariant.distinct claimed).1] at mem
            exact .inl mem
  | embed worker raised =>
      dsimp only [advance] at mem
      split at mem
      · exact .inl mem
      · exact .inl mem
  | settle worker now =>
      dsimp only [advance] at mem
      split at mem
      · revert mem
        refine commit_induction (P := fun t : Store => e ∈ t.factEmbeddings →
          e ∈ state.store.factEmbeddings ∨ _) .inl fun s' outcome done mem => ?_
        rw [(EmbeddingJobProcessor.settleInactive_effect done).1] at mem
        exact .inl mem
      · exact .inl mem
  | commit worker now =>
      by_cases prepared : ∃ job currentHash embedding,
          state.workers worker = some (.prepared job currentHash embedding)
      · obtain ⟨job, currentHash, embedding, here⟩ := prepared
        rw [advance_commit here] at mem
        dsimp only [finishWith] at mem
        cases done : commitPrepared setting.host setting.spec now job currentHash embedding
            state.store with
        | error raised =>
            rw [done] at mem
            exact .inl mem
        | ok result =>
            obtain ⟨s', outcome⟩ := result
            rw [done] at mem
            have effect := EmbeddingJobProcessor.commitPrepared_effect invariant.distinct done
            rcases effect.stored e mem with old | ⟨rfl, rfl⟩
            · exact .inl old
            · exact .inr (committedRow_commit here done)
      · dsimp only [advance] at mem
        split at mem
        · rename_i job currentHash embedding here
          exact absurd ⟨job, currentHash, embedding, here⟩ prepared
        · exact .inl mem
  | fail worker now available =>
      dsimp only [advance] at mem
      split at mem
      · revert mem
        refine commit_induction (P := fun t : Store => e ∈ t.factEmbeddings →
          e ∈ state.store.factEmbeddings ∨ _) .inl fun s' outcome done mem => ?_
        rw [(EmbeddingJobProcessor.fail_effect done).1] at mem
        exact .inl mem
      · exact .inl mem
  | crash worker => exact .inl mem

/-! ## Safety -/

/-- A claim of the same job by another worker replaces the first. -/
theorem replaced_lost {setting : Setting} {state : State} {action : Action}
    (invariant : LeaseInvariant setting state) (fresh : FreshToken action state) {worker : Nat}
    {phase : Phase} (here : state.workers worker = some phase) {job : ClaimedEmbeddingJob}
    (claimed : claimedJob setting state action = some job) (same : job.jobId = phase.job.jobId) :
    Lost (advance setting action state).store phase.job := by
  have issued := invariant.issued worker phase here
  have edits := @advance_edits setting action state invariant.distinct
  obtain ⟨_, _, _, _, rfl, j, -, j', mem', sameJob, leases, id, -⟩ :=
    claimedJob_effect invariant.distinct claimed
  intro j'' mem'' held
  obtain rfl := (edits.distinct invariant.distinct).eq_of_id mem'' mem'
    (held.1.trans (same.symm.trans (id.symm.trans sameJob.jobId.symm)))
  have token := held.2.2
  rw [leases.token] at token
  exact fresh ((Option.some.inj token) ▸ issued)

/-- An erasure of its fact takes a claim away. -/
theorem erased_lost {setting : Setting} {state : State} (invariant : LeaseInvariant setting state)
    {worker : Nat} {phase : Phase} (here : state.workers worker = some phase) {call : EraseCall}
    {s' : Store} {report : ErasureReport}
    (done : call.apply setting.host state.store = .ok (s', report))
    (about : call.factId = phase.job.factId) : Lost s' phase.job := by
  obtain ⟨claim, memClaim, id, fact⟩ := invariant.claims worker phase here
  intro j' mem' held
  rw [(erase_jobs done).1] at mem'
  obtain ⟨j, mem, rfl⟩ := List.mem_map.1 (Table.mem_rows.2 mem')
  by_cases erased : j.factId = call.factId
  · rw [if_pos erased] at held
    cases held.2.1
  · rw [if_neg erased] at held
    have same := invariant.distinct.eq_of_id mem memClaim (held.1.trans id.symm)
    exact erased (by rw [same, fact, about])

/-- With unique tokens and a digest without collisions, in every reachable state: a vector that a
worker commits is stored for a fact that is active at the commit, and is the model's answer for
the content it has there; a claim that is replaced or whose fact is erased is lost; and a worker
that has lost its claim never changes the store again under that claim. -/
theorem lease_safety {setting : Setting}
    (collisionFree : Function.Injective setting.host.sha256) {state : State}
    (reached : Reachable (advance setting) FreshToken .initial state) :
    (∀ action e, committedRow setting state action = some e →
      e ∈ (advance setting action state).store.factEmbeddings ∧
        ∃ r ∈ (advance setting action state).store.facts, r.factId = e.factId ∧ r.Active ∧
          setting.model r.content = some e.embedding) ∧
    (∀ action, (∀ op, action ≠ .call op) →
      ∀ e ∈ (advance setting action state).store.factEmbeddings,
        e ∈ state.store.factEmbeddings ∨ committedRow setting state action = some e) ∧
    ∀ worker phase, state.workers worker = some phase →
      (∀ action job, FreshToken action state → claimedJob setting state action = some job →
        job.jobId = phase.job.jobId → Lost (advance setting action state).store phase.job) ∧
      (∀ (call : EraseCall) s' report, call.apply setting.host state.store = .ok (s', report) →
        call.factId = phase.job.factId → Lost s' phase.job) ∧
      (Lost state.store phase.job → ∀ actions, Admits (advance setting) FreshToken actions state →
        ∀ other phase', (run (advance setting) actions state).workers other = some phase' →
          phase'.job = phase.job → ∀ action, OfWorker other action →
            (advance setting action (run (advance setting) actions state)).store =
              (run (advance setting) actions state).store) := by
  have invariant := leases_hold reached
  refine ⟨fun action e committed => committedRow_sound collisionFree invariant committed,
    fun action own => new_vector_committed invariant own, fun worker phase here => ⟨?_, ?_, ?_⟩⟩
  · intro action job fresh claimed same
    exact replaced_lost invariant fresh here claimed same
  · intro call s' report done about
    exact erased_lost invariant here done about
  · intro lost actions admitted other phase' found sameClaim action own
    have stillLost := run_lost admitted invariant (invariant.issued worker phase here) lost
    exact lost_worker_idle found (sameClaim ▸ stillLost) own

theorem sample_sha256_injective : Function.Injective Sample.setting.host.sha256 :=
  fun _ _ same => (String.append_right_inj _).1 same

/-- The sample state before the commit, in which the worker has its vector prepared. -/
def preparedState : State := run (advance Sample.setting) (Sample.embedding.take 3) .initial

theorem preparedState_reached :
    Reachable (advance Sample.setting) FreshToken .initial preparedState :=
  ⟨Sample.embedding.take 3, ⟨trivial, List.not_mem_nil, trivial, trivial⟩, rfl⟩

/-- In the sample run the commit stores the model's vector for the fact's content. -/
theorem sample_commit_safe :
    committedRow Sample.setting preparedState (.commit 0 "2026-01-02") =
        some ⟨1, "sample", [.one], 1⟩ ∧
      ∃ r ∈ (advance Sample.setting (.commit 0 "2026-01-02") preparedState).store.facts,
        r.factId = 1 ∧ r.Active ∧ Sample.setting.model r.content = some [.one] := by
  have committed : committedRow Sample.setting preparedState (.commit 0 "2026-01-02") =
      some ⟨1, "sample", [.one], 1⟩ := by
    decide +kernel
  have safe := (lease_safety sample_sha256_injective preparedState_reached).1 _ _ committed
  exact ⟨committed, safe.2⟩

end Enfold.Laws.EmbeddingSystem
