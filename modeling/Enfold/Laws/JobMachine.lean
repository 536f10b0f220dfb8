/-
# Laws.JobMachine -- the state machine of embedding jobs

In every reachable state of the workers and the calls around them a job is leased exactly while
it is processed and has used no more than its attempts.  Attempts count claims: they fall only
when a completed job is enqueued again, so between two such restarts a job is claimed at most
`maxAttempts` times.  A dead letter stays one until its fact is erased.
-/
import Enfold.Laws.JobEffects

namespace Enfold.Laws.EmbeddingSystem

open Enfold.Theory Enfold.Model Enfold.Model.EmbeddingSystem

set_option autoImplicit false

/-! ## Leases and attempts -/

/-- All lease columns are set. -/
def Leased (j : JobRow) : Prop :=
  j.leaseToken ≠ none ∧ j.leaseOwner ≠ none ∧ j.leaseExpiresAt ≠ none

/-- A job is leased while it is processed and has no lease column set otherwise. -/
def LeaseSound (j : JobRow) : Prop :=
  j.status = .processing ∧ Leased j ∨ j.status ≠ .processing ∧ Unleased j

theorem LeaseSound.iff {j : JobRow} (sound : LeaseSound j) : j.status = .processing ↔ Leased j := by
  rcases sound with ⟨processing, leased⟩ | ⟨other, token, -⟩
  · exact ⟨fun _ => leased, fun _ => processing⟩
  · exact ⟨fun processing => absurd processing other, fun leased => absurd token leased.1⟩

theorem leaseSound_of_starts {j : JobRow} (starts : Starts j) : LeaseSound j :=
  .inr ⟨by rw [starts.pending]; simp, starts.unleased⟩

/-- Every move of a step leaves the lease sound and the attempts within their bound. -/
theorem stepMove_sound {setting : Setting} {state : State} {action : Action} {j j' : JobRow}
    (moved : StepMove setting state action j j') (bounded : j.attempts ≤ setting.maxAttempts) :
    LeaseSound j' ∧ j'.attempts ≤ setting.maxAttempts := by
  have restarted : Restarts j j' → LeaseSound j' ∧ j'.attempts ≤ setting.maxAttempts := by
    intro restarts
    exact ⟨leaseSound_of_starts restarts.starts, by rw [restarts.starts.attempts]; exact Nat.zero_le _⟩
  have released : (∃ phase, (∃ worker, state.workers worker = some phase) ∧
      Releases phase.job j j') → LeaseSound j' ∧ j'.attempts ≤ setting.maxAttempts := by
    rintro ⟨phase, -, releases⟩
    exact ⟨.inr ⟨releases.released, releases.unleased⟩, by rw [releases.attempts]; exact bounded⟩
  cases action with
  | call op =>
      cases op with
      | erase call =>
          have erases : ErasesJob call.factId j j' := moved
          exact ⟨.inr ⟨by rw [erases.completed]; simp, erases.unleased⟩,
            by rw [erases.attempts]; exact bounded⟩
      | _ => exact restarted moved
  | backfill now => exact restarted moved
  | claim worker workerId token now leaseUntil =>
      rcases moved with buries | leases
      · exact ⟨.inr ⟨by rw [buries.buried]; simp, buries.unleased⟩,
          by rw [buries.attempts]; exact bounded⟩
      · refine ⟨.inl ⟨leases.processing, by rw [leases.token]; simp, leases.owner,
          leases.expires⟩, ?_⟩
        rw [leases.attempts]
        exact leases.left
  | embed worker raised => exact moved.elim
  | settle worker now =>
      obtain ⟨phase, here, releases⟩ := moved
      exact released ⟨phase, ⟨worker, here⟩, releases⟩
  | commit worker now =>
      obtain ⟨phase, here, releases⟩ := moved
      exact released ⟨phase, ⟨worker, here⟩, releases⟩
  | fail worker now available =>
      obtain ⟨phase, here, releases⟩ := moved
      exact released ⟨phase, ⟨worker, here⟩, releases⟩
  | crash worker => exact moved.elim

/-- The invariant of the jobs. -/
structure JobsSound (maxAttempts : Nat) (jobs : JobTable) : Prop where
  distinct : JobsDistinct jobs
  rows : ∀ j ∈ jobs, LeaseSound j ∧ j.attempts ≤ maxAttempts

theorem advance_sound {setting : Setting} (action : Action) {state : State}
    (sound : JobsSound setting.maxAttempts state.store.embeddingJobs) :
    JobsSound setting.maxAttempts (advance setting action state).store.embeddingJobs := by
  have edits := @advance_edits setting action state sound.distinct
  refine ⟨edits.distinct sound.distinct, edits.invariant ?_ ?_ sound.rows⟩
  · intro j starts
    exact ⟨leaseSound_of_starts starts, by rw [starts.attempts]; exact Nat.zero_le _⟩
  · intro j j' bounded _ moved
    exact stepMove_sound moved bounded.2

theorem jobs_sound {setting : Setting} {ok : Action → State → Prop} {state : State}
    (reached : Reachable (advance setting) ok .initial state) :
    JobsSound setting.maxAttempts state.store.embeddingJobs :=
  reached.induction (P := fun state : State => JobsSound setting.maxAttempts state.store.embeddingJobs)
    ⟨List.nodup_nil, fun j mem => absurd mem (Table.not_mem_empty j)⟩
    fun action _ _ sound => advance_sound action sound

/-! ## Counting claims -/

/-- The job that a step claims. -/
def claimedJob (setting : Setting) (state : State) : Action → Option ClaimedEmbeddingJob
  | .claim worker workerId token now leaseUntil =>
      match state.workers worker with
      | some _ => none
      | none => (EmbeddingJobProcessor.claim setting.spec setting.maxAttempts workerId token now
          leaseUntil state.store).2
  | _ => none

theorem claimedJob_effect {setting : Setting} {action : Action} {state : State}
    (distinct : JobsDistinct state.store.embeddingJobs) {job : ClaimedEmbeddingJob}
    (claimed : claimedJob setting state action = some job) :
    ∃ worker workerId now leaseUntil,
      action = .claim worker workerId job.leaseToken now leaseUntil ∧
      ∃ j ∈ state.store.embeddingJobs, ∃ j' ∈ (advance setting action state).store.embeddingJobs,
        SameJob j j' ∧ Leases setting.maxAttempts job.leaseToken j j' ∧ j.jobId = job.jobId ∧
          j.factId = job.factId := by
  cases action with
  | claim worker workerId token now leaseUntil =>
      dsimp only [claimedJob, advance] at claimed ⊢
      cases idle : state.workers worker with
      | some phase =>
          rw [idle] at claimed
          cases claimed
      | none =>
          rw [idle] at claimed
          dsimp only at claimed ⊢
          obtain ⟨-, -, effect⟩ := EmbeddingJobProcessor.claim_effect distinct rfl
          obtain ⟨rfl, j, mem, j', mem', same, leases, id, about, -⟩ := effect job claimed
          exact ⟨worker, workerId, now, leaseUntil, rfl, j, mem, j', mem', same, leases, id, about⟩
  | _ => cases claimed

theorem embedPhase_job (setting : Setting) (raised : Option String) (s : Store)
    (job : ClaimedEmbeddingJob) : (embedPhase setting raised s job).job = job := by
  unfold embedPhase
  split
  · rfl
  · split
    · rfl
    · split <;> rfl

/-- A worker's claim is the one it had before the step, or the one the step made. -/
theorem phase_origin {setting : Setting} {action : Action} {state : State} {worker : Nat}
    {phase : Phase} (here : (advance setting action state).workers worker = some phase) :
    (∃ before, state.workers worker = some before ∧ before.job = phase.job) ∨
      claimedJob setting state action = some phase.job := by
  have cleared : ∀ {other : Nat},
      Function.update state.workers other none worker = some phase →
      state.workers worker = some phase := by
    intro other found
    by_cases same : worker = other
    · rw [same, Function.update_self] at found
      cases found
    · rwa [Function.update_of_ne same] at found
  cases action with
  | call op => exact .inl ⟨phase, here, rfl⟩
  | backfill now => exact .inl ⟨phase, here, rfl⟩
  | claim other workerId token now leaseUntil =>
      dsimp only [advance, claimedJob] at here ⊢
      cases idle : state.workers other with
      | some busy =>
          rw [idle] at here
          exact .inl ⟨phase, here, rfl⟩
      | none =>
          rw [idle] at here
          dsimp only at here ⊢
          by_cases same : worker = other
          · rw [same, Function.update_self] at here
            obtain ⟨job, taken, rfl⟩ := Option.map_eq_some_iff.1 here
            exact .inr taken
          · rw [Function.update_of_ne same] at here
            exact .inl ⟨phase, here, rfl⟩
  | embed other raised =>
      dsimp only [advance] at here
      split at here
      · rename_i job claimed
        dsimp only [State.setWorker] at here
        by_cases same : worker = other
        · rw [same, Function.update_self] at here
          cases here
          exact .inl ⟨_, same ▸ claimed, (embedPhase_job _ _ _ _).symm⟩
        · rw [Function.update_of_ne same] at here
          exact .inl ⟨phase, here, rfl⟩
      · exact .inl ⟨phase, here, rfl⟩
  | settle other now =>
      dsimp only [advance] at here
      split at here
      · exact .inl ⟨phase, cleared here, rfl⟩
      · exact .inl ⟨phase, here, rfl⟩
  | commit other now =>
      dsimp only [advance] at here
      split at here
      · exact .inl ⟨phase, cleared here, rfl⟩
      · exact .inl ⟨phase, here, rfl⟩
  | fail other now available =>
      dsimp only [advance] at here
      split at here
      · exact .inl ⟨phase, cleared here, rfl⟩
      · exact .inl ⟨phase, here, rfl⟩
  | crash other => exact .inl ⟨phase, cleared here, rfl⟩

/-- Claims survive any edit of the jobs. -/
theorem claims_kept {Move : JobRow → JobRow → Prop} {jobs jobs' : JobTable}
    (edits : JobEdits Move jobs jobs') {job : ClaimedEmbeddingJob}
    (there : ∃ j ∈ jobs, j.jobId = job.jobId ∧ j.factId = job.factId) :
    ∃ j ∈ jobs', j.jobId = job.jobId ∧ j.factId = job.factId := by
  obtain ⟨j, mem, id, about⟩ := there
  obtain ⟨j', mem', same, -⟩ := edits.kept (R := fun _ _ => True) (fun _ => trivial)
    (fun _ _ _ _ _ _ => trivial) mem
  exact ⟨j', mem', same.jobId.trans id, same.factId.trans about⟩

/-- The job of every claim stays there, about the fact of the claim. -/
theorem claims_advance {setting : Setting} {action : Action} {state : State}
    (distinct : JobsDistinct state.store.embeddingJobs)
    (claims : ∀ worker phase, state.workers worker = some phase →
      ∃ j ∈ state.store.embeddingJobs, j.jobId = phase.job.jobId ∧ j.factId = phase.job.factId)
    {worker : Nat} {phase : Phase}
    (here : (advance setting action state).workers worker = some phase) :
    ∃ j ∈ (advance setting action state).store.embeddingJobs,
      j.jobId = phase.job.jobId ∧ j.factId = phase.job.factId := by
  have edits := @advance_edits setting action state distinct
  rcases phase_origin here with ⟨before, held, same⟩ | claimed
  · rw [← same]
    exact claims_kept edits (claims worker before held)
  · obtain ⟨_, _, _, _, -, j, -, j', mem', sameJob, -, id, about⟩ :=
      claimedJob_effect distinct claimed
    exact ⟨j', mem', sameJob.jobId.trans id, sameJob.factId.trans about⟩

/-- Whether a step claims the job. -/
def claimsJob (setting : Setting) (jobId : Nat) (state : State) (action : Action) : Bool :=
  (claimedJob setting state action).any fun job => job.jobId == jobId

/-- How often a run claims the job. -/
def claimCount (setting : Setting) (jobId : Nat) : State → List Action → Nat
  | _, [] => 0
  | state, action :: later =>
      (claimsJob setting jobId state action).toNat +
        claimCount setting jobId (advance setting action state) later

/-- The job was completed and is pending again: an enqueue has reset it. -/
def Reset (jobId : Nat) (before after : JobTable) : Prop :=
  (∃ j ∈ before, j.jobId = jobId ∧ j.status = .completed) ∧
    ∃ j ∈ after, j.jobId = jobId ∧ j.status = .pending

/-- No step of the run resets the job. -/
def NeverReset (setting : Setting) (jobId : Nat) : State → List Action → Prop
  | _, [] => True
  | state, action :: later =>
      ¬ Reset jobId state.store.embeddingJobs
          (advance setting action state).store.embeddingJobs ∧
        NeverReset setting jobId (advance setting action state) later

/-- The attempts of a job; a job that is not there has none. -/
def attemptsOf (jobs : JobTable) (jobId : Nat) : Nat :=
  ((jobs.rows.find? fun j => j.jobId = jobId).map JobRow.attempts).getD 0

theorem attemptsOf_of_mem {jobs : JobTable} (distinct : JobsDistinct jobs) {j : JobRow}
    (mem : j ∈ jobs) : attemptsOf jobs j.jobId = j.attempts := by
  unfold attemptsOf
  cases found : jobs.rows.find? fun j' => j'.jobId = j.jobId with
  | none => exact absurd (List.find?_eq_none.1 found j mem) (by simp)
  | some j' =>
      have here : j'.jobId = j.jobId := by simpa using List.find?_some found
      rw [distinct.eq_of_id (List.mem_of_find?_eq_some found) mem here]
      rfl

theorem attemptsOf_eq_zero {jobs : JobTable} {jobId : Nat}
    (absent : ∀ j ∈ jobs, j.jobId ≠ jobId) : attemptsOf jobs jobId = 0 := by
  unfold attemptsOf
  rw [List.find?_eq_none.2 fun j mem => by simpa using absent j mem]
  rfl

/-- What is left of a row by moves that all keep or raise its attempts. -/
theorem attempts_le_of_edits {Move : JobRow → JobRow → Prop} {jobs jobs' : JobTable}
    (edits : JobEdits Move jobs jobs')
    (rising : ∀ j j', Move j j' → j.attempts ≤ j'.attempts) {j : JobRow} (mem : j ∈ jobs) :
    ∃ j' ∈ jobs', SameJob j j' ∧ j.attempts ≤ j'.attempts :=
  edits.kept (R := fun j j' => j.attempts ≤ j'.attempts) (fun _ => Nat.le_refl _)
    (fun _ _ _ so_far _ moved => Nat.le_trans so_far (rising _ _ moved)) mem

/-- Enqueueing leaves a row alone or resets it. -/
theorem restarted_of_edits {jobs jobs' : JobTable} (edits : JobEdits Restarts jobs jobs')
    {j : JobRow} (mem : j ∈ jobs) :
    ∃ j' ∈ jobs', SameJob j j' ∧ (j' = j ∨ j.status = .completed ∧ j'.status = .pending) := by
  refine edits.kept (R := fun j j' => j' = j ∨ j.status = .completed ∧ j'.status = .pending)
    (fun _ => .inl rfl) ?_ mem
  rintro j₀ j₁ j₂ (rfl | ⟨completed, pending⟩) _ restarts
  · exact .inr ⟨restarts.completed, restarts.starts.pending⟩
  · rw [restarts.completed] at pending
    cases pending

/-- A step that does not reset a job keeps its attempts. -/
theorem advance_attempts {setting : Setting} (action : Action) {state : State} {jobId : Nat}
    (distinct : JobsDistinct state.store.embeddingJobs)
    (unreset : ¬ Reset jobId state.store.embeddingJobs
      (advance setting action state).store.embeddingJobs) {j : JobRow}
    (mem : j ∈ state.store.embeddingJobs) (here : j.jobId = jobId) :
    ∃ j' ∈ (advance setting action state).store.embeddingJobs, SameJob j j' ∧
      j.attempts ≤ j'.attempts := by
  have edits := @advance_edits setting action state distinct
  have restarts : JobEdits Restarts state.store.embeddingJobs
      (advance setting action state).store.embeddingJobs →
      ∃ j' ∈ (advance setting action state).store.embeddingJobs, SameJob j j' ∧
        j.attempts ≤ j'.attempts := by
    intro enqueued
    obtain ⟨j', mem', same, rfl | ⟨completed, pending⟩⟩ := restarted_of_edits enqueued mem
    · exact ⟨j', mem', same, Nat.le_refl _⟩
    · exact absurd ⟨⟨j, mem, here, completed⟩, j', mem', same.jobId.trans here, pending⟩ unreset
  cases action with
  | call op =>
      cases op with
      | erase call =>
          exact attempts_le_of_edits edits (fun _ _ erases => erases.attempts.ge) mem
      | _ => exact restarts edits
  | backfill now => exact restarts edits
  | claim worker workerId token now leaseUntil =>
      refine attempts_le_of_edits edits ?_ mem
      rintro j j' (buries | leases)
      · exact buries.attempts.ge
      · rw [leases.attempts]
        exact Nat.le_succ _
  | embed worker raised => exact attempts_le_of_edits edits (fun _ _ moved => moved.elim) mem
  | settle worker now =>
      exact attempts_le_of_edits edits (fun _ _ ⟨_, _, releases⟩ => releases.attempts.ge) mem
  | commit worker now =>
      exact attempts_le_of_edits edits (fun _ _ ⟨_, _, releases⟩ => releases.attempts.ge) mem
  | fail worker now available =>
      exact attempts_le_of_edits edits (fun _ _ ⟨_, _, releases⟩ => releases.attempts.ge) mem
  | crash worker => exact attempts_le_of_edits edits (fun _ _ moved => moved.elim) mem

/-- A claim counts as an attempt. -/
theorem advance_claimed {setting : Setting} {action : Action} {state : State} {jobId : Nat}
    (distinct : JobsDistinct state.store.embeddingJobs)
    (claims : claimsJob setting jobId state action = true) :
    ∃ j ∈ state.store.embeddingJobs, j.jobId = jobId ∧
      ∃ j' ∈ (advance setting action state).store.embeddingJobs, SameJob j j' ∧
        j'.attempts = j.attempts + 1 := by
  obtain ⟨job, claimed, same⟩ := (Option.any_eq_true _ _).1 claims
  obtain ⟨_, _, _, _, -, j, mem, j', mem', sameJob, leases, id, -⟩ :=
    claimedJob_effect distinct claimed
  exact ⟨j, mem, id.trans (beq_iff_eq.1 same), j', mem', sameJob, leases.attempts⟩

/-- A step that does not reset the job adds its claims to the attempts. -/
theorem attemptsOf_advance {setting : Setting} {action : Action} {state : State} {jobId : Nat}
    (distinct : JobsDistinct state.store.embeddingJobs)
    (unreset : ¬ Reset jobId state.store.embeddingJobs
      (advance setting action state).store.embeddingJobs) :
    (claimsJob setting jobId state action).toNat + attemptsOf state.store.embeddingJobs jobId ≤
      attemptsOf (advance setting action state).store.embeddingJobs jobId := by
  have distinct' := (@advance_edits setting action state distinct).distinct distinct
  cases claims : claimsJob setting jobId state action with
  | true =>
      obtain ⟨j, mem, rfl, j', mem', same, attempts⟩ := advance_claimed distinct claims
      rw [attemptsOf_of_mem distinct mem, ← same.jobId, attemptsOf_of_mem distinct' mem', attempts]
      exact (Nat.add_comm _ _).le
  | false =>
      rw [Bool.toNat_false, Nat.zero_add]
      by_cases present : ∃ j ∈ state.store.embeddingJobs, j.jobId = jobId
      · obtain ⟨j, mem, rfl⟩ := present
        obtain ⟨j', mem', same, kept⟩ := advance_attempts action distinct unreset mem rfl
        rw [attemptsOf_of_mem distinct mem, ← same.jobId, attemptsOf_of_mem distinct' mem']
        exact kept
      · rw [attemptsOf_eq_zero fun j mem here => present ⟨j, mem, here⟩]
        exact Nat.zero_le _

theorem attemptsOf_le {maxAttempts : Nat} {jobs : JobTable} (sound : JobsSound maxAttempts jobs)
    (jobId : Nat) : attemptsOf jobs jobId ≤ maxAttempts := by
  by_cases present : ∃ j ∈ jobs, j.jobId = jobId
  · obtain ⟨j, mem, rfl⟩ := present
    rw [attemptsOf_of_mem sound.distinct mem]
    exact (sound.rows j mem).2
  · rw [attemptsOf_eq_zero fun j mem here => present ⟨j, mem, here⟩]
    exact Nat.zero_le _

/-- A run that never resets a job claims it no more often than it may be attempted. -/
theorem claimCount_le {setting : Setting} {jobId : Nat} {actions : List Action} {state : State}
    (sound : JobsSound setting.maxAttempts state.store.embeddingJobs)
    (unreset : NeverReset setting jobId state actions) :
    claimCount setting jobId state actions + attemptsOf state.store.embeddingJobs jobId ≤
      setting.maxAttempts := by
  induction actions generalizing state with
  | nil =>
      rw [claimCount, Nat.zero_add]
      exact attemptsOf_le sound jobId
  | cons action later ih =>
      have first := attemptsOf_advance sound.distinct unreset.1
      have rest := ih (advance_sound action sound) unreset.2
      rw [claimCount]
      omega

/-! ## The state machine -/

/-- Only an erasure moves a dead letter. -/
theorem stepMove_deadLetter {setting : Setting} {state : State} {action : Action} {j j' : JobRow}
    (moved : StepMove setting state action j j') (dead : j.status = .deadLetter) :
    ∃ call, action = .call (.erase call) ∧ call.factId = j.factId := by
  have held : ∀ {job : ClaimedEmbeddingJob}, ¬ j.HeldFor job := by
    intro job holds
    have processing := holds.2.1
    rw [dead] at processing
    cases processing
  have restarts : ¬ Restarts j j' := by
    intro restarted
    have completed := restarted.completed
    rw [dead] at completed
    cases completed
  have claimable : ¬ Claimable j := by
    rintro (pending | processing)
    · rw [dead] at pending
      cases pending
    · rw [dead] at processing
      cases processing
  cases action with
  | call op =>
      cases op with
      | erase call => exact ⟨call, rfl, moved.about.symm⟩
      | _ => exact absurd moved restarts
  | backfill now => exact absurd moved restarts
  | claim worker workerId token now leaseUntil =>
      rcases moved with buries | leases
      · exact absurd buries.claimable claimable
      · exact absurd leases.claimable claimable
  | embed worker raised => exact moved.elim
  | settle worker now =>
      obtain ⟨_, _, releases⟩ := moved
      exact absurd releases.held held
  | commit worker now =>
      obtain ⟨_, _, releases⟩ := moved
      exact absurd releases.held held
  | fail worker now available =>
      obtain ⟨_, _, releases⟩ := moved
      exact absurd releases.held held
  | crash worker => exact moved.elim

/-- A dead letter stays one unless its fact is erased. -/
theorem deadLetter_stays {setting : Setting} (action : Action) {state : State}
    (distinct : JobsDistinct state.store.embeddingJobs) {j : JobRow}
    (mem : j ∈ state.store.embeddingJobs) (dead : j.status = .deadLetter) :
    ∃ j' ∈ (advance setting action state).store.embeddingJobs, SameJob j j' ∧
      (j'.status = .deadLetter ∨ ∃ call, action = .call (.erase call) ∧ call.factId = j.factId) := by
  have kept := (@advance_edits setting action state distinct).kept
    (R := fun j j' => j'.factId = j.factId ∧ (j.status = .deadLetter → j'.status = .deadLetter ∨
      ∃ call, action = .call (.erase call) ∧ call.factId = j.factId))
    (fun _ => ⟨rfl, .inl⟩) (by
      rintro j₀ j j' ⟨sameFact, soFar⟩ same moved
      refine ⟨same.factId.trans sameFact, fun dead => ?_⟩
      rcases soFar dead with still | erased
      · obtain ⟨call, isErase, about⟩ := stepMove_deadLetter moved still
        exact .inr ⟨call, isErase, about.trans sameFact⟩
      · exact .inr erased) mem
  obtain ⟨j', mem', same, -, related⟩ := kept
  exact ⟨j', mem', same, related dead⟩

/-- In every reachable state of any number of workers: a job is processed exactly while all its
lease columns are set, and its attempts are within the bound; every run from there that does not
reset a job claims it at most `maxAttempts` times; and a job that is dead-lettered is so after
every step but the erasure of its fact. -/
theorem job_state_machine {setting : Setting} {state : State}
    (reached : Reachable (advance setting) (fun _ _ => True) .initial state) :
    (∀ j ∈ state.store.embeddingJobs, (j.status = .processing ↔ j.leaseToken ≠ none ∧
        j.leaseOwner ≠ none ∧ j.leaseExpiresAt ≠ none) ∧
      0 ≤ j.attempts ∧ j.attempts ≤ setting.maxAttempts) ∧
    (∀ actions jobId, NeverReset setting jobId state actions →
      claimCount setting jobId state actions ≤ setting.maxAttempts) ∧
    ∀ action, ∀ j ∈ state.store.embeddingJobs, j.status = .deadLetter →
      ∃ j' ∈ (advance setting action state).store.embeddingJobs, SameJob j j' ∧
        (j'.status = .deadLetter ∨
          ∃ call, action = .call (.erase call) ∧ call.factId = j.factId) := by
  have sound := jobs_sound reached
  refine ⟨fun j mem => ?_, fun actions jobId unreset => ?_, fun action j mem dead => ?_⟩
  · exact ⟨(sound.rows j mem).1.iff, Nat.zero_le _, (sound.rows j mem).2⟩
  · exact Nat.le_trans (Nat.le_add_right _ _) (claimCount_le sound unreset)
  · exact deadLetter_stays action sound.distinct mem dead

/-- In the sample run the job of the embedded fact has been claimed once and holds no lease. -/
theorem embedded_job_state :
    let state := run (advance Sample.setting) Sample.embedding .initial
    state.store.embeddingJobs.rows.map (fun j => (j.status, j.attempts)) = [(.completed, 1)] ∧
      ∀ j ∈ state.store.embeddingJobs, (j.status = .processing ↔ j.leaseToken ≠ none ∧
          j.leaseOwner ≠ none ∧ j.leaseExpiresAt ≠ none) ∧
        0 ≤ j.attempts ∧ j.attempts ≤ Sample.setting.maxAttempts :=
  ⟨by decide +kernel, (job_state_machine ⟨Sample.embedding, Admits.always _ _, rfl⟩).1⟩

end Enfold.Laws.EmbeddingSystem
