/-
# Laws.ExtractionRuns -- `process_one` as a run of the extraction system

`processOne` says what one call does when nobody interferes.  Each of its stages is a run of the
worker's own steps: the heartbeats (`beat_leads`), the snapshot (`jobSnapshot_leads`), the writes
of the batch (`applyWrites_leads`).  So the call takes the store where some run of the system takes
it (`processOne_runs`), and what holds over every interleaving holds of it.
-/
import Enfold.Laws.ExactlyOnce

namespace Enfold.Laws.ExtractionSystem

open Enfold.Theory Enfold.Model Enfold.Model.ExtractionSystem

set_option autoImplicit false

section

variable {setting : Setting} {worker : Nat} {state state' state'' : State} {s s' : Store}
  {job : Claim} {envelope : ExtractionEnvelope} {input : JobInput}

/-! ## Runs of one worker -/

/-- The worker stands at the phase, over the store. -/
structure At (worker : Nat) (state : State) (s : Store) (phase : Phase) : Prop where
  store : state.store = s
  here : state.workers worker = some phase

/-- Steps of the worker after its claim lead from one state to the other. -/
def Leads (setting : Setting) (worker : Nat) (state state' : State) : Prop :=
  ∃ actions, (∀ action ∈ actions, workerOf action = some worker ∧ claimToken action = none) ∧
    run (advance setting) actions state = state'

theorem Leads.refl : Leads setting worker state state :=
  ⟨[], fun _ mem => absurd mem List.not_mem_nil, rfl⟩

theorem Leads.trans (first : Leads setting worker state state')
    (second : Leads setting worker state' state'') : Leads setting worker state state'' := by
  obtain ⟨actions, own, rfl⟩ := first
  obtain ⟨actions', own', rfl⟩ := second
  refine ⟨actions ++ actions', fun action mem => ?_, run_append _ _ _ _⟩
  rcases List.mem_append.1 mem with before | after
  · exact own action before
  · exact own' action after

theorem Leads.step (action : Action) (own : workerOf action = some worker)
    (working : claimToken action = none) :
    Leads setting worker state (advance setting action state) := by
  refine ⟨[action], fun other mem => ?_, rfl⟩
  obtain rfl := List.mem_singleton.1 mem
  exact ⟨own, working⟩

/-- A run of the worker brings it from one phase to another. -/
def Goes (setting : Setting) (worker : Nat) (s : Store) (phase : Phase) (s' : Store)
    (phase' : Phase) : Prop :=
  ∀ state, At worker state s phase →
    ∃ state', Leads setting worker state state' ∧ At worker state' s' phase'

theorem Goes.refl (s : Store) (phase : Phase) : Goes setting worker s phase s phase :=
  fun state here => ⟨state, .refl, here⟩

theorem Goes.trans {s'' : Store} {phase phase' phase'' : Phase}
    (first : Goes setting worker s phase s' phase') (second : Goes setting worker s' phase' s'' phase'') :
    Goes setting worker s phase s'' phase'' := by
  intro state here
  obtain ⟨state', leads, there⟩ := first state here
  obtain ⟨state'', leads', there'⟩ := second state' there
  exact ⟨state'', leads.trans leads', there'⟩

/-- One step of the worker, by what it does at its phase. -/
theorem Goes.of_step {phase phase' : Phase} (action : Action) (own : workerOf action = some worker)
    (working : claimToken action = none)
    (does : ∀ state, At worker state s phase → At worker (advance setting action state) s' phase') :
    Goes setting worker s phase s' phase' :=
  fun state here => ⟨_, .step action own working, does state here⟩

/-! ## The stages of a job -/

/-- The phase after a stage, by its result. -/
def resulting {α : Type} (job : Claim) (result : Processing α) (next : α → Phase) : Phase :=
  match result with
  | .error failure => .failing job failure
  | .ok a => next a

theorem beat_leads (heartbeats : List (Decimal × Decimal)) (s : Store) :
    Goes setting worker s (.extracting job envelope)
      (beat job.row.id job.lease heartbeats s).1
      (resulting job (beat job.row.id job.lease heartbeats s).2 fun _ => .extracting job envelope) := by
  induction heartbeats generalizing s with
  | nil => exact .refl _ _
  | cons reading later ih =>
      obtain ⟨now, leaseUntil⟩ := reading
      rw [beat]
      cases done : renew.{0} job.row.id job.lease now leaseUntil s with
      | error e =>
          refine .of_step (.beat worker now leaseUntil) rfl rfl ?_
          rintro state ⟨rfl, here⟩
          simp only [advance, here, done]
          exact ⟨rfl, Function.update_self ..⟩
      | ok answer =>
          obtain ⟨next, result⟩ := answer
          refine .trans (.of_step (.beat worker now leaseUntil) rfl rfl ?_) (ih next)
          rintro state ⟨rfl, here⟩
          simp only [advance, here, done]
          exact ⟨rfl, here⟩

/-- The phase of a snapshot that was found or made. -/
def prepared (setting : Setting) (job : Claim) (envelope : ExtractionEnvelope)
    (snapshot : String × String) : Phase :=
  preparePhase setting.host job envelope snapshot.1 snapshot.2

theorem extractSnapshot_leads (same : input.lease = job.lease) (s : Store) :
    Goes setting worker s (.extracting job envelope)
      (extractSnapshot setting.host (setting.processor worker) input job.row.id envelope s).1
      (resulting job
        (extractSnapshot setting.host (setting.processor worker) input job.row.id envelope s).2
        (prepared setting job envelope)) := by
  have beats := @beat_leads setting worker job envelope input.heartbeats s
  unfold extractSnapshot
  rw [same]
  generalize beat job.row.id job.lease input.heartbeats s = beaten at beats
  obtain ⟨s₁, result⟩ := beaten
  cases result with
  | error failure => exact beats
  | ok _ =>
      refine Goes.trans beats ?_
      have answers : Goes setting worker s₁ (.extracting job envelope) s₁
          (answerPhase (setting.processor worker) job envelope input.extraction) := by
        refine .of_step (.answer worker input.extraction) rfl rfl ?_
        rintro state ⟨rfl, here⟩
        simp only [advance, here]
        exact ⟨rfl, Function.update_self ..⟩
      dsimp only
      unfold answerPhase at answers
      cases extraction : input.extraction with
      | error code =>
          rw [extraction] at answers
          exact answers
      | ok proposals =>
          rw [extraction] at answers
          dsimp only at answers ⊢
          cases made : snapshotOf (setting.processor worker) proposals envelope with
          | error failure =>
              rw [made] at answers
              exact answers
          | ok document =>
              rw [made] at answers
              refine Goes.trans answers ?_
              dsimp only
              cases done : persistSnapshot.{0} setting.host job.row.id job.lease document s₁ with
              | error e =>
                  refine .of_step (.persist worker) rfl rfl ?_
                  rintro state ⟨rfl, here⟩
                  simp only [advance, here, done]
                  exact ⟨rfl, Function.update_self ..⟩
              | ok answer =>
                  refine .of_step (.persist worker) rfl rfl ?_
                  rintro state ⟨rfl, here⟩
                  simp only [advance, here, done]
                  exact ⟨rfl, Function.update_self ..⟩

/-- Opening the row, and its snapshot. -/
theorem jobSnapshot_leads (same : input.lease = job.lease)
    (decoded : decodeEnvelope job.row.payload = .ok envelope) (s : Store) :
    Goes setting worker s (.claimed job)
      (jobSnapshot setting.host (setting.processor worker) input job.row.id envelope s).1
      (resulting job
        (jobSnapshot setting.host (setting.processor worker) input job.row.id envelope s).2
        (prepared setting job envelope)) := by
  have loads : Goes setting worker s (.claimed job) s (loadPhase setting.host job s) := by
    refine .of_step (.load worker) rfl rfl ?_
    rintro state ⟨rfl, here⟩
    simp only [advance, here]
    exact ⟨rfl, Function.update_self ..⟩
  unfold loadPhase at loads
  rw [decoded] at loads
  dsimp only at loads
  unfold jobSnapshot
  rw [same]
  cases found : loadSnapshot job.row.id job.lease s with
  | error failure =>
      rw [found] at loads
      exact loads
  | ok snapshot =>
      rw [found] at loads
      cases snapshot with
      | some snapshot => exact loads
      | none => exact Goes.trans loads (extractSnapshot_leads same s)

/-- The writes of the rest of a batch. -/
theorem applyWrites_leads {batch : List Json} (rest : List Json) (index : Nat) (s : Store)
    (split : batch.drop index = rest) :
    Goes setting worker s (.writing job envelope batch index)
      (applyWrites setting.host input envelope.context index rest s).store
      (resulting job (applyWrites setting.host input envelope.context index rest s).result
        fun _ => .writing job envelope batch (index + rest.length)) := by
  induction rest generalizing index s with
  | nil => exact .refl _ _
  | cons params rest ih =>
      have issued : batch[index]? = some params := by
        rw [← List.head?_drop, split]
        rfl
      have later : batch.drop (index + 1) = rest := by
        rw [← List.tail_drop, split]
        rfl
      rw [applyWrites]
      cases done : handleWrite setting.host input.service (input.writeTick index) envelope.context
        params s with
      | error e =>
          refine .of_step (.write worker input.service (input.writeTick index)) rfl rfl ?_
          rintro state ⟨rfl, here⟩
          simp only [advance, here, issued, done]
          exact ⟨rfl, Function.update_self ..⟩
      | ok answer =>
          obtain ⟨next, outcome⟩ := answer
          dsimp only
          by_cases refused : outcome.outcome.Refuses
          · rw [if_pos refused]
            refine .of_step (.write worker input.service (input.writeTick index)) rfl rfl ?_
            rintro state ⟨rfl, here⟩
            simp only [advance, here, issued, done, if_pos refused]
            exact ⟨rfl, Function.update_self ..⟩
          · rw [if_neg refused]
            dsimp only
            have writes : Goes setting worker s (.writing job envelope batch index) next
                (.writing job envelope batch (index + 1)) := by
              refine .of_step (.write worker input.service (input.writeTick index)) rfl rfl ?_
              rintro state ⟨rfl, here⟩
              simp only [advance, here, issued, done, if_neg refused]
              exact ⟨rfl, Function.update_self ..⟩
            have goes := ih (index + 1) next later
            rw [Nat.add_assoc, Nat.add_comm 1] at goes
            exact writes.trans goes

/-! ## One job -/

/-- A run of the worker from the phase leaves it free. -/
def Ends (setting : Setting) (worker : Nat) (s : Store) (phase : Phase) (s' : Store) : Prop :=
  ∀ state, At worker state s phase →
    ∃ state', Leads setting worker state state' ∧ state'.store = s' ∧ state'.workers worker = none

theorem Goes.ends {s'' : Store} {phase phase' : Phase} (goes : Goes setting worker s phase s' phase')
    (ends : Ends setting worker s' phase' s'') : Ends setting worker s phase s'' := by
  intro state here
  obtain ⟨state', leads, there⟩ := goes state here
  obtain ⟨state'', leads', free⟩ := ends state' there
  exact ⟨state'', leads.trans leads', free⟩

/-- A job completes its row, or has a failure to record. -/
def Finishes (setting : Setting) (worker : Nat) (job : Claim) (s : Store) (left : JobState Unit) :
    Prop :=
  match left.result with
  | .ok _ => Ends setting worker s (.claimed job) left.store
  | .error failure => Goes setting worker s (.claimed job) left.store (.failing job failure)

theorem runJob_leads (same : input.lease = job.lease) (s : Store) :
    Finishes setting worker job s
      (runJob setting.host (setting.processor worker) input job.row s) := by
  unfold runJob
  cases decoded : decodeEnvelope job.row.payload with
  | error failure =>
      refine .of_step (.load worker) rfl rfl ?_
      rintro state ⟨rfl, here⟩
      simp only [advance, here, loadPhase, decoded]
      exact ⟨rfl, Function.update_self ..⟩
  | ok envelope =>
      have snapshot := @jobSnapshot_leads setting worker job envelope input same decoded s
      dsimp only
      generalize jobSnapshot setting.host (setting.processor worker) input job.row.id envelope s =
        found at snapshot
      obtain ⟨s₁, result⟩ := found
      cases result with
      | error failure => exact snapshot
      | ok pair =>
          obtain ⟨text, hash⟩ := pair
          dsimp only [resulting, prepared, preparePhase] at snapshot ⊢
          rw [show (⟨job.row.id, rowDigest setting.host job.row⟩ : RowIdentity) =
            job.identity setting.host from rfl]
          cases ready : prepareSnapshot setting.host text hash envelope (job.identity setting.host) with
          | error failure =>
              rw [ready] at snapshot
              exact snapshot
          | ok batch =>
              rw [ready] at snapshot
              have writes := @applyWrites_leads setting worker job envelope input batch batch 0 s₁ rfl
              dsimp only
              generalize applyWrites setting.host input envelope.context 0 batch s₁ = left at writes
              obtain ⟨store, written, result⟩ := left
              cases result with
              | error failure => exact snapshot.trans writes
              | ok _ =>
                  dsimp only [resulting] at writes ⊢
                  rw [Nat.zero_add] at writes
                  rw [same]
                  have reached := snapshot.trans writes
                  cases done : Model.complete.{0} job.row.id job.lease store with
                  | error e =>
                      refine reached.trans (.of_step (.complete worker) rfl rfl ?_)
                      rintro state ⟨rfl, here⟩
                      simp only [advance, here, Nat.le_refl, if_true, done]
                      exact ⟨rfl, Function.update_self ..⟩
                  | ok answer =>
                      refine reached.ends ?_
                      rintro state ⟨rfl, here⟩
                      refine ⟨_, .step (.complete worker) rfl rfl, ?_⟩
                      simp only [advance, here, Nat.le_refl, if_true, done]
                      exact ⟨trivial, Function.update_self ..⟩

/-! ## One call -/

/-- A worker that records a failure is free, whether it still holds the row or not. -/
theorem fail_ends (s : Store) (failure : Failure) (retryAt : Decimal) :
    Ends setting worker s (.failing job failure)
      (commit s (Model.fail (setting.processor worker).maxAttempts job.row.id job.lease
        failure.safeErrorCode failure.Permanent retryAt s)) := by
  rintro state ⟨rfl, here⟩
  refine ⟨_, .step (.fail worker retryAt) rfl rfl, ?_⟩
  simp only [advance, here]
  exact ⟨trivial, Function.update_self ..⟩

/-- A worker's own steps leave the other workers alone. -/
theorem run_others {actions : List Action}
    (own : ∀ action ∈ actions, workerOf action = some worker) {other : Nat} (apart : other ≠ worker) :
    (run (advance setting) actions state).workers other = state.workers other := by
  induction actions generalizing state with
  | nil => rfl
  | cons action later ih =>
      have head := own action List.mem_cons_self
      rw [run_cons, ih fun action mem => own action (List.mem_cons_of_mem _ mem)]
      have effect := advance_effect setting action state
      generalize advance setting action state = after at effect
      cases effect with
      | idles | searches | renews => rfl
      | calls => cases head
      | shifts own | leaves own =>
          cases own.symm.trans head
          exact Function.update_of_ne apart ..
      | claims | persists | writeRaises | writes | completes | records =>
          cases head
          exact Function.update_of_ne apart ..

/-- A call of `process_one` by a free worker takes the store where some run of its own steps takes
it, with one claim. -/
theorem processOne_runs (free : state.workers worker = none) :
    ∃ actions, (∀ action ∈ actions, workerOf action = some worker) ∧
      actions.filterMap claimToken = [input.lease.token] ∧
      (run (advance setting) actions state).store =
        (processOne setting.host (setting.processor worker) input state.store).1 ∧
      (run (advance setting) actions state).workers worker = none ∧
      ∀ other, other ≠ worker →
        (run (advance setting) actions state).workers other = state.workers other := by
  have joined : ∀ {after s'}, (advance setting
        (.claim worker input.lease input.claimedAt input.leaseUntil) state) = after →
      (∃ state', Leads setting worker after state' ∧ state'.store = s' ∧
        state'.workers worker = none) →
      ∃ actions, (∀ action ∈ actions, workerOf action = some worker) ∧
        actions.filterMap claimToken = [input.lease.token] ∧
        (run (advance setting) actions state).store = s' ∧
        (run (advance setting) actions state).workers worker = none ∧
        ∀ other, other ≠ worker →
          (run (advance setting) actions state).workers other = state.workers other := by
    rintro after s' rfl ⟨state', ⟨actions, own, rfl⟩, store, idle⟩
    have all : ∀ action ∈ Action.claim worker input.lease input.claimedAt input.leaseUntil :: actions,
        workerOf action = some worker := by
      intro action mem
      rcases List.mem_cons.1 mem with rfl | later
      · rfl
      · exact (own action later).1
    refine ⟨_, all, ?_, store, idle, fun other apart => run_others all apart⟩
    rw [List.filterMap_cons_some (by rfl : claimToken _ = some input.lease.token)]
    rw [List.filterMap_eq_nil_iff.2 fun action mem => (own action mem).2]
  unfold processOne
  cases done : Model.claim (setting.processor worker).maxAttempts input.lease input.claimedAt
    input.leaseUntil state.store with
  | error e =>
      refine joined ?_ ⟨state, .refl, rfl, free⟩
      simp only [advance, free, done]
  | ok answer =>
      obtain ⟨s, claimed⟩ := answer
      cases claimed with
      | none =>
          refine joined ?_ ⟨{ state with store := s }, .refl, rfl, free⟩
          simp only [advance, free, done]
      | some row =>
          have claims : advance setting (.claim worker input.lease input.claimedAt input.leaseUntil)
              state = { state.setWorker worker (some (.claimed ⟨row, input.lease⟩)) with
                store := s, claims := ⟨row, input.lease⟩ :: state.claims } := by
            simp only [advance, free, done]
          have here : At worker { state.setWorker worker (some (.claimed ⟨row, input.lease⟩)) with
              store := s, claims := ⟨row, input.lease⟩ :: state.claims } s
              (.claimed ⟨row, input.lease⟩) := ⟨rfl, Function.update_self ..⟩
          refine joined claims ?_
          have finishes := @runJob_leads setting worker ⟨row, input.lease⟩ input rfl s
          dsimp only at finishes ⊢
          generalize runJob setting.host (setting.processor worker) input row s = left at finishes
          obtain ⟨store, written, result⟩ := left
          cases result with
          | ok _ => exact finishes _ here
          | error failure =>
              obtain ⟨state', leads, ended⟩ := finishes.ends (fail_ends store failure input.retryAt) _ here
              refine ⟨state', leads, ended.1.trans ?_, ended.2⟩
              dsimp only
              cases Model.fail (setting.processor worker).maxAttempts row.id input.lease
                failure.safeErrorCode failure.Permanent input.retryAt store with
              | error e => rfl
              | ok answer => rfl

end

/-- The sample envelope is queued. -/
def queuedState : State := advance sampleSetting (.call ReenqueueSample.enqueue) .initial

theorem queued_processOne_runs :
    ∃ actions, (∀ action ∈ actions, workerOf action = some 0) ∧
      actions.filterMap claimToken = [(ReenqueueSample.inputOf [ScreenSample.plain]).lease.token] ∧
      (run (advance sampleSetting) actions queuedState).store =
        (processOne sampleSetting.host (sampleSetting.processor 0)
          (ReenqueueSample.inputOf [ScreenSample.plain]) queuedState.store).1 ∧
      (run (advance sampleSetting) actions queuedState).workers 0 = none ∧
      ∀ other, other ≠ 0 →
        (run (advance sampleSetting) actions queuedState).workers other =
          queuedState.workers other :=
  processOne_runs rfl

end Enfold.Laws.ExtractionSystem
