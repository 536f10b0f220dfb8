/-
# Laws.Workers -- how a supervised worker stops

* `late_call`: whatever the order of steps, at most one call begins after the stop flag is set;
* `worker_stops`: once the flag is set the thread takes at most five more steps of its own, and
  until it has ended it can take the next one as soon as its call returns or raises.
-/
import Enfold.Model.Workers
import Enfold.Theory.Run

namespace Enfold.Laws.Workers

open Enfold.Theory Enfold.Model Enfold.Model.SupervisedWorker

set_option autoImplicit false

variable {R : Type} {worker : SupervisedWorker R} {state : State} {action : Action R}

/-! ## Calls after the stop -/

/-- The thread has tested the flag and is about to call. -/
def Phase.aboutToCall : Phase → Nat
  | .ready _ => 1
  | _ => 0

/-- A late call has begun, or can still begin, at most once; and none before the flag is set. -/
structure Bounded (state : State) : Prop where
  before : state.stopping = false → state.late = 0
  after : state.late + Phase.aboutToCall state.phase ≤ 1

theorem bounded_runStep {now : Nat} (bounded : Bounded state) :
    Bounded (worker.runStep now state) := by
  obtain ⟨before, after⟩ := bounded
  obtain ⟨phase, stopping, heartbeat, lastSuccess, lastError, late⟩ := state
  dsimp only at before after
  cases stopping with
  | false =>
      have none : late = 0 := before rfl
      cases phase with
      | drain left =>
          cases left with
          | zero => exact ⟨fun _ => none, by simp [runStep, none, Phase.aboutToCall]⟩
          | succ left => exact ⟨fun _ => none, by simp [runStep, none, Phase.aboutToCall]⟩
      | notStarted | loop | ready left | calling left | waiting | ended =>
          exact ⟨fun _ => none, by simp [runStep, none, Phase.aboutToCall]⟩
  | true =>
      have impossible : ∀ {P : Prop}, true = false → P := fun absurdity => by cases absurdity
      cases phase with
      | drain left =>
          cases left with
          | zero => exact ⟨impossible, after⟩
          | succ left => exact ⟨impossible, after⟩
      | ready left =>
          refine ⟨impossible, ?_⟩
          have none : late = 0 := by
            simp only [Phase.aboutToCall] at after
            omega
          simp [runStep, none, Phase.aboutToCall]
      | notStarted | loop | calling left | waiting | ended => exact ⟨impossible, after⟩

theorem bounded_step (bounded : Bounded state) : Bounded (worker.advance action state) := by
  cases action with
  | run now => exact bounded_runStep bounded
  | start =>
      unfold advance
      dsimp only
      split
      · next unstarted =>
        have after := bounded.after
        rw [unstarted] at after
        exact ⟨bounded.before, after⟩
      · exact bounded
  | stop =>
      refine ⟨?_, bounded.after⟩
      intro running
      cases running
  | returns result now =>
      unfold advance
      dsimp only
      split
      · next left calling =>
        have after := bounded.after
        rw [calling] at after
        refine ⟨bounded.before, ?_⟩
        dsimp only [recorded]
        split <;> exact after
      · exact bounded
  | raises className =>
      unfold advance
      dsimp only
      split
      · next left calling =>
        have after := bounded.after
        rw [calling] at after
        exact ⟨bounded.before, after⟩
      · exact bounded

/-- At most one call begins after the flag is set. -/
theorem late_call {ok : Action R → State → Prop}
    (reached : Reachable worker.advance ok .initial state) : state.late ≤ 1 := by
  have start : Bounded .initial := ⟨fun _ => rfl, Nat.zero_le 1⟩
  have bounded := (reached.induction start fun _ _ _ => bounded_step).after
  omega

/-! ## The end of the thread -/

/-- The steps of its own that the thread takes at most while the flag is set. -/
def Phase.remaining : Phase → Nat
  | .notStarted | .ended => 0
  | .loop => 1
  | .waiting => 2
  | .drain _ => 3
  | .calling _ => 4
  | .ready _ => 5

/-- The action is a step of the thread where it stands. -/
def own : Action R → State → Bool
  | .run _, state =>
      match state.phase with
      | .loop | .drain _ | .ready _ | .waiting => true
      | _ => false
  | .returns .., state | .raises _, state =>
      match state.phase with
      | .calling _ => true
      | _ => false
  | .start, _ | .stop, _ => false

/-- How many actions of a run are steps of the thread. -/
def taken (worker : SupervisedWorker R) : List (Action R) → State → Nat
  | [], _ => 0
  | action :: rest, state =>
      (own action state).toNat + taken worker rest (worker.advance action state)

/-- Started, and told to stop. -/
structure Stopping (state : State) : Prop where
  started : state.phase ≠ .notStarted
  flag : state.stopping = true

theorem stopping_step (stopping : Stopping state) :
    Stopping (worker.advance action state) ∧
      Phase.remaining (worker.advance action state).phase + (own action state).toNat ≤
        Phase.remaining state.phase := by
  obtain ⟨started, flag⟩ := stopping
  obtain ⟨phase, stop, heartbeat, lastSuccess, lastError, late⟩ := state
  dsimp only at started flag
  subst flag
  cases action with
  | start =>
      cases phase with
      | notStarted => exact absurd rfl started
      | loop | drain left | ready left | calling left | waiting | ended =>
          exact ⟨⟨started, rfl⟩, Nat.le_refl _⟩
  | stop => exact ⟨⟨started, rfl⟩, Nat.le_refl _⟩
  | run now =>
      cases phase with
      | notStarted => exact absurd rfl started
      | drain left =>
          cases left with
          | zero => exact ⟨⟨by simp [advance, runStep], rfl⟩, Nat.le_refl _⟩
          | succ left => exact ⟨⟨by simp [advance, runStep], rfl⟩, Nat.le_refl _⟩
      | loop | ready left | calling left | waiting | ended =>
          exact ⟨⟨by simp [advance, runStep], rfl⟩, Nat.le_refl _⟩
  | returns result now =>
      cases phase with
      | notStarted => exact absurd rfl started
      | calling left =>
          simp only [advance, recorded, own, Bool.toNat_true]
          split
          · exact ⟨⟨by simp, rfl⟩, by simp [Phase.remaining]⟩
          · exact ⟨⟨by simp, rfl⟩, by simp [Phase.remaining]⟩
      | loop | drain left | ready left | waiting | ended => exact ⟨⟨started, rfl⟩, Nat.le_refl _⟩
  | raises className =>
      cases phase with
      | notStarted => exact absurd rfl started
      | calling left => exact ⟨⟨by simp [advance], rfl⟩, by simp [advance, own, Phase.remaining]⟩
      | loop | drain left | ready left | waiting | ended => exact ⟨⟨started, rfl⟩, Nat.le_refl _⟩

theorem stopping_run (stopping : Stopping state) (actions : List (Action R)) :
    Stopping (run worker.advance actions state) ∧
      Phase.remaining (run worker.advance actions state).phase + taken worker actions state ≤
        Phase.remaining state.phase := by
  induction actions generalizing state with
  | nil => exact ⟨stopping, Nat.le_refl _⟩
  | cons action rest ih =>
      obtain ⟨next, one⟩ := @stopping_step R worker state action stopping
      obtain ⟨last, others⟩ := ih next
      refine ⟨last, ?_⟩
      rw [run_cons, taken]
      omega

theorem remaining_le (phase : Phase) : Phase.remaining phase ≤ 5 := by
  cases phase <;> simp [Phase.remaining]

/-- Once a started thread is told to stop it takes at most five more steps, calls included; and
wherever it stands it has ended, or can take the next step itself, or waits for a call. -/
theorem worker_stops (started : state.phase ≠ .notStarted) (flag : state.stopping = true)
    (actions : List (Action R)) :
    taken worker actions state ≤ 5 ∧
      ((run worker.advance actions state).phase = .ended ∨
        (∀ now, own (.run now : Action R) (run worker.advance actions state) = true) ∨
        ∃ left, (run worker.advance actions state).phase = .calling left) := by
  obtain ⟨last, few⟩ := @stopping_run R worker state ⟨started, flag⟩ actions
  have most := remaining_le state.phase
  refine ⟨by omega, ?_⟩
  have begun := last.started
  cases phase : (run worker.advance actions state).phase with
  | notStarted => exact absurd phase begun
  | ended => exact .inl rfl
  | calling left => exact .inr (.inr ⟨left, rfl⟩)
  | loop | drain left | ready left | waiting =>
      exact .inr (.inl fun now => by simp only [own, phase])

/-! ## A stop between the test and the call -/

theorem one_second : 0 < Decimal.one.value := by
  decide +kernel

theorem four_positive : (1 : Int) ≤ 4 := by
  decide

theorem eight_positive : (1 : Int) ≤ 8 := by
  decide

/-- The extraction worker with its defaults. -/
def extraction : SupervisedWorker ProcessResult :=
  ⟨4, four_positive, extractionVerdict, fun _ => "worker_failure", true⟩

theorem extraction_made : extractionWorker .one 4 = .ok extraction := by
  rw [extractionWorker, make, dif_pos four_positive, if_pos one_second]
  rfl

/-- The embedding worker with its defaults. -/
def embedding : SupervisedWorker (Option EmbeddingJobProcessor.Outcome × Bool) :=
  ⟨8, eight_positive, embeddingVerdict, id, false⟩

theorem embedding_made : embeddingWorker .one 8 = .ok embedding := by
  rw [embeddingWorker, make, dif_pos eight_positive, if_pos one_second]
  rfl

/-- The flag is set right after it was tested. -/
def overtaken (R : Type) : List (Action R) := [.start, .run 0, .run 1, .stop]

/-- The call begins, and the thread ends after it. -/
def lastCall {R : Type} (result : R) : List (Action R) :=
  [.run 2, .returns result 3, .run 4, .run 5]

theorem overtaken_late :
    extractionWorker .one 4 = .ok extraction ∧
      (run extraction.advance (overtaken _ ++ lastCall ⟨.idle, none, 0, 0, none⟩) .initial).late =
        1 ∧
      (run extraction.advance (overtaken _ ++ lastCall ⟨.idle, none, 0, 0, none⟩) .initial).late ≤
        1 :=
  ⟨extraction_made, by decide, late_call ⟨_, Admits.always _ _, rfl⟩⟩

theorem overtaken_stops :
    embeddingWorker .one 8 = .ok embedding ∧
      (run embedding.advance (overtaken _ ++ lastCall (none, true)) .initial).phase = .ended ∧
      taken embedding (lastCall (none, true)) (run embedding.advance (overtaken _) .initial) ≤ 5 :=
  ⟨embedding_made, by decide, (worker_stops (by decide) (by decide) (lastCall (none, true))).1⟩

end Enfold.Laws.Workers
