/-
# Laws.ExtractionAttempts -- leases and attempts of queued rows

The lease columns of a row are set exactly while it is processed, and its attempts count the claims
that were made of it (`queue_sound`).  A claim asks for an attempt that is left, so no row is
claimed more often than the workers are configured for, however often they crash.  A dead row is
final (`dead_stays`).
-/
import Enfold.Laws.ExactlyOnce

namespace Enfold.Laws.ExtractionSystem

open Enfold.Theory Enfold.Model Enfold.Model.ExtractionSystem

set_option autoImplicit false

section

variable {host : Host} {setting : Setting} {state state' : State} {action : Action} {q q' : QueueRow}

/-! ## Leases -/

/-- The lease columns are set while the row is processed, and clear otherwise. -/
def LeaseSound (q : QueueRow) : Prop :=
  (q.status = .processing ∧ q.leaseOwner ≠ none ∧ q.leaseUntil ≠ none ∧ q.leaseToken ≠ none) ∨
    q.status ≠ .processing ∧ q.leaseOwner = none ∧ q.leaseUntil = none ∧ q.leaseToken = none

theorem LeaseSound.of_new {s : Store} (new : NewRow s q) : LeaseSound q :=
  .inr ⟨by rw [new.pending]; simp, new.unleased⟩

theorem RowMove.leaseSound (move : RowMove host state action q q') (sound : LeaseSound q) :
    LeaseSound q' := by
  cases move with
  | passes => exact sound
  | erases =>
      unfold erasedQueueRow
      split <;> exact sound
  | buries => exact .inr ⟨by simp [buriedRow], rfl, rfl, rfl⟩
  | leases => exact .inl ⟨rfl, by simp [leasedRow], by simp [leasedRow], by simp [leasedRow]⟩
  | renews holds =>
      obtain ⟨phase, -, -, processing, owner, token⟩ := holds
      exact .inl ⟨processing, by simp [renewedRow, owner], by simp [renewedRow],
        by simp [renewedRow, token]⟩
  | snapshots => exact sound
  | fails errorCode dead =>
      refine .inr ⟨?_, rfl, rfl, rfl⟩
      unfold failedRow
      dsimp only
      split <;> simp

/-! ## Attempts -/

/-- How often the row was claimed. -/
def claimCount (state : State) (id : Nat) : Nat :=
  state.claims.countP fun job => job.row.id = id

structure QueueSound (limit : Nat) (state : State) : Prop where
  leased : ∀ q ∈ state.store.extractQueue, LeaseSound q
  /-- The attempts of a row are its claims. -/
  attempts : ∀ q ∈ state.store.extractQueue, q.attempts = claimCount state q.id
  few : ∀ id, claimCount state id ≤ limit

theorem queueSound_initial (limit : Nat) : QueueSound limit .initial :=
  ⟨fun q mem => absurd mem (Table.not_mem_empty q), fun q mem => absurd mem (Table.not_mem_empty q),
    fun _ => Nat.zero_le limit⟩

/-- A new row has never been claimed. -/
theorem claimCount_new (agree : ClaimsAgree state) (new : NewRow state.store q) :
    claimCount state q.id = 0 := by
  refine List.countP_eq_zero.2 fun job mem => ?_
  have below := agree.bounded job mem
  have above := new.id
  simp only [decide_eq_true_eq]
  omega

/-- A step that claims nothing keeps the count. -/
theorem queueSound_kept {limit : Nat} (agree : ClaimsAgree state)
    (queue : QueueStep host state action state'.store)
    (counted : ∀ q q', RowMove host state action q q' → q ∈ state.store.extractQueue →
      q' ∈ state'.store.extractQueue → q'.attempts = q.attempts)
    (same : state'.claims = state.claims) (sound : QueueSound limit state) :
    QueueSound limit state' := by
  have count : ∀ id, claimCount state' id = claimCount state id := by
    intro id
    unfold claimCount
    rw [same]
  refine ⟨fun q' mem => ?_, fun q' mem => ?_, fun id => by rw [count]; exact sound.few id⟩
  · rcases queue.origin q' mem with new | ⟨q, old, move⟩
    · exact .of_new new
    · exact move.leaseSound (sound.leased q old)
  · rw [count]
    rcases queue.origin q' mem with new | ⟨q, old, move⟩
    · rw [new.attempts, claimCount_new agree new]
    · rw [counted q q' move old mem, move.id]
      exact sound.attempts q old

/-- A step keeps the count of claims: a claimed row has an attempt left, so it is no row that the claim
buries. -/
theorem queueSound_step {limit : Nat} (within : ∀ worker, (setting.processor worker).maxAttempts ≤ limit)
    (admitted : Admitted action state) (effect : StepEffect setting state action state')
    (agree : ClaimsAgree state) (sound : QueueSound limit state) : QueueSound limit state' := by
  have queue := effect_queue admitted effect
  have others : (∀ worker lease now leaseUntil, action ≠ .claim worker lease now leaseUntil) →
      state'.claims = state.claims → QueueSound limit state' := by
    intro working same
    refine queueSound_kept agree queue (fun q q' move _ _ => ?_) same sound
    rcases move.attempts with ⟨worker, lease, now, leaseUntil, claims⟩ | kept
    · exact absurd claims (working worker lease now leaseUntil)
    · exact kept
  cases effect with
  | idles => exact sound
  | shifts own here shift | leaves own => exact ⟨sound.leased, sound.attempts, sound.few⟩
  | searches done =>
      obtain ⟨g, maps, moves⟩ := (claim_effect done).moves
      refine queueSound_kept agree queue (fun q q' move old mem => ?_) rfl sound
      obtain ⟨r, oldR, rfl⟩ := (maps q').1 mem
      have moveR := moves r oldR
      obtain rfl : r = q := by
        refine Table.eq_of_key oldR old ?_
        exact (claimMove_id moveR).symm.trans move.id
      generalize g r = r' at moveR
      cases moveR with
      | buries => rfl
      | leases here => cases here
      | passes => rfl
  | @claims worker lease now leaseUntil store row free done =>
      have effect := claim_effect done
      obtain ⟨g, maps, moves⟩ := effect.moves
      obtain ⟨queued, -, few, -⟩ := effect.leased row rfl
      have count : ∀ id, claimCount
          { state.setWorker worker (some (.claimed ⟨row, lease⟩)) with
            store, claims := ⟨row, lease⟩ :: state.claims } id =
          claimCount state id + if row.id = id then 1 else 0 := by
        intro id
        unfold claimCount
        rw [List.countP_cons]
        simp
      refine ⟨fun q' mem => ?_, fun q' mem => ?_, fun id => ?_⟩
      · rcases queue.origin q' mem with new | ⟨q, old, move⟩
        · exact .of_new new
        · exact move.leaseSound (sound.leased q old)
      · rw [count]
        obtain ⟨q, old, rfl⟩ := (maps q').1 mem
        have move := moves q old
        have id := claimMove_id move
        rw [id]
        have before := sound.attempts q old
        generalize g q = q' at move
        cases move with
        | leases here =>
            cases here
            rw [if_pos rfl, ← before]
            rfl
        | buries expired exhausted =>
            have other : row.id ≠ q.id := by
              intro same
              rw [Table.eq_of_key queued old same] at few
              exact absurd few (Nat.not_lt.2 exhausted)
            rw [if_neg other]
            exact before
        | passes other =>
            rw [if_neg (other row rfl)]
            exact before
      · rw [count]
        split
        · rename_i here
          rw [← here, ← sound.attempts row queued]
          exact few.trans_le (within worker)
        · exact sound.few id
  | calls | renews | persists | writeRaises | writes | completes | records =>
      exact others (fun _ _ _ _ => by simp) rfl

theorem queueSound_reached {limit : Nat}
    (within : ∀ worker, (setting.processor worker).maxAttempts ≤ limit)
    (reached : Reachable (advance setting) Admitted .initial state) : QueueSound limit state := by
  have all : QueueSound limit state ∧ ClaimsAgree state ∧
      Reached setting.host (fun _ _ => True) state.store := by
    refine reached.induction (P := fun state : State => QueueSound limit state ∧ ClaimsAgree state ∧
      Reached setting.host (fun _ _ => True) state.store)
      ⟨queueSound_initial limit, claimsAgree_initial, .refl⟩ ?_
    rintro action state admitted ⟨sound, agree, reached⟩
    have effect := advance_effect setting action state
    exact ⟨queueSound_step within admitted effect agree sound,
      claimsAgree_step admitted effect (ids_bounded reached) agree, effect_reached effect reached⟩
  exact all.1

/-- In every reachable state a row is leased exactly while it is processed, its attempts are the
claims that were made of it, and no row was claimed more often than any worker allows. -/
theorem queue_sound {limit : Nat} (within : ∀ worker, (setting.processor worker).maxAttempts ≤ limit)
    (reached : Reachable (advance setting) Admitted .initial state) :
    (∀ q ∈ state.store.extractQueue, LeaseSound q ∧ q.attempts = claimCount state q.id) ∧
      ∀ id, claimCount state id ≤ limit := by
  have sound := queueSound_reached within reached
  exact ⟨fun q mem => ⟨sound.leased q mem, sound.attempts q mem⟩, sound.few⟩

/-! ## Dead rows -/

/-- A dead row with this id and this number of attempts. -/
def DeadRow (id attempts : Nat) (state : State) : Prop :=
  ∃ q ∈ state.store.extractQueue, q.id = id ∧ q.status = .dead ∧ q.attempts = attempts

theorem deadRow_step {id attempts : Nat} (admitted : Admitted action state)
    (effect : StepEffect setting state action state') (dead : DeadRow id attempts state) :
    DeadRow id attempts state' := by
  obtain ⟨q, mem, here, status, count⟩ := dead
  have unheld : ∀ lease, ¬ q.HeldBy lease := by
    rintro lease ⟨processing, -⟩
    rw [status] at processing
    cases processing
  have unexpired : ∀ now, ¬ q.Expired now := by
    rintro now ⟨processing, -⟩
    rw [status] at processing
    cases processing
  rcases (effect_queue admitted effect).stays q mem with ⟨q', mem', move⟩ | completes
  · refine ⟨q', mem', move.id.trans here, ?_⟩
    cases move with
    | passes => exact ⟨status, count⟩
    | erases =>
        unfold erasedQueueRow
        split <;> exact ⟨status, count⟩
    | buries expired => exact absurd expired (unexpired _)
    | leases due =>
        rcases due with pending | expired
        · rw [status] at pending
          cases pending
        · exact absurd expired (unexpired _)
    | renews holds | snapshots document holds | fails errorCode dead holds =>
        obtain ⟨phase, -, -, held⟩ := holds
        exact absurd held (unheld _)
  · obtain ⟨_, _, _, _, _, -, -, -, -, held⟩ := completes
    exact absurd held (unheld _)

/-- Whatever is done, a dead row stays in the queue, dead, and is never claimed again. -/
theorem dead_stays {limit : Nat} (within : ∀ worker, (setting.processor worker).maxAttempts ≤ limit)
    (reached : Reachable (advance setting) Admitted .initial state) {actions : List Action}
    (admitted : Admits (advance setting) Admitted actions state) (mem : q ∈ state.store.extractQueue)
    (dead : q.status = .dead) :
    (∃ q' ∈ (run (advance setting) actions state).store.extractQueue, q'.id = q.id ∧
        q'.status = .dead) ∧
      claimCount (run (advance setting) actions state) q.id = claimCount state q.id := by
  have after : Reachable (advance setting) Admitted .initial (run (advance setting) actions state) := by
    obtain ⟨before, first, rfl⟩ := reached
    exact ⟨before ++ actions, first.append admitted, run_append _ _ _ _⟩
  obtain ⟨q', mem', same, dead', count⟩ := run_induction
    (P := DeadRow q.id (claimCount state q.id))
    (fun action state admitted => deadRow_step admitted (advance_effect setting action state))
    ⟨q, mem, rfl, dead, (queueSound_reached within reached).attempts q mem⟩ admitted
  have counted := (queueSound_reached within after).attempts q' mem'
  rw [count, same] at counted
  exact ⟨⟨q', mem', same, dead'⟩, counted.symm⟩

end

/-! ## A row that is taken over, and one that dies -/

theorem takeover_sound :
    (∀ q ∈ (run (advance sampleSetting) takeover .initial).store.extractQueue,
        LeaseSound q ∧
          q.attempts = claimCount (run (advance sampleSetting) takeover .initial) q.id) ∧
      ∀ id, claimCount (run (advance sampleSetting) takeover .initial) id ≤ 3 :=
  queue_sound (fun _ => Nat.le_refl 3) takeover_reached

/-- Workers that try once. -/
def onceSetting : Setting :=
  ⟨ReenqueueSample.hostOf [], fun _ =>
    { sampleProcessor with maxAttempts := 1, attemptsPositive := Nat.one_pos }⟩

/-- The one attempt is interrupted. -/
def interrupted : List Action :=
  [.call ReenqueueSample.enqueue, .claim 0 ⟨"worker-0", "first"⟩ .zero .half,
    .interrupt 0 (runtimeError "database is locked"), .fail 0 .one]

/-- Another worker looks for work afterwards. -/
def search : List Action := [.claim 1 ⟨"worker-1", "second"⟩ .one .one]

theorem interrupted_admitted :
    Admits (advance onceSetting) Admitted (interrupted ++ search) .initial := by
  refine admits_of_tokens ?_ ?_ fun _ mem => absurd mem List.not_mem_nil
  · intro op mem
    obtain rfl : op = ReenqueueSample.enqueue := by
      simpa [interrupted, search] using mem
    exact id
  · show ["first", "second"].Nodup
    decide

theorem interrupted_dead :
    (run (advance onceSetting) interrupted .initial).store.extractQueue.rows.any
      (fun q => q.status = .dead) = true := by
  have queued : advance onceSetting (.call ReenqueueSample.enqueue) .initial =
      { State.initial with
        store := ReenqueueSample.holding (ReenqueueSample.queuedRow 1) Store.empty } := by
    rw [advance, show (Model.step onceSetting.host ReenqueueSample.enqueue State.initial.store) = _
      from ReenqueueSample.enqueue_holding [] rfl]
    rfl
  rw [interrupted, run_cons, queued]
  rfl

theorem interrupted_row_stays :
    ∃ q ∈ (run (advance onceSetting) interrupted .initial).store.extractQueue,
      (∃ q' ∈ (run (advance onceSetting) search
          (run (advance onceSetting) interrupted .initial)).store.extractQueue,
        q'.id = q.id ∧ q'.status = .dead) ∧
      claimCount (run (advance onceSetting) search
          (run (advance onceSetting) interrupted .initial)) q.id =
        claimCount (run (advance onceSetting) interrupted .initial) q.id := by
  obtain ⟨q, mem, dead⟩ := List.any_eq_true.1 interrupted_dead
  obtain ⟨first, second⟩ := interrupted_admitted.split
  exact ⟨q, mem, dead_stays (fun _ => Nat.le_refl 1) ⟨interrupted, first, rfl⟩ second mem
    (of_decide_eq_true dead)⟩

end Enfold.Laws.ExtractionSystem
