/-
# Laws.ExtractionSteps -- what one step of the extraction system does

`advance_effect` is the inversion of a step: one constructor of `StepEffect` for each thing that
can happen, with the store it leaves.  On the queue every step appends a row, rewrites rows in
place (`RowMove`) or deletes the row of a worker that completes it; on the log it loses nothing
(`effect_log`).  A step is an operation of the store, so it leads from a reachable store to one
(`effect_reached`).
-/
import Enfold.Laws.Reenqueueing
import Enfold.Model.ExtractionSystem

namespace Enfold.Laws.ExtractionSystem

open Enfold.Theory Enfold.Model Enfold.Model.ExtractionSystem

set_option autoImplicit false

/-! ## The inversion of a step -/

/-- A step inside a worker that leaves the store alone. -/
inductive Shift (setting : Setting) (s : Store) : Phase → Phase → Prop where
  | opens {job : Claim} {envelope : ExtractionEnvelope}
      (decoded : decodeEnvelope job.row.payload = .ok envelope)
      (bare : loadSnapshot job.row.id job.lease s = .ok none) :
      Shift setting s (.claimed job) (.extracting job envelope)
  | resumes {job : Claim} {envelope : ExtractionEnvelope} {text hash : String}
      {prepared : List Json} (decoded : decodeEnvelope job.row.payload = .ok envelope)
      (found : loadSnapshot job.row.id job.lease s = .ok (some (text, hash)))
      (ready : prepareSnapshot setting.host text hash envelope (job.identity setting.host) =
        .ok prepared) :
      Shift setting s (.claimed job) (.writing job envelope prepared 0)
  | answered {job : Claim} {envelope : ExtractionEnvelope} {document : Json}
      (made : ∃ processor proposals, snapshotOf processor proposals envelope = .ok document) :
      Shift setting s (.extracting job envelope) (.extracted job envelope document)
  | fails (phase : Phase) (failure : Failure) : Shift setting s phase (.failing phase.job failure)

/-- The worker whose step an action is. -/
def workerOf : Action → Option Nat
  | .call _ => none
  | .claim worker .. | .load worker | .beat worker .. | .answer worker _ | .persist worker
  | .write worker .. | .complete worker | .fail worker _ | .interrupt worker _ | .crash worker =>
      some worker

/-- What a step can do. -/
inductive StepEffect (setting : Setting) (state : State) : Action → State → Prop where
  | idles (action : Action) : StepEffect setting state action state
  | calls (op : Op) :
      StepEffect setting state (.call op)
        { state with store := Model.step setting.host op state.store }
  | searches {worker : Nat} {lease : Lease} {now leaseUntil : Decimal} {store : Store}
      (done : Model.claim (setting.processor worker).maxAttempts lease now leaseUntil state.store =
        .ok (store, none)) :
      StepEffect setting state (.claim worker lease now leaseUntil) { state with store }
  | claims {worker : Nat} {lease : Lease} {now leaseUntil : Decimal} {store : Store}
      {row : QueueRow} (free : state.workers worker = none)
      (done : Model.claim (setting.processor worker).maxAttempts lease now leaseUntil state.store =
        .ok (store, some row)) :
      StepEffect setting state (.claim worker lease now leaseUntil)
        { state.setWorker worker (some (.claimed ⟨row, lease⟩)) with
          store, claims := ⟨row, lease⟩ :: state.claims }
  | shifts {action : Action} {worker : Nat} {phase phase' : Phase}
      (own : workerOf action = some worker) (here : state.workers worker = some phase)
      (shift : Shift setting state.store phase phase') :
      StepEffect setting state action (state.setWorker worker (some phase'))
  | renews {worker : Nat} {now leaseUntil : Decimal} {job : Claim} {envelope : ExtractionEnvelope}
      {store : Store} {result : PUnit.{1}}
      (here : state.workers worker = some (.extracting job envelope))
      (done : renew job.row.id job.lease now leaseUntil state.store = .ok (store, result)) :
      StepEffect setting state (.beat worker now leaseUntil) { state with store }
  | persists {worker : Nat} {job : Claim} {envelope : ExtractionEnvelope} {document : Json}
      {store : Store} {result : PUnit.{1}}
      (here : state.workers worker = some (.extracted job envelope document))
      (done : persistSnapshot setting.host job.row.id job.lease document state.store =
        .ok (store, result)) :
      StepEffect setting state (.persist worker)
        { state.setWorker worker
            (some (preparePhase setting.host job envelope (Json.dumps .unicode document)
              (setting.host.sha256 (Json.dumps .unicode document)))) with
          store, persisted := (job.row.id, document) :: state.persisted }
  | writeRaises {worker : Nat} {service : MemoryWriteService} {tick : Tick} {job : Claim}
      {envelope : ExtractionEnvelope} {prepared : List Json} {index : Nat} {params : Json}
      {e : Raised} (here : state.workers worker = some (.writing job envelope prepared index))
      (issued : prepared[index]? = some params) :
      StepEffect setting state (.write worker service tick)
        { state.setWorker worker (some (.failing job (.raised e))) with
          writes := ⟨job, envelope, index, params, none⟩ :: state.writes }
  | writes {worker : Nat} {service : MemoryWriteService} {tick : Tick} {job : Claim}
      {envelope : ExtractionEnvelope} {prepared : List Json} {index : Nat} {params : Json}
      {store : Store} {outcome : WriteOutcome} {phase : Phase}
      (here : state.workers worker = some (.writing job envelope prepared index))
      (issued : prepared[index]? = some params)
      (done : handleWrite setting.host service tick envelope.context params state.store =
        .ok (store, outcome))
      (next : outcome.outcome.Refuses ∧ phase = .failing job (.permanent "write_policy_rejected") ∨
        ¬ outcome.outcome.Refuses ∧ phase = .writing job envelope prepared (index + 1)) :
      StepEffect setting state (.write worker service tick)
        { state.setWorker worker (some phase) with
          store, writes := ⟨job, envelope, index, params, some outcome⟩ :: state.writes }
  | completes {worker : Nat} {job : Claim} {envelope : ExtractionEnvelope} {prepared : List Json}
      {index : Nat} {store : Store} {result : PUnit.{1}}
      (here : state.workers worker = some (.writing job envelope prepared index))
      (all : prepared.length ≤ index)
      (done : Model.complete job.row.id job.lease state.store = .ok (store, result)) :
      StepEffect setting state (.complete worker) { state.setWorker worker none with store }
  | records {worker : Nat} {retryAt : Decimal} {job : Claim} {failure : Failure} {store : Store}
      {attempts : Nat} (here : state.workers worker = some (.failing job failure))
      (done : Model.fail (setting.processor worker).maxAttempts job.row.id job.lease
        failure.safeErrorCode failure.Permanent retryAt state.store = .ok (store, attempts)) :
      StepEffect setting state (.fail worker retryAt) { state.setWorker worker none with store }
  | leaves {action : Action} {worker : Nat} (own : workerOf action = some worker) :
      StepEffect setting state action (state.setWorker worker none)

theorem loadPhase_shift {setting : Setting} (job : Claim) (s : Store) :
    Shift setting s (.claimed job) (loadPhase setting.host job s) := by
  unfold loadPhase
  split
  · exact .fails (.claimed job) _
  · rename_i envelope decoded
    split
    · exact .fails (.claimed job) _
    · rename_i text hash found
      unfold preparePhase
      split
      · exact .fails (.claimed job) _
      · rename_i prepared ready
        exact .resumes decoded found ready
    · rename_i bare
      exact .opens decoded bare

theorem answerPhase_shift {setting : Setting} (processor : ExtractionProcessor) (job : Claim)
    (envelope : ExtractionEnvelope) (s : Store)
    (extraction : Except (Option String) (List ExtractedMemory)) :
    Shift setting s (.extracting job envelope) (answerPhase processor job envelope extraction) := by
  unfold answerPhase
  split
  · exact .fails (.extracting job envelope) _
  · rename_i proposals
    split
    · exact .fails (.extracting job envelope) _
    · rename_i document made
      exact .answered ⟨processor, proposals, made⟩

/-- Every step has one of the effects. -/
theorem advance_effect (setting : Setting) (action : Action) (state : State) :
    StepEffect setting state action (advance setting action state) := by
  have idle : StepEffect setting state action state := .idles action
  cases action with
  | call op => exact .calls op
  | claim worker lease now leaseUntil =>
      dsimp only [advance]
      split
      · exact idle
      · rename_i free
        split
        · exact idle
        · rename_i store done
          exact .searches done
        · rename_i store row done
          exact .claims free done
  | load worker =>
      dsimp only [advance]
      split
      · rename_i job here
        exact .shifts rfl here (loadPhase_shift job state.store)
      · exact idle
  | beat worker now leaseUntil =>
      dsimp only [advance]
      split
      · rename_i job envelope here
        split
        · exact .shifts rfl here (.fails _ _)
        · rename_i store result done
          exact .renews here done
      · exact idle
  | answer worker extraction =>
      dsimp only [advance]
      split
      · rename_i job envelope here
        exact .shifts rfl here (answerPhase_shift _ job envelope state.store extraction)
      · exact idle
  | persist worker =>
      dsimp only [advance]
      split
      · rename_i job envelope document here
        split
        · exact .shifts rfl here (.fails _ _)
        · rename_i store result done
          exact .persists here done
      · exact idle
  | write worker service tick =>
      dsimp only [advance]
      split
      · rename_i job envelope prepared index here
        split
        · exact idle
        · rename_i params issued
          split
          · exact .writeRaises here issued
          · rename_i store outcome done
            refine .writes here issued done ?_
            by_cases refused : outcome.outcome.Refuses
            · exact .inl ⟨refused, if_pos refused⟩
            · exact .inr ⟨refused, if_neg refused⟩
      · exact idle
  | complete worker =>
      dsimp only [advance]
      split
      · rename_i job envelope prepared index here
        split
        · rename_i all
          split
          · exact .shifts rfl here (.fails _ _)
          · rename_i store result done
            exact .completes here all done
        · exact idle
      · exact idle
  | fail worker retryAt =>
      dsimp only [advance]
      split
      · rename_i job failure here
        cases done : Model.fail (setting.processor worker).maxAttempts job.row.id job.lease
          failure.safeErrorCode failure.Permanent retryAt state.store with
        | error e => exact .leaves rfl
        | ok answer =>
            obtain ⟨store, attempts⟩ := answer
            exact .records here done
      · exact idle
  | interrupt worker e =>
      dsimp only [advance]
      split
      · rename_i phase here
        exact .shifts rfl here (.fails _ _)
      · exact idle
  | crash worker => exact .leaves rfl

/-! ## Steps are operations of the store -/

section Effects

variable {setting : Setting} {state state' : State} {action : Action}

theorem effect_op (effect : StepEffect setting state action state') :
    state'.store = state.store ∨ ∃ op, Model.step setting.host op state.store = state'.store := by
  cases effect with
  | idles | shifts | writeRaises | leaves => exact .inl rfl
  | calls op => exact .inr ⟨op, rfl⟩
  | @searches worker lease now leaseUntil store done =>
      refine .inr ⟨.claim (setting.processor worker).maxAttempts lease now leaseUntil, ?_⟩
      rw [Model.step, done]
      rfl
  | @claims worker lease now leaseUntil store row free done =>
      refine .inr ⟨.claim (setting.processor worker).maxAttempts lease now leaseUntil, ?_⟩
      rw [Model.step, done]
      rfl
  | @renews worker now leaseUntil job envelope store result here done =>
      refine .inr ⟨.renew job.row.id job.lease now leaseUntil, ?_⟩
      rw [Model.step, done]
      rfl
  | @persists worker job envelope document store result here done =>
      refine .inr ⟨.persistSnapshot job.row.id job.lease document, ?_⟩
      rw [Model.step, done]
      rfl
  | writes here issued done next =>
      obtain ⟨call, -, called⟩ := handleWrite_eq_ok done
      refine .inr ⟨.write call, ?_⟩
      rw [Model.step, called]
      rfl
  | @completes worker job envelope prepared index store result here all done =>
      refine .inr ⟨.complete job.row.id job.lease, ?_⟩
      rw [Model.step, done]
      rfl
  | @records worker retryAt job failure store attempts here done =>
      refine .inr ⟨.fail (setting.processor worker).maxAttempts job.row.id job.lease
        failure.safeErrorCode failure.Permanent retryAt, ?_⟩
      rw [Model.step, done]
      rfl

theorem effect_reached (effect : StepEffect setting state action state')
    (reached : Reached setting.host (fun _ _ => True) state.store) :
    Reached setting.host (fun _ _ => True) state'.store := by
  rcases effect_op effect with same | ⟨op, stepped⟩
  · rwa [same]
  · exact (Follows.of_step op stepped).reached reached

/-- Row ids are taken from the sequence, and never again. -/
theorem effect_ids (effect : StepEffect setting state action state') :
    IdsGrow state.store state'.store := by
  rcases effect_op effect with same | ⟨op, stepped⟩
  · exact .of_same (by rw [same]) (by rw [same])
  · rw [← stepped]
    exact step_ids setting.host op state.store

/-! ## The log -/

/-- The log has a row with the key and the outcome of `l`. -/
def Remains (l : WriteLogRow) (s : Store) : Prop :=
  ∃ l' ∈ s.writeLog, l'.clientId = l.clientId ∧ l'.idempotencyKey = l.idempotencyKey ∧
    l'.outcome = l.outcome

theorem Remains.of_kept {l : WriteLogRow} {s s' : Store} (remains : Remains l s)
    (log : ∀ l ∈ s.writeLog, l ∈ s'.writeLog) : Remains l s' := by
  obtain ⟨l', mem, same⟩ := remains
  exact ⟨l', log l' mem, same⟩

/-- No operation drops a key of the log or changes its outcome. -/
theorem step_remains (host : Host) (op : Op) {l : WriteLogRow} {s : Store} (remains : Remains l s) :
    Remains l (Model.step host op s) := by
  refine step_induction (P := Remains l) remains ?_ ?_ ?_ ?_
  · intro call s s' o done remains
    exact remains.of_kept (write_keeps_log done).1
  · intro call s s' o done remains
    have frame := (resolve_effect done).frame
    exact remains.of_kept fun l mem => by rw [frame]; exact mem
  · intro call s' o erases done
    obtain ⟨erased, insights, effect⟩ := erase_effect done
    obtain ⟨l', mem, client, key, outcome⟩ := remains
    refine ⟨_, effect.log.of_mem mem, ?_⟩
    rcases erasedLogRow_detail call.factId (linkedObservations s call.factId) erased.content l'
      with same | same <;>
    · rw [same]
      exact ⟨client, key, outcome⟩
  · intro s s' aside remains
    exact remains.of_kept fun l mem => by rw [aside.frame]; exact mem

theorem effect_log (effect : StepEffect setting state action state') :
    ∀ l ∈ state.store.writeLog, Remains l state'.store := by
  intro l mem
  have here : Remains l state.store := ⟨l, mem, rfl, rfl, rfl⟩
  rcases effect_op effect with same | ⟨op, stepped⟩
  · rwa [same]
  · rw [← stepped]
    exact step_remains setting.host op here

end Effects

/-! ## The rows of the queue -/

/-- The worker has a claim on the row, and the row is still held under its lease. -/
def Holds (state : State) (worker : Nat) (q : QueueRow) : Prop :=
  ∃ phase, state.workers worker = some phase ∧ phase.job.row.id = q.id ∧ q.HeldBy phase.job.lease

/-- What an action can do to a row that stays. -/
inductive RowMove (host : Host) (state : State) : Action → QueueRow → QueueRow → Prop where
  | passes (action : Action) (q : QueueRow) : RowMove host state action q q
  | erases (op : Op) (metadata : List Json) (original : String) (q : QueueRow) :
      RowMove host state (.call op) q (erasedQueueRow host metadata original q)
  | buries {worker : Nat} {lease : Lease} {now leaseUntil : Decimal} {q : QueueRow}
      (expired : q.Expired now) :
      RowMove host state (.claim worker lease now leaseUntil) q (buriedRow q)
  | leases {worker : Nat} {lease : Lease} {now leaseUntil : Decimal} {q : QueueRow}
      (due : q.status = .pending ∨ q.Expired now) :
      RowMove host state (.claim worker lease now leaseUntil) q (leasedRow lease leaseUntil q)
  | renews {worker : Nat} {now leaseUntil : Decimal} {q : QueueRow} (holds : Holds state worker q) :
      RowMove host state (.beat worker now leaseUntil) q (renewedRow leaseUntil q)
  | snapshots {worker : Nat} {q : QueueRow} (document : Json) (holds : Holds state worker q)
      (bare : q.proposalJson = none ∧ q.proposalHash = none) :
      RowMove host state (.persist worker) q (snapshotRow host document q)
  | fails {worker : Nat} {retryAt : Decimal} {q : QueueRow} (errorCode : String) (dead : Prop)
      [Decidable dead] (holds : Holds state worker q) :
      RowMove host state (.fail worker retryAt) q (failedRow errorCode dead retryAt q)

/-- The action completes the row: its worker holds it and has written its batch to the end. -/
def Completes (state : State) (action : Action) (q : QueueRow) : Prop :=
  ∃ worker job envelope prepared index, action = .complete worker ∧
    state.workers worker = some (.writing job envelope prepared index) ∧ prepared.length ≤ index ∧
    job.row.id = q.id ∧ q.HeldBy job.lease

/-- A queue before and after a step: every row is new or was moved, every row was moved or was
completed by the worker that holds it, and every new id is that of a row. -/
structure QueueStep (host : Host) (state : State) (action : Action) (s' : Store) : Prop where
  issued : ∀ id, state.store.queueSequence < id → id ≤ s'.queueSequence →
    ∃ q' ∈ s'.extractQueue, q'.id = id
  origin : ∀ q' ∈ s'.extractQueue, NewRow state.store q' ∨
    ∃ q ∈ state.store.extractQueue, RowMove host state action q q'
  stays : ∀ q ∈ state.store.extractQueue, (∃ q' ∈ s'.extractQueue, RowMove host state action q q') ∨
    Completes state action q

section Queue

variable {host : Host} {state : State} {action : Action} {s' : Store}

theorem QueueStep.of_same (same : s'.extractQueue = state.store.extractQueue)
    (sequence : s'.queueSequence = state.store.queueSequence) : QueueStep host state action s' where
  issued _ above below := absurd (below.trans sequence.le) (Nat.not_le.2 above)
  origin q mem := .inr ⟨q, same ▸ mem, .passes action q⟩
  stays q mem := .inl ⟨q, same ▸ mem, .passes action q⟩

theorem QueueStep.of_maps {g : QueueRow → QueueRow}
    (maps : Table.Maps state.store.extractQueue s'.extractQueue g)
    (moves : ∀ q ∈ state.store.extractQueue, RowMove host state action q (g q))
    (sequence : s'.queueSequence = state.store.queueSequence) : QueueStep host state action s' where
  issued _ above below := absurd (below.trans sequence.le) (Nat.not_le.2 above)
  origin q' mem := by
    obtain ⟨q, old, rfl⟩ := (maps q').1 mem
    exact .inr ⟨q, old, moves q old⟩
  stays q mem := .inl ⟨g q, maps.of_mem mem, moves q mem⟩

theorem QueueStep.of_edit {id : Nat} {lease : Lease} {f : QueueRow → QueueRow} {q : QueueRow}
    (edit : HeldEdit id lease f state.store s' q) (keeps : ∀ q, (f q).id = q.id)
    (move : RowMove host state action q (f q)) : QueueStep host state action s' where
  issued _ above below := by
    rw [edit.frame] at below
    exact absurd below (Nat.not_le.2 above)
  origin q' mem := by
    rcases (edit.patch q').1 mem with new | ⟨old, -⟩
    · obtain rfl := List.mem_singleton.1 new
      exact .inr ⟨q, edit.mem, move⟩
    · exact .inr ⟨q', old, .passes action q'⟩
  stays r mem := by
    by_cases same : r.id = q.id
    · obtain rfl := Table.eq_of_key mem edit.mem same
      exact .inl ⟨f r, edit.patch.of_mem List.mem_cons_self, move⟩
    · refine .inl ⟨r, (edit.patch r).2 (.inr ⟨mem, ?_⟩), .passes action r⟩
      simpa [keeps] using same

theorem QueueStep.of_claim {maxAttempts worker : Nat} {lease : Lease} {now leaseUntil : Decimal}
    {claimed : Option QueueRow}
    (effect : ClaimEffect maxAttempts lease now leaseUntil state.store s' claimed) :
    QueueStep host state (.claim worker lease now leaseUntil) s' := by
  obtain ⟨g, maps, moves⟩ := effect.moves
  refine .of_maps maps (fun q mem => ?_) (by rw [effect.frame])
  have move := moves q mem
  generalize g q = q' at move
  cases move with
  | buries expired exhausted => exact .buries expired
  | leases here => exact .leases (effect.leased q here).2.2.2
  | passes other => exact .passes _ q

/-- Calls of other clients append rows and erase payloads. -/
theorem call_queue {op : Op} (outside : ¬ WorkerCall op) :
    QueueStep host state (.call op) (Model.step host op state.store) := by
  have still : QueueStep host state (.call op) state.store := .of_same rfl rfl
  cases op with
  | write call =>
      refine commit_induction still fun s' o done => ?_
      obtain ⟨queue, sequence⟩ := write_queue done
      exact .of_same queue sequence
  | resolve call =>
      refine commit_induction still fun s' o done => ?_
      have frame := (resolve_effect done).frame
      exact .of_same (by rw [frame]) (by rw [frame])
  | resolveConflict service resolvedAt context conflictId winner reason =>
      refine commit_induction still fun s' o done => ?_
      obtain ⟨s₁, s₂, call, registered, resolved, frame⟩ := resolveConflict_effect done
      have frame₂ := (resolve_effect resolved).frame
      exact .of_same (by rw [frame, frame₂, registered.frame]) (by rw [frame, frame₂, registered.frame])
  | storeEmbedding spec factId embedding =>
      refine commit_induction still fun s' o done => ?_
      obtain ⟨s₁, stored, same⟩ := map_eq_ok.1 done
      cases same
      have frame := upsertInTransaction_eq_ok stored
      exact .of_same (by rw [frame]) (by rw [frame])
  | erase call =>
      refine commit_induction still fun s' report done => ?_
      obtain ⟨row, insights, effect⟩ := erase_effect done
      exact .of_maps effect.queue (fun q _ => .erases _ _ _ q) (by rw [effect.frame])
  | enqueueExtraction context transcript source scope metadata =>
      refine commit_induction still fun s' result done => ?_
      rcases enqueue_effect done with rfl | ⟨row, new, patch, frame⟩
      · exact still
      · refine ⟨fun id above below => ⟨row, patch.of_mem List.mem_cons_self, ?_⟩, fun q' mem => ?_,
          fun q mem => .inl ⟨q, (patch q).2 (.inr ⟨mem, ?_⟩), .passes _ q⟩⟩
        · rw [frame] at below
          exact new.id.trans (Nat.le_antisymm above below)
        · rcases (patch q').1 mem with appended | ⟨old, -⟩
          · obtain rfl := List.mem_singleton.1 appended
            exact .inl new
          · exact .inr ⟨q', old, .passes _ q'⟩
        · simpa using new.fresh q mem
  | claim | renew | persistSnapshot | complete | fail => exact absurd trivial outside

end Queue

/-- What one step does to the queue. -/
theorem effect_queue {setting : Setting} {state state' : State} {action : Action}
    (admitted : Admitted action state) (effect : StepEffect setting state action state') :
    QueueStep setting.host state action state'.store := by
  cases effect with
  | idles | shifts | writeRaises | leaves => exact .of_same rfl rfl
  | calls op => exact call_queue admitted
  | searches done | claims free done => exact .of_claim (claim_effect done)
  | renews here done =>
      obtain ⟨q, edit⟩ := renew_effect done
      exact .of_edit edit (fun _ => rfl) (.renews ⟨_, here, edit.here.symm, edit.held⟩)
  | persists here done =>
      obtain ⟨q, edit, bare⟩ := persistSnapshot_effect done
      exact .of_edit edit (fun _ => rfl) (.snapshots _ ⟨_, here, edit.here.symm, edit.held⟩ bare)
  | writes here issued done next =>
      obtain ⟨queue, sequence⟩ := handleWrite_queue done
      exact .of_same queue sequence
  | completes here all done =>
      obtain ⟨frame, q, mem, same, held, rest⟩ := complete_effect done
      refine ⟨fun id above below => ?_,
        fun q' memQ => .inr ⟨q', ((rest q').1 memQ).1, .passes _ q'⟩, fun r memR => ?_⟩
      · rw [frame] at below
        exact absurd below (Nat.not_le.2 above)
      by_cases other : r.id = q.id
      · obtain rfl := Table.eq_of_key memR mem other
        exact .inr ⟨_, _, _, _, _, rfl, here, all, same.symm, held⟩
      · exact .inl ⟨r, (rest r).2 ⟨memR, same ▸ other⟩, .passes _ r⟩
  | records here done =>
      obtain ⟨q, edit⟩ := fail_effect done
      exact .of_edit edit (fun _ => rfl) (.fails _ _ ⟨_, here, edit.here.symm, edit.held⟩)

end Enfold.Laws.ExtractionSystem
