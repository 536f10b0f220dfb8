/-
# Laws.Reenqueueing -- the same envelope in a second row

A completed job leaves the log rows of its writes behind.  When the envelope is queued again, the
new row has another id (`gone_run`: an id that has left the queue never returns), the extractor's
answer makes the same snapshot, and each write has the key of its predecessor: payload digest,
snapshot digest and index.  But the metadata of a write names the row it came from
(`itemRequest_row`), and the digest of a request covers its metadata, so the first write is
an idempotency conflict.  A second job replays the first one only when there is nothing to write:
`reenqueued_replays_iff`.

The ids of the queue are `AUTOINCREMENT`, as in every table that the code creates.  A table that was
migrated from a layout without it may give an id out again, and is outside this model.
-/
import Enfold.Laws.BatchScreen

namespace Enfold.Laws

open Enfold.Theory Enfold.Model

set_option autoImplicit false

/-! ## Row ids -/

/-- Row ids are taken from the sequence, and never again. -/
structure IdsGrow (s s' : Store) : Prop where
  sequence : s.queueSequence ≤ s'.queueSequence
  origin : ∀ q' ∈ s'.extractQueue, (∃ q ∈ s.extractQueue, q.id = q'.id) ∨
    s.queueSequence < q'.id ∧ q'.id ≤ s'.queueSequence

theorem IdsGrow.of_same {s s' : Store} (queue : s'.extractQueue = s.extractQueue)
    (sequence : s'.queueSequence = s.queueSequence) : IdsGrow s s' := by
  refine ⟨sequence.ge, fun q' mem => ?_⟩
  rw [queue] at mem
  exact .inl ⟨q', mem, rfl⟩

theorem IdsGrow.of_maps {s s' : Store} {g : QueueRow → QueueRow}
    (maps : Table.Maps s.extractQueue s'.extractQueue g)
    (keeps : ∀ q ∈ s.extractQueue, (g q).id = q.id)
    (sequence : s'.queueSequence = s.queueSequence) : IdsGrow s s' := by
  refine ⟨sequence.ge, fun q' mem => ?_⟩
  obtain ⟨q, old, rfl⟩ := (maps q').1 mem
  exact .inl ⟨q, old, (keeps q old).symm⟩

theorem IdsGrow.of_edit {id : Nat} {lease : Lease} {f : QueueRow → QueueRow} {s s' : Store}
    {q : QueueRow} (edit : HeldEdit id lease f s s' q) (keeps : ∀ q, (f q).id = q.id) :
    IdsGrow s s' := by
  refine ⟨by rw [edit.frame], fun q' mem => ?_⟩
  rcases (edit.patch q').1 mem with new | ⟨old, -⟩
  · obtain rfl := List.mem_singleton.1 new
    exact .inl ⟨q, edit.mem, (keeps q).symm⟩
  · exact .inl ⟨q', old, rfl⟩

theorem claimMove_id {maxAttempts : Nat} {lease : Lease} {now leaseUntil : Decimal}
    {claimed : Option QueueRow} {q q' : QueueRow}
    (move : ClaimMove maxAttempts lease now leaseUntil claimed q q') : q'.id = q.id := by
  cases move <;> rfl

/-- What one operation does to the ids of the queue. -/
theorem step_ids (host : Host) (op : Op) (s : Store) : IdsGrow s (step host op s) := by
  have still : IdsGrow s s := .of_same rfl rfl
  cases op with
  | write call =>
      refine commit_induction still fun s' o done => ?_
      obtain ⟨queue, sequence⟩ := write_queue done
      exact .of_same queue sequence
  | resolve call =>
      refine commit_induction still fun s' o done => ?_
      have frame := (resolve_effect done).frame
      exact .of_same (by rw [frame]) (by rw [frame])
  | resolveConflict service resolvedAt context conflictId winner reason =>
      refine commit_induction still fun s' o done => ?_
      obtain ⟨s₁, s₂, call, registered, resolved, frame⟩ := resolveConflict_effect done
      have frame₂ := (resolve_effect resolved).frame
      exact .of_same (by rw [frame, frame₂, registered.frame])
        (by rw [frame, frame₂, registered.frame])
  | storeEmbedding spec factId embedding =>
      refine commit_induction still fun s' o done => ?_
      obtain ⟨s₁, stored, same⟩ := map_eq_ok.1 done
      cases same
      have frame := upsertInTransaction_eq_ok stored
      exact .of_same (by rw [frame]) (by rw [frame])
  | erase call =>
      refine commit_induction still fun s' report done => ?_
      obtain ⟨row, insights, effect⟩ := erase_effect done
      refine .of_maps effect.queue (fun q _ => ?_) (by rw [effect.frame])
      unfold erasedQueueRow
      split <;> rfl
  | enqueueExtraction context transcript source scope metadata =>
      refine commit_induction still fun s' result done => ?_
      rcases enqueue_effect done with rfl | ⟨row, ⟨id, -, -, -, -, -⟩, patch, frame⟩
      · exact still
      · have sequence : s'.queueSequence = s.queueSequence + 1 := by rw [frame]
        refine ⟨by omega, fun q' mem => ?_⟩
        rcases (patch q').1 mem with new | ⟨old, -⟩
        · obtain rfl := List.mem_singleton.1 new
          exact .inr ⟨by omega, by omega⟩
        · exact .inl ⟨q', old, rfl⟩
  | claim maxAttempts lease now leaseUntil =>
      refine commit_induction still fun s' claimed done => ?_
      have effect := claim_effect done
      obtain ⟨g, maps, moves⟩ := effect.moves
      exact .of_maps maps (fun q mem => claimMove_id (moves q mem)) (by rw [effect.frame])
  | renew id lease now leaseUntil =>
      refine commit_induction still fun s' result done => ?_
      obtain ⟨q, edit⟩ := renew_effect done
      exact .of_edit edit fun _ => rfl
  | persistSnapshot id lease proposals =>
      refine commit_induction still fun s' result done => ?_
      obtain ⟨q, edit, -⟩ := persistSnapshot_effect done
      exact .of_edit edit fun _ => rfl
  | complete id lease =>
      refine commit_induction still fun s' result done => ?_
      obtain ⟨frame, q, -, -, -, rest⟩ := complete_effect done
      refine ⟨by rw [frame], fun q' mem => ?_⟩
      exact .inl ⟨q', ((rest q').1 mem).1, rfl⟩
  | fail maxAttempts id lease errorCode permanent retryAt =>
      refine commit_induction still fun s' attempts done => ?_
      obtain ⟨q, edit⟩ := fail_effect done
      exact .of_edit edit fun _ => rfl

/-- No row has an id beyond the sequence. -/
def IdsBounded (s : Store) : Prop := ∀ q ∈ s.extractQueue, q.id ≤ s.queueSequence

theorem ids_bounded {host : Host} {s : Store} (reached : Reached host (fun _ _ => True) s) :
    IdsBounded s := by
  refine Reachable.induction (P := IdsBounded) reached ?_ ?_
  · intro q mem
    exact absurd mem (Table.not_mem_empty q)
  · intro op s _ bounded q' mem
    have grow := step_ids host op s
    rcases grow.origin q' mem with ⟨q, old, same⟩ | ⟨-, below⟩
    · rw [← same]
      exact (bounded q old).trans grow.sequence
    · exact below

/-- The id was issued and its row has left the queue. -/
def Gone (id : Nat) (s : Store) : Prop :=
  id ≤ s.queueSequence ∧ ∀ q ∈ s.extractQueue, q.id ≠ id

theorem Gone.grow {id : Nat} {s s' : Store} (gone : Gone id s) (grow : IdsGrow s s') : Gone id s' := by
  refine ⟨gone.1.trans grow.sequence, fun q' mem same => ?_⟩
  rcases grow.origin q' mem with ⟨q, old, kept⟩ | ⟨above, -⟩
  · exact gone.2 q old (kept.trans same)
  · have issued := gone.1
    omega

/-- An id that has left the queue never returns. -/
theorem gone_run (host : Host) {id : Nat} (ops : List Op) {s : Store} (gone : Gone id s) :
    Gone id (run (step host) ops s) := by
  induction ops generalizing s with
  | nil => exact gone
  | cons op ops ih => exact ih (gone.grow (step_ids host op s))

/-! ## Jobs as runs -/

/-- Operations lead from one store to the other. -/
def Follows (host : Host) (s s' : Store) : Prop := ∃ ops, s' = run (step host) ops s

theorem Follows.refl (host : Host) (s : Store) : Follows host s s := ⟨[], rfl⟩

theorem Follows.trans {host : Host} {s s' s'' : Store} (first : Follows host s s')
    (second : Follows host s' s'') : Follows host s s'' := by
  obtain ⟨ops, rfl⟩ := first
  obtain ⟨ops', rfl⟩ := second
  exact ⟨ops ++ ops', (run_append _ ops ops' s).symm⟩

theorem Follows.of_run (host : Host) (ops : List Op) (s : Store) :
    Follows host s (run (step host) ops s) := ⟨ops, rfl⟩

theorem Follows.of_step {host : Host} {s s' : Store} (op : Op) (done : step host op s = s') :
    Follows host s s' := ⟨[op], done.symm⟩

theorem Follows.reached {host : Host} {s s' : Store} (reached : Reached host (fun _ _ => True) s)
    (follows : Follows host s s') : Reached host (fun _ _ => True) s' := by
  obtain ⟨ops, admitted, rfl⟩ := reached
  obtain ⟨ops', rfl⟩ := follows
  exact ⟨ops ++ ops', Admits.always _ _, run_append _ ops ops' _⟩

theorem Follows.gone {host : Host} {id : Nat} {s s' : Store} (gone : Gone id s)
    (follows : Follows host s s') : Gone id s' := by
  obtain ⟨ops, rfl⟩ := follows
  exact gone_run host ops gone

section JobRuns

variable {host : Host} {processor : ExtractionProcessor} {input : JobInput} {s s' : Store}

theorem claim_follows {maxAttempts : Nat} {lease : Lease} {now leaseUntil : Decimal}
    {claimed : Option QueueRow}
    (done : claim maxAttempts lease now leaseUntil s = .ok (s', claimed)) : Follows host s s' := by
  refine .of_step (.claim maxAttempts lease now leaseUntil) ?_
  rw [step, done]
  rfl

theorem write_follows {call : WriteCall} {o : WriteOutcome}
    (done : call.apply host s = .ok (s', o)) : Follows host s s' := by
  refine .of_step (.write call) ?_
  rw [step, done]
  rfl

theorem complete_follows {id : Nat} {lease : Lease} {result : PUnit}
    (done : complete.{0} id lease s = .ok (s', result)) : Follows host s s' := by
  refine .of_step (.complete id lease) ?_
  rw [step, done]
  rfl

theorem beat_follows {id : Nat} {lease : Lease} {heartbeats : List (Decimal × Decimal)}
    {result : Processing Unit} (beats : beat id lease heartbeats s = (s', result)) :
    Follows host s s' := by
  induction heartbeats generalizing s with
  | nil =>
      cases beats
      exact Follows.refl host _
  | cons reading later ih =>
      obtain ⟨now, leaseUntil⟩ := reading
      unfold beat at beats
      split at beats
      · rename_i next done
        refine Follows.trans (.of_step (.renew id lease now leaseUntil) ?_) (ih beats)
        rw [step, done]
        rfl
      · cases beats
        exact Follows.refl host _

/-- Until its writes, a job renews its lease and persists a snapshot. -/
theorem jobSnapshot_follows {id : Nat} {envelope : ExtractionEnvelope}
    {result : Processing (String × String)}
    (found : jobSnapshot host processor input id envelope s = (s', result)) : Follows host s s' := by
  unfold jobSnapshot at found
  split at found
  · cases found
    exact Follows.refl host _
  · cases found
    exact Follows.refl host _
  unfold extractSnapshot at found
  split at found
  · rename_i beats
    cases found
    exact beat_follows beats
  · rename_i s₁ _ beats
    have beaten : Follows host s s₁ := beat_follows beats
    split at found
    · cases found
      exact beaten
    split at found
    · cases found
      exact beaten
    split at found
    · cases found
      exact beaten
    · rename_i document _ _ next _ done
      cases found
      refine beaten.trans (.of_step (.persistSnapshot id input.lease document) ?_)
      rw [step, done]
      rfl

theorem applyWrites_follows {context : ClientContext} (index : Nat) (batch : List Json) (s : Store) :
    Follows host s (applyWrites host input context index batch s).store := by
  induction batch generalizing index s with
  | nil => exact Follows.refl host _
  | cons params rest ih =>
      rw [applyWrites]
      cases done : handleWrite host input.service (input.writeTick index) context params s with
      | error e => exact Follows.refl host _
      | ok answer =>
          obtain ⟨next, o⟩ := answer
          obtain ⟨call, -, called⟩ := handleWrite_eq_ok done
          have wrote : Follows host s next := write_follows called
          dsimp only
          split
          · exact wrote
          · exact wrote.trans (ih (index + 1) next)

/-- The writes of a batch leave the queue alone. -/
theorem applyWrites_queue {context : ClientContext} (index : Nat) (batch : List Json) (s : Store) :
    (applyWrites host input context index batch s).store.extractQueue = s.extractQueue ∧
      (applyWrites host input context index batch s).store.queueSequence = s.queueSequence := by
  induction batch generalizing index s with
  | nil => exact ⟨rfl, rfl⟩
  | cons params rest ih =>
      rw [applyWrites]
      cases done : handleWrite host input.service (input.writeTick index) context params s with
      | error e => exact ⟨rfl, rfl⟩
      | ok answer =>
          obtain ⟨next, o⟩ := answer
          obtain ⟨queue, sequence⟩ := handleWrite_queue done
          dsimp only
          split
          · exact ⟨queue, sequence⟩
          · obtain ⟨queue', sequence'⟩ := ih (index + 1) next
            exact ⟨queue'.trans queue, sequence'.trans sequence⟩

end JobRuns

/-! ## Completed jobs -/

theorem complete_of_leased {id attempts : Nat} {lease : Lease} {s : Store}
    (leased : LeasedTo id lease attempts s) :
    ∃ s', complete.{0} id lease s = .ok (s', ⟨⟩) := by
  obtain ⟨q, mem, here, held, -⟩ := leased
  have one : s.extractQueue.rowcount (fun q => q.id = id ∧ q.HeldBy lease) = 1 :=
    Table.rowcount_eq_one mem ⟨here, held⟩ fun q' _ other => other.1.trans here.symm
  exact ⟨_, require_bind_eq_ok.2 ⟨one, rfl⟩⟩

section Completed

variable {host : Host} {processor maker : ExtractionProcessor} {input : JobInput}
  {proposals : List ExtractedMemory} {envelope : ExtractionEnvelope} {text hash : String}
  {row : QueueRow} {context : ClientContext} {s s₁ s₂ s' : Store}

/-- A batch that was applied has its first write answered. -/
theorem applyWrites_first {index : Nat} {params : Json} {rest : List Json}
    (applied : (applyWrites host input context index (params :: rest) s).result = .ok ()) :
    ∃ next o, handleWrite host input.service (input.writeTick index) context params s =
        .ok (next, o) ∧
      (applyWrites host input context index (params :: rest) s).store =
        (applyWrites host input context (index + 1) rest next).store ∧
      o ∈ (applyWrites host input context index (params :: rest) s).written := by
  cases done : handleWrite host input.service (input.writeTick index) context params s with
  | error e =>
      rw [applyWrites, done] at applied
      cases applied
  | ok answer =>
      obtain ⟨next, o⟩ := answer
      refine ⟨next, o, rfl, ?_, applyWrites_written rest done⟩
      rw [applyWrites, done] at applied ⊢
      dsimp only at applied ⊢
      split at applied
      · cases applied
      · rename_i accepted
        rw [if_neg accepted]

/-- The batch of a job, once it is prepared. -/
def appliedBatch (host : Host) (maker : ExtractionProcessor) (input : JobInput)
    (envelope : ExtractionEnvelope) (hash : String) (row : QueueRow) (items : List SnapshotItem)
    (s : Store) : JobState Unit :=
  applyWrites host input envelope.context 0
    (itemWrites maker.identity hash envelope (rowIdentity host row) items) s

/-- A job that is not stopped applies its batch and completes its row. -/
theorem runJob_prepared {items : List SnapshotItem}
    (job : SnapshotJob host processor maker input proposals envelope text hash row s s₁ s₂)
    (ready : prepareSnapshot host text hash envelope (rowIdentity host row) =
      .ok (itemWrites maker.identity hash envelope (rowIdentity host row) items)) :
    runJob host processor input row s₁ =
      match (appliedBatch host maker input envelope hash row items s₂).result with
      | .error failure =>
          ⟨(appliedBatch host maker input envelope hash row items s₂).store,
            (appliedBatch host maker input envelope hash row items s₂).written, .error failure⟩
      | .ok _ =>
          match complete.{0} row.id input.lease
              (appliedBatch host maker input envelope hash row items s₂).store with
          | .error e =>
              ⟨(appliedBatch host maker input envelope hash row items s₂).store,
                (appliedBatch host maker input envelope hash row items s₂).written,
                .error (.raised e)⟩
          | .ok (s, _) =>
              ⟨s, (appliedBatch host maker input envelope hash row items s₂).written, .ok ()⟩ := by
  unfold runJob
  rw [job.decoded]
  dsimp only
  rw [job.snapshot]
  dsimp only
  rw [show (⟨row.id, rowDigest host row⟩ : RowIdentity) = rowIdentity host row from rfl, ready]
  rfl

/-- What a completed job has done. -/
structure CompletedJob (host : Host) (maker : ExtractionProcessor) (input : JobInput)
    (proposals : List ExtractedMemory) (envelope : ExtractionEnvelope) (hash : String)
    (row : QueueRow) (s₂ s' : Store) (items : List SnapshotItem) : Prop where
  checked : snapshotItems proposals envelope = .ok items
  applied : (appliedBatch host maker input envelope hash row items s₂).result = .ok ()
  completes : ∃ done, complete.{0} row.id input.lease
    (appliedBatch host maker input envelope hash row items s₂).store = .ok (s', done)

/-- Only a job without failure is reported as completed. -/
theorem completed_job {result : ProcessResult}
    (job : SnapshotJob host processor maker input proposals envelope text hash row s s₁ s₂)
    (done : processOne host processor input s = (s', .ok result))
    (completed : result.outcome = .completed) :
    ∃ items, CompletedJob host maker input proposals envelope hash row s₂ s' items ∧
      (runJob host processor input row s₁).written =
        (appliedBatch host maker input envelope hash row items s₂).written := by
  have ran : (runJob host processor input row s₁).result = .ok () ∧
      (runJob host processor input row s₁).store = s' := by
    unfold processOne at done
    rw [job.claimed] at done
    dsimp only at done
    split at done
    · rename_i ok
      cases done
      exact ⟨ok, rfl⟩
    · exfalso
      split at done
      · cases done
      · cases done
        dsimp only at completed
        split at completed <;> cases completed
  rcases prepareSnapshot_cases job.made (rowIdentity host row) with
    ⟨-, code, refused⟩ | ⟨-, items, checked, ready⟩
  · exfalso
    have result := ran.1
    unfold runJob at result
    rw [job.decoded] at result
    dsimp only at result
    rw [job.snapshot] at result
    dsimp only at result
    rw [show (⟨row.id, rowDigest host row⟩ : RowIdentity) = rowIdentity host row from rfl,
      refused] at result
    cases result
  · refine ⟨items, ⟨checked, ?_, ?_⟩, runJob_written job.decoded job.snapshot ready⟩
    · rw [runJob_prepared job ready] at ran
      cases applied : (appliedBatch host maker input envelope hash row items s₂).result with
      | error failure =>
          rw [applied] at ran
          cases ran.1
      | ok u => rfl
    · rw [runJob_prepared job ready] at ran
      cases applied : (appliedBatch host maker input envelope hash row items s₂).result with
      | error failure =>
          rw [applied] at ran
          cases ran.1
      | ok u =>
          rw [applied] at ran
          dsimp only at ran
          cases done : complete.{0} row.id input.lease
              (appliedBatch host maker input envelope hash row items s₂).store with
          | error e =>
              rw [done] at ran
              cases ran.1
          | ok answer =>
              rw [done] at ran
              exact ⟨answer.2, by rw [← ran.2]⟩

/-- A batch that is applied completes its row, which is still leased. -/
theorem prepared_completes {items : List SnapshotItem}
    (job : SnapshotJob host processor maker input proposals envelope text hash row s s₁ s₂)
    (ready : prepareSnapshot host text hash envelope (rowIdentity host row) =
      .ok (itemWrites maker.identity hash envelope (rowIdentity host row) items))
    (applied : (appliedBatch host maker input envelope hash row items s₂).result = .ok ()) :
    ∃ s' result, processOne host processor input s = (s', .ok result) ∧
      result.outcome = .completed ∧
      complete.{0} row.id input.lease (appliedBatch host maker input envelope hash row items s₂).store =
        .ok (s', ⟨⟩) := by
  obtain ⟨-, leased⟩ := jobSnapshot_lease job.snapshot (claim_lease job.claimed)
  obtain ⟨s', completes⟩ := complete_of_leased (leased.of_queue
    (applyWrites_queue 0 _ s₂).1 : LeasedTo row.id input.lease (row.attempts + 1)
      (appliedBatch host maker input envelope hash row items s₂).store)
  let written := (appliedBatch host maker input envelope hash row items s₂).written
  refine ⟨s', ⟨.completed, some row.id, countWrites written, row.attempts + 1, none⟩, ?_, rfl,
    completes⟩
  unfold processOne
  rw [job.claimed]
  dsimp only
  rw [runJob_prepared job ready, applied]
  dsimp only
  rw [completes]

end Completed

/-! ## The second row -/

/-- A completed job leaves its row's id behind and, after its first write, some run. -/
theorem completed_leaves {host : Host} {processor maker : ExtractionProcessor} {input : JobInput}
    {proposals : List ExtractedMemory} {envelope : ExtractionEnvelope} {text hash : String}
    {row : QueueRow} {s s₁ s₂ s' : Store} {item : SnapshotItem} {items : List SnapshotItem}
    (reached : Reached host (fun _ _ => True) s)
    (job : SnapshotJob host processor maker input proposals envelope text hash row s s₁ s₂)
    (done : CompletedJob host maker input proposals envelope hash row s₂ s' (item :: items)) :
    Gone row.id s' ∧ ∃ next o,
      handleWrite host input.service (input.writeTick 0) envelope.context
        (itemParams maker.identity hash envelope (rowIdentity host row) 0 item) s₂ = .ok (next, o) ∧
      Follows host next s' := by
  have wrote : Follows host s₂
      (appliedBatch host maker input envelope hash row (item :: items) s₂).store :=
    applyWrites_follows 0 _ s₂
  have before := Follows.reached reached
    (((claim_follows job.claimed).trans (jobSnapshot_follows job.snapshot)).trans wrote)
  obtain ⟨answer, completes⟩ := done.completes
  have gone : Gone row.id s' := by
    obtain ⟨frame, q, mem, here, -, rest⟩ := complete_effect completes
    refine ⟨?_, fun x memX => ((rest x).1 memX).2⟩
    rw [frame, ← here]
    exact ids_bounded before q mem
  have applied := done.applied
  unfold appliedBatch at applied completes
  rw [itemWrites_cons] at applied completes
  obtain ⟨next, o, first, same, -⟩ := applyWrites_first applied
  refine ⟨gone, next, o, first, ?_⟩
  rw [same] at completes
  exact (applyWrites_follows 1 _ next).trans (complete_follows completes)

/-- The metadata of a write names its row. -/
theorem itemRequest_row {identity hash : String} {envelope : ExtractionEnvelope} {row : RowIdentity}
    {index : Nat} {item : SnapshotItem} :
    field "extraction_queue_id" (itemRequest identity hash envelope row index item).metadataJson =
      .int row.id := by
  show field _ (extractionMetadata _ _ _ _ _) = _
  unfold extractionMetadata
  cases item.typed <;> rfl

section Issue

variable {identity hash : String} {envelope : ExtractionEnvelope} {row row' : RowIdentity}
  {index : Nat} {item : SnapshotItem} {service service' : MemoryWriteService} {tick tick' : Tick}
  {context : ClientContext}

/-- The call that an item's write makes. -/
theorem issued_item {call : WriteCall}
    (issued : Issued service context (itemParams identity hash envelope row index item) call) :
    field "extraction_queue_id" call.request.metadataJson = .int row.id ∧
      call.request.idempotencyKey = strip (extractionKey row.digest hash index) := by
  constructor
  · have read := issued.metadata
    rw [show field "metadata" (itemParams identity hash envelope row index item) =
      (itemRequest identity hash envelope row index item).metadataJson from rfl] at read
    obtain ⟨members, object⟩ := (itemRequest identity hash envelope row index item).metadataObject
    rw [object] at read
    rw [← Except.ok.inj read, ← object]
    exact itemRequest_row
  · obtain ⟨key, named, same⟩ := issued.key
    rw [show field "idempotency_key" (itemParams identity hash envelope row index item) =
      .str (extractionKey row.digest hash index) from rfl] at named
    cases named
    exact same

/-- Rows with one digest have one key for their writes, and it belongs to the first of them. -/
theorem item_written_once {host : Host} (collisionFree : Function.Injective host.sha256)
    {s next t t' : Store} {o o' : WriteOutcome}
    (first : handleWrite host service tick context (itemParams identity hash envelope row index item)
      s = .ok (next, o))
    (follows : Follows host next t)
    (later : handleWrite host service' tick' context
      (itemParams identity hash envelope row' index item) t = .ok (t', o'))
    (digest : row'.digest = row.digest) : row'.id = row.id := by
  obtain ⟨call, issued, called⟩ := handleWrite_eq_ok first
  obtain ⟨call', issued', called'⟩ := handleWrite_eq_ok later
  obtain ⟨named, key⟩ := issued_item issued
  obtain ⟨named', key'⟩ := issued_item issued'
  obtain ⟨ops, rfl⟩ := follows
  obtain ⟨granted, authorized, valid, -⟩ := write_cases called'
  by_contra other
  have different : ¬ SameSubmission call call' := by
    rintro ⟨-, same, -⟩
    rw [same, named] at named'
    exact other (Int.natCast_inj.1 (Json.int.inj named'.symm))
  have conflict := write_other collisionFree called ops (issued'.client.trans issued.client.symm)
    (issued'.surface.trans issued.surface.symm) (by rw [key, key', digest]) ⟨granted, authorized⟩
    valid different
  rw [conflict] at called'
  cases called'

end Issue

/-- The row is completed, its writes are replays, and no fact, observation or provenance row
is new. -/
def Replays (host : Host) (processor : ExtractionProcessor) (input : JobInput) (row : QueueRow)
    (s s₁ : Store) : Prop :=
  ∃ s' result, processOne host processor input s = (s', .ok result) ∧ result.outcome = .completed ∧
    (∀ o ∈ (runJob host processor input row s₁).written, o.replayed = true) ∧
    (∀ f ∈ s'.facts, f ∈ s.facts) ∧ (∀ o ∈ s'.observations, o ∈ s.observations) ∧
    ∀ p ∈ s'.provenance, p ∈ s.provenance

section Second

variable {host : Host} {processor processor' maker : ExtractionProcessor} {input input' : JobInput}
  {proposals : List ExtractedMemory} {envelope : ExtractionEnvelope} {text hash : String}
  {row row' : QueueRow} {s s₁ s₂ s' t t₁ t₂ : Store}

/-- An empty batch has nothing to write. -/
theorem empty_replays
    (job : SnapshotJob host processor maker input [] envelope text hash row s s₁ s₂) :
    Replays host processor input row s s₁ := by
  obtain ⟨frame₂, -⟩ := jobSnapshot_lease job.snapshot (claim_lease job.claimed)
  rcases prepareSnapshot_cases job.made (rowIdentity host row) with
    ⟨⟨p, mem, -⟩, -⟩ | ⟨-, items, checked, ready⟩
  · cases mem
  obtain rfl : items = [] := (Except.ok.inj checked).symm
  obtain ⟨s', result, done, completed, completes⟩ := prepared_completes job ready rfl
  obtain ⟨frame₃, -⟩ := complete_effect completes
  have frame : QueueFrame s s' := ((claim_eq_ok job.claimed).trans frame₂).trans (by
    rw [QueueFrame, frame₃]
    rfl)
  refine ⟨s', result, done, completed, ?_, ?_, ?_, ?_⟩
  · rw [runJob_written job.decoded job.snapshot ready]
    exact fun o mem => absurd mem List.not_mem_nil
  all_goals
    rw [frame]
    exact fun _ mem => mem

/-- The first write of a second row is refused, so that row is never completed: it comes to the write
in a store that follows the first row's, where the key is that of another row. -/
theorem second_not_completed (collisionFree : Function.Injective host.sha256)
    (reached : Reached host (fun _ _ => True) s)
    (first : SnapshotJob host processor maker input proposals envelope text hash row s s₁ s₂)
    {result : ProcessResult} (done : processOne host processor input s = (s', .ok result))
    (completed : result.outcome = .completed) (follows : Follows host s' t)
    (again : SnapshotJob host processor' maker input' proposals envelope text hash row' t t₁ t₂)
    (digest : rowDigest host row' = rowDigest host row) (nonempty : proposals ≠ []) {t' : Store}
    {result' : ProcessResult} (redone : processOne host processor' input' t = (t', .ok result')) :
    result'.outcome ≠ .completed := by
  intro completed'
  obtain ⟨items, job, -⟩ := completed_job first done completed
  obtain ⟨items', job', -⟩ := completed_job again redone completed'
  obtain rfl : items = items' := Except.ok.inj (job.checked.symm.trans job'.checked)
  obtain ⟨item, others, rfl⟩ : ∃ item others, items = item :: others := by
    refine List.exists_cons_of_length_pos ?_
    rw [← (snapshotItems_eq_ok job.checked).2.length_eq]
    exact List.length_pos_iff.2 nonempty
  obtain ⟨gone, next, o, wrote, left⟩ := completed_leaves reached first job
  have claimed : Follows host t t₂ :=
    (claim_follows again.claimed).trans (jobSnapshot_follows again.snapshot)
  have applied := job'.applied
  unfold appliedBatch at applied
  rw [itemWrites_cons] at applied
  obtain ⟨next', o', wrote', -, -⟩ := applyWrites_first applied
  have same := item_written_once collisionFree wrote ((left.trans follows).trans claimed) wrote'
    digest
  obtain ⟨queued, -⟩ := (claim_effect again.claimed).leased row' rfl
  exact (follows.gone gone).2 row' queued same

end Second

/-- After a completed job and any run, a row with the same envelope, from which the extractor
makes the same snapshot, replays the first one exactly when there was nothing to write. -/
theorem reenqueued_replays_iff {host : Host} (collisionFree : Function.Injective host.sha256)
    {processor processor' maker : ExtractionProcessor} {input input' : JobInput}
    {proposals : List ExtractedMemory} {envelope : ExtractionEnvelope} {text hash : String}
    {row row' : QueueRow} {s s₁ s₂ s' t₁ t₂ : Store} {result : ProcessResult}
    (reached : Reached host (fun _ _ => True) s)
    (first : SnapshotJob host processor maker input proposals envelope text hash row s s₁ s₂)
    (done : processOne host processor input s = (s', .ok result))
    (completed : result.outcome = .completed) (ops : List Op)
    (again : SnapshotJob host processor' maker input' proposals envelope text hash row'
      (run (step host) ops s') t₁ t₂)
    (payload : row'.payload = row.payload) (payloadHash : row'.payloadHash = row.payloadHash) :
    Replays host processor' input' row' (run (step host) ops s') t₁ ↔ proposals = [] := by
  constructor
  · rintro ⟨t', result', redone, completed', -⟩
    by_contra nonempty
    have digest : rowDigest host row' = rowDigest host row := by
      unfold rowDigest
      rw [payload, payloadHash]
    exact second_not_completed collisionFree reached first done completed (.of_run host ops s')
      again digest nonempty redone completed'
  · rintro rfl
    exact empty_replays again

/-! ## One envelope, twice -/

namespace ReenqueueSample

open ScreenSample (plain itemsOf itemsOf_made text)

def transcript : String := "We painted the door red."

def payload : Json := extractionEnvelope (Sample.context "agent-a") transcript "chat" "work" []

/-- The digests of the snapshot of a batch and of the payload. -/
def digests (batch : List ExtractedMemory) : List (String × String) :=
  [(text batch, "1"), (Json.dumps .unicode payload, "2")]

def hostOf (batch : List ExtractedMemory) : Host :=
  { Sample.host with sha256 := listedHash (digests batch) }

theorem collisionFree (batch : List ExtractedMemory) : Function.Injective (hostOf batch).sha256 := by
  have unmarked : ∀ entry ∈ digests batch, entry.2.toList.head? ≠ some 'u' := by
    simp [digests]
  have distinct : ((digests batch).map Prod.snd).Nodup := by
    show ["1", "2"].Nodup
    decide
  exact listedHash_injective distinct unmarked

theorem host_sha256 (batch : List ExtractedMemory) (content : String) :
    (hostOf batch).sha256 content =
      listedHash [(text batch, "1"), (Json.dumps .unicode payload, "2")] content := rfl

theorem listedHash_first (first second : String) :
    listedHash [(first, "1"), (second, "2")] first = "1" := by
  rw [listedHash, List.lookup_cons, beq_self_eq_true]
  rfl

theorem listedHash_second {first second : String} (apart : second ≠ first) :
    listedHash [(first, "1"), (second, "2")] second = "2" := by
  rw [listedHash, List.lookup_cons, beq_false_of_ne apart]
  dsimp only
  rw [List.lookup_cons, beq_self_eq_true]
  rfl

theorem text_digest (batch : List ExtractedMemory) : (hostOf batch).sha256 (text batch) = "1" := by
  rw [host_sha256, listedHash_first]

theorem payload_digest (batch : List ExtractedMemory) :
    (hostOf batch).sha256 (Json.dumps .unicode payload) = "2" := by
  have apart : Json.dumps .unicode payload ≠ text batch := by
    intro same
    have documents := Json.dumps_injective .unicode same
    simp [payload, extractionEnvelope, snapshotDocument] at documents
  rw [host_sha256, listedHash_second apart]

/-- The row of the envelope. -/
def queuedRow (id : Nat) : QueueRow where
  id := id
  payload := payload
  attempts := 0
  lastError := none
  status := .pending
  notBefore := none
  leaseOwner := none
  leaseUntil := none
  leaseToken := none
  payloadHash := some "2"
  proposalJson := none
  proposalHash := none

theorem fresh_id (row : QueueRow) :
    row.id ∉ (Table.empty : Table Nat QueueRow QueueRow.id).rows.map QueueRow.id := by
  simp [Table.empty]

/-- The queue holds one row and the sequence is at its id. -/
def holding (row : QueueRow) (s : Store) : Store :=
  { s with
    extractQueue := Table.empty.insert row (fresh_id row)
    queueSequence := row.id }

def enqueue : Op := .enqueueExtraction (Sample.context "agent-a") transcript "chat" "work" []

theorem enqueue_holding (batch : List ExtractedMemory) {s : Store}
    (drained : s.extractQueue = Table.empty) :
    step (hostOf batch) enqueue s = holding (queuedRow (s.queueSequence + 1)) s := by
  have small : utf8Length (Json.dumps .unicode payload) ≤ maxExtractionPayloadBytes := by
    decide +kernel
  have plainText : strip transcript = transcript := by decide +kernel
  have plainSource : strip "chat" = "chat" := by decide +kernel
  have plainScope : strip "work" = "work" := by decide +kernel
  have done : enqueueAfterCommit (hostOf batch) (Sample.context "agent-a") transcript "chat" "work" [] s =
      .ok (holding (queuedRow (s.queueSequence + 1)) s, ⟨s.queueSequence + 1, "2", false⟩) := by
    unfold enqueueAfterCommit
    simp only [plainText, plainSource, plainScope]
    rw [require_of (by simp [transcript]), ok_bind, require_of (by simp [Sample.context]), ok_bind,
      show extractionEnvelope (Sample.context "agent-a") transcript "chat" "work" [] = payload
        from rfl,
      require_of small, ok_bind, payload_digest, drained]
    rfl
  rw [enqueue, step, done]
  rfl

def inputOf (batch : List ExtractedMemory) : JobInput :=
  { ScreenSample.input with extraction := .ok batch }

/-- The row under the lease of the worker. -/
def heldRow (id : Nat) : QueueRow := leasedRow ScreenSample.input.lease .one (queuedRow id)

/-- The row with the snapshot of the batch. -/
def savedRow (batch : List ExtractedMemory) (id : Nat) : QueueRow :=
  snapshotRow (hostOf batch) (snapshotDocument sampleProcessor.identity (itemsOf batch))
    (heldRow id)

section Batch

variable {batch : List ExtractedMemory} (accepted : (snapshotItems batch sampleEnvelope).toBool = true)
include accepted

theorem snapshot {id : Nat} (small : id = 1 ∨ id = 2) (s : Store) :
    jobSnapshot (hostOf batch) sampleProcessor (inputOf batch) id sampleEnvelope
        (holding (heldRow id) s) =
      (holding (savedRow batch id) s, .ok (text batch, "1")) := by
  have document : snapshotOf sampleProcessor batch sampleEnvelope =
      .ok (snapshotDocument sampleProcessor.identity (itemsOf batch)) := by
    rw [snapshotOf, itemsOf_made accepted]
    rfl
  have unsaved : loadSnapshot id (inputOf batch).lease (holding (heldRow id) s) = .ok none := by
    rcases small with rfl | rfl <;> rfl
  have saved : persistSnapshot.{0} (hostOf batch) id (inputOf batch).lease
      (snapshotDocument sampleProcessor.identity (itemsOf batch)) (holding (heldRow id) s) =
      .ok (holding (savedRow batch id) s, ⟨⟩) := by
    rcases small with rfl | rfl <;> rfl
  unfold jobSnapshot
  rw [unsaved]
  dsimp only
  unfold extractSnapshot
  rw [show beat id (inputOf batch).lease (inputOf batch).heartbeats (holding (heldRow id) s) =
      (holding (heldRow id) s, .ok ()) from rfl]
  dsimp only [inputOf]
  rw [document]
  dsimp only
  rw [show ScreenSample.input.lease = (inputOf batch).lease from rfl, saved]
  dsimp only
  rw [← text_digest batch]
  rfl

/-- A worker finds the row and makes the snapshot of its batch. -/
theorem jobOf {id : Nat} (small : id = 1 ∨ id = 2) (s : Store) :
    SnapshotJob (hostOf batch) sampleProcessor sampleProcessor (inputOf batch) batch sampleEnvelope
      (text batch) "1" (queuedRow id) (holding (queuedRow id) s) (holding (heldRow id) s)
      (holding (savedRow batch id) s) where
  claimed := by rcases small with rfl | rfl <;> rfl
  decoded := ScreenSample.decoded batch
  made := by
    rw [makeSnapshot, itemsOf_made accepted, ok_bind, ← text_digest batch]
    rfl
  snapshot := snapshot accepted small s

/-- The first job, when its batch is applied: the row is gone, and the sequence stays. -/
theorem first_completed {items : List SnapshotItem}
    (ready : prepareSnapshot (hostOf batch) (text batch) "1" sampleEnvelope
        (rowIdentity (hostOf batch) (queuedRow 1)) =
      .ok (itemWrites sampleProcessor.identity "1" sampleEnvelope
        (rowIdentity (hostOf batch) (queuedRow 1)) items))
    (applied : (appliedBatch (hostOf batch) sampleProcessor (inputOf batch) sampleEnvelope "1"
      (queuedRow 1) items (holding (savedRow batch 1) Store.empty)).result = .ok ()) :
    ∃ s' result, processOne (hostOf batch) sampleProcessor (inputOf batch)
        (holding (queuedRow 1) Store.empty) = (s', .ok result) ∧ result.outcome = .completed ∧
      run (step (hostOf batch)) [enqueue] s' = holding (queuedRow 2) s' := by
  obtain ⟨s', result, done, completed, completes⟩ :=
    prepared_completes (jobOf accepted (.inl rfl) Store.empty) ready applied
  obtain ⟨frame, -, -, -, -, rest⟩ := complete_effect completes
  obtain ⟨queue, sequence⟩ : (appliedBatch (hostOf batch) sampleProcessor (inputOf batch) sampleEnvelope
      "1" (queuedRow 1) items (holding (savedRow batch 1) Store.empty)).store.extractQueue =
        (holding (savedRow batch 1) Store.empty).extractQueue ∧ _ :=
    applyWrites_queue 0 _ _
  refine ⟨s', result, done, completed, ?_⟩
  have drained : s'.extractQueue = Table.empty := by
    refine Table.ext (List.eq_nil_iff_forall_not_mem.2 fun x mem => ?_)
    obtain ⟨old, other⟩ := (rest x).1 mem
    rw [queue] at old
    obtain rfl : x = savedRow batch 1 := List.mem_singleton.1 old
    exact other rfl
  have counted : s'.queueSequence = 1 := by
    rw [frame]
    exact sequence
  rw [run_cons, run_nil, enqueue_holding batch drained, counted]

end Batch

theorem enqueue_reached (batch : List ExtractedMemory) :
    Reached (hostOf batch) (fun _ _ => True) (holding (queuedRow 1) Store.empty) := by
  refine ⟨[enqueue], Admits.always _ _, ?_⟩
  rw [run_cons, run_nil, enqueue_holding batch rfl]
  rfl

theorem plain_accepted : (snapshotItems [plain] sampleEnvelope).toBool = true := by decide +kernel

theorem plain_passes : ¬ Stopped sampleProcessor "1" sampleEnvelope ⟨1, "2"⟩ [plain] := by
  decide +kernel

theorem plain_written : ((itemsOf [plain]).head?.map fun item =>
    (handleWrite (hostOf [plain]) (inputOf [plain]).service ((inputOf [plain]).writeTick 0)
      sampleEnvelope.context (itemParams sampleProcessor.identity "1" sampleEnvelope ⟨1, "2"⟩ 0 item)
      (holding (savedRow [plain] 1) Store.empty)).map fun r => r.2.outcome) =
    some (.ok .inserted) := by
  decide +kernel

end ReenqueueSample

open ReenqueueSample in
/-- An envelope without proposals is replayed. -/
theorem sample_reenqueued :
    ∃ s' result, processOne (hostOf []) sampleProcessor (inputOf []) (holding (queuedRow 1) Store.empty) =
        (s', .ok result) ∧ result.outcome = .completed ∧
      Replays (hostOf []) sampleProcessor (inputOf []) (queuedRow 2)
        (run (step (hostOf [])) [enqueue] s') (holding (heldRow 2) s') := by
  have accepted : (snapshotItems [] sampleEnvelope).toBool = true := rfl
  have first := jobOf accepted (.inl rfl) Store.empty
  rcases prepareSnapshot_cases first.made (rowIdentity (hostOf []) (queuedRow 1)) with
    ⟨⟨p, mem, -⟩, -⟩ | ⟨-, items, checked, ready⟩
  · cases mem
  obtain rfl : items = [] := (Except.ok.inj checked).symm
  obtain ⟨s', result, done, completed, again⟩ := first_completed accepted ready rfl
  refine ⟨s', result, done, completed, ?_⟩
  have second := jobOf accepted (.inr rfl) s'
  rw [← again] at second
  exact (reenqueued_replays_iff (collisionFree []) (enqueue_reached []) first done completed [enqueue]
    second rfl rfl).2 rfl

open ReenqueueSample ScreenSample in
/-- An envelope with one proposal is processed to completion and queued again.  The second job
makes the same snapshot, and does not replay the first one. -/
theorem second_row_conflicts :
    ∃ s' result, processOne (hostOf [plain]) sampleProcessor (inputOf [plain])
        (holding (queuedRow 1) Store.empty) = (s', .ok result) ∧ result.outcome = .completed ∧
      SnapshotJob (hostOf [plain]) sampleProcessor sampleProcessor (inputOf [plain]) [plain]
        sampleEnvelope (text [plain]) "1" (queuedRow 2) (run (step (hostOf [plain])) [enqueue] s')
        (holding (heldRow 2) s') (holding (savedRow [plain] 2) s') ∧
      ¬ Replays (hostOf [plain]) sampleProcessor (inputOf [plain]) (queuedRow 2)
        (run (step (hostOf [plain])) [enqueue] s') (holding (heldRow 2) s') := by
  have first := jobOf plain_accepted (.inl rfl) Store.empty
  rcases prepareSnapshot_cases first.made (rowIdentity (hostOf [plain]) (queuedRow 1))
    with ⟨stopped, -⟩ | ⟨-, items, checked, ready⟩
  · exact absurd stopped plain_passes
  obtain rfl : items = itemsOf [plain] := by
    rw [itemsOf_made plain_accepted] at checked
    exact (Except.ok.inj checked).symm
  obtain ⟨item, found, wrote⟩ := Option.map_eq_some_iff.1 plain_written
  obtain ⟨others, listed⟩ := List.head?_eq_some_iff.1 found
  obtain rfl : others = [] := by
    have count := (snapshotItems_eq_ok checked).2.length_eq
    rw [listed] at count
    exact List.length_eq_zero_iff.1 (Nat.succ.inj count).symm
  obtain ⟨⟨next, o⟩, written, inserted⟩ := map_eq_ok.1 wrote
  have applied : (appliedBatch (hostOf [plain]) sampleProcessor (inputOf [plain]) sampleEnvelope "1"
      (queuedRow 1) (itemsOf [plain]) (holding (savedRow [plain] 1) Store.empty)).result = .ok () := by
    have accepted : ¬ o.outcome.Refuses := by
      dsimp only at inserted
      rw [inserted]
      decide
    unfold appliedBatch
    rw [listed, itemWrites_cons, applyWrites,
      show rowIdentity (hostOf [plain]) (queuedRow 1) = ⟨1, "2"⟩ from rfl, written]
    dsimp only
    rw [if_neg accepted]
    rfl
  obtain ⟨s', result, done, completed, again⟩ := first_completed plain_accepted ready applied
  have second := jobOf plain_accepted (.inr rfl) s'
  rw [← again] at second
  refine ⟨s', result, done, completed, second, ?_⟩
  rintro ⟨t', result', redone, completed', -⟩
  exact second_not_completed (collisionFree [plain]) (enqueue_reached [plain]) first done completed
    (.of_run _ [enqueue] s') second rfl (List.cons_ne_nil _ _) redone completed'

end Enfold.Laws
