/-
# Laws.ExtractionInvariants -- claims, leases and snapshots over whole runs

Three invariants of the extraction system, each from the effect of one step:

* `Tokens`: no two claims have one token, and a worker's claim is in the journal, so the lease of
  a row belongs to one worker;
* `ClaimsAgree`: whoever claims a row reads the same payload, or one that an erasure has made
  unreadable;
* `Snapshots`: a row has the one snapshot that was persisted for it, or none.

None of them needs the clock: leases may expire, be renewed or be taken over at any reading.
-/
import Enfold.Laws.ExtractionSteps

namespace Enfold.Laws.ExtractionSystem

open Enfold.Theory Enfold.Model Enfold.Model.ExtractionSystem

set_option autoImplicit false

section

variable {host : Host} {setting : Setting} {state state' : State} {action : Action}

/-! ## Rows that move -/

theorem erasedPayload_unreadable (id : Nat) (envelope : ExtractionEnvelope) :
    decodeEnvelope (erasedPayload id) ≠ .ok envelope := by
  intro decoded
  have unread : readEnvelope (erasedPayload id) = none := rfl
  rw [decodeEnvelope, unread] at decoded
  cases decoded

/-- The payload of `q` is that of `r`, or it cannot be decoded. -/
def Continues (r q : QueueRow) : Prop :=
  (q.payload = r.payload ∧ q.payloadHash = r.payloadHash) ∨
    ∀ envelope, decodeEnvelope q.payload ≠ .ok envelope

theorem Continues.refl (r : QueueRow) : Continues r r := .inl ⟨rfl, rfl⟩

theorem Continues.trans {r q q' : QueueRow} (first : Continues r q) (second : Continues q q') :
    Continues r q' := by
  rcases second with ⟨payload, hash⟩ | unreadable
  · rcases first with ⟨payload', hash'⟩ | unreadable
    · exact .inl ⟨payload.trans payload', hash.trans hash'⟩
    · right
      intro envelope
      rw [payload]
      exact unreadable envelope
  · exact .inr unreadable

section Move

variable {q q' : QueueRow} (move : RowMove host state action q q')
include move

theorem RowMove.id : q'.id = q.id := by
  cases move with
  | erases =>
      unfold erasedQueueRow
      split <;> rfl
  | _ => rfl

theorem RowMove.continues : Continues q q' := by
  cases move with
  | erases =>
      unfold erasedQueueRow
      split
      · exact .inr (erasedPayload_unreadable q.id)
      · exact .refl q
  | _ => exact .inl ⟨rfl, rfl⟩

/-- Only the snapshot of a worker changes the snapshot columns. -/
theorem RowMove.proposals : (∃ worker, action = .persist worker) ∨
    q'.proposalJson = q.proposalJson ∧ q'.proposalHash = q.proposalHash := by
  cases move with
  | snapshots => exact .inl ⟨_, rfl⟩
  | erases =>
      right
      unfold erasedQueueRow
      split <;> exact ⟨rfl, rfl⟩
  | _ => exact .inr ⟨rfl, rfl⟩

/-- Only a claim counts an attempt. -/
theorem RowMove.attempts : (∃ worker lease now leaseUntil, action = .claim worker lease now leaseUntil) ∨
    q'.attempts = q.attempts := by
  cases move with
  | leases => exact .inl ⟨_, _, _, _, rfl⟩
  | erases =>
      right
      unfold erasedQueueRow
      split <;> rfl
  | _ => exact .inr rfl

end Move

/-! ## Where claims, phases and snapshots come from -/

/-- A claim was there before, or the step has just made it for a worker that was free. -/
theorem claims_origin (effect : StepEffect setting state action state') {job : Claim}
    (mem : job ∈ state'.claims) :
    job ∈ state.claims ∨
      (∃ worker now leaseUntil, action = .claim worker job.lease now leaseUntil) ∧
        job.row ∈ state.store.extractQueue := by
  cases effect with
  | claims free done =>
      rcases List.mem_cons.1 mem with rfl | old
      · exact .inr ⟨⟨_, _, _, rfl⟩, ((claim_effect done).leased _ rfl).1⟩
      · exact .inl old
  | _ => exact .inl mem

theorem claims_kept (effect : StepEffect setting state action state') {job : Claim}
    (mem : job ∈ state.claims) : job ∈ state'.claims := by
  cases effect with
  | claims => exact List.mem_cons_of_mem _ mem
  | _ => exact mem

theorem persisted_kept (effect : StepEffect setting state action state') {entry : Nat × Json}
    (mem : entry ∈ state.persisted) : entry ∈ state'.persisted := by
  cases effect with
  | persists => exact List.mem_cons_of_mem _ mem
  | _ => exact mem

theorem update_cases {worker other : Nat} {next : Option Phase} {phase : Phase}
    (here : Function.update state.workers worker next other = some phase) :
    (other = worker ∧ next = some phase) ∨ state.workers other = some phase := by
  by_cases same : other = worker
  · rw [same, Function.update_self] at here
    exact .inl ⟨same, here⟩
  · rw [Function.update_of_ne same] at here
    exact .inr here

theorem Shift.job {s : Store} {phase phase' : Phase} (shift : Shift setting s phase phase') :
    phase'.job = phase.job := by
  cases shift <;> rfl

theorem preparePhase_job (job : Claim) (envelope : ExtractionEnvelope) (text hash : String) :
    (preparePhase host job envelope text hash).job = job := by
  unfold preparePhase
  split <;> rfl

/-- A worker's claim is the one it had before the step, or the one the step made. -/
theorem phase_origin (effect : StepEffect setting state action state') {other : Nat} {phase : Phase}
    (here : state'.workers other = some phase) :
    (∃ before, state.workers other = some before ∧ before.job = phase.job) ∨
      (∃ now leaseUntil, action = .claim other phase.job.lease now leaseUntil) ∧
        phase.job ∈ state'.claims := by
  cases effect with
  | idles | calls | searches | renews => exact .inl ⟨phase, here, rfl⟩
  | claims free done =>
      rcases update_cases here with ⟨rfl, now⟩ | before
      · cases now
        exact .inr ⟨⟨_, _, rfl⟩, List.mem_cons_self⟩
      · exact .inl ⟨phase, before, rfl⟩
  | shifts own was shift =>
      rcases update_cases here with ⟨rfl, now⟩ | before
      · cases now
        exact .inl ⟨_, was, shift.job.symm⟩
      · exact .inl ⟨phase, before, rfl⟩
  | persists was done =>
      rcases update_cases here with ⟨rfl, now⟩ | before
      · cases now
        exact .inl ⟨_, was, (preparePhase_job ..).symm⟩
      · exact .inl ⟨phase, before, rfl⟩
  | writeRaises was issued =>
      rcases update_cases here with ⟨rfl, now⟩ | before
      · cases now
        exact .inl ⟨_, was, rfl⟩
      · exact .inl ⟨phase, before, rfl⟩
  | writes was issued done next =>
      rcases update_cases here with ⟨rfl, now⟩ | before
      · cases now
        rcases next with ⟨-, rfl⟩ | ⟨-, rfl⟩
        · exact .inl ⟨_, was, rfl⟩
        · exact .inl ⟨_, was, rfl⟩
      · exact .inl ⟨phase, before, rfl⟩
  | completes was all done =>
      rcases update_cases here with ⟨-, now⟩ | before
      · cases now
      · exact .inl ⟨phase, before, rfl⟩
  | records was done =>
      rcases update_cases here with ⟨-, now⟩ | before
      · cases now
      · exact .inl ⟨phase, before, rfl⟩
  | leaves own =>
      rcases update_cases here with ⟨-, now⟩ | before
      · cases now
      · exact .inl ⟨phase, before, rfl⟩

/-! ## Tokens -/

structure Tokens (state : State) : Prop where
  distinct : (state.claims.map fun job => job.lease.token).Nodup
  claimed : ∀ worker phase, state.workers worker = some phase → phase.job ∈ state.claims
  /-- Workers with one token are one worker. -/
  apart : ∀ worker worker' phase phase', state.workers worker = some phase →
    state.workers worker' = some phase' → phase.job.lease.token = phase'.job.lease.token →
    worker = worker'

theorem tokens_initial : Tokens .initial :=
  ⟨List.nodup_nil, fun _ _ here => (by cases here), fun _ _ _ _ here => (by cases here)⟩

theorem tokens_step (admitted : Admitted action state)
    (effect : StepEffect setting state action state') (tokens : Tokens state) : Tokens state' := by
  refine ⟨?_, fun worker phase here => ?_, fun worker worker' phase phase' here here' same => ?_⟩
  · cases effect with
    | claims free done =>
        refine List.nodup_cons.2 ⟨fun mem => ?_, tokens.distinct⟩
        obtain ⟨job, old, used⟩ := List.mem_map.1 mem
        exact admitted job old used
    | _ => exact tokens.distinct
  · rcases phase_origin effect here with ⟨before, was, same⟩ | ⟨-, mem⟩
    · rw [← same]
      exact claims_kept effect (tokens.claimed worker before was)
    · exact mem
  · rcases phase_origin effect here with ⟨before, was, job⟩ | ⟨⟨_, _, made⟩, -⟩
    · rcases phase_origin effect here' with ⟨before', was', job'⟩ | ⟨⟨_, _, made'⟩, -⟩
      · rw [← job, ← job'] at same
        exact tokens.apart worker worker' before before' was was' same
      · rw [made'] at admitted
        rw [← job] at same
        exact absurd same (admitted _ (tokens.claimed worker before was))
    · rcases phase_origin effect here' with ⟨before', was', job'⟩ | ⟨⟨_, _, made'⟩, -⟩
      · rw [made] at admitted
        rw [← job'] at same
        exact absurd same.symm (admitted _ (tokens.claimed worker' before' was'))
      · rw [made] at made'
        exact (Action.claim.inj made').1

/-! ## Payloads -/

/-- Claims of one row whose payloads can be read have read one payload. -/
def SamePayload (job job' : Claim) : Prop :=
  ∀ envelope envelope', decodeEnvelope job.row.payload = .ok envelope →
    decodeEnvelope job'.row.payload = .ok envelope' →
    job.row.payload = job'.row.payload ∧ job.row.payloadHash = job'.row.payloadHash

theorem SamePayload.symm {job job' : Claim} (same : SamePayload job job') : SamePayload job' job := by
  intro envelope envelope' decoded decoded'
  obtain ⟨payload, hash⟩ := same envelope' envelope decoded' decoded
  exact ⟨payload.symm, hash.symm⟩

theorem SamePayload.of_continues {job job' : Claim} (continues : Continues job.row job'.row) :
    SamePayload job job' := by
  intro envelope envelope' decoded decoded'
  rcases continues with ⟨payload, hash⟩ | unreadable
  · exact ⟨payload.symm, hash.symm⟩
  · exact absurd decoded' (unreadable envelope')

structure ClaimsAgree (state : State) : Prop where
  bounded : ∀ job ∈ state.claims, job.row.id ≤ state.store.queueSequence
  current : ∀ job ∈ state.claims, ∀ q ∈ state.store.extractQueue, q.id = job.row.id →
    Continues job.row q
  alike : ∀ job ∈ state.claims, ∀ job' ∈ state.claims, job.row.id = job'.row.id →
    SamePayload job job'

theorem claimsAgree_initial : ClaimsAgree .initial :=
  ⟨fun _ mem => absurd mem List.not_mem_nil, fun _ mem => absurd mem List.not_mem_nil,
    fun _ mem => absurd mem List.not_mem_nil⟩

/-- A claimed row was in the queue, or had been claimed before. -/
theorem claimsAgree_step (admitted : Admitted action state)
    (effect : StepEffect setting state action state') (ids : IdsBounded state.store)
    (agree : ClaimsAgree state) : ClaimsAgree state' := by
  have queue := effect_queue admitted effect
  have issued : ∀ job ∈ state'.claims, job.row.id ≤ state.store.queueSequence := by
    intro job mem
    rcases claims_origin effect mem with old | ⟨-, queued⟩
    · exact agree.bounded job old
    · exact ids job.row queued
  refine ⟨fun job mem => (issued job mem).trans (effect_ids effect).sequence, ?_, ?_⟩
  · intro job mem q' memQ same
    rcases queue.origin q' memQ with new | ⟨q, memOld, move⟩
    · have below := issued job mem
      have above := new.id
      omega
    · refine Continues.trans ?_ move.continues
      have sameOld : q.id = job.row.id := move.id.symm.trans same
      rcases claims_origin effect mem with old | ⟨-, queued⟩
      · exact agree.current job old q memOld sameOld
      · rw [Table.eq_of_key memOld queued sameOld]
        exact .refl job.row
  · intro job mem job' mem' same
    rcases claims_origin effect mem with old | ⟨-, queued⟩
    · rcases claims_origin effect mem' with old' | ⟨-, queued'⟩
      · exact agree.alike job old job' old' same
      · exact .of_continues (agree.current job old job'.row queued' same.symm)
    · rcases claims_origin effect mem' with old' | ⟨-, queued'⟩
      · exact (SamePayload.of_continues (agree.current job' old' job.row queued same)).symm
      · refine .of_continues ?_
        rw [Table.eq_of_key queued queued' same]
        exact .refl job'.row

/-! ## Snapshots -/

/-- The row has the snapshot of the journal, or neither has one. -/
def Snapshotted (host : Host) (persisted : List (Nat × Json)) (q : QueueRow) : Prop :=
  ((q.proposalJson = none ∧ q.proposalHash = none) ∧ ∀ document, (q.id, document) ∉ persisted) ∨
    ∃ document, (q.id, document) ∈ persisted ∧ q.proposalJson = some document ∧
      q.proposalHash = some (host.sha256 (Json.dumps .unicode document))

structure Snapshots (host : Host) (state : State) : Prop where
  rows : ∀ q ∈ state.store.extractQueue, Snapshotted host state.persisted q
  /-- One snapshot for each row. -/
  once : (state.persisted.map Prod.fst).Nodup
  bounded : ∀ entry ∈ state.persisted, entry.1 ≤ state.store.queueSequence

theorem snapshots_initial : Snapshots host .initial :=
  ⟨fun q mem => absurd mem (Table.not_mem_empty q), List.nodup_nil,
    fun _ mem => absurd mem List.not_mem_nil⟩

/-- A step that persists nothing keeps the snapshots. -/
theorem snapshots_kept (queue : QueueStep setting.host state action state'.store)
    (other : ∀ worker, action ≠ .persist worker) (same : state'.persisted = state.persisted)
    (sequence : state.store.queueSequence ≤ state'.store.queueSequence)
    (snapshots : Snapshots setting.host state) : Snapshots setting.host state' := by
  refine ⟨fun q' mem => ?_, by rw [same]; exact snapshots.once, fun entry mem => ?_⟩
  · rw [same]
    rcases queue.origin q' mem with new | ⟨q, old, move⟩
    · refine .inl ⟨new.bare, fun document persisted => ?_⟩
      have below : q'.id ≤ state.store.queueSequence := snapshots.bounded _ persisted
      have above := new.id
      omega
    · obtain ⟨document, hash⟩ := move.proposals.resolve_left fun ⟨worker, made⟩ => other worker made
      unfold Snapshotted
      rw [move.id, document, hash]
      exact snapshots.rows q old
  · rw [same] at mem
    exact (snapshots.bounded entry mem).trans sequence

theorem snapshots_step (admitted : Admitted action state)
    (effect : StepEffect setting state action state') (ids : IdsBounded state.store)
    (snapshots : Snapshots setting.host state) : Snapshots setting.host state' := by
  have queue := effect_queue admitted effect
  have sequence := (effect_ids effect).sequence
  cases effect with
  | idles => exact snapshots
  | @persists worker job envelope document store result here done =>
      obtain ⟨q, edit, bare, -⟩ := persistSnapshot_effect done
      have unsaved : ∀ document, (job.row.id, document) ∉ state.persisted := by
        intro document persisted
        rw [← edit.here] at persisted
        rcases snapshots.rows q edit.mem with ⟨-, none⟩ | ⟨document', -, saved, -⟩
        · exact none document persisted
        · rw [bare] at saved
          cases saved
      refine ⟨fun q' mem => ?_, ?_, fun entry mem => ?_⟩
      · rcases (edit.patch q').1 mem with new | ⟨old, other⟩
        · obtain rfl := List.mem_singleton.1 new
          refine .inr ⟨document, ?_, rfl, rfl⟩
          show (q.id, document) ∈ _
          rw [edit.here]
          exact List.mem_cons_self
        · have apart : q'.id ≠ job.row.id := by
            simpa [snapshotRow, edit.here] using other
          rcases snapshots.rows q' old with ⟨blank, none⟩ | ⟨document', persisted, saved⟩
          · refine .inl ⟨blank, fun document' persisted => ?_⟩
            rcases List.mem_cons.1 persisted with same | before
            · exact apart (Prod.mk.inj same).1
            · exact none document' before
          · exact .inr ⟨document', List.mem_cons_of_mem _ persisted, saved⟩
      · refine List.nodup_cons.2 ⟨fun mem => ?_, snapshots.once⟩
        obtain ⟨entry, old, same⟩ := List.mem_map.1 mem
        have here : entry.1 = job.row.id := same
        exact unsaved entry.2 (here ▸ old)
      · refine le_trans ?_ sequence
        rcases List.mem_cons.1 mem with rfl | old
        · have below := ids q edit.mem
          rwa [edit.here] at below
        · exact snapshots.bounded entry old
  | shifts own here shift =>
      refine ⟨snapshots.rows, snapshots.once, snapshots.bounded⟩
  | leaves own => exact ⟨snapshots.rows, snapshots.once, snapshots.bounded⟩
  | _ => exact snapshots_kept queue (fun _ => by simp) rfl sequence snapshots

/-- What a worker loads is the snapshot of its row. -/
theorem loadSnapshot_persisted (snapshots : Snapshots host state) {id : Nat} {lease : Lease}
    {text hash : String} (found : loadSnapshot id lease state.store = .ok (some (text, hash))) :
    ∃ document, (id, document) ∈ state.persisted ∧ text = Json.dumps .unicode document ∧
      hash = host.sha256 (Json.dumps .unicode document) := by
  unfold loadSnapshot at found
  split at found
  · cases found
  · rename_i row rest selected
    have mem : row ∈ state.store.extractQueue.select fun q => q.id = id ∧ q.HeldBy lease :=
      selected ▸ List.mem_cons_self
    obtain ⟨queued, here, -⟩ := Table.mem_select.1 mem
    split at found
    · cases found
    · rename_i document hash' json saved
      cases found
      rcases snapshots.rows row queued with ⟨⟨none, -⟩, -⟩ | ⟨document', persisted, json', saved'⟩
      · rw [json] at none
        cases none
      · rw [json] at json'
        rw [saved] at saved'
        cases json'
        cases saved'
        exact ⟨document, here ▸ persisted, rfl, rfl⟩
    · cases found

end

end Enfold.Laws.ExtractionSystem
