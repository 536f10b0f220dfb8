/-
# Laws.ExactlyOnce -- a queued row applies one snapshot once

A stale worker goes on writing after it has lost its lease, while the next worker replays the same
batch.  Both write from the one snapshot of the row (`WritesSound`), so their writes of one
proposal have one key, and the second is answered from the log.  Nobody deletes the row but a worker
that holds it and has seen every write of the batch accepted, and an accepted write stays in the
log (`NoRowLost`).

`applied_once` puts this together for every state that any interleaving of workers, crashes and
calls of other clients reaches.
-/
import Enfold.Laws.ExtractionInvariants

namespace Enfold.Laws.ExtractionSystem

open Enfold.Theory Enfold.Model Enfold.Model.ExtractionSystem

set_option autoImplicit false

/-! ## Log rows of a write -/

/-- The log row is the one of a request with these parameters. -/
def Answers (context : ClientContext) (params : Json) (l : WriteLogRow) : Prop :=
  l.clientId = strip context.clientId ∧
    ∃ key, field "idempotency_key" params = .str key ∧ l.idempotencyKey = strip key

/-- The log has a row for the request. -/
def Answered (context : ClientContext) (params : Json) (s : Store) : Prop :=
  ∃ l ∈ s.writeLog, Answers context params l

/-- The log has a row for the request, and the outcome is not a refusal. -/
def Accepted (context : ClientContext) (params : Json) (s : Store) : Prop :=
  ∃ l ∈ s.writeLog, Answers context params l ∧ ¬ l.outcome.Refuses

section Log

variable {context : ClientContext} {params : Json} {s s' : Store}

theorem Answered.kept (answered : Answered context params s)
    (log : ∀ l ∈ s.writeLog, Remains l s') : Answered context params s' := by
  obtain ⟨l, mem, client, key, named, same⟩ := answered
  obtain ⟨l', mem', client', key', -⟩ := log l mem
  exact ⟨l', mem', client'.trans client, key, named, key'.trans same⟩

theorem Accepted.kept (accepted : Accepted context params s)
    (log : ∀ l ∈ s.writeLog, Remains l s') : Accepted context params s' := by
  obtain ⟨l, mem, ⟨client, key, named, same⟩, passed⟩ := accepted
  obtain ⟨l', mem', client', key', outcome⟩ := log l mem
  exact ⟨l', mem', ⟨client'.trans client, key, named, key'.trans same⟩, by rwa [outcome]⟩

/-- A request has one log row. -/
theorem answers_unique {l l' : WriteLogRow} (mem : l ∈ s.writeLog) (mem' : l' ∈ s.writeLog)
    (answers : Answers context params l) (answers' : Answers context params l') : l = l' := by
  obtain ⟨client, key, named, same⟩ := answers
  obtain ⟨client', key', named', same'⟩ := answers'
  rw [named] at named'
  cases named'
  exact Table.eq_of_key mem mem' (Prod.ext (client.trans client'.symm) (same.trans same'.symm))

variable {host : Host} {service : MemoryWriteService} {tick : Tick} {o : WriteOutcome}

theorem handleWrite_answered
    (done : handleWrite host service tick context params s = .ok (s', o)) :
    ∃ l ∈ s'.writeLog, Answers context params l ∧ l.outcome = o.outcome := by
  obtain ⟨l, mem, client, key, answer⟩ := handleWrite_logs done
  exact ⟨l, mem, ⟨client, key⟩, (make_eq_ok answer).2.1.symm⟩

/-- A write that is no replay had no row in the log. -/
theorem handleWrite_fresh
    (done : handleWrite host service tick context params s = .ok (s', o)) (new : o.replayed = false) :
    ¬ Answered context params s := by
  rintro ⟨l, mem, client, key, named, same⟩
  obtain ⟨call, issued, called⟩ := handleWrite_eq_ok done
  obtain ⟨effective, authorized, -, -, cases⟩ := write_cases called
  obtain ⟨scopes, nonempty, narrowed⟩ := authorizeContext_eq_ok authorized
  obtain ⟨key', named', same'⟩ := issued.key
  rw [named] at named'
  cases named'
  have found : loadPrior s effective.clientId call.request.idempotencyKey = some l := by
    refine Table.get?_eq_some.2 ⟨mem, Prod.ext ?_ (same.trans same'.symm)⟩
    rw [narrowed]
    exact client.trans issued.client.symm
  cases cases with
  | replay prior found' sameHash answer frame clients =>
      rw [(make_eq_ok answer).2.2.2.2.2.1] at new
      cases new
  | factless s₀ decision fresh registered decided frame logged answer =>
      rw [found] at fresh
      cases fresh
  | typed s₀ s₁ observationId effective' d applied fresh registered decided recorded observed accepted
      branch finished =>
      rw [found] at fresh
      cases fresh
  | untyped s₀ s₁ observationId near applied fresh registered decided recorded observed searched
      accepted branch finished =>
      rw [found] at fresh
      cases fresh

end Log

/-! ## Batches -/

section

variable {host : Host} {setting : Setting} {state state' : State} {action : Action}

/-- The batch that a claim prepares from a snapshot. -/
structure Batch (host : Host) (job : Claim) (envelope : ExtractionEnvelope) (document : Json)
    (prepared : List Json) : Prop where
  decoded : decodeEnvelope job.row.payload = .ok envelope
  ready : prepareSnapshot host (Json.dumps .unicode document)
    (host.sha256 (Json.dumps .unicode document)) envelope (job.identity host) = .ok prepared

/-- The batch was made from the snapshot that the journal has for the row. -/
def Prepared (host : Host) (state : State) (job : Claim) (envelope : ExtractionEnvelope)
    (prepared : List Json) : Prop :=
  ∃ document, (job.row.id, document) ∈ state.persisted ∧ Batch host job envelope document prepared

theorem Prepared.kept {job : Claim} {envelope : ExtractionEnvelope} {batch : List Json}
    (prepared : Prepared host state job envelope batch)
    (effect : StepEffect setting state action state') : Prepared host state' job envelope batch := by
  obtain ⟨document, persisted, made⟩ := prepared
  exact ⟨document, persisted_kept effect persisted, made⟩

/-- Claims of one row prepare one batch, under one envelope. -/
theorem Prepared.unique {job job' : Claim} {envelope envelope' : ExtractionEnvelope}
    {batch batch' : List Json} (agree : ClaimsAgree state) (snapshots : Snapshots host state)
    (mem : job ∈ state.claims) (mem' : job' ∈ state.claims) (same : job.row.id = job'.row.id)
    (prepared : Prepared host state job envelope batch)
    (prepared' : Prepared host state job' envelope' batch') :
    envelope = envelope' ∧ batch = batch' := by
  obtain ⟨document, persisted, decoded, ready⟩ := prepared
  obtain ⟨document', persisted', decoded', ready'⟩ := prepared'
  obtain ⟨payload, hash⟩ := agree.alike job mem job' mem' same envelope envelope' decoded decoded'
  rw [payload, decoded'] at decoded
  cases decoded
  have one : (job.row.id, document) = (job'.row.id, document') :=
    List.inj_on_of_nodup_map snapshots.once persisted persisted' same
  obtain rfl := (Prod.mk.inj one).2
  have identity : job.identity host = job'.identity host := by
    unfold Claim.identity rowDigest
    rw [same, payload, hash]
  rw [identity, ready'] at ready
  exact ⟨rfl, (Except.ok.inj ready).symm⟩

/-! ## Workers in the middle of a job -/

/-- What a worker has read and done so far. -/
def PhaseSound (host : Host) (state : State) : Phase → Prop
  | .claimed _ | .failing _ _ => True
  | .extracting job envelope | .extracted job envelope _ =>
      decodeEnvelope job.row.payload = .ok envelope
  | .writing job envelope prepared index =>
      Prepared host state job envelope prepared ∧
        ∀ i < index, ∀ params, prepared[i]? = some params → Accepted envelope.context params state.store

def PhasesSound (host : Host) (state : State) : Prop :=
  ∀ worker phase, state.workers worker = some phase → PhaseSound host state phase

theorem PhaseSound.kept {phase : Phase} (sound : PhaseSound host state phase)
    (effect : StepEffect setting state action state') : PhaseSound host state' phase := by
  cases phase with
  | writing job envelope prepared index =>
      refine ⟨sound.1.kept effect, fun i small params here => ?_⟩
      exact (sound.2 i small params here).kept (effect_log effect)
  | _ => exact sound

/-- Nothing of a batch that has just been prepared is written. -/
theorem preparePhase_sound {job : Claim} {envelope : ExtractionEnvelope} {document : Json}
    (decoded : decodeEnvelope job.row.payload = .ok envelope)
    (persisted : (job.row.id, document) ∈ state.persisted) :
    PhaseSound host state (preparePhase host job envelope (Json.dumps .unicode document)
      (host.sha256 (Json.dumps .unicode document))) := by
  unfold preparePhase
  split
  · trivial
  · rename_i prepared ready
    exact ⟨⟨document, persisted, decoded, ready⟩, fun i small => absurd small (Nat.not_lt_zero i)⟩

theorem shift_sound {phase phase' : Phase} (snapshots : Snapshots setting.host state)
    (shift : Shift setting state.store phase phase') (sound : PhaseSound setting.host state phase) :
    PhaseSound setting.host state phase' := by
  cases shift with
  | opens decoded bare => exact decoded
  | resumes decoded found ready =>
      obtain ⟨document, persisted, rfl, rfl⟩ := loadSnapshot_persisted snapshots found
      exact ⟨⟨document, persisted, decoded, ready⟩, fun i small => absurd small (Nat.not_lt_zero i)⟩
  | answered made => exact sound
  | fails => trivial

theorem phasesSound_step (effect : StepEffect setting state action state')
    (snapshots : Snapshots setting.host state) (sound : PhasesSound setting.host state) :
    PhasesSound setting.host state' := by
  have others : ∀ {other : Nat} {phase : Phase}, state.workers other = some phase →
      PhaseSound setting.host state' phase :=
    fun before => (sound _ _ before).kept effect
  intro other phase here
  cases effect with
  | idles | calls | searches | renews => exact others here
  | claims free done =>
      rcases update_cases here with ⟨-, now⟩ | before
      · cases now
        trivial
      · exact others before
  | shifts own was shift =>
      rcases update_cases here with ⟨-, now⟩ | before
      · cases now
        exact (shift_sound snapshots shift (sound _ _ was)).kept (.shifts own was shift)
      · exact others before
  | persists was done =>
      rcases update_cases here with ⟨-, now⟩ | before
      · cases now
        exact preparePhase_sound (sound _ _ was) List.mem_cons_self
      · exact others before
  | writeRaises was issued =>
      rcases update_cases here with ⟨-, now⟩ | before
      · cases now
        trivial
      · exact others before
  | @writes worker service tick job envelope prepared index params store outcome next was issued done
      goes =>
      rcases update_cases here with ⟨-, now⟩ | before
      · cases now
        rcases goes with ⟨-, rfl⟩ | ⟨passed, rfl⟩
        · trivial
        · obtain ⟨written, before⟩ := others was
          refine ⟨written, fun i small params' here' => ?_⟩
          rcases Nat.lt_succ_iff_lt_or_eq.1 small with earlier | rfl
          · exact before i earlier params' here'
          · rw [issued] at here'
            cases here'
            obtain ⟨l, mem, answers, outcome⟩ := handleWrite_answered done
            exact ⟨l, mem, answers, by rwa [outcome]⟩
      · exact others before
  | completes was all done =>
      rcases update_cases here with ⟨-, now⟩ | before
      · cases now
      · exact others before
  | records was done =>
      rcases update_cases here with ⟨-, now⟩ | before
      · cases now
      · exact others before
  | leaves own =>
      rcases update_cases here with ⟨-, now⟩ | before
      · cases now
      · exact others before

/-! ## The writes of a row -/

/-- An issued write is the one of its index in a batch of its row, and an answered one is in the
log. -/
structure WriteSound (host : Host) (state : State) (w : IssuedWrite) : Prop where
  claimed : w.job ∈ state.claims
  issued : ∃ prepared, Prepared host state w.job w.envelope prepared ∧
    prepared[w.index]? = some w.params
  answered : w.answer ≠ none → Answered w.envelope.context w.params state.store

theorem WriteSound.kept {w : IssuedWrite} (sound : WriteSound host state w)
    (effect : StepEffect setting state action state') : WriteSound host state' w := by
  obtain ⟨prepared, made, here⟩ := sound.issued
  exact ⟨claims_kept effect sound.claimed, ⟨prepared, made.kept effect, here⟩,
    fun some => (sound.answered some).kept (effect_log effect)⟩

/-- Writes of one proposal are one request. -/
theorem WriteSound.unique {w w' : IssuedWrite} (agree : ClaimsAgree state)
    (snapshots : Snapshots host state) (sound : WriteSound host state w)
    (sound' : WriteSound host state w') (row : w.job.row.id = w'.job.row.id)
    (index : w.index = w'.index) : w.envelope = w'.envelope ∧ w.params = w'.params := by
  obtain ⟨prepared, made, here⟩ := sound.issued
  obtain ⟨prepared', made', here'⟩ := sound'.issued
  obtain ⟨envelope, rfl⟩ :=
    made.unique agree snapshots sound.claimed sound'.claimed row made'
  rw [index, here'] at here
  exact ⟨envelope, (Option.some.inj here).symm⟩

/-- The proposal a write is for. -/
def itemOf (w : IssuedWrite) : Nat × Nat := (w.job.row.id, w.index)

/-- The write was answered by what it did, not from the log. -/
def Applied (w : IssuedWrite) : Prop := ∃ o, w.answer = some o ∧ o.replayed = false

structure WritesSound (host : Host) (state : State) : Prop where
  each : ∀ w ∈ state.writes, WriteSound host state w
  once : state.writes.Pairwise fun w w' => Applied w → Applied w' → itemOf w ≠ itemOf w'

/-- An applied write has left its row in the log, which refuses a second write of the proposal. -/
theorem writesSound_step (effect : StepEffect setting state action state') (tokens : Tokens state)
    (agree : ClaimsAgree state) (snapshots : Snapshots setting.host state)
    (phases : PhasesSound setting.host state) (sound : WritesSound setting.host state) :
    WritesSound setting.host state' := by
  have others : ∀ w ∈ state.writes, WriteSound setting.host state' w :=
    fun w mem => (sound.each w mem).kept effect
  cases effect with
  | @writeRaises worker service tick job envelope prepared index params e was issued =>
      have claimed := tokens.claimed worker _ was
      refine ⟨fun w mem => ?_, List.pairwise_cons.2 ⟨?_, sound.once⟩⟩
      · rcases List.mem_cons.1 mem with rfl | old
        · exact ⟨claimed, ⟨prepared, (phases worker _ was).1, issued⟩, fun some => absurd rfl some⟩
        · exact others w old
      · rintro w - ⟨o, raised, -⟩
        cases raised
  | @writes worker service tick job envelope prepared index params store outcome next was issued done
      goes =>
      have claimed := tokens.claimed worker _ was
      have written : Prepared setting.host state job envelope prepared := (phases worker _ was).1
      refine ⟨fun w mem => ?_, List.pairwise_cons.2 ⟨?_, sound.once⟩⟩
      · rcases List.mem_cons.1 mem with rfl | old
        · obtain ⟨l, inLog, answers, -⟩ := handleWrite_answered done
          exact ⟨claimed, ⟨prepared, written, issued⟩, fun _ => ⟨l, inLog, answers⟩⟩
        · exact others w old
      · rintro w mem ⟨o, now, new⟩ ⟨o', before, -⟩ same
        cases now
        have issuing : WriteSound setting.host state ⟨job, envelope, index, params, none⟩ :=
          ⟨claimed, ⟨prepared, written, issued⟩, fun some => absurd rfl some⟩
        obtain ⟨sameEnvelope, sameParams⟩ := issuing.unique agree snapshots (sound.each w mem)
          (Prod.mk.inj same).1 (Prod.mk.inj same).2
        have answered := (sound.each w mem).answered (by rw [before]; simp)
        rw [← sameEnvelope, ← sameParams] at answered
        exact handleWrite_fresh done new answered
  | _ => exact ⟨others, sound.once⟩

/-! ## Rows that have left the queue -/

/-- Every proposal of the row's snapshot has an accepted row in the log. -/
def Done (host : Host) (state : State) (id : Nat) : Prop :=
  ∃ job ∈ state.claims, job.row.id = id ∧ ∃ envelope prepared,
    Prepared host state job envelope prepared ∧
    ∀ params ∈ prepared, Accepted envelope.context params state.store

theorem Done.kept {id : Nat} (done : Done host state id)
    (effect : StepEffect setting state action state') : Done host state' id := by
  obtain ⟨job, mem, here, envelope, prepared, made, accepted⟩ := done
  exact ⟨job, claims_kept effect mem, here, envelope, prepared, made.kept effect,
    fun params listed => (accepted params listed).kept (effect_log effect)⟩

/-- Every id that was issued is that of a row in the queue, or its row is done. -/
def NoRowLost (host : Host) (state : State) : Prop :=
  ∀ id, 0 < id → id ≤ state.store.queueSequence →
    (∃ q ∈ state.store.extractQueue, q.id = id) ∨ Done host state id

/-- A row that its worker completes is done. -/
theorem done_of_completes {q : QueueRow} (tokens : Tokens state)
    (phases : PhasesSound setting.host state) (completes : Completes state action q) :
    Done setting.host state q.id := by
  obtain ⟨worker, job, envelope, prepared, index, -, was, all, same, -⟩ := completes
  obtain ⟨made, accepted⟩ := phases worker _ was
  refine ⟨job, tokens.claimed worker _ was, same, envelope, prepared, made, fun params listed => ?_⟩
  obtain ⟨i, here⟩ := List.mem_iff_getElem?.1 listed
  obtain ⟨small, -⟩ := List.getElem?_eq_some_iff.1 here
  exact accepted i (Nat.lt_of_lt_of_le small all) params here

theorem noRowLost_step (admitted : Admitted action state)
    (effect : StepEffect setting state action state') (tokens : Tokens state)
    (phases : PhasesSound setting.host state) (kept : NoRowLost setting.host state) :
    NoRowLost setting.host state' := by
  have queue := effect_queue admitted effect
  intro id positive below
  by_cases old : id ≤ state.store.queueSequence
  · rcases kept id positive old with ⟨q, mem, here⟩ | done
    · rcases queue.stays q mem with ⟨q', mem', move⟩ | completes
      · exact .inl ⟨q', mem', move.id.trans here⟩
      · right
        rw [← here]
        exact (done_of_completes tokens phases completes).kept effect
    · exact .inr (done.kept effect)
  · exact .inl (queue.issued id (Nat.lt_of_not_le old) below)

/-! ## Who may change a row -/

/-- A worker that changes or deletes a row, other than by a claim, holds it. -/
theorem holds_of_changed (admitted : Admitted action state)
    (effect : StepEffect setting state action state') {worker : Nat}
    (own : workerOf action = some worker)
    (working : ∀ lease now leaseUntil, action ≠ .claim worker lease now leaseUntil) {q : QueueRow}
    (mem : q ∈ state.store.extractQueue) (changed : q ∉ state'.store.extractQueue) :
    Holds state worker q := by
  rcases (effect_queue admitted effect).stays q mem with ⟨q', mem', move⟩ | completes
  · cases move with
    | passes => exact absurd mem' changed
    | erases => cases own
    | buries | leases =>
        cases own
        exact absurd rfl (working _ _ _)
    | renews holds | snapshots document holds | fails errorCode dead holds =>
        cases own
        exact holds
  · obtain ⟨worker', job, envelope, prepared, index, rfl, was, -, same, held⟩ := completes
    cases own
    exact ⟨_, was, same, held⟩

/-- A claim changes a row only when it is pending or its lease has expired. -/
theorem due_of_changed {worker : Nat} {lease : Lease} {now leaseUntil : Decimal}
    (admitted : Admitted (.claim worker lease now leaseUntil) state)
    (effect : StepEffect setting state (.claim worker lease now leaseUntil) state') {q : QueueRow}
    (mem : q ∈ state.store.extractQueue) (changed : q ∉ state'.store.extractQueue) :
    q.status = .pending ∨ q.Expired now := by
  rcases (effect_queue admitted effect).stays q mem with ⟨q', mem', move⟩ | completes
  · cases move with
    | passes => exact absurd mem' changed
    | buries expired => exact .inr expired
    | leases due => exact due
  · obtain ⟨_, _, _, _, _, same, -⟩ := completes
    cases same

/-- A row is held by one worker. -/
theorem holds_unique (tokens : Tokens state) {worker worker' : Nat} {q : QueueRow}
    (holds : Holds state worker q) (holds' : Holds state worker' q) : worker = worker' := by
  obtain ⟨phase, was, -, -, -, token⟩ := holds
  obtain ⟨phase', was', -, -, -, token'⟩ := holds'
  rw [token] at token'
  exact tokens.apart worker worker' phase phase' was was' (Option.some.inj token')

end

/-! ## Every reachable state -/

structure Invariant (host : Host) (state : State) : Prop where
  tokens : Tokens state
  agree : ClaimsAgree state
  snapshots : Snapshots host state
  phases : PhasesSound host state
  writes : WritesSound host state
  rows : NoRowLost host state

theorem invariant_initial (host : Host) : Invariant host .initial where
  tokens := tokens_initial
  agree := claimsAgree_initial
  snapshots := snapshots_initial
  phases _ _ here := by cases here
  writes := ⟨fun _ mem => absurd mem List.not_mem_nil, List.Pairwise.nil⟩
  rows _ positive below := absurd below (Nat.not_le.2 positive)

theorem invariant_reached {setting : Setting} {state : State}
    (reached : Reachable (advance setting) Admitted .initial state) :
    Invariant setting.host state := by
  refine (reached.induction (P := fun state : State =>
    Invariant setting.host state ∧ Reached setting.host (fun _ _ => True) state.store)
    ⟨invariant_initial setting.host, .refl⟩ ?_).1
  rintro action state admitted ⟨invariant, reached⟩
  have effect := advance_effect setting action state
  have ids := ids_bounded reached
  refine ⟨?_, effect_reached effect reached⟩
  exact
    { tokens := tokens_step admitted effect invariant.tokens
      agree := claimsAgree_step admitted effect ids invariant.agree
      snapshots := snapshots_step admitted effect ids invariant.snapshots
      phases := phasesSound_step effect invariant.snapshots invariant.phases
      writes := writesSound_step effect invariant.tokens invariant.agree invariant.snapshots
        invariant.phases invariant.writes
      rows := noRowLost_step admitted effect invariant.tokens invariant.phases invariant.rows }

/-- One snapshot is applied once. -/
structure AppliedOnce (setting : Setting) (state : State) : Prop where
  /-- At most one snapshot is persisted for a row. -/
  oneSnapshot : (state.persisted.map Prod.fst).Nodup
  /-- Every write that was issued for a row is the one of its index in the batch of the snapshot. -/
  fromSnapshot : ∀ w ∈ state.writes, ∃ prepared,
    Prepared setting.host state w.job w.envelope prepared ∧ prepared[w.index]? = some w.params
  /-- The writes of one proposal have at most one row in the log. -/
  oneRow : ∀ w ∈ state.writes, ∀ w' ∈ state.writes, itemOf w = itemOf w' →
    ∀ l ∈ state.store.writeLog, ∀ l' ∈ state.store.writeLog,
      Answers w.envelope.context w.params l → Answers w'.envelope.context w'.params l' → l = l'
  /-- At most one of them was applied; the others were replays or raised. -/
  oneApplied : state.writes.Pairwise fun w w' => Applied w → Applied w' → itemOf w ≠ itemOf w'
  /-- Whatever a worker does next, other than claiming: a row that it changes or deletes is held
  under its lease, and under that of no other worker. -/
  fenced : ∀ action worker, Admitted action state → workerOf action = some worker →
    (∀ lease now leaseUntil, action ≠ .claim worker lease now leaseUntil) →
    ∀ q ∈ state.store.extractQueue, q ∉ (advance setting action state).store.extractQueue →
      Holds state worker q ∧ ∀ other, Holds state other q → other = worker
  /-- A claim changes no row under a lease that is still running. -/
  taken : ∀ worker lease now leaseUntil, Admitted (.claim worker lease now leaseUntil) state →
    ∀ q ∈ state.store.extractQueue,
      q ∉ (advance setting (.claim worker lease now leaseUntil) state).store.extractQueue →
      q.status = .pending ∨ q.Expired now
  /-- A row has left the queue only after every proposal of its snapshot was accepted. -/
  completed : ∀ id, 0 < id → Gone id state.store → Done setting.host state id

/-- Over any interleaving of workers, crashes and other clients, one snapshot of a row is applied
once. -/
theorem applied_once {setting : Setting} {state : State}
    (reached : Reachable (advance setting) Admitted .initial state) : AppliedOnce setting state := by
  have invariant := invariant_reached reached
  refine ⟨invariant.snapshots.once, fun w mem => (invariant.writes.each w mem).issued, ?_,
    invariant.writes.once, ?_, fun _ _ _ _ admitted _ mem changed =>
      due_of_changed admitted (advance_effect setting _ state) mem changed, ?_⟩
  · intro w mem w' mem' same l inLog l' inLog' answers answers'
    obtain ⟨envelope, params⟩ := (invariant.writes.each w mem).unique invariant.agree
      invariant.snapshots (invariant.writes.each w' mem') (Prod.mk.inj same).1 (Prod.mk.inj same).2
    rw [envelope, params] at answers
    exact answers_unique inLog inLog' answers answers'
  · intro action worker admitted own working q mem changed
    have holds := holds_of_changed admitted (advance_effect setting action state) own working mem changed
    exact ⟨holds, fun other holds' => holds_unique invariant.tokens holds' holds⟩
  · intro id positive gone
    rcases invariant.rows id positive gone.1 with ⟨q, mem, here⟩ | done
    · exact absurd here (gone.2 q mem)
    · exact done

/-! ## A worker that is taken over -/

/-- The token under which an action claims. -/
def claimToken : Action → Option String
  | .claim _ lease _ _ => some lease.token
  | _ => none

/-- A run without worker calls of other clients is admitted when its claims have distinct tokens. -/
theorem admits_of_tokens {setting : Setting} {actions : List Action} {state : State}
    (outside : ∀ op, .call op ∈ actions → ¬ WorkerCall op)
    (distinct : (actions.filterMap claimToken).Nodup)
    (unused : ∀ job ∈ state.claims, job.lease.token ∉ actions.filterMap claimToken) :
    Admits (advance setting) Admitted actions state := by
  induction actions generalizing state with
  | nil => trivial
  | cons action later ih =>
      have admitted : Admitted action state := by
        cases action with
        | call op => exact outside op List.mem_cons_self
        | claim worker lease now leaseUntil =>
            intro job mem same
            refine unused job mem (List.mem_filterMap.2 ⟨_, List.mem_cons_self, ?_⟩)
            rw [same]
            rfl
        | _ => trivial
      refine ⟨admitted, ih (fun op mem => outside op (List.mem_cons_of_mem _ mem)) ?_ ?_⟩
      · exact distinct.sublist ((List.sublist_cons_self action later).filterMap claimToken)
      · intro job mem used
        rcases claims_origin (advance_effect setting action state) mem with
          old | ⟨⟨worker, now, leaseUntil, rfl⟩, -⟩
        · refine unused job old ?_
          exact ((List.sublist_cons_self action later).filterMap claimToken).mem used
        · rw [List.filterMap_cons_some (by rfl : claimToken _ = some job.lease.token)] at distinct
          exact (List.nodup_cons.1 distinct).1 used

def sampleSetting : Setting := ⟨Sample.host, fun _ => sampleProcessor⟩

/-- The first worker persists a snapshot and loses its lease; both write from it, and the second
completes the row. -/
def takeover : List Action :=
  [.call ReenqueueSample.enqueue, .claim 0 ⟨"worker-0", "first"⟩ .zero .half, .load 0,
    .answer 0 (.ok [ScreenSample.plain]), .persist 0, .claim 1 ⟨"worker-1", "second"⟩ .one .one,
    .load 1, .write 0 Sample.service (Sample.tick "1"), .write 1 Sample.service (Sample.tick "2"),
    .complete 0, .complete 1]

theorem takeover_reached :
    Reachable (advance sampleSetting) Admitted .initial
      (run (advance sampleSetting) takeover .initial) := by
  refine ⟨takeover, admits_of_tokens ?_ ?_ fun _ mem => absurd mem List.not_mem_nil, rfl⟩
  · intro op mem
    obtain rfl : op = ReenqueueSample.enqueue := by
      simpa [takeover] using mem
    exact id
  · show ["first", "second"].Nodup
    decide

theorem takeover_applied_once :
    AppliedOnce sampleSetting (run (advance sampleSetting) takeover .initial) :=
  applied_once takeover_reached

end Enfold.Laws.ExtractionSystem
