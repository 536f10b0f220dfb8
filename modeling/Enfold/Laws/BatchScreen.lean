/-
# Laws.BatchScreen -- a batch is screened before its writes, and again in each of them

Before any write, `prepareSnapshot` screens every proposal and dead-letters the row when one is
refused (`prepareSnapshot_cases`); until then the store has not changed outside the queue
(`jobSnapshot_lease`).  The write of a typed proposal is screened once more, and that screen also
sees the subject, the predicate and the object.  The first screen does not.

So a batch with a credential-shaped proposal is dead-lettered before anything is written exactly
when the first screen stops it: `screened_batch_iff`.
-/
import Enfold.Laws.CredentialScreen
import Enfold.Laws.IssuedWrites
import Enfold.Laws.QueueMoves
import Enfold.Laws.Snapshot
import Enfold.Model.ExtractionProcessor

namespace Enfold.Laws

open Enfold.Theory Enfold.Model

set_option autoImplicit false

/-! ## The lease of a job -/

/-- A row of the queue has the id, is held under the lease and counts the attempts. -/
def LeasedTo (id : Nat) (lease : Lease) (attempts : Nat) (s : Store) : Prop :=
  ∃ q ∈ s.extractQueue, q.id = id ∧ q.HeldBy lease ∧ q.attempts = attempts

theorem QueueFrame.trans {s s' s'' : Store} (first : QueueFrame s s') (second : QueueFrame s' s'') :
    QueueFrame s s'' := by
  unfold QueueFrame at *
  rw [second, first]

theorem LeasedTo.of_queue {id attempts : Nat} {lease : Lease} {s s' : Store}
    (leased : LeasedTo id lease attempts s) (same : s'.extractQueue = s.extractQueue) :
    LeasedTo id lease attempts s' := by
  unfold LeasedTo
  rwa [same]

/-- A rewriting that leaves the lease and the attempts alone keeps a row leased. -/
theorem LeasedTo.of_edit {id attempts : Nat} {lease : Lease} {f : QueueRow → QueueRow} {s s' : Store}
    {q : QueueRow} (leased : LeasedTo id lease attempts s) (edit : HeldEdit id lease f s s' q)
    (keepsId : ∀ q, (f q).id = q.id) (keepsLease : ∀ q, q.HeldBy lease → (f q).HeldBy lease)
    (keepsAttempts : ∀ q, (f q).attempts = q.attempts) : LeasedTo id lease attempts s' := by
  obtain ⟨q', mem, here, -, count⟩ := leased
  obtain rfl := Table.eq_of_key mem edit.mem (here.trans edit.here.symm)
  exact ⟨f q', edit.patch.of_mem (List.mem_singleton.2 rfl), (keepsId q').trans here,
    keepsLease q' edit.held, (keepsAttempts q').trans count⟩

section Job

variable {host : Host} {processor : ExtractionProcessor} {input : JobInput} {id attempts : Nat}
  {envelope : ExtractionEnvelope} {s s' : Store}

theorem beat_lease {lease : Lease} {heartbeats : List (Decimal × Decimal)} {result : Processing Unit}
    (beats : beat id lease heartbeats s = (s', result)) (leased : LeasedTo id lease attempts s) :
    QueueFrame s s' ∧ LeasedTo id lease attempts s' := by
  induction heartbeats generalizing s with
  | nil =>
      cases beats
      exact ⟨rfl, leased⟩
  | cons reading later ih =>
      obtain ⟨now, leaseUntil⟩ := reading
      unfold beat at beats
      split at beats
      · rename_i next done
        obtain ⟨q, edit⟩ := renew_effect done
        obtain ⟨frame, kept⟩ := ih beats
          (leased.of_edit edit (fun _ => rfl) (fun _ held => held) fun _ => rfl)
        exact ⟨(renew_eq_ok done).trans frame, kept⟩
      · cases beats
        exact ⟨rfl, leased⟩

/-- Whatever becomes of the snapshot, only the queue has changed and the lease is kept. -/
theorem jobSnapshot_lease {result : Processing (String × String)}
    (found : jobSnapshot host processor input id envelope s = (s', result))
    (leased : LeasedTo id input.lease attempts s) :
    QueueFrame s s' ∧ LeasedTo id input.lease attempts s' := by
  unfold jobSnapshot at found
  split at found
  · cases found
    exact ⟨rfl, leased⟩
  · cases found
    exact ⟨rfl, leased⟩
  unfold extractSnapshot at found
  split at found
  · rename_i beats
    cases found
    exact beat_lease beats leased
  · rename_i s₁ _ beats
    obtain ⟨frame, kept⟩ := beat_lease beats leased
    split at found
    · cases found
      exact ⟨frame, kept⟩
    split at found
    · cases found
      exact ⟨frame, kept⟩
    split at found
    · cases found
      exact ⟨frame, kept⟩
    · rename_i done
      cases found
      obtain ⟨q, edit, -⟩ := persistSnapshot_effect done
      exact ⟨frame.trans (persistSnapshot_eq_ok done),
        kept.of_edit edit (fun _ => rfl) (fun _ held => held) fun _ => rfl⟩

theorem claim_lease {maxAttempts : Nat} {lease : Lease} {now leaseUntil : Decimal} {row : QueueRow}
    (done : claim maxAttempts lease now leaseUntil s = .ok (s', some row)) :
    LeasedTo row.id lease (row.attempts + 1) s' := by
  obtain ⟨-, leased, -⟩ := (claim_effect done).leased row rfl
  exact ⟨_, leased, rfl, leasedRow_held lease leaseUntil row, rfl⟩

/-- A failed job is recorded on its row, and the last attempt is the last. -/
theorem processOne_failed {s₁ : Store} {row : QueueRow} (failure : Failure)
    (claimed : claim processor.maxAttempts input.lease input.claimedAt input.leaseUntil s =
      .ok (s₁, some row))
    (failed : (runJob host processor input row s₁).result = .error failure)
    (leased : LeasedTo row.id input.lease (row.attempts + 1)
      (runJob host processor input row s₁).store) :
    ∃ s' result, processOne host processor input s = (s', .ok result) ∧
      QueueFrame (runJob host processor input row s₁).store s' ∧
      result.outcome =
        if failure.Permanent ∨ processor.maxAttempts ≤ row.attempts + 1 then .dead else .retry := by
  obtain ⟨q, mem, here, held, count⟩ := leased
  obtain ⟨s', done⟩ : ∃ s', fail processor.maxAttempts row.id input.lease failure.safeErrorCode
      failure.Permanent input.retryAt (runJob host processor input row s₁).store =
        .ok (s', row.attempts + 1) :=
    ⟨_, fail_effect_iff.2 ⟨q, mem, here, held, count.symm, rfl⟩⟩
  unfold processOne
  rw [claimed]
  dsimp only
  rw [failed]
  dsimp only
  rw [done]
  exact ⟨s', _, rfl, fail_eq_ok done, rfl⟩

end Job

/-! ## The writes of a job -/

section Writes

variable {host : Host} {processor : ExtractionProcessor} {input : JobInput}
  {envelope : ExtractionEnvelope} {row : QueueRow} {text hash : String} {s s₁ s₂ s' : Store}

/-- The row as its writes name it. -/
def rowIdentity (host : Host) (row : QueueRow) : RowIdentity := ⟨row.id, rowDigest host row⟩

/-- A write that returned is among those of its batch. -/
theorem applyWrites_written {context : ClientContext} {i : Nat} {params : Json} (rest : List Json)
    {o : WriteOutcome}
    (first : handleWrite host input.service (input.writeTick i) context params s = .ok (s', o)) :
    o ∈ (applyWrites host input context i (params :: rest) s).written := by
  rw [applyWrites, first]
  dsimp only
  split
  · exact List.mem_singleton.2 rfl
  · exact List.mem_cons_self

/-- The writes of a job are those of the batch it has prepared. -/
theorem runJob_written {batch : List Json} (decoded : decodeEnvelope row.payload = .ok envelope)
    (snapshot : jobSnapshot host processor input row.id envelope s₁ = (s₂, .ok (text, hash)))
    (ready : prepareSnapshot host text hash envelope (rowIdentity host row) = .ok batch) :
    (runJob host processor input row s₁).written =
      (applyWrites host input envelope.context 0 batch s₂).written := by
  unfold runJob
  rw [decoded]
  dsimp only
  rw [snapshot]
  dsimp only
  rw [show (⟨row.id, rowDigest host row⟩ : RowIdentity) = rowIdentity host row from rfl, ready]
  dsimp only
  split
  · rfl
  · split <;> rfl

end Writes

/-! ## The two screens -/

/-- The typed fields that the write of a proposal has screened. -/
def typedTexts (typed : TypedFields) : List String :=
  [typed.subjectKey, typed.predicateKey, typed.objectValue.getD ""].filter (· ≠ "")

/-- The built-in screen of a write refuses the proposal, its typed fields included. -/
def CredentialShaped (processor : ExtractionProcessor) (hash : String)
    (envelope : ExtractionEnvelope) (row : RowIdentity) (index : Nat) (proposal : ExtractedMemory) :
    Prop :=
  ∃ item, snapshotItem envelope proposal = .ok item ∧
    (defaultCredentialScreen (itemRequest processor.identity hash envelope row index item)
      ((item.typed.map typedTexts).getD [])).isSome

/-- A statement about the result of a computation is decided on that result. -/
def decidableOk {ε α : Type} (x : Except ε α) (P : α → Prop) [DecidablePred P] :
    Decidable (∃ a, x = .ok a ∧ P a) :=
  match x with
  | .ok a => decidable_of_iff (P a) ⟨fun holds => ⟨a, rfl, holds⟩, fun ⟨_, same, holds⟩ => by
      cases same
      exact holds⟩
  | .error _ => isFalse fun ⟨_, same, _⟩ => by cases same

instance blank_decidable : (excerpt : Json) → Decidable (excerpt = .str "")
  | .str text => decidable_of_iff (text = "") (by simp)
  | .null | .bool _ | .int _ | .float _ | .arr _ | .obj _ => isFalse (by simp)

section Batch

variable (processor : ExtractionProcessor) (hash : String) (envelope : ExtractionEnvelope)
  (row : RowIdentity) (proposals : List ExtractedMemory)

/-- Some proposal of the batch is shaped like a credential. -/
def HasCredential : Prop :=
  ∃ p ∈ proposals.zipIdx, CredentialShaped processor hash envelope row p.2 p.1

/-- The batch is stopped before its writes: by the screen, which passes over the typed fields,
or because an excerpt is empty. -/
def Stopped : Prop :=
  ∃ p ∈ proposals.zipIdx,
    p.1.evidenceExcerpt = .str "" ∨ Refused processor hash envelope row p.2 p.1

instance screen_decidable (request : WriteRequest) (extraText : List String) :
    Decidable ((defaultCredentialScreen request extraText).isSome = true) :=
  decidable_of_iff _ screen_refuses_iff.symm

instance credentialShaped_decidable (index : Nat) (proposal : ExtractedMemory) :
    Decidable (CredentialShaped processor hash envelope row index proposal) :=
  decidableOk _ fun item =>
    (defaultCredentialScreen (itemRequest processor.identity hash envelope row index item)
      ((item.typed.map typedTexts).getD [])).isSome

instance refused_decidable (index : Nat) (proposal : ExtractedMemory) :
    Decidable (Refused processor hash envelope row index proposal) :=
  decidableOk _ fun item =>
    (defaultCredentialScreen (itemRequest processor.identity hash envelope row index item) []).isSome

instance hasCredential_decidable : Decidable (HasCredential processor hash envelope row proposals) :=
  inferInstanceAs (Decidable (∃ p ∈ proposals.zipIdx, _))

instance stopped_decidable : Decidable (Stopped processor hash envelope row proposals) :=
  inferInstanceAs (Decidable (∃ p ∈ proposals.zipIdx, _))

end Batch

section Prepared

variable {host : Host} {processor : ExtractionProcessor} {proposals : List ExtractedMemory}
  {envelope : ExtractionEnvelope} {text hash : String}

/-- The writes of the items of a snapshot. -/
def itemWrites (identity hash : String) (envelope : ExtractionEnvelope) (row : RowIdentity)
    (items : List SnapshotItem) : List Json :=
  items.zipIdx.map fun p => itemParams identity hash envelope row p.2 p.1

theorem itemWrites_cons (identity hash : String) (envelope : ExtractionEnvelope) (row : RowIdentity)
    (item : SnapshotItem) (items : List SnapshotItem) :
    itemWrites identity hash envelope row (item :: items) =
      itemParams identity hash envelope row 0 item ::
        (items.zipIdx 1).map fun p => itemParams identity hash envelope row p.2 p.1 := rfl

/-- A batch is stopped for good, or there is one write for each proposal. -/
theorem prepareSnapshot_cases
    (made : makeSnapshot host processor proposals envelope = .ok (text, hash)) (row : RowIdentity) :
    (Stopped processor hash envelope row proposals ∧
        ∃ code, prepareSnapshot host text hash envelope row = .error (.permanent code)) ∨
      ¬ Stopped processor hash envelope row proposals ∧
        ∃ items, snapshotItems proposals envelope = .ok items ∧
          prepareSnapshot host text hash envelope row =
            .ok (itemWrites processor.identity hash envelope row items) := by
  obtain ⟨items, each, prepared⟩ := prepareSnapshot_made made
  specialize prepared row
  have listed : snapshotItems proposals envelope = .ok items := by
    obtain ⟨items', checked, -⟩ := bind_eq_ok.1 made
    obtain ⟨few, each'⟩ := snapshotItems_eq_ok checked
    exact bind_eq_ok.2 ⟨⟨⟩, require_of few, mapM_eq_ok.2 each⟩
  cases outcome : prepareSnapshot host text hash envelope row with
  | ok params =>
      rw [outcome, eq_comm, mapM_eq_ok] at prepared
      refine .inr ⟨?_, items, listed, ?_⟩
      · rintro ⟨⟨proposal, i⟩, mem, stops⟩
        have here := List.mk_mem_zipIdx_iff_getElem?.1 mem
        obtain ⟨item, at_item, checked⟩ := forall₂_getElem? each here
        obtain ⟨written, -, passed⟩ := forall₂_getElem? prepared
          (getElem?_zipIdx_eq_some.2 ⟨at_item, rfl⟩ : items.zipIdx[i]? = some (item, i))
        obtain ⟨filled, unrefused, -⟩ := prepareItem_eq_ok.1 passed
        rcases stops with empty | refused
        · exact filled ((blank_iff checked).1 empty)
        · exact unrefused ((refused_iff checked).1 refused)
      · have all : List.Forall₂ (fun p written =>
            itemParams processor.identity hash envelope row p.2 p.1 = written) items.zipIdx params :=
          prepared.imp fun _ _ passed => (prepareItem_eq_ok.1 passed).2.2.symm
        have same := List.forall₂_map_left_iff.2 all
        rw [List.forall₂_eq_eq_eq] at same
        rw [itemWrites, same]
  | error failure =>
      rw [outcome, eq_comm, mapM_eq_error] at prepared
      obtain ⟨i, p, at_i, failed, -⟩ := prepared
      obtain ⟨at_item, index⟩ := getElem?_zipIdx_eq_some.1 at_i
      obtain ⟨proposal, here, checked⟩ := forall₂_getElem? each.flip at_item
      have mem : (proposal, i) ∈ proposals.zipIdx := List.mk_mem_zipIdx_iff_getElem?.2 here
      rw [index] at failed
      rcases prepareItem_eq_error failed with ⟨empty, rfl⟩ | ⟨refuses, rfl⟩
      · exact .inl ⟨⟨_, mem, .inl ((blank_iff checked).2 empty)⟩, _, rfl⟩
      · exact .inl ⟨⟨_, mem, .inr ((refused_iff checked).2 refuses)⟩, _, rfl⟩

end Prepared

/-! ## The job -/

/-- A worker claims a row and works from a snapshot of the proposals, whichever attempt has
persisted it. -/
structure SnapshotJob (host : Host) (processor maker : ExtractionProcessor) (input : JobInput)
    (proposals : List ExtractedMemory) (envelope : ExtractionEnvelope) (text hash : String)
    (row : QueueRow) (s s₁ s₂ : Store) : Prop where
  claimed : claim processor.maxAttempts input.lease input.claimedAt input.leaseUntil s =
    .ok (s₁, some row)
  decoded : decodeEnvelope row.payload = .ok envelope
  made : makeSnapshot host maker proposals envelope = .ok (text, hash)
  snapshot : jobSnapshot host processor input row.id envelope s₁ = (s₂, .ok (text, hash))

/-- The row is dead-lettered, no write of the batch has been committed, and nothing but the
queue has changed. -/
def CommitsNothing (host : Host) (processor : ExtractionProcessor) (input : JobInput)
    (row : QueueRow) (s s₁ : Store) : Prop :=
  (∃ s' result, processOne host processor input s = (s', .ok result) ∧ result.outcome = .dead ∧
    QueueFrame s s') ∧ (runJob host processor input row s₁).written = []

section Jobs

variable {host : Host} {processor maker : ExtractionProcessor} {input : JobInput}
  {proposals : List ExtractedMemory} {envelope : ExtractionEnvelope} {text hash : String}
  {row : QueueRow} {s s₁ s₂ : Store}

/-- A batch that is stopped commits nothing. -/
theorem stopped_commits_nothing
    (job : SnapshotJob host processor maker input proposals envelope text hash row s s₁ s₂)
    (stopped : Stopped maker hash envelope (rowIdentity host row) proposals) :
    CommitsNothing host processor input row s s₁ := by
  obtain ⟨frame₂, leased⟩ := jobSnapshot_lease job.snapshot (claim_lease job.claimed)
  rcases prepareSnapshot_cases job.made (rowIdentity host row) with ⟨-, code, refused⟩ | ⟨passed, -⟩
  · have ran : runJob host processor input row s₁ = ⟨s₂, [], .error (.permanent code)⟩ := by
      unfold runJob
      rw [job.decoded]
      dsimp only
      rw [job.snapshot]
      dsimp only
      rw [show (⟨row.id, rowDigest host row⟩ : RowIdentity) = rowIdentity host row from rfl, refused]
    obtain ⟨s', result, done, frame, outcome⟩ := processOne_failed (.permanent code) job.claimed
      (by rw [ran]) (by rw [ran]; exact leased)
    rw [ran] at frame
    refine ⟨⟨s', result, done, ?_, ?_⟩, by rw [ran]⟩
    · rw [outcome, if_pos (.inl trivial)]
    · exact ((claim_eq_ok job.claimed).trans frame₂).trans frame
  · exact absurd stopped passed

/-- A batch that is not stopped issues its first write: it is committed, or it raises and the row
stays for another attempt. -/
theorem passed_not_commits_nothing
    (job : SnapshotJob host processor maker input proposals envelope text hash row s s₁ s₂)
    (passed : ¬ Stopped maker hash envelope (rowIdentity host row) proposals)
    (nonempty : proposals ≠ []) (more : row.attempts + 1 < processor.maxAttempts) :
    ¬ CommitsNothing host processor input row s s₁ := by
  rintro ⟨⟨s', result, done, dead, -⟩, unwritten⟩
  obtain ⟨-, leased⟩ := jobSnapshot_lease job.snapshot (claim_lease job.claimed)
  rcases prepareSnapshot_cases job.made (rowIdentity host row) with
    ⟨stopped, -⟩ | ⟨-, items, checked, ready⟩
  · exact passed stopped
  obtain ⟨item, others, rfl⟩ : ∃ item others, items = item :: others := by
    refine List.exists_cons_of_length_pos ?_
    rw [← (snapshotItems_eq_ok checked).2.length_eq]
    exact List.length_pos_iff.2 nonempty
  rw [itemWrites_cons] at ready
  generalize itemParams maker.identity hash envelope (rowIdentity host row) 0 item = params at ready
  generalize (others.zipIdx 1).map _ = rest at ready
  rw [runJob_written job.decoded job.snapshot ready] at unwritten
  cases first : handleWrite host input.service (input.writeTick 0) envelope.context params s₂ with
  | ok answer =>
      have mem := applyWrites_written rest first
      rw [unwritten] at mem
      cases mem
  | error e =>
  have ran : runJob host processor input row s₁ = ⟨s₂, [], .error (.raised e)⟩ := by
    unfold runJob
    rw [job.decoded]
    dsimp only
    rw [job.snapshot]
    dsimp only
    rw [show (⟨row.id, rowDigest host row⟩ : RowIdentity) = rowIdentity host row from rfl, ready]
    dsimp only
    rw [applyWrites, first]
  obtain ⟨s'', result', again, -, outcome⟩ := processOne_failed (.raised e) job.claimed
    (by rw [ran]) (by rw [ran]; exact leased)
  rw [again] at done
  cases done
  have retried : ¬ ((Failure.raised e).Permanent ∨ processor.maxAttempts ≤ row.attempts + 1) := by
    rintro (permanent | last)
    · exact permanent
    · omega
  rw [outcome, if_neg retried] at dead
  cases dead

end Jobs

/-- A batch with a credential-shaped proposal commits nothing when it is stopped before its
writes; and while there are attempts left, only then. -/
theorem screened_batch_iff {host : Host} {processor maker : ExtractionProcessor} {input : JobInput}
    {proposals : List ExtractedMemory} {envelope : ExtractionEnvelope} {text hash : String}
    {row : QueueRow} {s s₁ s₂ : Store}
    (job : SnapshotJob host processor maker input proposals envelope text hash row s s₁ s₂) :
    ((HasCredential maker hash envelope (rowIdentity host row) proposals →
          Stopped maker hash envelope (rowIdentity host row) proposals) →
        HasCredential maker hash envelope (rowIdentity host row) proposals →
          CommitsNothing host processor input row s s₁) ∧
      (row.attempts + 1 < processor.maxAttempts →
        ((HasCredential maker hash envelope (rowIdentity host row) proposals →
            CommitsNothing host processor input row s s₁) ↔
          (HasCredential maker hash envelope (rowIdentity host row) proposals →
            Stopped maker hash envelope (rowIdentity host row) proposals))) := by
  refine ⟨fun guarded shaped => stopped_commits_nothing job (guarded shaped), fun more => ?_⟩
  refine ⟨fun safe shaped => ?_, fun guarded shaped => stopped_commits_nothing job (guarded shaped)⟩
  by_contra passed
  have nonempty : proposals ≠ [] := by
    rintro rfl
    obtain ⟨p, mem, -⟩ := shaped
    cases mem
  exact passed_not_commits_nothing job passed nonempty more (safe shaped)

/-! ## A credential in the typed fields -/

namespace ScreenSample

/-- Short digests, which differ on the texts of the sample. -/
def host : Host :=
  { Sample.host with sha256 := fun text => String.ofList (Nat.toDigits 10 text.utf8ByteSize) }

def plain : ExtractedMemory where
  content := .str "The door is red."

/-- The object of the slot is shaped like a credential; no other field is. -/
def typed : ExtractedMemory where
  content := .str "The door has a code."
  state := .obj
    [("confidence", .float sampleConfidence), ("kind", .str "state"), ("predicate", .str "code"),
      ("subject", .str "door"), ("value", .str "password=hunter22")]
  stateValid := by
    refine ⟨by decide +kernel, ?_⟩
    simp [Json.CanonicalMembers, Json.Canonical, sampleConfidence_printed]

/-- What the first stage makes of a batch it accepts. -/
def itemsOf (proposals : List ExtractedMemory) : List SnapshotItem :=
  (snapshotItems proposals sampleEnvelope).toOption.getD []

theorem itemsOf_made {proposals : List ExtractedMemory}
    (accepted : (snapshotItems proposals sampleEnvelope).toBool = true) :
    snapshotItems proposals sampleEnvelope = .ok (itemsOf proposals) := by
  unfold itemsOf
  cases made : snapshotItems proposals sampleEnvelope with
  | error e =>
      rw [made] at accepted
      cases accepted
  | ok items => rfl

def text (proposals : List ExtractedMemory) : String :=
  Json.dumps .unicode (snapshotDocument sampleProcessor.identity (itemsOf proposals))

theorem made {proposals : List ExtractedMemory}
    (accepted : (snapshotItems proposals sampleEnvelope).toBool = true) :
    makeSnapshot host sampleProcessor proposals sampleEnvelope =
      .ok (text proposals, host.sha256 (text proposals)) := by
  unfold makeSnapshot
  rw [itemsOf_made accepted]
  rfl

/-- A queued row with the snapshot of an earlier attempt. -/
def row (proposals : List ExtractedMemory) : QueueRow where
  id := 1
  payload := extractionEnvelope (Sample.context "agent-a") "We painted the door red." "chat" "work" []
  attempts := 1
  lastError := none
  status := .pending
  notBefore := none
  leaseOwner := none
  leaseUntil := none
  leaseToken := none
  payloadHash := some "digest"
  proposalJson := some (snapshotDocument sampleProcessor.identity (itemsOf proposals))
  proposalHash := some (host.sha256 (text proposals))

def store (row : QueueRow) : Store :=
  { Store.empty with extractQueue := Table.empty.insert row (by simp [Table.empty]) }

def input : JobInput where
  service := Sample.service
  lease := ⟨"worker", "token"⟩
  claimedAt := .one
  leaseUntil := .one
  heartbeats := []
  extraction := .ok []
  writeTick := fun _ => Sample.tick "1"
  retryAt := .one

theorem claimed (proposals : List ExtractedMemory) :
    claim 3 input.lease .one .one (store (row proposals)) =
      .ok (store (leasedRow input.lease .one (row proposals)), some (row proposals)) := rfl

theorem decoded (proposals : List ExtractedMemory) :
    decodeEnvelope (row proposals).payload = .ok sampleEnvelope := by
  show decodeEnvelope (extractionEnvelope (Sample.context "agent-a") "We painted the door red."
    "chat" "work" []) = _
  have shown : (readEnvelope (extractionEnvelope (Sample.context "agent-a")
      "We painted the door red." "chat" "work" [])).map (fun e =>
        ([e.transcript, e.source, e.scope, e.context.clientId, e.context.surface,
          e.context.agentId, e.context.sessionId],
          [e.context.parentAgentId, e.context.projectRoot, e.context.repository, e.context.branch,
          e.context.commitSha], e.context.accessScopes)) =
      some (["We painted the door red.", "chat", "work", "agent-a", "cli", "agent", "session"],
        [none, none, none, none, none], ["work"]) := by
    decide +kernel
  obtain ⟨⟨_, _, _, ⟨_, _, _, _, _, _, _, _, _, _⟩, _, _, _, _, _⟩, found, same⟩ :=
    Option.map_eq_some_iff.1 shown
  simp only [Prod.mk.injEq, List.cons.injEq, and_true] at same
  obtain ⟨⟨rfl, rfl, rfl, rfl, rfl, rfl, rfl⟩, ⟨rfl, rfl, rfl, rfl, rfl⟩, rfl⟩ := same
  unfold decodeEnvelope
  rw [found]
  rfl


/-- The row as the sample finds it. -/
theorem job {proposals : List ExtractedMemory}
    (accepted : (snapshotItems proposals sampleEnvelope).toBool = true) :
    SnapshotJob host sampleProcessor sampleProcessor input proposals sampleEnvelope (text proposals)
      (host.sha256 (text proposals)) (row proposals) (store (row proposals))
      (store (leasedRow input.lease .one (row proposals)))
      (store (leasedRow input.lease .one (row proposals))) where
  claimed := claimed proposals
  decoded := decoded proposals
  made := made accepted
  snapshot := rfl

/-- A credential in plain sight. -/
def leakedBatch : List ExtractedMemory := [{ content := .str "password=hunter22" }, plain]

/-- The second proposal hides it in the object of its slot. -/
def sealedBatch : List ExtractedMemory := [plain, typed]

theorem leaked_accepted : (snapshotItems leakedBatch sampleEnvelope).toBool = true := by decide +kernel

theorem hidden_accepted : (snapshotItems sealedBatch sampleEnvelope).toBool = true := by decide +kernel

theorem leaked_stopped :
    HasCredential sampleProcessor (host.sha256 (text leakedBatch)) sampleEnvelope
        (rowIdentity host (row leakedBatch)) leakedBatch ∧
      Stopped sampleProcessor (host.sha256 (text leakedBatch)) sampleEnvelope
        (rowIdentity host (row leakedBatch)) leakedBatch := by
  decide +kernel

theorem hidden_passes :
    HasCredential sampleProcessor (host.sha256 (text sealedBatch)) sampleEnvelope
        (rowIdentity host (row sealedBatch)) sealedBatch ∧
      ¬ Stopped sampleProcessor (host.sha256 (text sealedBatch)) sampleEnvelope
        (rowIdentity host (row sealedBatch)) sealedBatch := by
  decide +kernel

/-- The write of the first proposal adds its fact. -/
theorem hidden_written : ((itemsOf sealedBatch).head?.map fun item =>
    (handleWrite host input.service (input.writeTick 0) sampleEnvelope.context
      (itemParams sampleProcessor.identity (host.sha256 (text sealedBatch)) sampleEnvelope
        (rowIdentity host (row sealedBatch)) 0 item)
      (store (leasedRow input.lease .one (row sealedBatch)))).map fun r => r.2.outcome) =
    some (.ok .inserted) := by
  decide +kernel

end ScreenSample

open ScreenSample in
theorem sample_screened_batch :
    HasCredential sampleProcessor (host.sha256 (text leakedBatch)) sampleEnvelope
        (rowIdentity host (row leakedBatch)) leakedBatch ∧
      CommitsNothing host sampleProcessor input (row leakedBatch) (store (row leakedBatch))
        (store (leasedRow input.lease .one (row leakedBatch))) :=
  ⟨leaked_stopped.1,
    (screened_batch_iff (job leaked_accepted)).1 (fun _ => leaked_stopped.2) leaked_stopped.1⟩

open ScreenSample in
/-- The screen of the batch passes over a credential in the typed fields of the second proposal:
the fact of the first one is written, and the batch is not dead-lettered as a whole. -/
theorem typed_credential_half_applied :
    SnapshotJob host sampleProcessor sampleProcessor input sealedBatch sampleEnvelope (text sealedBatch)
        (host.sha256 (text sealedBatch)) (row sealedBatch) (store (row sealedBatch))
        (store (leasedRow input.lease .one (row sealedBatch)))
        (store (leasedRow input.lease .one (row sealedBatch))) ∧
      HasCredential sampleProcessor (host.sha256 (text sealedBatch)) sampleEnvelope
        (rowIdentity host (row sealedBatch)) sealedBatch ∧
      (∃ o ∈ (runJob host sampleProcessor input (row sealedBatch)
          (store (leasedRow input.lease .one (row sealedBatch)))).written, o.outcome = .inserted) ∧
      ¬ CommitsNothing host sampleProcessor input (row sealedBatch) (store (row sealedBatch))
        (store (leasedRow input.lease .one (row sealedBatch))) := by
  have given := job hidden_accepted
  refine ⟨given, hidden_passes.1, ?_,
    passed_not_commits_nothing given hidden_passes.2 (by simp [sealedBatch]) (by decide)⟩
  rcases prepareSnapshot_cases given.made (rowIdentity host (row sealedBatch)) with
    ⟨stopped, -⟩ | ⟨-, items, checked, ready⟩
  · exact absurd stopped hidden_passes.2
  obtain rfl : items = itemsOf sealedBatch := by
    rw [itemsOf_made hidden_accepted] at checked
    exact (Except.ok.inj checked).symm
  obtain ⟨item, first, wrote⟩ := Option.map_eq_some_iff.1 hidden_written
  obtain ⟨others, listed⟩ := List.head?_eq_some_iff.1 first
  obtain ⟨⟨s', o⟩, done, inserted⟩ := map_eq_ok.1 wrote
  rw [listed, itemWrites_cons] at ready
  rw [runJob_written given.decoded given.snapshot ready]
  exact ⟨o, applyWrites_written _ done, inserted⟩

end Enfold.Laws
