/-
# Laws.Replay -- a logged key answers its own request only

The log row of a write outlives everything that happens afterwards: no operation removes
it, and only an erasure touches it, in its detail alone (`LoggedAs`).  The same holds for
the registration of the client.  A later write with the key therefore meets the row before
any policy, slot or duplicate is looked at: the request it digests to decides between the
stored answer and an idempotency conflict, and in both cases the store stays as it is.

The digest is over a canonical text, so it separates requests as far as the hash separates
texts (`requestSha256_injective`).
-/
import Enfold.Laws.Steps

namespace Enfold.Laws

open Enfold.Theory Enfold.Model

set_option autoImplicit false

/-! ## Digests -/

theorem ofText_injective {a b : Option String} (same : Json.ofText a = Json.ofText b) : a = b := by
  cases a <;> cases b <;> simp_all [Json.ofText]

theorem idDocument_injective {a b : Option Nat}
    (same : (a.map fun k => Json.int k).getD .null = (b.map fun k => Json.int k).getD .null) :
    a = b := by
  cases a <;> cases b <;> simp_all

/-- The dictionary of a request determines it. -/
theorem requestDict_injective : Function.Injective requestDict := by
  intro a b same
  simp only [requestDict, Json.obj.injEq, List.cons.injEq, Prod.mk.injEq, true_and, and_true,
    Json.str.injEq, Json.float.injEq] at same
  obtain ⟨assertedBy, category, content, status, evidence, key, metadata, observation, observedAt,
    operation, performedBy, relation, scope, sensitivity, authority, sourceType, sourceUri,
    supersede, tags, trust⟩ := same
  have assertedBy := ofText_injective assertedBy
  have status := ofText_injective status
  have evidence := ofText_injective evidence
  have metadata := Json.dumps_injective .ascii metadata
  have observation := ofText_injective observation
  have observedAt := ofText_injective observedAt
  have performedBy := ofText_injective performedBy
  have sourceUri := ofText_injective sourceUri
  have supersede := idDocument_injective supersede
  cases a
  cases b
  simp_all

/-- The dictionary of a candidate determines it. -/
theorem candidateDict_injective : Function.Injective candidateDict := by
  intro a b same
  simp only [candidateDict, Json.obj.injEq, List.cons.injEq, Prod.mk.injEq, true_and, and_true,
    Json.str.injEq, Json.float.injEq] at same
  obtain ⟨content, kind, value, predicate, scope, authority, subject, validFrom⟩ := same
  have value := ofText_injective value
  have validFrom := ofText_injective validFrom
  cases a
  cases b
  simp_all

theorem candidateDocument_injective {a b : Option StateCandidate}
    (same : (a.map candidateDict).getD .null = (b.map candidateDict).getD .null) : a = b := by
  cases a with
  | none =>
      cases b with
      | none => rfl
      | some candidate => simp [candidateDict] at same
  | some candidate =>
      cases b with
      | none => simp [candidateDict] at same
      | some other =>
          rw [candidateDict_injective (by simpa using same : candidateDict candidate = _)]

/-- A hash without collisions separates client, session, request and candidate. -/
theorem requestSha256_injective {host : Host} (collisionFree : Function.Injective host.sha256)
    {context context' : ConnectionContext} {request request' : WriteRequest}
    {candidate candidate' : Option StateCandidate}
    (same : requestSha256 host context request candidate =
      requestSha256 host context' request' candidate') :
    context.sessionId = context'.sessionId ∧ request = request' ∧ candidate = candidate' := by
  have payload := Json.dumps_injective .unicode (collisionFree same)
  simp only [requestPayload, Json.obj.injEq, List.cons.injEq, Prod.mk.injEq, true_and, and_true,
    Json.str.injEq] at payload
  obtain ⟨-, sameRequest, sameSession, sameCandidate⟩ := payload
  exact ⟨sameSession, requestDict_injective sameRequest, candidateDocument_injective sameCandidate⟩

/-- The digest reads the client and the session of a connection only. -/
theorem requestSha256_congr {host : Host} {context context' : ConnectionContext}
    {request : WriteRequest} {candidate : Option StateCandidate}
    (client : context.clientId = context'.clientId)
    (session : context.sessionId = context'.sessionId) :
    requestSha256 host context request candidate =
      requestSha256 host context' request candidate := by
  rw [requestSha256, requestSha256, requestPayload, requestPayload, client, session]

/-! ## What a write leaves in the log -/

/-- The log holds this row; a scrub may have replaced its detail. -/
def LoggedAs (row : WriteLogRow) (scrubbed : Prop) (s : Store) : Prop :=
  row ∈ s.writeLog ∨ scrubbed ∧ { row with detailJson := erasedDetail } ∈ s.writeLog

/-- A write that returned is in the log, under its key and its digest, with the outcome it
reported. -/
theorem write_logs {host : Host} {call : WriteCall} {s s' : Store} {o : WriteOutcome}
    (done : call.apply host s = .ok (s', o)) :
    ∃ row ∈ s'.writeLog, row.clientId = call.context.clientId ∧
      row.idempotencyKey = call.request.idempotencyKey ∧
      row.requestSha256 = requestSha256 host call.context call.request call.candidate ∧
      outcomeFromRow row o.replayed = .ok o := by
  obtain ⟨context, authorized, -, -, cases⟩ := write_cases done
  obtain ⟨scopes, nonempty, narrowed⟩ := authorizeContext_eq_ok authorized
  have client : context.clientId = call.context.clientId := by rw [narrowed]
  have digest : requestSha256 host context call.request call.candidate =
      requestSha256 host call.context call.request call.candidate :=
    requestSha256_congr client (by rw [narrowed])
  cases cases with
  | replay prior found sameHash answer frame clients =>
      obtain ⟨mem, here⟩ := Table.get?_eq_some.1 found
      obtain ⟨clientHere, keyHere⟩ := Prod.mk.inj here
      have replayed : o.replayed = true := (make_eq_ok answer).2.2.2.2.2.1
      refine ⟨prior, by rw [frame]; exact mem, clientHere.trans client, keyHere,
        sameHash.trans digest, ?_⟩
      rw [replayed]
      exact answer
  | factless s₀ decision fresh registered decided frame logged answer =>
      have replayed : o.replayed = false := (make_eq_ok answer).2.2.2.2.2.1
      refine ⟨_, (Table.mem_of_insert? logged).2 (.inr rfl), client, rfl, digest, ?_⟩
      rw [replayed]
      exact answer
  | typed s₀ s₁ observationId effective d applied fresh registered decided recorded observed
      accepted branch finished =>
      obtain ⟨detail, logged, answer⟩ := finished.logged
      have replayed : o.replayed = false := (make_eq_ok answer).2.2.2.2.2.1
      refine ⟨_, (Table.mem_of_insert? logged).2 (.inr rfl), client, rfl, digest, ?_⟩
      rw [replayed]
      exact answer
  | untyped s₀ s₁ observationId near applied fresh registered decided recorded observed searched
      accepted branch finished =>
      obtain ⟨detail, logged, answer⟩ := finished.logged
      have replayed : o.replayed = false := (make_eq_ok answer).2.2.2.2.2.1
      refine ⟨_, (Table.mem_of_insert? logged).2 (.inr rfl), client, rfl, digest, ?_⟩
      rw [replayed]
      exact answer

/-- A write keeps every row of the log and every client. -/
theorem write_keeps_log {host : Host} {call : WriteCall} {s s' : Store} {o : WriteOutcome}
    (done : call.apply host s = .ok (s', o)) :
    (∀ l ∈ s.writeLog, l ∈ s'.writeLog) ∧ ∀ c ∈ s.clients, c ∈ s'.clients := by
  obtain ⟨context, -, -, -, cases⟩ := write_cases done
  cases cases with
  | replay prior found sameHash answer frame clients =>
      exact ⟨fun l mem => by rw [frame]; exact mem, clients⟩
  | factless s₀ decision fresh registered decided frame logged answer =>
      have log : s₀.writeLog = s.writeLog := by rw [registered.frame]
      rw [log] at logged
      refine ⟨fun l mem => (Table.mem_of_insert? logged).2 (.inl mem), fun c mem => ?_⟩
      rw [frame]
      exact registered.clients c mem
  | typed s₀ s₁ observationId effective d applied fresh registered decided recorded observed
      accepted branch finished =>
      obtain ⟨frame, -⟩ := branch
      obtain ⟨detail, logged, -⟩ := finished.logged
      have log : applied.store.writeLog = s.writeLog := by rw [frame, observed, registered.frame]
      have clients : s'.clients = s₀.clients := by rw [finished.frame, frame, observed]
      rw [log] at logged
      refine ⟨fun l mem => (Table.mem_of_insert? logged).2 (.inl mem), fun c mem => ?_⟩
      rw [clients]
      exact registered.clients c mem
  | untyped s₀ s₁ observationId near applied fresh registered decided recorded observed searched
      accepted branch finished =>
      obtain ⟨frame, -⟩ := branch
      obtain ⟨detail, logged, -⟩ := finished.logged
      have log : applied.store.writeLog = s.writeLog := by rw [frame, observed, registered.frame]
      have clients : s'.clients = s₀.clients := by rw [finished.frame, frame, observed]
      rw [log] at logged
      refine ⟨fun l mem => (Table.mem_of_insert? logged).2 (.inl mem), fun c mem => ?_⟩
      rw [clients]
      exact registered.clients c mem

/-! ## What a run leaves of it -/

/-- A log row after an erasure is itself, or itself with the detail scrubbed. -/
theorem erasedLogRow_detail (factId : Nat) (observationIds : List Nat) (original : String)
    (l : WriteLogRow) :
    erasedLogRow factId observationIds original l = l ∨
      erasedLogRow factId observationIds original l = { l with detailJson := erasedDetail } := by
  unfold erasedLogRow
  dsimp only
  by_cases about : l.About factId observationIds
  · right
    rw [if_pos about]
    split <;> rfl
  · rw [if_neg about]
    split
    · exact .inr rfl
    · exact .inl rfl

/-- The registration of a client and a log row, as far as they last. -/
structure Lasting (client : ClientRow) (row : WriteLogRow) (scrubbed : Prop) (s : Store) : Prop where
  client : client ∈ s.clients
  logged : LoggedAs row scrubbed s

theorem Lasting.mono {client : ClientRow} {row : WriteLogRow} {scrubbed scrubbed' : Prop} {s : Store}
    (lasting : Lasting client row scrubbed s) (weaker : scrubbed → scrubbed') :
    Lasting client row scrubbed' s := by
  refine ⟨lasting.client, ?_⟩
  rcases lasting.logged with same | ⟨wasScrubbed, mem⟩
  · exact .inl same
  · exact .inr ⟨weaker wasScrubbed, mem⟩

theorem Lasting.of_kept {client : ClientRow} {row : WriteLogRow} {scrubbed : Prop} {s s' : Store}
    (lasting : Lasting client row scrubbed s) (log : ∀ l ∈ s.writeLog, l ∈ s'.writeLog)
    (clients : ∀ c ∈ s.clients, c ∈ s'.clients) : Lasting client row scrubbed s' := by
  refine ⟨clients _ lasting.client, ?_⟩
  rcases lasting.logged with same | ⟨wasScrubbed, mem⟩
  · exact .inl (log _ same)
  · exact .inr ⟨wasScrubbed, log _ mem⟩

/-- No operation drops a client or a log row, and only an erasure scrubs one. -/
theorem step_lasting (host : Host) (op : Op) {s : Store} {client : ClientRow} {row : WriteLogRow}
    {scrubbed : Prop} (lasting : Lasting client row scrubbed s) :
    Lasting client row (scrubbed ∨ op.Erases) (step host op s) := by
  refine step_induction (P := Lasting client row (scrubbed ∨ op.Erases)) (lasting.mono .inl)
    ?_ ?_ ?_ ?_
  · intro call s s' o done lasting
    obtain ⟨log, clients⟩ := write_keeps_log done
    exact lasting.of_kept log clients
  · intro call s s' o done lasting
    obtain frame := (resolve_effect done).frame
    exact lasting.of_kept (fun l mem => by rw [frame]; exact mem)
      fun c mem => by rw [frame]; exact mem
  · intro call s' o erases done
    obtain ⟨erased, insights, effect⟩ := erase_effect done
    have frame := effect.frame
    refine ⟨by rw [frame]; exact lasting.client, ?_⟩
    have scrubs : scrubbed ∨ op.Erases := .inr (by rw [erases]; trivial)
    rcases lasting.logged with same | ⟨-, mem⟩
    · rcases erasedLogRow_detail call.factId (linkedObservations s call.factId) erased.content row
        with kept | scrub
      · exact .inl (kept ▸ effect.log.of_mem same)
      · exact .inr ⟨scrubs, scrub ▸ effect.log.of_mem same⟩
    · refine .inr ⟨scrubs, ?_⟩
      have mem' := effect.log.of_mem mem
      rcases erasedLogRow_detail call.factId (linkedObservations s call.factId) erased.content
        { row with detailJson := erasedDetail } with kept | scrub
      · rwa [kept] at mem'
      · rwa [scrub] at mem'
  · intro s s' aside lasting
    exact lasting.of_kept (fun l mem => by rw [aside.frame]; exact mem) aside.clients

theorem run_lasting (host : Host) {client : ClientRow} {row : WriteLogRow} (ops : List Op)
    {scrubbed : Prop} {s : Store} (lasting : Lasting client row scrubbed s) :
    Lasting client row (scrubbed ∨ ∃ op ∈ ops, op.Erases) (run (step host) ops s) := by
  induction ops generalizing scrubbed s with
  | nil => exact lasting.mono .inl
  | cons op ops ih =>
      refine (ih (step_lasting host op lasting)).mono ?_
      rintro ((before | now) | ⟨later, mem, erases⟩)
      · exact .inl before
      · exact .inr ⟨op, List.mem_cons_self, now⟩
      · exact .inr ⟨later, List.mem_cons_of_mem _ mem, erases⟩

/-! ## The replay -/

/-- The outcome of a row is rebuilt with any flag and any detail. -/
theorem outcomeFromRow_again {row row' : WriteLogRow} {flag : Bool} {o : WriteOutcome}
    (flag' : Bool) (made : outcomeFromRow row flag = .ok o)
    (same : row' = { row with detailJson := row'.detailJson }) :
    ∃ o', outcomeFromRow row' flag' = .ok o' ∧ o'.replayed = flag' ∧ o'.writeId = o.writeId ∧
      o'.outcome = o.outcome ∧ o'.factId = o.factId ∧ o'.existingFactId = o.existingFactId ∧
      o'.observationId = o.observationId ∧ o'.detailJson = row'.detailJson := by
  obtain ⟨⟨text, valid⟩, checkedId, made⟩ := bind_eq_ok.1 made
  obtain ⟨⟨fact⟩, factOk, made⟩ := bind_eq_ok.1 made
  obtain ⟨⟨existing⟩, existingOk, made⟩ := bind_eq_ok.1 made
  obtain ⟨⟨observation⟩, observationOk, made⟩ := bind_eq_ok.1 made
  cases pure_eq_ok.1 made
  rw [same]
  refine ⟨⟨text, row.outcome, row.factId, row.existingFactId, row.observationId, flag',
    row'.detailJson, valid, fact, existing, observation⟩, ?_, rfl, rfl, rfl, rfl, rfl, rfl, rfl⟩
  exact bind_eq_ok.2 ⟨_, checkedId, bind_eq_ok.2 ⟨_, factOk, bind_eq_ok.2 ⟨_, existingOk,
    bind_eq_ok.2 ⟨_, observationOk, rfl⟩⟩⟩⟩

/-- Registering an enabled client again changes nothing. -/
theorem registerClient_again {s : Store} {context : ConnectionContext} {now : String}
    (enabled : ClientEnabled s context) : registerClient s context now = .ok s := by
  obtain ⟨c, mem, client, surface, active⟩ := enabled
  have same : insertOrIgnore s.clients
      ⟨context.clientId, context.surface, context.displayName, now, none⟩ = s.clients :=
    insertOrIgnore_of_taken mem client
  have found : s.clients.get? context.clientId = some c := Table.get?_eq_some.2 ⟨mem, client⟩
  unfold registerClient
  dsimp only
  rw [same, found]
  exact require_bind_eq_ok.2 ⟨surface, require_bind_eq_ok.2 ⟨active, rfl⟩⟩

/-- A write whose key is logged compares digests, and nothing else. -/
theorem write_of_logged (host : Host) {call : WriteCall} {s : Store} {context : ConnectionContext}
    {row : WriteLogRow} (authorized : call.service.policy.authorizeContext call.context = .ok context)
    (valid : validateStateCandidate call.request call.candidate = .ok ())
    (enabled : ClientEnabled s context)
    (logged : loadPrior s context.clientId call.request.idempotencyKey = some row) :
    call.apply host s =
      (require (row.requestSha256 = requestSha256 host context call.request call.candidate)
        ⟨.idempotencyConflict, "idempotency key was already used for a different request"⟩ >>=
        fun _ => outcomeFromRow row true >>= fun outcome => pure (s, outcome)) := by
  unfold WriteCall.apply write
  rw [authorized, ok_bind, valid, ok_bind, registerClient_again enabled, ok_bind, logged]

/-- The later call submits what the earlier one did. -/
def SameSubmission (call later : WriteCall) : Prop :=
  later.context.sessionId = call.context.sessionId ∧ later.request = call.request ∧
    later.candidate = call.candidate

/-- Two outcomes that differ at most in the flag and the detail. -/
def SameResult (o o' : WriteOutcome) : Prop :=
  o'.writeId = o.writeId ∧ o'.outcome = o.outcome ∧ o'.factId = o.factId ∧
    o'.existingFactId = o.existingFactId ∧ o'.observationId = o.observationId

section Later

variable {host : Host} {call later : WriteCall} {s s₁ : Store} {o : WriteOutcome}

/-- After a write and any further run, a write of the client with the key compares its
digest with that of the logged row. -/
theorem write_after_run (done : call.apply host s = .ok (s₁, o)) (ops : List Op)
    (client : later.context.clientId = call.context.clientId)
    (surface : later.context.surface = call.context.surface)
    (key : later.request.idempotencyKey = call.request.idempotencyKey)
    (authorized : ∃ context, later.service.policy.authorizeContext later.context = .ok context)
    (valid : validateStateCandidate later.request later.candidate = .ok ()) :
    ∃ row o', outcomeFromRow row true = .ok o' ∧ o'.replayed = true ∧ SameResult o o' ∧
      (o'.detailJson = o.detailJson ∨ o'.detailJson = erasedDetail ∧ ∃ op ∈ ops, op.Erases) ∧
      later.apply host (run (step host) ops s₁) =
        (require (requestSha256 host call.context call.request call.candidate =
            requestSha256 host later.context later.request later.candidate)
          ⟨.idempotencyConflict, "idempotency key was already used for a different request"⟩ >>=
          fun _ => outcomeFromRow row true >>= fun outcome =>
            pure (run (step host) ops s₁, outcome)) := by
  obtain ⟨context, granted⟩ := authorized
  obtain ⟨scopes, nonempty, narrowed⟩ := authorizeContext_eq_ok granted
  obtain ⟨first, firstGranted, -, ⟨c, memClient, clientHere, surfaceHere, active⟩, -⟩ :=
    write_cases done
  obtain ⟨_, _, firstNarrowed⟩ := authorizeContext_eq_ok firstGranted
  obtain ⟨row, memRow, rowClient, rowKey, rowDigest, answer⟩ := write_logs done
  have lasting := run_lasting host ops (⟨memClient, .inl memRow⟩ : Lasting c row False s₁)
  obtain ⟨row', memRow', sameRow, detail⟩ : ∃ row' ∈ (run (step host) ops s₁).writeLog,
      row' = { row with detailJson := row'.detailJson } ∧
        (row'.detailJson = row.detailJson ∨
          row'.detailJson = erasedDetail ∧ ∃ op ∈ ops, op.Erases) := by
    rcases lasting.logged with same | ⟨scrubbed, mem⟩
    · exact ⟨row, same, rfl, .inl rfl⟩
    · exact ⟨_, mem, rfl, .inr ⟨rfl, scrubbed.resolve_left id⟩⟩
  have enabled : ClientEnabled (run (step host) ops s₁) context := by
    refine ⟨c, lasting.client, ?_, ?_, active⟩
    · rw [clientHere, narrowed, firstNarrowed]
      exact client.symm
    · rw [surfaceHere, narrowed, firstNarrowed]
      exact surface.symm
  have logged : loadPrior (run (step host) ops s₁) context.clientId later.request.idempotencyKey =
      some row' := by
    refine Table.get?_eq_some.2 ⟨memRow', ?_⟩
    rw [sameRow, narrowed, key, client, ← rowClient, ← rowKey]
  have digest : requestSha256 host context later.request later.candidate =
      requestSha256 host later.context later.request later.candidate :=
    requestSha256_congr (by rw [narrowed]) (by rw [narrowed])
  have rowDigest' : row'.requestSha256 =
      requestSha256 host call.context call.request call.candidate := by
    rw [sameRow]
    exact rowDigest
  obtain ⟨o', answer', replayed, writeId, outcome, fact, existing, observation, detail'⟩ :=
    outcomeFromRow_again true answer sameRow
  refine ⟨row', o', answer', replayed, ⟨writeId, outcome, fact, existing, observation⟩, ?_, ?_⟩
  · rw [detail', (make_eq_ok answer).2.2.2.2.2.2]
    exact detail
  · rw [write_of_logged host granted valid enabled logged, rowDigest', digest]

/-- The same submission is answered from the log. -/
theorem write_again (done : call.apply host s = .ok (s₁, o)) (ops : List Op)
    (client : later.context.clientId = call.context.clientId)
    (surface : later.context.surface = call.context.surface)
    (authorized : ∃ context, later.service.policy.authorizeContext later.context = .ok context)
    (same : SameSubmission call later) :
    ∃ o', later.apply host (run (step host) ops s₁) = .ok (run (step host) ops s₁, o') ∧
      o'.replayed = true ∧ SameResult o o' ∧
      (o'.detailJson = o.detailJson ∨ o'.detailJson = erasedDetail ∧ ∃ op ∈ ops, op.Erases) := by
  obtain ⟨sameSession, sameRequest, sameCandidate⟩ := same
  obtain ⟨_, -, valid, -⟩ := write_cases done
  rw [← sameRequest, ← sameCandidate] at valid
  obtain ⟨row, o', answer, replayed, result, detail, compared⟩ :=
    write_after_run done ops client surface (by rw [sameRequest]) authorized valid
  refine ⟨o', ?_, replayed, result, detail⟩
  rw [compared]
  refine require_bind_eq_ok.2 ⟨?_, bind_eq_ok.2 ⟨o', answer, rfl⟩⟩
  rw [sameRequest, sameCandidate]
  exact requestSha256_congr client.symm sameSession.symm

/-- Any other submission under the key raises. -/
theorem write_other (collisionFree : Function.Injective host.sha256)
    (done : call.apply host s = .ok (s₁, o)) (ops : List Op)
    (client : later.context.clientId = call.context.clientId)
    (surface : later.context.surface = call.context.surface)
    (key : later.request.idempotencyKey = call.request.idempotencyKey)
    (authorized : ∃ context, later.service.policy.authorizeContext later.context = .ok context)
    (valid : validateStateCandidate later.request later.candidate = .ok ())
    (different : ¬ SameSubmission call later) :
    later.apply host (run (step host) ops s₁) = .error ⟨.idempotencyConflict,
      "idempotency key was already used for a different request"⟩ := by
  obtain ⟨row, o', -, -, -, -, compared⟩ :=
    write_after_run done ops client surface key authorized valid
  have apart : requestSha256 host call.context call.request call.candidate ≠
      requestSha256 host later.context later.request later.candidate := by
    intro same
    obtain ⟨session, request, candidate⟩ := requestSha256_injective collisionFree same
    exact different ⟨session.symm, request.symm, candidate.symm⟩
  rw [compared, require, if_neg apart]
  rfl

end Later

/-- After a write and any further run, its key belongs to it.  The log has one row for the
key.  A later write of the client with the key and the same session, request and candidate
is answered from the log; any other raises.  Neither changes the store. -/
theorem logged_key_replays_or_conflicts {host : Host}
    (collisionFree : Function.Injective host.sha256) {call : WriteCall} {s s₁ : Store}
    {o : WriteOutcome} (done : call.apply host s = .ok (s₁, o)) (ops : List Op) (later : WriteCall)
    (client : later.context.clientId = call.context.clientId)
    (surface : later.context.surface = call.context.surface)
    (key : later.request.idempotencyKey = call.request.idempotencyKey)
    (authorized : ∃ context, later.service.policy.authorizeContext later.context = .ok context)
    (valid : validateStateCandidate later.request later.candidate = .ok ()) :
    (∀ l ∈ (run (step host) ops s₁).writeLog, ∀ l' ∈ (run (step host) ops s₁).writeLog,
      l.clientId = l'.clientId → l.idempotencyKey = l'.idempotencyKey → l = l') ∧
    (SameSubmission call later →
      ∃ o', later.apply host (run (step host) ops s₁) = .ok (run (step host) ops s₁, o') ∧
        o'.replayed = true ∧ SameResult o o' ∧
        (o'.detailJson = o.detailJson ∨
          o'.detailJson = erasedDetail ∧ ∃ op ∈ ops, op.Erases)) ∧
    (¬ SameSubmission call later →
      later.apply host (run (step host) ops s₁) = .error ⟨.idempotencyConflict,
          "idempotency key was already used for a different request"⟩ ∧
        step host (.write later) (run (step host) ops s₁) = run (step host) ops s₁) := by
  refine ⟨?_, write_again done ops client surface authorized, fun different => ?_⟩
  · intro l mem l' mem' sameClient sameKey
    exact Table.eq_of_key mem mem' (Prod.ext sameClient sameKey)
  · have raised := write_other collisionFree done ops client surface key authorized valid different
    refine ⟨raised, ?_⟩
    rw [step, raised]
    rfl

/-! ## A sample replay -/

/-- A hash given on some texts; elsewhere it marks the text. -/
def listedHash (digests : List (String × String)) (text : String) : String :=
  (digests.lookup text).getD ("unlisted " ++ text)

theorem mem_of_lookup {digests : List (String × String)} {text digest : String}
    (found : digests.lookup text = some digest) : (text, digest) ∈ digests := by
  induction digests with
  | nil => cases found
  | cons entry rest ih =>
      rw [List.lookup_cons] at found
      split at found
      · rename_i here
        cases found
        rw [eq_of_beq here]
        exact List.mem_cons_self
      · exact List.mem_cons_of_mem _ (ih found)

theorem listedHash_injective {digests : List (String × String)}
    (distinct : (digests.map Prod.snd).Nodup)
    (unmarked : ∀ entry ∈ digests, entry.2.toList.head? ≠ some 'u') :
    Function.Injective (listedHash digests) := by
  have apart : ∀ {text other digest : String}, digests.lookup text = some digest →
      digest ≠ "unlisted " ++ other := by
    intro text other digest found marked
    refine unmarked _ (mem_of_lookup found) ?_
    simp [marked, String.toList_append]
  intro text other same
  unfold listedHash at same
  cases here : digests.lookup text with
  | none =>
      cases there : digests.lookup other with
      | none =>
          rw [here, there] at same
          have lists := congrArg String.toList same
          simp only [Option.getD_none, String.toList_append] at lists
          exact String.toList_inj.1 (List.append_cancel_left lists)
      | some digest =>
          rw [here, there] at same
          exact absurd same.symm (apart there)
  | some digest =>
      cases there : digests.lookup other with
      | none =>
          rw [here, there] at same
          exact absurd same (apart here)
      | some digest' =>
          rw [here, there] at same
          obtain rfl : digest = digest' := same
          have both := List.inj_on_of_nodup_map distinct (mem_of_lookup here) (mem_of_lookup there) rfl
          exact (Prod.mk.inj both).1

/-- A plain write of one client. -/
def sampleWrite (content : String)
    (valid : Required content := by
      with_reducible first
        | exact Sample.opens_required
        | exact Sample.opened_required
        | exact Sample.red_required
        | exact Sample.blue_required
        | decide +kernel) : WriteCall :=
  ⟨Sample.service, Sample.tick "1", Sample.context "agent-a", Sample.request content valid, none⟩

/-- The SHA-256 digests of the texts the sample replay hashes. -/
def sampleDigests : List (String × String) :=
  [(Json.dumps .unicode (requestPayload (Sample.context "agent-a")
      (sampleWrite "the door opens").request none),
    "dc7ea769f98d1dc932033c739bb0b28c0fcc60e577c1cff3c37072961df9831a"),
    (Json.dumps .unicode (observationPayload (Sample.context "agent-a")
      (sampleWrite "the door opens").request),
    "ecfbde137943e9b5bb9089565948e2357e40c2a39c9838dc5175b41826b0e378"),
    (Json.dumps .unicode (requestPayload (Sample.context "agent-a")
      (sampleWrite "the door opened").request none),
    "d0166aa835327eb7d7850c3a86311933eebcb9e298c0963cd5ec344ba514800d")]

def sampleHost : Host := { Sample.host with sha256 := listedHash sampleDigests }

/-- A write, the erasure of its fact, and then the write again: the answer is the first
one.  A different content under the key is a conflict. -/
theorem sample_write_replays :
    ∃ s o, (sampleWrite "the door opens").apply sampleHost Store.empty = .ok (s, o) ∧
      (∃ o', (sampleWrite "the door opens").apply sampleHost
          (run (step sampleHost) [.erase Sample.erasure] s) =
            .ok (run (step sampleHost) [.erase Sample.erasure] s, o') ∧
        o'.replayed = true ∧ SameResult o o') ∧
      (sampleWrite "the door opened").apply sampleHost
          (run (step sampleHost) [.erase Sample.erasure] s) =
        .error ⟨.idempotencyConflict,
          "idempotency key was already used for a different request"⟩ := by
  have distinct : (sampleDigests.map Prod.snd).Nodup := by decide +kernel
  have unmarked : ∀ entry ∈ sampleDigests, entry.2.toList.head? ≠ some 'u' := by
    simp [sampleDigests]
  have collisionFree : Function.Injective sampleHost.sha256 := by
    dsimp only [sampleHost]
    exact listedHash_injective distinct unmarked
  have outcome : (((sampleWrite "the door opens").apply sampleHost Store.empty).toOption.map
      fun result => result.2.outcome) = some .inserted := by decide +kernel
  have authorized : ∀ content valid, ∃ context,
      (sampleWrite content valid).service.policy.authorizeContext
        (sampleWrite content valid).context = .ok context := fun _ _ => ⟨_, rfl⟩
  cases done : (sampleWrite "the door opens").apply sampleHost Store.empty with
  | error e =>
      rw [done] at outcome
      cases outcome
  | ok result =>
      obtain ⟨-, again, -⟩ := logged_key_replays_or_conflicts collisionFree done
        [.erase Sample.erasure] (sampleWrite "the door opens") rfl rfl rfl (authorized _ _) rfl
      obtain ⟨-, -, other⟩ := logged_key_replays_or_conflicts collisionFree done
        [.erase Sample.erasure] (sampleWrite "the door opened") rfl rfl rfl (authorized _ _) rfl
      obtain ⟨o', replay, replayed, same, -⟩ := again ⟨rfl, rfl, rfl⟩
      refine ⟨result.1, result.2, rfl, ⟨o', replay, replayed, same⟩, (other ?_).1⟩
      rintro ⟨-, sameRequest, -⟩
      have sameContent : "the door opened" = "the door opens" := congrArg WriteRequest.content sameRequest
      exact absurd sameContent (by decide)

end Enfold.Laws
