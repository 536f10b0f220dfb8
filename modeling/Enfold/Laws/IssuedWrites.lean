/-
# Laws.IssuedWrites -- a write that arrives as a request

`memory.write` reads its parameters into a call of the write service (`handleWrite_eq_ok`).
Whatever the parameters are, the call keeps the client of the connection, and it takes the
key and the metadata that the parameters name (`Issued`).  A write leaves the extraction
queue alone (`handleWrite_queue`) and a row of the log behind (`handleWrite_logs`).
-/
import Enfold.Laws.Replay
import Enfold.Model.Requests

namespace Enfold.Laws

open Enfold.Theory Enfold.Model

set_option autoImplicit false

/-! ## Reading the parameters -/

theorem textParam_eq_ok {value : Json} {name text : String} (read : textParam value name = .ok text) :
    ∃ given, value = .str given ∧ strip given ≠ "" ∧ text = strip given := by
  unfold textParam at read
  split at read
  · rename_i given
    split at read
    · cases read
    · rename_i filled
      exact ⟨given, rfl, filled, (Except.ok.inj read).symm⟩
  · cases read

/-- A request error of a write is no answer. -/
theorem asWriteError_eq_ok {α : Type} {result : Py α} {a : α} :
    asWriteError result = .ok a ↔ result = .ok a := by
  cases result with
  | ok b => rfl
  | error e =>
      simp only [reduceCtorEq, iff_false]
      unfold asWriteError
      dsimp only
      split <;> simp

theorem canonicalJsonObject_eq_ok {decoded : Option Json} {name : String}
    {document : {document : Json // document.IsObject}}
    (read : canonicalJsonObject decoded name = .ok document) : decoded = some document.1 := by
  unfold canonicalJsonObject at read
  split at read
  · cases read
    rfl
  · cases read

/-- The key and the metadata of a write request are those of its parameters. -/
theorem writeRequest_eq_ok {context : ConnectionContext} {params : Json} {request : WriteRequest}
    (read : writeRequest context params = .ok request) :
    (∃ key, field "idempotency_key" params = .str key ∧ request.idempotencyKey = strip key) ∧
      jsonObject (field "metadata" params) "metadata" = .ok request.metadataJson := by
  unfold writeRequest at read
  obtain ⟨metadata, object, read⟩ := bind_eq_ok.1 read
  obtain ⟨key, named, read⟩ := bind_eq_ok.1 read
  iterate 16 obtain ⟨_, -, read⟩ := bind_eq_ok.1 read
  unfold WriteRequest.make at read
  obtain ⟨⟨key', valid⟩, kept, read⟩ := bind_eq_ok.1 read
  iterate 10 obtain ⟨⟨_⟩, -, read⟩ := bind_eq_ok.1 read
  obtain ⟨⟨document, isObject⟩, same, read⟩ := bind_eq_ok.1 read
  cases pure_eq_ok.1 read
  obtain ⟨given, text, -, rfl⟩ := textParam_eq_ok named
  have stripped : key' = strip (strip given) := required_eq_ok kept
  refine ⟨⟨given, text, stripped.trans (strip_strip given)⟩, ?_⟩
  rw [object, Option.some.inj (canonicalJsonObject_eq_ok same)]

/-- The connection of a request, before it is narrowed. -/
theorem protocolContext_eq_ok {context : ClientContext} {connection : ConnectionContext}
    (read : protocolContext context = .ok connection) :
    connection.clientId = strip context.clientId ∧ connection.surface = strip context.surface ∧
      connection.sessionId = strip context.sessionId := by
  unfold protocolContext ConnectionContext.make at read
  obtain ⟨⟨client, _⟩, client', read⟩ := bind_eq_ok.1 read
  obtain ⟨⟨surface, _⟩, surface', read⟩ := bind_eq_ok.1 read
  obtain ⟨⟨_, _⟩, -, read⟩ := bind_eq_ok.1 read
  obtain ⟨⟨session, _⟩, session', read⟩ := bind_eq_ok.1 read
  iterate 2 obtain ⟨_, -, read⟩ := bind_eq_ok.1 read
  obtain ⟨⟨_⟩, -, read⟩ := bind_eq_ok.1 read
  cases pure_eq_ok.1 read
  exact ⟨required_eq_ok client', required_eq_ok surface', required_eq_ok session'⟩

theorem authorize_eq_ok {policy : MemoryPolicy} {context : ClientContext}
    {connection : ConnectionContext} :
    authorize policy context = .ok connection ↔
      protocolContext context >>= policy.authorizeContext = .ok connection := by
  unfold authorize
  cases protocolContext context >>= policy.authorizeContext with
  | ok effective => rfl
  | error e =>
      simp only [reduceCtorEq, iff_false]
      split <;> simp

/-- A connection keeps its identities when it is authorized. -/
theorem authorize_identities {policy : MemoryPolicy} {context : ClientContext}
    {connection : ConnectionContext} (authorized : authorize policy context = .ok connection) :
    connection.clientId = strip context.clientId ∧ connection.surface = strip context.surface ∧
      connection.sessionId = strip context.sessionId := by
  obtain ⟨given, read, narrowed⟩ := bind_eq_ok.1 (authorize_eq_ok.1 authorized)
  obtain ⟨scopes, nonempty, rfl⟩ := authorizeContext_eq_ok narrowed
  obtain ⟨client, surface, session⟩ := protocolContext_eq_ok read
  exact ⟨client, surface, session⟩

/-! ## The call of the write service -/

/-- The call a request makes. -/
structure Issued (service : MemoryWriteService) (context : ClientContext) (params : Json)
    (call : WriteCall) : Prop where
  service : call.service = service
  client : call.context.clientId = strip context.clientId
  surface : call.context.surface = strip context.surface
  session : call.context.sessionId = strip context.sessionId
  key : ∃ key, field "idempotency_key" params = .str key ∧ call.request.idempotencyKey = strip key
  metadata : jsonObject (field "metadata" params) "metadata" = .ok call.request.metadataJson

section Handle

variable {host : Host} {service : MemoryWriteService} {tick : Tick} {context : ClientContext}
  {params : Json} {s s' : Store} {o : WriteOutcome}

/-- A request that was answered is a call of the write service. -/
theorem handleWrite_eq_ok
    (done : handleWrite host service tick context params s = .ok (s', o)) :
    ∃ call, Issued service context params call ∧ call.apply host s = .ok (s', o) := by
  obtain ⟨_, -, done⟩ := bind_eq_ok.1 done
  obtain ⟨connection, authorized, done⟩ := bind_eq_ok.1 done
  obtain ⟨client, surface, session⟩ := authorize_identities authorized
  unfold writeRoute at done
  obtain ⟨_, -, done⟩ := bind_eq_ok.1 done
  obtain ⟨request, read, done⟩ := bind_eq_ok.1 (asWriteError_eq_ok.1 done)
  obtain ⟨candidate, -, done⟩ := bind_eq_ok.1 done
  obtain ⟨key, metadata⟩ := writeRequest_eq_ok read
  exact ⟨⟨service, tick, connection, request, candidate⟩,
    ⟨rfl, client, surface, session, key, metadata⟩, done⟩

/-- A write leaves the extraction queue alone. -/
theorem write_queue {call : WriteCall} (done : call.apply host s = .ok (s', o)) :
    s'.extractQueue = s.extractQueue ∧ s'.queueSequence = s.queueSequence := by
  obtain ⟨connection, -, -, -, cases⟩ := write_cases done
  cases cases with
  | replay prior found sameHash answer frame clients => exact ⟨by rw [frame], by rw [frame]⟩
  | factless s₀ decision fresh registered decided frame logged answer =>
      exact ⟨by rw [frame, registered.frame], by rw [frame, registered.frame]⟩
  | typed s₀ s₁ observationId effective d applied fresh registered decided recorded observed
      accepted branch finished =>
      exact ⟨by rw [finished.frame, branch.1, observed, registered.frame],
        by rw [finished.frame, branch.1, observed, registered.frame]⟩
  | untyped s₀ s₁ observationId near applied fresh registered decided recorded observed searched
      accepted branch finished =>
      exact ⟨by rw [finished.frame, branch.1, observed, registered.frame],
        by rw [finished.frame, branch.1, observed, registered.frame]⟩

theorem handleWrite_queue (done : handleWrite host service tick context params s = .ok (s', o)) :
    s'.extractQueue = s.extractQueue ∧ s'.queueSequence = s.queueSequence := by
  obtain ⟨call, -, done⟩ := handleWrite_eq_ok done
  exact write_queue done

/-- A request that was answered is logged under the key of its parameters. -/
theorem handleWrite_logs (done : handleWrite host service tick context params s = .ok (s', o)) :
    ∃ row ∈ s'.writeLog, row.clientId = strip context.clientId ∧
      (∃ key, field "idempotency_key" params = .str key ∧ row.idempotencyKey = strip key) ∧
      outcomeFromRow row o.replayed = .ok o := by
  obtain ⟨call, issued, done⟩ := handleWrite_eq_ok done
  obtain ⟨row, mem, client, key, -, answer⟩ := write_logs done
  obtain ⟨text, named, same⟩ := issued.key
  exact ⟨row, mem, client.trans issued.client, ⟨text, named, key.trans same⟩, answer⟩

end Handle

end Enfold.Laws
