/-
# Laws.Steps -- one rule for every operation

Most operations leave the durable memory alone: they register a connection, store a
vector or move a queue row (`Aside`).  What remains are writes, resolutions and erasures.
`step_induction` reduces a claim about every operation to these three and to `Aside`.
-/
import Enfold.Laws.EraseEffect
import Enfold.Laws.ResolveEffect

namespace Enfold.Laws

open Enfold.Theory Enfold.Model

set_option autoImplicit false

/-- Only registrations, vectors, embedding jobs and the extraction queue differ, and no
client is lost. -/
structure Aside (s s' : Store) : Prop where
  frame : s' = { s with
    clients := s'.clients, sessions := s'.sessions, embeddingJobs := s'.embeddingJobs
    factEmbeddings := s'.factEmbeddings, extractQueue := s'.extractQueue
    queueSequence := s'.queueSequence }
  clients : ∀ c ∈ s.clients, c ∈ s'.clients

theorem Registered.aside {s s' : Store} (registered : Registered s s') : Aside s s' :=
  ⟨by rw [registered.frame], registered.clients⟩

/-- A change to the vectors, the jobs and the queue alone. -/
theorem Aside.of_frame {s s' : Store}
    (frame : s' = { s with
      embeddingJobs := s'.embeddingJobs, factEmbeddings := s'.factEmbeddings
      extractQueue := s'.extractQueue, queueSequence := s'.queueSequence }) : Aside s s' :=
  ⟨by rw [frame], fun c mem => by rw [frame]; exact mem⟩

/-- Only the extraction queue differs. -/
def QueueFrame (s s' : Store) : Prop :=
  s' = { s with extractQueue := s'.extractQueue, queueSequence := s'.queueSequence }

theorem QueueFrame.aside {s s' : Store} (frame : QueueFrame s s') : Aside s s' :=
  .of_frame (by rw [frame])

/-! ## Vectors and the queue -/

theorem upsertInTransaction_eq_ok {spec : EmbeddingSpec} {s s' : Store} {factId : Nat}
    {embedding : List Decimal} (done : upsertInTransaction spec s factId embedding = .ok s') :
    s' = { s with factEmbeddings := s'.factEmbeddings } := by
  unfold upsertInTransaction at done
  obtain ⟨-, done⟩ := require_bind_eq_ok.1 done
  obtain ⟨-, done⟩ := require_bind_eq_ok.1 done
  dsimp only at done
  split at done
  · cases pure_eq_ok.1 done
    rfl
  · cases pure_eq_ok.1 done
    rfl

theorem enqueueAfterCommit_eq_ok {host : Host} {context : ConnectionContext}
    {transcript source scope : String} {metadata : List (String × Json)} {s s' : Store}
    {result : ExtractionEnqueueResult}
    (done : enqueueAfterCommit host context transcript source scope metadata s = .ok (s', result)) :
    QueueFrame s s' := by
  unfold enqueueAfterCommit at done
  dsimp only at done
  obtain ⟨-, done⟩ := require_bind_eq_ok.1 done
  obtain ⟨-, done⟩ := require_bind_eq_ok.1 done
  obtain ⟨-, done⟩ := require_bind_eq_ok.1 done
  split at done
  · cases pure_eq_ok.1 done
    rfl
  · obtain ⟨queue, -, done⟩ := bind_eq_ok.1 done
    cases pure_eq_ok.1 done
    rfl

theorem claim_eq_ok {maxAttempts : Nat} {lease : Lease} {now leaseUntil : Decimal} {s s' : Store}
    {row : Option QueueRow} (done : claim maxAttempts lease now leaseUntil s = .ok (s', row)) :
    QueueFrame s s' := by
  unfold claim at done
  dsimp only at done
  split at done
  · cases pure_eq_ok.1 done
    rfl
  · cases pure_eq_ok.1 done
    rfl

theorem renew_eq_ok {id : Nat} {lease : Lease} {now leaseUntil : Decimal} {s s' : Store}
    {result : PUnit} (done : renew id lease now leaseUntil s = .ok (s', result)) : QueueFrame s s' := by
  obtain ⟨-, done⟩ := require_bind_eq_ok.1 done
  cases pure_eq_ok.1 done
  rfl

theorem persistSnapshot_eq_ok {host : Host} {id : Nat} {lease : Lease} {proposals : Json}
    {s s' : Store} {result : PUnit}
    (done : persistSnapshot host id lease proposals s = .ok (s', result)) : QueueFrame s s' := by
  obtain ⟨-, done⟩ := require_bind_eq_ok.1 done
  cases pure_eq_ok.1 done
  rfl

theorem complete_eq_ok {id : Nat} {lease : Lease} {s s' : Store} {result : PUnit}
    (done : complete id lease s = .ok (s', result)) : QueueFrame s s' := by
  obtain ⟨-, done⟩ := require_bind_eq_ok.1 done
  cases pure_eq_ok.1 done
  rfl

theorem fail_eq_ok {maxAttempts id : Nat} {lease : Lease} {errorCode : String} {permanent : Bool}
    {retryAt : Decimal} {s s' : Store} {attempts : Nat}
    (done : fail maxAttempts id lease errorCode permanent retryAt s = .ok (s', attempts)) :
    QueueFrame s s' := by
  unfold fail at done
  split at done
  · cases done
  · cases pure_eq_ok.1 done
    rfl

/-! ## The rule -/

/-- What resolutions, the erasure at hand and every `Aside` keep, every operation but a write
keeps. -/
theorem step_induction_of_unwritten {host : Host} {P : Store → Prop} {op : Op} {s : Store}
    (unwritten : ∀ call, op ≠ .write call) (start : P s)
    (resolve : ∀ (call : ResolveCall) s s' o, call.apply s = .ok (s', o) → P s → P s')
    (erase : ∀ (call : EraseCall) s' o, op = .erase call → call.apply host s = .ok (s', o) → P s')
    (aside : ∀ s s', Aside s s' → P s → P s') : P (step host op s) := by
  cases op with
  | write call => exact absurd rfl (unwritten call)
  | resolve call => exact commit_induction start fun s' o done => resolve call s s' o done start
  | resolveConflict service resolvedAt context conflictId winner reason =>
      refine commit_induction start fun s' o done => ?_
      obtain ⟨s₁, s₂, call, registered, resolved, frame⟩ := resolveConflict_effect done
      have resolved₂ := resolve call s₁ s₂ o resolved (aside s s₁ registered.aside start)
      exact aside s₂ s' (.of_frame (by rw [frame])) resolved₂
  | storeEmbedding spec factId embedding =>
      refine commit_induction start fun s' o done => ?_
      obtain ⟨s₁, stored, same⟩ := map_eq_ok.1 done
      cases same
      exact aside s s' (.of_frame (by rw [upsertInTransaction_eq_ok stored])) start
  | erase call => exact commit_induction start fun s' o done => erase call s' o rfl done
  | enqueueExtraction context transcript source scope metadata =>
      exact commit_induction start fun s' o done => aside s s' (enqueueAfterCommit_eq_ok done).aside start
  | claim maxAttempts lease now leaseUntil =>
      exact commit_induction start fun s' o done => aside s s' (claim_eq_ok done).aside start
  | renew id lease now leaseUntil =>
      exact commit_induction start fun s' o done => aside s s' (renew_eq_ok done).aside start
  | persistSnapshot id lease proposals =>
      exact commit_induction start fun s' o done => aside s s' (persistSnapshot_eq_ok done).aside start
  | complete id lease =>
      exact commit_induction start fun s' o done => aside s s' (complete_eq_ok done).aside start
  | fail maxAttempts id lease errorCode permanent retryAt =>
      exact commit_induction start fun s' o done => aside s s' (fail_eq_ok done).aside start

/-- What writes, resolutions, the erasure at hand and every `Aside` keep, the operation
keeps. -/
theorem step_induction {host : Host} {P : Store → Prop} {op : Op} {s : Store} (start : P s)
    (write : ∀ (call : WriteCall) s s' o, call.apply host s = .ok (s', o) → P s → P s')
    (resolve : ∀ (call : ResolveCall) s s' o, call.apply s = .ok (s', o) → P s → P s')
    (erase : ∀ (call : EraseCall) s' o, op = .erase call → call.apply host s = .ok (s', o) → P s')
    (aside : ∀ s s', Aside s s' → P s → P s') : P (step host op s) := by
  by_cases isWrite : ∃ call, op = .write call
  · obtain ⟨call, rfl⟩ := isWrite
    exact commit_induction start fun s' o done => write call s s' o done start
  · exact step_induction_of_unwritten (fun call same => isWrite ⟨call, same⟩) start resolve erase
      aside

end Enfold.Laws
