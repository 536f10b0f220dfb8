/-
# Laws.QueueMoves -- what an extraction worker can do to the queue

A worker changes the queue in five calls.  `_claim` buries exhausted rows and leases one
(`claim_effect`).  Each of the others finds the one row that is held under its lease: `_renew`,
`_persist_snapshot` and `_fail` rewrite that row and no other (`HeldEdit`), `_complete` deletes
it (`complete_effect`).  An enqueue appends a row with a new id (`enqueue_effect`).
-/
import Enfold.Laws.Steps

namespace Enfold.Laws

open Enfold.Theory Enfold.Model

set_option autoImplicit false

/-! ## Rows before and after -/

/-- A row whose attempts are used up. -/
def buriedRow (q : QueueRow) : QueueRow :=
  { q with
    status := .dead
    lastError := some "attempts_exhausted"
    leaseOwner := none
    leaseUntil := none
    leaseToken := none }

def leasedRow (lease : Lease) (leaseUntil : Decimal) (q : QueueRow) : QueueRow :=
  { q with
    status := .processing
    attempts := q.attempts + 1
    leaseOwner := some lease.workerId
    leaseUntil := some leaseUntil
    leaseToken := some lease.token }

def renewedRow (leaseUntil : Decimal) (q : QueueRow) : QueueRow :=
  { q with leaseUntil := some leaseUntil }

def snapshotRow (host : Host) (proposals : Json) (q : QueueRow) : QueueRow :=
  { q with
    proposalJson := some proposals
    proposalHash := some (host.sha256 (Json.dumps .unicode proposals)) }

/-- The row after a failure at its last attempt, or after one that will be retried. -/
def failedRow (errorCode : String) (dead : Prop) [Decidable dead] (retryAt : Decimal)
    (q : QueueRow) : QueueRow :=
  { q with
    lastError := some errorCode
    status := if dead then .dead else .pending
    notBefore := if dead then none else some retryAt
    leaseOwner := none
    leaseUntil := none
    leaseToken := none }

theorem leasedRow_held (lease : Lease) (leaseUntil : Decimal) (q : QueueRow) :
    (leasedRow lease leaseUntil q).HeldBy lease := ⟨rfl, rfl, rfl⟩

/-! ## Edits of a held row -/

/-- The row `q` is held under the lease, and it alone is rewritten. -/
structure HeldEdit (id : Nat) (lease : Lease) (f : QueueRow → QueueRow) (s s' : Store)
    (q : QueueRow) : Prop where
  mem : q ∈ s.extractQueue
  here : q.id = id
  held : q.HeldBy lease
  frame : s' = { s with extractQueue := s'.extractQueue }
  patch : Table.Patches s.extractQueue s'.extractQueue [f q]

theorem HeldEdit.of_update {id : Nat} {lease : Lease} {p : QueueRow → Prop} [DecidablePred p]
    {f : QueueRow → QueueRow} (keeps : ∀ q, (f q).id = q.id) {s : Store} {q : QueueRow}
    (mem : q ∈ s.extractQueue) (held : q.HeldBy lease) (holds : p q) (byId : ∀ q, p q → q.id = id) :
    HeldEdit id lease f s { s with extractQueue := s.extractQueue.update p f keeps } q := by
  have patch : Table.Patches s.extractQueue (s.extractQueue.update p f keeps) [f q] :=
    Table.Patches.of_update mem holds fun q' _ other => (byId q' other).trans (byId q holds).symm
  exact ⟨mem, byId q holds, held, rfl, patch⟩

section Edits

variable {host : Host} {maxAttempts id : Nat} {lease : Lease} {now leaseUntil : Decimal}
  {s s' : Store}

theorem renew_effect {result : PUnit} (done : renew id lease now leaseUntil s = .ok (s', result)) :
    ∃ q, HeldEdit id lease (renewedRow leaseUntil) s s' q := by
  obtain ⟨one, done⟩ := require_bind_eq_ok.1 done
  cases pure_eq_ok.1 done
  obtain ⟨q, mem, here, held, live⟩ := Table.exists_of_rowcount_eq_one one
  exact ⟨q, .of_update (by intro; rfl) mem held ⟨here, held, live⟩ fun _ other => other.1⟩

/-- A snapshot is stored in a row that has none. -/
theorem persistSnapshot_effect {proposals : Json} {result : PUnit}
    (done : persistSnapshot host id lease proposals s = .ok (s', result)) :
    ∃ q, HeldEdit id lease (snapshotRow host proposals) s s' q ∧ q.proposalJson = none ∧
      q.proposalHash = none := by
  obtain ⟨one, done⟩ := require_bind_eq_ok.1 done
  cases pure_eq_ok.1 done
  obtain ⟨q, mem, here, held, blank, unhashed⟩ := Table.exists_of_rowcount_eq_one one
  exact ⟨q, .of_update (by intro; rfl) mem held ⟨here, held, blank, unhashed⟩ fun _ other => other.1,
    Option.isNone_iff_eq_none.1 blank, unhashed⟩

theorem complete_effect {result : PUnit} (done : complete id lease s = .ok (s', result)) :
    s' = { s with extractQueue := s'.extractQueue } ∧
      ∃ q ∈ s.extractQueue, q.id = id ∧ q.HeldBy lease ∧
        ∀ x, x ∈ s'.extractQueue ↔ x ∈ s.extractQueue ∧ x.id ≠ id := by
  obtain ⟨one, done⟩ := require_bind_eq_ok.1 done
  cases pure_eq_ok.1 done
  obtain ⟨q, mem, here, held⟩ := Table.exists_of_rowcount_eq_one one
  refine ⟨rfl, q, mem, here, held, fun x => ?_⟩
  rw [Table.mem_delete]
  constructor
  · rintro ⟨memX, outside⟩
    refine ⟨memX, fun same => outside ?_⟩
    obtain rfl := Table.eq_of_key memX mem (same.trans here.symm)
    exact ⟨here, held⟩
  · rintro ⟨memX, other⟩
    exact ⟨memX, fun inside => other inside.1⟩

/-- A failure is recorded exactly when the row is held. -/
theorem fail_effect_iff {errorCode : String} {permanent : Bool} {retryAt : Decimal} {attempts : Nat} :
    fail maxAttempts id lease errorCode permanent retryAt s = .ok (s', attempts) ↔
      ∃ q ∈ s.extractQueue, q.id = id ∧ q.HeldBy lease ∧ attempts = q.attempts ∧
        s' = { s with
          extractQueue := s.extractQueue.update
            (fun q =>
              q.id = id ∧ q.leaseOwner = some lease.workerId ∧ q.leaseToken = some lease.token)
            (failedRow errorCode (permanent ∨ maxAttempts ≤ q.attempts) retryAt)
            (fun _ => rfl) } := by
  unfold fail
  split
  · rename_i none
    simp only [reduceCtorEq, throw, throwThe, MonadExceptOf.throw, false_iff]
    rintro ⟨q, mem, here, held, -⟩
    have selected : q ∈ s.extractQueue.select fun q => q.id = id ∧ q.HeldBy lease :=
      Table.mem_select.2 ⟨mem, here, held⟩
    rw [none] at selected
    cases selected
  · rename_i row rest found
    have selected : row ∈ s.extractQueue.select fun q => q.id = id ∧ q.HeldBy lease :=
      found ▸ List.mem_cons_self
    obtain ⟨mem, here, held⟩ := Table.mem_select.1 selected
    constructor
    · intro done
      cases pure_eq_ok.1 done
      exact ⟨row, mem, here, held, rfl, rfl⟩
    · rintro ⟨q, memQ, hereQ, heldQ, rfl, rfl⟩
      obtain rfl := Table.eq_of_key memQ mem (hereQ.trans here.symm)
      rfl

theorem fail_effect {errorCode : String} {permanent : Bool} {retryAt : Decimal} {attempts : Nat}
    (done : fail maxAttempts id lease errorCode permanent retryAt s = .ok (s', attempts)) :
    ∃ q, HeldEdit id lease
      (failedRow errorCode (permanent ∨ maxAttempts ≤ q.attempts) retryAt) s s' q := by
  obtain ⟨q, mem, here, held, -, rfl⟩ := fail_effect_iff.1 done
  exact ⟨q, .of_update (by intro; rfl) mem held ⟨here, held.2⟩ fun _ other => other.1⟩

end Edits

/-! ## Claims -/

/-- What a claim does to a row: bury it, lease it, or pass it. -/
inductive ClaimMove (maxAttempts : Nat) (lease : Lease) (now leaseUntil : Decimal)
    (claimed : Option QueueRow) (q : QueueRow) : QueueRow → Prop where
  | buries (expired : q.Expired now) (exhausted : maxAttempts ≤ q.attempts) :
      ClaimMove maxAttempts lease now leaseUntil claimed q (buriedRow q)
  | leases (here : claimed = some q) :
      ClaimMove maxAttempts lease now leaseUntil claimed q (leasedRow lease leaseUntil q)
  | passes (other : ∀ r ∈ claimed, r.id ≠ q.id) :
      ClaimMove maxAttempts lease now leaseUntil claimed q q

/-- What a claim leaves behind. -/
structure ClaimEffect (maxAttempts : Nat) (lease : Lease) (now leaseUntil : Decimal) (s s' : Store)
    (claimed : Option QueueRow) : Prop where
  frame : s' = { s with extractQueue := s'.extractQueue }
  moves : ∃ g, Table.Maps s.extractQueue s'.extractQueue g ∧
    ∀ q ∈ s.extractQueue, ClaimMove maxAttempts lease now leaseUntil claimed q (g q)
  leased : ∀ r ∈ claimed, r ∈ s.extractQueue ∧ leasedRow lease leaseUntil r ∈ s'.extractQueue ∧
    r.attempts < maxAttempts ∧ (r.status = .pending ∨ r.Expired now)

theorem claim_effect {maxAttempts : Nat} {lease : Lease} {now leaseUntil : Decimal} {s s' : Store}
    {claimed : Option QueueRow}
    (done : claim maxAttempts lease now leaseUntil s = .ok (s', claimed)) :
    ClaimEffect maxAttempts lease now leaseUntil s s' claimed := by
  unfold claim at done
  extract_lets buried due at done
  have burials : Table.Maps s.extractQueue
      (s.extractQueue.update (fun q => q.Expired now ∧ maxAttempts ≤ q.attempts) buriedRow
        fun _ => rfl)
      fun q => if q.Expired now ∧ maxAttempts ≤ q.attempts then buriedRow q else q :=
    Table.Maps.of_update _
  change Table.Maps s.extractQueue buried _ at burials
  split at done
  · cases pure_eq_ok.1 done
    refine ⟨rfl, ⟨_, burials, fun q mem => ?_⟩, by simp⟩
    split
    · rename_i spent
      exact .buries spent.1 spent.2
    · exact .passes (by simp)
  · rename_i row rest first
    cases pure_eq_ok.1 done
    have selected : row ∈ due := (List.mem_insertionSort _).1 (first ▸ List.mem_cons_self)
    obtain ⟨inBuried, few, -, due⟩ := Table.mem_select.1 selected
    obtain ⟨r, mem, kept⟩ := (burials row).1 inBuried
    dsimp only at kept
    have spared : ¬ (r.Expired now ∧ maxAttempts ≤ r.attempts) := by
      intro spent
      rw [if_pos spent] at kept
      subst kept
      exact absurd few (Nat.not_lt.2 spent.2)
    rw [if_neg spared] at kept
    subst kept
    have leases := Table.Maps.of_update (t := buried)
      (p := fun q => q.id = r.id ∧ q.attempts < maxAttempts) (f := fun q =>
        { q with
          status := .processing
          attempts := r.attempts + 1
          leaseOwner := some lease.workerId
          leaseUntil := some leaseUntil
          leaseToken := some lease.token }) fun _ => rfl
    refine ⟨rfl, ⟨_, burials.trans leases, fun q memQ => ?_⟩, ?_⟩
    · simp only [Function.comp]
      by_cases same : q.id = r.id
      · obtain rfl := Table.eq_of_key memQ mem same
        rw [if_neg spared, if_pos ⟨rfl, few⟩]
        exact .leases rfl
      · have apart : ∀ r' ∈ some r, r'.id ≠ q.id := by
          rintro r' ⟨⟩ here
          exact same here.symm
        split
        · rename_i spent
          rw [if_neg fun both => same both.1]
          exact .buries spent.1 spent.2
        · rw [if_neg fun both => same both.1]
          exact .passes apart
    · rintro r' ⟨⟩
      exact ⟨mem, (leases _).2 ⟨r, inBuried, if_pos ⟨rfl, few⟩⟩, few, due⟩

/-! ## Enqueueing -/

/-- A row that an enqueue appends to the queue. -/
structure NewRow (s : Store) (row : QueueRow) : Prop where
  id : row.id = s.queueSequence + 1
  attempts : row.attempts = 0
  pending : row.status = .pending
  unleased : row.leaseOwner = none ∧ row.leaseUntil = none ∧ row.leaseToken = none
  bare : row.proposalJson = none ∧ row.proposalHash = none
  fresh : ∀ q ∈ s.extractQueue, q.id ≠ row.id

/-- An enqueue finds a row, or appends one under the next id. -/
theorem enqueue_effect {host : Host} {context : ConnectionContext}
    {transcript source scope : String} {metadata : List (String × Json)} {s s' : Store}
    {result : ExtractionEnqueueResult}
    (done : enqueueAfterCommit host context transcript source scope metadata s = .ok (s', result)) :
    s' = s ∨ ∃ row, NewRow s row ∧ Table.Patches s.extractQueue s'.extractQueue [row] ∧
      s' = { s with extractQueue := s'.extractQueue, queueSequence := s.queueSequence + 1 } := by
  unfold enqueueAfterCommit at done
  dsimp only at done
  obtain ⟨-, done⟩ := require_bind_eq_ok.1 done
  obtain ⟨-, done⟩ := require_bind_eq_ok.1 done
  obtain ⟨-, done⟩ := require_bind_eq_ok.1 done
  split at done
  · cases pure_eq_ok.1 done
    exact .inl rfl
  · obtain ⟨queue, inserted, done⟩ := bind_eq_ok.1 done
    cases pure_eq_ok.1 done
    obtain ⟨fresh, rfl⟩ := Table.insert?_eq_some.1 (insertRow_eq_ok.1 inserted)
    have patch : Table.Patches s.extractQueue (s.extractQueue.insert _ fresh) _ :=
      Table.Patches.of_insert
    have apart : ∀ q ∈ s.extractQueue, q.id ≠ s.queueSequence + 1 := by
      intro q mem same
      exact fresh (List.mem_map.2 ⟨q, mem, same⟩)
    exact .inr ⟨_, ⟨rfl, rfl, rfl, ⟨rfl, rfl, rfl⟩, ⟨rfl, rfl⟩, apart⟩, patch, rfl⟩

end Enfold.Laws
