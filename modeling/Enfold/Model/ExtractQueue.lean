/-
# Model.ExtractQueue -- the queue of transcripts (`extract_queue.py`)

`extract_queue` with its partial unique index: no two active rows have one payload hash.  The
index is a field of the table, so a statement that would violate it raises; every update here
is checked when the statement ends, and none of them takes a key that it frees in another row.

Times are seconds since the epoch.  `strftime('%s', created_at)` is a parameter, as are the
digest, the clock and the generated lease owner.
-/
import Enfold.Model.ClusterMerge
import Mathlib.Algebra.Ring.Nat
import Mathlib.Data.Rat.Defs

namespace Enfold.Model

open Enfold.Theory

set_option autoImplicit false

/-! ## The table -/

/-- A row of `extract_queue`. -/
structure ExtractRow where
  id : Int
  payload : String
  createdAt : Option String
  attempts : Int
  lastError : Option String
  status : String
  notBefore : Option ℚ
  leaseOwner : Option String
  leaseUntil : Option ℚ
  leaseToken : Option String
  payloadHash : Option String
  proposalJson : Option String
  proposalHash : Option String
  deriving DecidableEq

namespace ExtractRow

/-- `status IN ('pending', 'processing')`. -/
def Active (r : ExtractRow) : Prop := r.status = "pending" ∨ r.status = "processing"

instance (r : ExtractRow) : Decidable r.Active := inferInstanceAs (Decidable (_ ∨ _))

def Dead (r : ExtractRow) : Prop := r.status = "dead"

instance (r : ExtractRow) : Decidable r.Dead := inferInstanceAs (Decidable (_ = _))

theorem Dead.not_active {r : ExtractRow} (dead : r.Dead) : ¬ r.Active := by
  intro active
  rw [Dead] at dead
  rw [Active, dead] at active
  exact absurd active (by decide)

end ExtractRow

/-- The rows violate no entry of `uq_extract_queue_active_payload_hash`. -/
def ActiveUnique (rows : List ExtractRow) : Prop :=
  ∀ r ∈ rows, ∀ r' ∈ rows, r.Active → r'.Active → ∀ digest ∈ r.payloadHash,
    r'.payloadHash = some digest → r.id = r'.id

instance (rows : List ExtractRow) : Decidable (ActiveUnique rows) :=
  inferInstanceAs (Decidable (∀ r ∈ rows, ∀ r' ∈ rows, _))

structure ExtractTable where
  table : Table Int ExtractRow ExtractRow.id
  /-- The AUTOINCREMENT sequence. -/
  sequence : Int
  bounded : ∀ r ∈ table, r.id ≤ sequence
  /-- The unique index is installed. -/
  indexed : Bool
  unique : indexed = true → ActiveUnique table.rows

namespace ExtractTable

instance : Membership ExtractRow ExtractTable := ⟨fun q r => r ∈ q.table⟩

/-- `UPDATE extract_queue SET … WHERE p`. -/
def update (q : ExtractTable) (p : ExtractRow → Prop) [DecidablePred p]
    (f : ExtractRow → ExtractRow) (keeps : ∀ r, (f r).id = r.id := by intro; rfl) :
    Py ExtractTable := do
  let ⟨unique⟩ ← checked (q.indexed = true → ActiveUnique (q.table.update p f keeps).rows)
    (SQLite.unique "extract_queue.payload_hash")
  return {
    table := q.table.update p f keeps
    sequence := q.sequence
    bounded := by
      intro r mem
      obtain ⟨r₀, mem₀, rfl⟩ := Table.mem_update.1 mem
      split
      · rw [keeps]
        exact q.bounded r₀ mem₀
      · exact q.bounded r₀ mem₀
    indexed := q.indexed
    unique }

/-- `DELETE FROM extract_queue WHERE p`. -/
def delete (q : ExtractTable) (p : ExtractRow → Prop) [DecidablePred p] : ExtractTable where
  table := q.table.delete p
  sequence := q.sequence
  bounded := fun r mem => q.bounded r (Table.mem_delete.1 mem).1
  indexed := q.indexed
  unique := fun indexed r mem r' mem' =>
    q.unique indexed r (Table.mem_delete.1 mem).1 r' (Table.mem_delete.1 mem').1

/-- The row an `INSERT` of a payload adds: the other columns hold their defaults. -/
def newRow (q : ExtractTable) (payload digest createdAt : String) : ExtractRow where
  id := q.sequence + 1
  payload := payload
  createdAt := some createdAt
  attempts := 0
  lastError := none
  status := "pending"
  notBefore := none
  leaseOwner := none
  leaseUntil := none
  leaseToken := none
  payloadHash := some digest
  proposalJson := none
  proposalHash := none

theorem newRow_fresh (q : ExtractTable) (payload digest createdAt : String) :
    (q.newRow payload digest createdAt).id ∉ q.table.rows.map ExtractRow.id := by
  intro taken
  obtain ⟨r, mem, same⟩ := List.mem_map.1 taken
  have := q.bounded r mem
  have next : r.id = q.sequence + 1 := same
  omega

/-- `INSERT OR IGNORE`; `none` when the row is ignored. -/
def insertOrIgnore (q : ExtractTable) (payload digest createdAt : String) : Option ExtractTable :=
  let table := q.table.insert (q.newRow payload digest createdAt)
    (q.newRow_fresh payload digest createdAt)
  if unique : q.indexed = true → ActiveUnique table.rows then
    some {
      table
      sequence := q.sequence + 1
      bounded := by
        intro r mem
        obtain mem | rfl := Table.mem_insert.1 mem
        · exact Int.le_trans (q.bounded r mem) (by omega)
        · exact Int.le_refl _
      indexed := q.indexed
      unique }
  else none

/-- `SELECT id … WHERE p ORDER BY id LIMIT 1`. -/
def firstId (q : ExtractTable) (p : ExtractRow → Prop) [DecidablePred p] : Option Int :=
  ((q.table.select p).map ExtractRow.id).min?

theorem mem_of_firstId {q : ExtractTable} {p : ExtractRow → Prop} [DecidablePred p] {id : Int}
    (found : q.firstId p = some id) : ∃ r ∈ q, p r ∧ r.id = id := by
  obtain ⟨r, mem, rfl⟩ := List.mem_map.1 (List.min?_mem found)
  exact ⟨r, (Table.mem_select.1 mem).1, (Table.mem_select.1 mem).2, rfl⟩

theorem firstId_eq_none {q : ExtractTable} {p : ExtractRow → Prop} [DecidablePred p]
    (none : q.firstId p = .none) : ∀ r ∈ q, ¬ p r := by
  intro r mem holds
  have empty := List.map_eq_nil_iff.1 (List.min?_eq_none_iff.1 none)
  have listed : r ∈ q.table.select p := Table.mem_select.2 ⟨mem, holds⟩
  rw [empty] at listed
  cases listed

end ExtractTable

/-- The digest, and the reading of a `created_at` as seconds. -/
structure QueueHost where
  sha256 : String → String
  epoch : String → Option Int

/-! ## Enqueueing -/

def maxPayloadBytes : Nat := 12 * 1024

/-- `encoded[-limit:].decode("utf-8", errors="ignore")`: the last characters whose encodings
fit; of a character that the bound cuts nothing is left. -/
def lastFitting (limit : Nat) : List Char → List Char
  | [] => []
  | c :: cs =>
      if ((c :: cs).map Char.utf8Size).sum ≤ limit then c :: cs else lastFitting limit cs

/-- The payload as it is stored. -/
def storedPayload (payload : String) : String :=
  String.ofList (lastFitting maxPayloadBytes payload.toList)

namespace ExtractQueue

variable (host : QueueHost)

/-- `enqueue`. -/
def enqueue (q : ExtractTable) (payload createdAt : String) : Py (ExtractTable × Int) :=
  let payload := storedPayload payload
  let payloadHash := host.sha256 payload
  let queued := fun r : ExtractRow => r.Active ∧
    (r.payloadHash = some payloadHash ∨ r.payloadHash = none ∧ r.payload = payload)
  match q.firstId queued with
  | some id => .ok (q, id)
  | none =>
      match q.insertOrIgnore payload payloadHash createdAt with
      | some inserted => .ok (inserted, q.sequence + 1)
      | none =>
          match q.firstId fun r => r.payloadHash = some payloadHash ∧ r.Active with
          | some id => .ok (q, id)
          | none =>
              .error ⟨.integrityError, "extract queue idempotency conflict had no active row"⟩

/-! ## Ending a claim -/

/-- `mark_done`. -/
def markDone (q : ExtractTable) (rowId : Int) (leaseOwner : Option String) : ExtractTable × Bool :=
  let claimed := fun r : ExtractRow => r.id = rowId ∧ r.status = "processing" ∧
    leaseOwner.isSome ∧ r.leaseOwner = leaseOwner
  (q.delete claimed, q.table.rowcount claimed = 1)

def maxRowAgeSeconds : Int := 48 * 3600

def ageCapNote : String := " (dead: 48h age cap)"

/-- `_age_exceeded`. -/
def ageExceeded (r : ExtractRow) (now : ℚ) : Bool :=
  match r.createdAt.bind host.epoch with
  | none => false
  | some created => now - created ≥ maxRowAgeSeconds

/-- `(error or "")[:500]`. -/
def errorMessage (error : Option String) : String :=
  String.ofList ((error.getD "").toList.take 500)

/-- `mark_failed`. -/
def markFailed (q : ExtractTable) (rowId : Int) (error : Option String) (maxAttempts : Int)
    (leaseOwner : Option String) (now : ℚ) : Py (ExtractTable × Int) :=
  match q.table.get? rowId with
  | none => .ok (q, 0)
  | some row =>
      if row.status ≠ "processing" ∨ row.leaseOwner ≠ leaseOwner then .ok (q, 0)
      else do
        let attempts := row.attempts + 1
        let tooOld := ageExceeded host row now
        let message := errorMessage error ++ if tooOld then ageCapNote else ""
        let status := if tooOld || maxAttempts ≤ attempts then "dead" else "pending"
        let q ← q.update (fun r => r.id = rowId) fun r =>
          { r with
            attempts := attempts
            lastError := some message
            status := status
            leaseOwner := none
            leaseUntil := none }
        return (q, attempts)

/-- `mark_quota_failed`; a `not_before` that is not a number is stored as NULL. -/
def markQuotaFailed (q : ExtractTable) (rowId : Int) (error : Option String)
    (notBefore : Option ℚ) (leaseOwner : Option String) (now : ℚ) : Py (ExtractTable × Bool) :=
  match q.table.get? rowId with
  | none => .ok (q, false)
  | some row =>
      if row.status ≠ "processing" ∨ row.leaseOwner ≠ leaseOwner then .ok (q, false)
      else if ageExceeded host row now then do
        let q ← q.update (fun r => r.id = rowId) fun r =>
          { r with
            lastError := some (errorMessage error ++ ageCapNote)
            status := "dead"
            notBefore := none
            leaseOwner := none
            leaseUntil := none }
        return (q, false)
      else do
        let q ← q.update (fun r => r.id = rowId) fun r =>
          { r with
            lastError := some (errorMessage error)
            notBefore := notBefore
            status := "pending"
            leaseOwner := none
            leaseUntil := none }
        return (q, true)

/-- `release_claim`. -/
def releaseClaim (q : ExtractTable) (rowId : Int) (leaseOwner : Option String) :
    Py (ExtractTable × Bool) := do
  let claimed := fun r : ExtractRow => r.id = rowId ∧ r.status = "processing" ∧
    leaseOwner.isSome ∧ r.leaseOwner = leaseOwner
  let released ← q.update claimed fun r =>
    { r with status := "pending", leaseOwner := none, leaseUntil := none }
  return (released, q.table.rowcount claimed = 1)

/-! ## Reviving dead rows -/

/-- The smallest id of a dead row with the hash. -/
def firstDead (q : ExtractTable) (digest : String) : Option Int :=
  q.firstId fun r => r.Dead ∧ r.payloadHash = some digest

/-- The `WHERE` clause of `revive_dead`, without the restriction to ids. -/
def Revivable (q : ExtractTable) (r : ExtractRow) : Prop :=
  r.Dead ∧ (r.payloadHash = none ∨ ∃ digest ∈ r.payloadHash,
    firstDead q digest = some r.id ∧ ¬ ∃ a ∈ q.table.rows, a.payloadHash = some digest ∧ a.Active)

instance (q : ExtractTable) (r : ExtractRow) : Decidable (Revivable q r) :=
  inferInstanceAs (Decidable (_ ∧ (_ ∨ ∃ digest ∈ r.payloadHash, _ ∧ ¬ ∃ a ∈ q.table.rows, _)))

/-- What reviving sets. -/
def revived (r : ExtractRow) : ExtractRow :=
  { r with
    status := "pending"
    attempts := 0
    notBefore := none
    leaseOwner := none
    leaseUntil := none
    lastError := some (r.lastError.getD "" ++ " (revived)") }

/-- `revive_dead`. -/
def reviveDead (q : ExtractTable) (ids : Option (List Int)) : Py (ExtractTable × Nat) :=
  if ids = some [] then .ok (q, 0)
  else do
    let chosen := fun r : ExtractRow => Revivable q r ∧ ∀ listed ∈ ids, r.id ∈ listed
    let updated ← q.update chosen revived
    return (updated, q.table.rowcount chosen)

def quotaErrorPatterns : List String :=
  ["429", "usage_limit_reached", "usage_limit", "rate limit", "quota"]

/-- `is_quota_error`. -/
def isQuotaError (error : Option String) : Bool :=
  let text := String.ofList ((error.getD "").toList.flatMap lowerChar)
  quotaErrorPatterns.any fun pattern => occursIn pattern text

/-- `revive_recent_quota_dead`; `now` is `strftime('%s', 'now')`. -/
def reviveRecentQuotaDead (q : ExtractTable) (now : Int) : Py (ExtractTable × Nat) :=
  let young := q.table.select fun r =>
    r.Dead ∧ ∃ created ∈ r.createdAt.bind host.epoch, now - created < maxRowAgeSeconds
  let quotaIds := (young.filter fun r => isQuotaError r.lastError).map ExtractRow.id
  if quotaIds = [] then .ok (q, 0) else reviveDead q (some quotaIds)

/-! ## Claiming -/

structure ClaimedRow where
  id : Int
  payload : String
  attempts : Int
  leaseOwner : Option String
  leaseUntil : Option ℚ

/-- The row may be claimed now. -/
def Due (maxAttempts : Int) (now : ℚ) (r : ExtractRow) : Prop :=
  r.attempts < maxAttempts ∧ (∀ t ∈ r.notBefore, t ≤ now) ∧
    (r.status = "pending" ∨ r.status = "processing" ∧ ∃ t ∈ r.leaseUntil, t ≤ now)

instance (maxAttempts : Int) (now : ℚ) (r : ExtractRow) : Decidable (Due maxAttempts now r) :=
  inferInstanceAs (Decidable (_ ∧ (∀ t ∈ r.notBefore, _) ∧ (_ ∨ _ ∧ ∃ t ∈ r.leaseUntil, _)))

/-- `next_pending`; `generated` is the owner it makes up. -/
def nextPending (q : ExtractTable) (maxAttempts : Int) (excludeIds : List Int)
    (leaseOwner : Option String) (leaseSeconds now : ℚ) (generated : String) :
    Py (ExtractTable × Option ClaimedRow) :=
  let owner := orElse leaseOwner generated
  match q.firstId fun r => Due maxAttempts now r ∧ r.id ∉ excludeIds with
  | none => .ok (q, none)
  | some rowId => do
      let claimed := fun r : ExtractRow => r.id = rowId ∧ Due maxAttempts now r
      let updated ← q.update claimed fun r =>
        { r with
          status := "processing"
          leaseOwner := some owner
          leaseUntil := some (now + leaseSeconds) }
      if q.table.rowcount claimed ≠ 1 then return (q, none)
      else
        return (updated, (updated.table.get? rowId).map fun r =>
          ⟨r.id, r.payload, r.attempts, r.leaseOwner, r.leaseUntil⟩)

/-! ## Runs of calls -/

/-- A call with its arguments, and what the clock and the generator answer during it. -/
inductive Call where
  | enqueue (payload createdAt : String)
  | nextPending (maxAttempts : Int) (excludeIds : List Int) (leaseOwner : Option String)
      (leaseSeconds now : ℚ) (generated : String)
  | markDone (rowId : Int) (leaseOwner : Option String)
  | markFailed (rowId : Int) (error : Option String) (maxAttempts : Int)
      (leaseOwner : Option String) (now : ℚ)
  | markQuotaFailed (rowId : Int) (error : Option String) (notBefore : Option ℚ)
      (leaseOwner : Option String) (now : ℚ)
  | releaseClaim (rowId : Int) (leaseOwner : Option String)
  | reviveDead (ids : Option (List Int))
  | reviveRecentQuotaDead (now : Int)

/-- The table a call leaves. -/
def Call.apply (q : ExtractTable) : Call → Py ExtractTable
  | .enqueue payload createdAt => (ExtractQueue.enqueue host q payload createdAt).map Prod.fst
  | .nextPending maxAttempts excludeIds leaseOwner leaseSeconds now generated =>
      (ExtractQueue.nextPending q maxAttempts excludeIds leaseOwner leaseSeconds now
        generated).map Prod.fst
  | .markDone rowId leaseOwner => .ok (ExtractQueue.markDone q rowId leaseOwner).1
  | .markFailed rowId error maxAttempts leaseOwner now =>
      (ExtractQueue.markFailed host q rowId error maxAttempts leaseOwner now).map Prod.fst
  | .markQuotaFailed rowId error notBefore leaseOwner now =>
      (ExtractQueue.markQuotaFailed host q rowId error notBefore leaseOwner now).map Prod.fst
  | .releaseClaim rowId leaseOwner => (ExtractQueue.releaseClaim q rowId leaseOwner).map Prod.fst
  | .reviveDead ids => (ExtractQueue.reviveDead q ids).map Prod.fst
  | .reviveRecentQuotaDead now => (ExtractQueue.reviveRecentQuotaDead host q now).map Prod.fst

end ExtractQueue

end Enfold.Model
