/-
# Laws.QueueDedup -- one active copy of a payload

Every call of the queue keeps the unique index satisfied, so none raises: a call that changes
statuses only moves rows among the active ones or out of them, `revive_dead` makes a row active
only where its hash has no active row, and `enqueue` inserts only where none has
(`Call.apply_inv`).  The run law is by induction on the calls (`queue_deduplicates`).

`revive_dead` with a list of ids compares with every dead row of the table, listed or not, so a
listed transcript stays without an active copy when an unlisted dead row of the same payload
has the smaller id (`revive_complete_iff`).
-/
import Enfold.Model.ExtractQueue

namespace Enfold.Laws

open Enfold.Theory Enfold.Model Enfold.Model.ExtractQueue

set_option autoImplicit false

/-- Every stored hash is the hash of its payload. -/
def HashSound (host : QueueHost) (q : ExtractTable) : Prop :=
  ∀ r ∈ q, ∀ digest ∈ r.payloadHash, digest = host.sha256 r.payload

/-- The index is installed and the hashes are sound. -/
structure QueueInv (host : QueueHost) (q : ExtractTable) : Prop where
  indexed : q.indexed = true
  hashes : HashSound host q

section Updates

variable {host : QueueHost} {q : ExtractTable} {p : ExtractRow → Prop} [DecidablePred p]
  {f : ExtractRow → ExtractRow} {keeps : ∀ r, (f r).id = r.id}

/-! ## One statement -/

/-- An update that leaves the index satisfied returns. -/
theorem update_of
    (unique : q.indexed = true → ActiveUnique (q.table.update p f keeps).rows) :
    ∃ q', q.update p f keeps = .ok q' ∧ q'.table = q.table.update p f keeps ∧
      q'.indexed = q.indexed := by
  unfold ExtractTable.update
  rw [checked_of unique]
  exact ⟨_, rfl, rfl, rfl⟩

/-- Nothing becomes active, and no hash changes. -/
theorem activeUnique_update (unique : ActiveUnique q.table.rows)
    (quiet : ∀ r ∈ q, p r → (f r).payloadHash = r.payloadHash ∧ ((f r).Active → r.Active)) :
    ActiveUnique (q.table.update p f keeps).rows := by
  have before : ∀ r ∈ (q.table.update p f keeps).rows, ∃ r₀ ∈ q.table.rows, r₀.id = r.id ∧
      r₀.payloadHash = r.payloadHash ∧ (r.Active → r₀.Active) := by
    intro r mem
    obtain ⟨r₀, mem₀, rfl⟩ := Table.mem_update.1 mem
    split
    · rename_i touched
      obtain ⟨hash, active⟩ := quiet r₀ mem₀ touched
      exact ⟨r₀, mem₀, (keeps r₀).symm, hash.symm, active⟩
    · exact ⟨r₀, mem₀, rfl, rfl, id⟩
  intro r mem r' mem' active active' digest hash hash'
  obtain ⟨r₀, mem₀, id, hash₀, active₀⟩ := before r mem
  obtain ⟨r₀', mem₀', id', hash₀', active₀'⟩ := before r' mem'
  rw [← id, ← id']
  rw [← hash₀] at hash
  exact unique r₀ mem₀ r₀' mem₀' (active₀ active) (active₀' active') digest hash
    (hash₀'.trans hash')

/-- An update that keeps payloads and hashes and leaves the index satisfied keeps the queue
sound. -/
theorem update_inv (inv : QueueInv host q)
    (unique : ActiveUnique (q.table.update p f keeps).rows)
    (same : ∀ r, (f r).payload = r.payload ∧ (f r).payloadHash = r.payloadHash) :
    ∃ q', q.update p f keeps = .ok q' ∧ QueueInv host q' := by
  obtain ⟨q', done, table, indexed⟩ := update_of fun _ => unique
  refine ⟨q', done, indexed.trans inv.indexed, fun r mem => ?_⟩
  have listed : r ∈ q.table.update p f keeps := by
    rw [← table]
    exact mem
  obtain ⟨r₀, mem₀, rfl⟩ := Table.mem_update.1 listed
  split
  · obtain ⟨payload, hash⟩ := same r₀
    rw [payload, hash]
    exact inv.hashes r₀ mem₀
  · exact inv.hashes r₀ mem₀

/-- A change of status that makes no row active. -/
theorem quiet_update_inv (inv : QueueInv host q)
    (active : ∀ r ∈ q, p r → (f r).Active → r.Active)
    (same : ∀ r, (f r).payload = r.payload ∧ (f r).payloadHash = r.payloadHash) :
    ∃ q', q.update p f keeps = .ok q' ∧ QueueInv host q' :=
  update_inv inv (activeUnique_update (q.unique inv.indexed) fun r mem touched =>
    ⟨(same r).2, active r mem touched⟩) same

end Updates

/-! ## Reviving -/

section Revive

variable {q : ExtractTable}

/-- Reviving chosen rows that are revivable leaves the index satisfied: a revived row with a hash is
the first dead one, and the hash had no active row. -/
theorem activeUnique_revived {p : ExtractRow → Prop} [DecidablePred p]
    (unique : ActiveUnique q.table.rows) (chosen : ∀ r ∈ q, p r → Revivable q r) :
    ActiveUnique (q.table.update p revived fun _ => rfl).rows := by
  have first : ∀ r ∈ q, p r → ∀ digest ∈ r.payloadHash,
      firstDead q digest = some r.id ∧
        ¬ ∃ a ∈ q.table.rows, a.payloadHash = some digest ∧ a.Active := by
    intro r mem touched digest hash
    obtain none | ⟨digest', hash', lowest, idle⟩ := (chosen r mem touched).2
    · rw [none] at hash
      cases hash
    · cases Option.some.inj (hash.symm.trans hash')
      exact ⟨lowest, idle⟩
  intro r mem r' mem' active active' digest hash hash'
  obtain ⟨r₀, mem₀, rfl⟩ := Table.mem_update.1 mem
  obtain ⟨r₀', mem₀', rfl⟩ := Table.mem_update.1 mem'
  by_cases touched : p r₀
  · rw [if_pos touched] at hash ⊢
    by_cases touched' : p r₀'
    · rw [if_pos touched'] at hash' ⊢
      obtain ⟨lowest, -⟩ := first r₀ mem₀ touched digest hash
      obtain ⟨lowest', -⟩ := first r₀' mem₀' touched' digest hash'
      exact Option.some.inj (lowest.symm.trans lowest')
    · rw [if_neg touched'] at hash' active'
      exact absurd ⟨r₀', mem₀', hash', active'⟩ (first r₀ mem₀ touched digest hash).2
  · rw [if_neg touched] at hash active ⊢
    by_cases touched' : p r₀'
    · rw [if_pos touched'] at hash'
      exact absurd ⟨r₀, mem₀, hash, active⟩ (first r₀' mem₀' touched' digest hash').2
    · rw [if_neg touched'] at hash' active' ⊢
      exact unique r₀ mem₀ r₀' mem₀' active active' digest hash hash'

/-- `revive_dead` returns, and the rows it leaves are those of its update. -/
theorem reviveDead_spec (q : ExtractTable) (ids : Option (List Int)) :
    ∃ q' n, reviveDead q ids = .ok (q', n) ∧ q'.indexed = q.indexed ∧
      ∀ r, r ∈ q' ↔ ∃ r₀ ∈ q,
        (if Revivable q r₀ ∧ ∀ listed ∈ ids, r₀.id ∈ listed then revived r₀ else r₀) = r := by
  unfold reviveDead
  split
  · rename_i empty
    refine ⟨q, 0, rfl, rfl, fun r => ?_⟩
    have unlisted : ∀ r₀ : ExtractRow, ¬ (Revivable q r₀ ∧ ∀ listed ∈ ids, r₀.id ∈ listed) := by
      rintro r₀ ⟨-, all⟩
      exact absurd (all [] empty) List.not_mem_nil
    constructor
    · exact fun mem => ⟨r, mem, if_neg (unlisted r)⟩
    · rintro ⟨r₀, mem, rfl⟩
      rwa [if_neg (unlisted r₀)]
  · have unique : q.indexed = true → ActiveUnique (q.table.update
        (fun r => Revivable q r ∧ ∀ listed ∈ ids, r.id ∈ listed) revived fun _ => rfl).rows :=
      fun indexed => activeUnique_revived (q.unique indexed) fun _ _ both => both.1
    obtain ⟨q', done, table, indexed⟩ := update_of unique
    refine ⟨q', q.table.rowcount fun r => Revivable q r ∧ ∀ listed ∈ ids, r.id ∈ listed, ?_,
      indexed, fun r => ?_⟩
    · dsimp only
      rw [done]
      rfl
    · show r ∈ q'.table ↔ _
      rw [table]
      exact Table.mem_update

theorem reviveDead_inv {host : QueueHost} (inv : QueueInv host q) (ids : Option (List Int)) :
    ∃ q' n, reviveDead q ids = .ok (q', n) ∧ QueueInv host q' := by
  obtain ⟨q', n, done, indexed, rows⟩ := reviveDead_spec q ids
  refine ⟨q', n, done, indexed.trans inv.indexed, fun r mem => ?_⟩
  obtain ⟨r₀, mem₀, rfl⟩ := (rows r).1 mem
  split
  · exact inv.hashes r₀ mem₀
  · exact inv.hashes r₀ mem₀

/-- Every listed dead row is pending again, or its hash has an active row. -/
def ReviveComplete (q : ExtractTable) (ids : List Int) : Prop :=
  ∃ q' n, reviveDead q (some ids) = .ok (q', n) ∧
    ∀ r ∈ q, r.id ∈ ids → r.Dead →
      (∃ r' ∈ q', r'.id = r.id ∧ r'.status = "pending") ∨
        ∃ digest ∈ r.payloadHash, ∃ r' ∈ q', r'.Active ∧ r'.payloadHash = some digest

/-- A row that is not dead stays as it is. -/
theorem mem_of_reviveDead {q' : ExtractTable} {n : Nat} {ids : Option (List Int)}
    (done : reviveDead q ids = .ok (q', n)) {r : ExtractRow} (mem : r ∈ q) (alive : ¬ r.Dead) :
    r ∈ q' := by
  obtain ⟨q₁, n₁, done₁, -, rows⟩ := reviveDead_spec q ids
  cases done.symm.trans done₁
  exact (rows r).2 ⟨r, mem, if_neg fun chosen => alive chosen.1.1⟩

/-- Exactly when, for each listed dead row with a hash, the hash has an active row or the first
dead row with it is listed too. -/
theorem revive_complete_iff (q : ExtractTable) (ids : List Int) :
    ReviveComplete q ids ↔
      ∀ r ∈ q, r.id ∈ ids → r.Dead → ∀ digest ∈ r.payloadHash,
        (∃ a ∈ q, a.Active ∧ a.payloadHash = some digest) ∨
          ∃ first ∈ ids, firstDead q digest = some first := by
  obtain ⟨q', n, done, -, rows⟩ := reviveDead_spec q (some ids)
  constructor
  · rintro ⟨q₁, n₁, done₁, complete⟩ r mem listed dead digest hash
    cases done₁.symm.trans done
    have traced : ∀ r' ∈ q', r'.Active → r'.payloadHash = some digest →
        (∃ a ∈ q, a.Active ∧ a.payloadHash = some digest) ∨
          ∃ first ∈ ids, firstDead q digest = some first := by
      intro r' mem' active hash'
      obtain ⟨r₀, mem₀, rfl⟩ := (rows r').1 mem'
      split at hash'
      · rename_i chosen
        rw [if_pos chosen] at active
        obtain none | ⟨digest₀, hash₀, lowest, -⟩ := chosen.1.2
        · rw [revived, none] at hash'
          cases hash'
        · cases Option.some.inj (hash₀.symm.trans hash')
          exact .inr ⟨r₀.id, chosen.2 ids rfl, lowest⟩
      · rename_i passed
        rw [if_neg passed] at active
        exact .inl ⟨r₀, mem₀, active, hash'⟩
    obtain ⟨r', mem', same, pending⟩ | ⟨digest', hash', r', mem', active, sameHash⟩ :=
      complete r mem listed dead
    · obtain ⟨r₀, mem₀, rfl⟩ := (rows r').1 mem'
      have back : r₀ = r := by
        refine Table.eq_of_key mem₀ mem ?_
        split at same
        · exact same
        · exact same
      rw [back] at mem' pending
      refine traced _ mem' (.inl pending) ?_
      split
      · exact hash
      · exact hash
    · cases Option.some.inj (hash.symm.trans hash')
      exact traced r' mem' active sameHash
  · intro covered
    refine ⟨q', n, done, fun r mem listed dead => ?_⟩
    by_cases chosen : Revivable q r
    · refine .inl ⟨revived r, (rows _).2 ⟨r, mem, if_pos ⟨chosen, ?_⟩⟩, rfl, rfl⟩
      rintro _ ⟨⟩
      exact listed
    cases hash : r.payloadHash with
    | none => exact absurd ⟨dead, .inl hash⟩ chosen
    | some digest =>
        refine .inr ⟨digest, rfl, ?_⟩
        obtain ⟨a, mem', active, sameHash⟩ | ⟨first, listed', lowest⟩ :=
          covered r mem listed dead digest hash
        · exact ⟨a, mem_of_reviveDead done mem' fun dead => dead.not_active active, active, sameHash⟩
        · by_cases idle : ∃ a ∈ q.table.rows, a.payloadHash = some digest ∧ a.Active
          · obtain ⟨a, mem', sameHash, active⟩ := idle
            exact ⟨a, mem_of_reviveDead done mem' fun dead => dead.not_active active, active,
              sameHash⟩
          · obtain ⟨m, memM, ⟨deadM, hashM⟩, rfl⟩ := ExtractTable.mem_of_firstId lowest
            have revivable : Revivable q m := ⟨deadM, .inr ⟨digest, hashM, lowest, idle⟩⟩
            refine ⟨revived m, (rows _).2 ⟨m, memM, if_pos ⟨revivable, ?_⟩⟩, .inl rfl, hashM⟩
            rintro _ ⟨⟩
            exact listed'

end Revive

/-! ## Enqueueing -/

section Enqueue

variable {host : QueueHost} {q : ExtractTable}

/-- A payload is enqueued once: the id is that of an active row that holds it. -/
theorem enqueue_spec (injective : Function.Injective host.sha256) (inv : QueueInv host q)
    (payload createdAt : String) :
    ∃ q' id, enqueue host q payload createdAt = .ok (q', id) ∧ QueueInv host q' ∧
      ∃ r ∈ q', r.id = id ∧ r.Active ∧ r.payload = storedPayload payload := by
  unfold enqueue
  dsimp only
  split
  · rename_i id found
    obtain ⟨r, mem, ⟨active, held⟩, same⟩ := ExtractTable.mem_of_firstId found
    refine ⟨q, id, rfl, inv, r, mem, same, active, ?_⟩
    obtain hash | ⟨-, payload⟩ := held
    · exact injective (inv.hashes r mem _ hash).symm
    · exact payload
  · rename_i absent
    have idle : ∀ r ∈ q, r.Active →
        r.payloadHash ≠ some (host.sha256 (storedPayload payload)) := fun r mem active hash =>
      ExtractTable.firstId_eq_none absent r mem ⟨active, .inl hash⟩
    have unique : q.indexed = true → ActiveUnique (q.table.insert
        (q.newRow (storedPayload payload) (host.sha256 (storedPayload payload)) createdAt)
        (q.newRow_fresh _ _ _)).rows := by
      intro indexed r mem r' mem' active active' digest hash hash'
      obtain old | rfl := Table.mem_insert.1 mem
      · obtain old' | rfl := Table.mem_insert.1 mem'
        · exact q.unique indexed r old r' old' active active' digest hash hash'
        · cases hash'
          exact absurd hash (idle r old active)
      · obtain old' | rfl := Table.mem_insert.1 mem'
        · cases hash
          exact absurd hash' (idle r' old' active')
        · rfl
    have inserted : ∃ q', q.insertOrIgnore (storedPayload payload)
        (host.sha256 (storedPayload payload)) createdAt = some q' ∧
        q'.indexed = q.indexed ∧
        ∀ r, r ∈ q' ↔ r ∈ q ∨ r = q.newRow (storedPayload payload)
          (host.sha256 (storedPayload payload)) createdAt := by
      unfold ExtractTable.insertOrIgnore
      dsimp only
      rw [dif_pos unique]
      refine ⟨_, rfl, rfl, fun r => ?_⟩
      exact (Table.mem_insert : r ∈ q.table.insert _ (q.newRow_fresh _ _ _) ↔ _)
    obtain ⟨q', done, indexed, rows⟩ := inserted
    rw [done]
    refine ⟨q', q.sequence + 1, rfl, ⟨indexed.trans inv.indexed, fun r mem => ?_⟩,
      _, (rows _).2 (.inr rfl), rfl, .inl rfl, rfl⟩
    obtain old | rfl := (rows r).1 mem
    · exact inv.hashes r old
    · rintro _ ⟨⟩
      rfl

end Enqueue

/-! ## Every call -/

section Calls

variable {host : QueueHost} {q : ExtractTable}

theorem map_of_ok {α β : Type} {x : Py α} {f : α → β} {a : α} (done : x = .ok a) :
    x.map f = .ok (f a) := by
  rw [done]
  rfl

/-- A row found under an id that is being processed is the row an update by id touches. -/
theorem active_of_found {rowId : Int} {row : ExtractRow} (found : q.table.get? rowId = some row)
    (processing : row.status = "processing") : ∀ r ∈ q, r.id = rowId → r.Active := by
  intro r mem same
  obtain ⟨mem', here⟩ := Table.get?_eq_some.1 found
  rw [Table.eq_of_key mem mem' (same.trans here.symm)]
  exact .inr processing

theorem markFailed_inv (inv : QueueInv host q) (rowId : Int) (error : Option String)
    (maxAttempts : Int) (leaseOwner : Option String) (now : ℚ) :
    ∃ result, markFailed host q rowId error maxAttempts leaseOwner now = .ok result ∧
      QueueInv host result.1 := by
  unfold markFailed
  split
  · exact ⟨_, rfl, inv⟩
  rename_i row found
  split
  · exact ⟨_, rfl, inv⟩
  rename_i held
  have processing : row.status = "processing" := not_not.1 (not_or.1 held).1
  obtain ⟨q', done, inv'⟩ := quiet_update_inv inv (p := fun r => r.id = rowId)
    (f := fun r => { r with
      attempts := row.attempts + 1
      lastError := some (errorMessage error ++ if ageExceeded host row now then ageCapNote else "")
      status := if ageExceeded host row now || maxAttempts ≤ row.attempts + 1 then "dead"
        else "pending"
      leaseOwner := none
      leaseUntil := none })
    (fun r mem same _ => active_of_found found processing r mem same) fun _ => ⟨rfl, rfl⟩
  refine ⟨(q', row.attempts + 1), ?_, inv'⟩
  dsimp only
  rw [done]
  rfl

theorem markQuotaFailed_inv (inv : QueueInv host q) (rowId : Int) (error : Option String)
    (notBefore : Option ℚ) (leaseOwner : Option String) (now : ℚ) :
    ∃ result, markQuotaFailed host q rowId error notBefore leaseOwner now = .ok result ∧
      QueueInv host result.1 := by
  unfold markQuotaFailed
  split
  · exact ⟨_, rfl, inv⟩
  rename_i row found
  split
  · exact ⟨_, rfl, inv⟩
  rename_i held
  have processing : row.status = "processing" := not_not.1 (not_or.1 held).1
  have active := active_of_found found processing
  split
  · obtain ⟨q', done, inv'⟩ := quiet_update_inv inv (p := fun r => r.id = rowId)
      (f := fun r => { r with
        lastError := some (errorMessage error ++ ageCapNote)
        status := "dead"
        notBefore := none
        leaseOwner := none
        leaseUntil := none })
      (fun r mem same _ => active r mem same) fun _ => ⟨rfl, rfl⟩
    refine ⟨(q', false), ?_, inv'⟩
    rw [done]
    rfl
  · obtain ⟨q', done, inv'⟩ := quiet_update_inv inv (p := fun r => r.id = rowId)
      (f := fun r => { r with
        lastError := some (errorMessage error)
        notBefore := notBefore
        status := "pending"
        leaseOwner := none
        leaseUntil := none })
      (fun r mem same _ => active r mem same) fun _ => ⟨rfl, rfl⟩
    refine ⟨(q', true), ?_, inv'⟩
    rw [done]
    rfl

theorem releaseClaim_inv (inv : QueueInv host q) (rowId : Int) (leaseOwner : Option String) :
    ∃ result, releaseClaim q rowId leaseOwner = .ok result ∧ QueueInv host result.1 := by
  unfold releaseClaim
  obtain ⟨q', done, inv'⟩ := quiet_update_inv inv
    (p := fun r => r.id = rowId ∧ r.status = "processing" ∧ leaseOwner.isSome ∧
      r.leaseOwner = leaseOwner)
    (f := fun r => { r with status := "pending", leaseOwner := none, leaseUntil := none })
    (fun r _ held _ => .inr held.2.1) fun _ => ⟨rfl, rfl⟩
  dsimp only
  rw [done]
  exact ⟨_, rfl, inv'⟩

theorem nextPending_inv (inv : QueueInv host q) (maxAttempts : Int) (excludeIds : List Int)
    (leaseOwner : Option String) (leaseSeconds now : ℚ) (generated : String) :
    ∃ result, nextPending q maxAttempts excludeIds leaseOwner leaseSeconds now generated =
      .ok result ∧ QueueInv host result.1 := by
  unfold nextPending
  dsimp only
  split
  · exact ⟨_, rfl, inv⟩
  rename_i rowId _
  obtain ⟨q', done, inv'⟩ := quiet_update_inv inv
    (p := fun r => r.id = rowId ∧ Due maxAttempts now r)
    (f := fun r => { r with
      status := "processing"
      leaseOwner := some (orElse leaseOwner generated)
      leaseUntil := some (now + leaseSeconds) })
    (fun r _ due _ => due.2.2.2.imp id And.left) fun _ => ⟨rfl, rfl⟩
  rw [done, ok_bind]
  split
  · exact ⟨_, rfl, inv⟩
  · exact ⟨_, rfl, inv'⟩

theorem markDone_inv (inv : QueueInv host q) (rowId : Int) (leaseOwner : Option String) :
    QueueInv host (markDone q rowId leaseOwner).1 :=
  ⟨inv.indexed, fun r mem => inv.hashes r (Table.mem_delete.1 mem).1⟩

theorem reviveRecentQuotaDead_inv (inv : QueueInv host q) (now : Int) :
    ∃ result, reviveRecentQuotaDead host q now = .ok result ∧ QueueInv host result.1 := by
  unfold reviveRecentQuotaDead
  dsimp only
  split
  · exact ⟨_, rfl, inv⟩
  · obtain ⟨q', n, done, inv'⟩ := reviveDead_inv inv _
    exact ⟨(q', n), done, inv'⟩

/-- No call raises, and every call keeps the invariant. -/
theorem Call.apply_inv (injective : Function.Injective host.sha256) (inv : QueueInv host q)
    (call : Call) : ∃ q', call.apply host q = .ok q' ∧ QueueInv host q' := by
  cases call with
  | enqueue payload createdAt =>
      obtain ⟨q', id, done, inv', -⟩ := enqueue_spec injective inv payload createdAt
      exact ⟨q', map_of_ok done, inv'⟩
  | nextPending maxAttempts excludeIds leaseOwner leaseSeconds now generated =>
      obtain ⟨_, done, inv'⟩ :=
        nextPending_inv inv maxAttempts excludeIds leaseOwner leaseSeconds now generated
      exact ⟨_, map_of_ok done, inv'⟩
  | markDone rowId leaseOwner => exact ⟨_, rfl, markDone_inv inv rowId leaseOwner⟩
  | markFailed rowId error maxAttempts leaseOwner now =>
      obtain ⟨_, done, inv'⟩ := markFailed_inv inv rowId error maxAttempts leaseOwner now
      exact ⟨_, map_of_ok done, inv'⟩
  | markQuotaFailed rowId error notBefore leaseOwner now =>
      obtain ⟨_, done, inv'⟩ := markQuotaFailed_inv inv rowId error notBefore leaseOwner now
      exact ⟨_, map_of_ok done, inv'⟩
  | releaseClaim rowId leaseOwner =>
      obtain ⟨_, done, inv'⟩ := releaseClaim_inv inv rowId leaseOwner
      exact ⟨_, map_of_ok done, inv'⟩
  | reviveDead ids =>
      obtain ⟨_, _, done, inv'⟩ := reviveDead_inv inv ids
      exact ⟨_, map_of_ok done, inv'⟩
  | reviveRecentQuotaDead now =>
      obtain ⟨_, done, inv'⟩ := reviveRecentQuotaDead_inv inv now
      exact ⟨_, map_of_ok done, inv'⟩

theorem calls_inv (injective : Function.Injective host.sha256) (inv : QueueInv host q)
    (calls : List Call) :
    ∃ q', calls.foldlM (Call.apply host) q = .ok q' ∧ QueueInv host q' := by
  induction calls generalizing q with
  | nil => exact ⟨q, rfl, inv⟩
  | cons call calls ih =>
      obtain ⟨next, done, inv'⟩ := Call.apply_inv injective inv call
      obtain ⟨q', rest, last⟩ := ih inv'
      refine ⟨q', ?_, last⟩
      rw [List.foldlM_cons, done, ok_bind]
      exact rest

/-- From a sound table no run of calls raises; after it one active row a hash is left, and
enqueueing a payload answers with an active row that holds it. -/
theorem queue_deduplicates (injective : Function.Injective host.sha256)
    (indexed : q.indexed = true) (sound : HashSound host q) (calls : List Call) :
    ∃ q', calls.foldlM (Call.apply host) q = .ok q' ∧ ActiveUnique q'.table.rows ∧
      ∀ payload createdAt, ∃ q'' id, enqueue host q' payload createdAt = .ok (q'', id) ∧
        ∃ r ∈ q'', r.id = id ∧ r.Active ∧ r.payload = storedPayload payload := by
  obtain ⟨q', done, inv⟩ := calls_inv injective ⟨indexed, sound⟩ calls
  refine ⟨q', done, q'.unique inv.indexed, fun payload createdAt => ?_⟩
  obtain ⟨q'', id, enqueued, -, held⟩ := enqueue_spec injective inv payload createdAt
  exact ⟨q'', id, enqueued, held⟩

end Calls

/-! ## Samples -/

/-- A digest that tells texts apart; every time reads as 0. -/
def sampleQueueHost : QueueHost := ⟨fun text => "sha256:" ++ text, fun _ => some 0⟩

theorem sampleQueueHost_injective : Function.Injective sampleQueueHost.sha256 := fun _ _ same =>
  String.append_right_inj _ |>.1 same

/-- A row with nothing but what deduplication reads. -/
def bareRow (id : Int) (payload status : String) (payloadHash : Option String) : ExtractRow :=
  ⟨id, payload, none, 0, none, status, none, none, none, none, payloadHash, none, none⟩

/-- A legacy row without a hash, and a dead row. -/
def sampleQueue : ExtractTable where
  table := ⟨[bareRow 1 "first" "pending" none, bareRow 2 "second" "dead" (some "sha256:second")],
    by decide⟩
  sequence := 2
  bounded := by decide
  indexed := true
  unique := fun _ => by decide

/-- The dead row is revived, and the legacy row is claimed and fails. -/
theorem sample_queue_deduplicates :
    ∃ q', [Call.reviveDead none, .nextPending 3 [] (some "worker") 600 0 "made up",
        .markFailed 1 (some "down") 3 (some "worker") 0].foldlM (Call.apply sampleQueueHost)
          sampleQueue = .ok q' ∧ ActiveUnique q'.table.rows ∧
      ∀ payload createdAt, ∃ q'' id,
        enqueue sampleQueueHost q' payload createdAt = .ok (q'', id) ∧
          ∃ r ∈ q'', r.id = id ∧ r.Active ∧ r.payload = storedPayload payload := by
  have sound : ∀ r ∈ sampleQueue.table.rows, ∀ digest ∈ r.payloadHash,
      digest = sampleQueueHost.sha256 r.payload := by decide
  exact queue_deduplicates sampleQueueHost_injective rfl sound _

/-- Two dead rows of one payload. -/
def deadTwice : ExtractTable where
  table := ⟨[bareRow 1 "first" "dead" (some "sha256:first"),
    bareRow 2 "first" "dead" (some "sha256:first")], by decide⟩
  sequence := 2
  bounded := by decide
  indexed := true
  unique := fun _ => by decide

/-- Reviving the second revives nothing. -/
theorem second_dead_stays :
    (reviveDead deadTwice (some [2])).map (fun result => (result.1.table.rows.map
      ExtractRow.status, result.2)) = .ok (["dead", "dead"], 0) ∧ ¬ ReviveComplete deadTwice [2] := by
  have nothing : (reviveDead deadTwice (some [2])).map (fun result => (result.1.table.rows.map
      ExtractRow.status, result.2)) = .ok (["dead", "dead"], 0) := by decide +kernel
  refine ⟨nothing, ?_⟩
  rintro ⟨q', n, done, complete⟩
  rw [done] at nothing
  have dead : q'.table.rows.map ExtractRow.status = ["dead", "dead"] :=
    congrArg Prod.fst (Except.ok.inj nothing)
  have allDead : ∀ r ∈ q', r.status = "dead" := by
    intro r mem
    have listed := List.mem_map_of_mem (f := ExtractRow.status) (Table.mem_rows.2 mem)
    rw [dead] at listed
    simpa using listed
  have mem : bareRow 2 "first" "dead" (some "sha256:first") ∈ deadTwice :=
    List.mem_cons_of_mem _ List.mem_cons_self
  obtain ⟨r, mem', -, pending⟩ | ⟨-, -, r, mem', active, -⟩ :=
    complete _ mem List.mem_cons_self rfl
  · rw [allDead r mem'] at pending
    exact absurd pending (by decide)
  · have isDead : r.Dead := allDead r mem'
    exact isDead.not_active active

end Enfold.Laws
