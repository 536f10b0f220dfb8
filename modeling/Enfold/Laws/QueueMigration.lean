/-
# Laws.QueueMigration -- what the migration of the queue keeps

The loop gives an active row the hash it claims unless an earlier active row claims the same
one (`settledHash`), row by row, under an index that may be enforced at every step
(`rehashRows_eq_ok`).  Two things can go wrong, and nothing else.  A row without a hash may come
before the row that holds the digest of its payload: the index, if it is there, refuses the
`UPDATE` (`HashedFirst`).  A row may hold a hash that is not the digest of its payload and lose
it to an earlier row: the next run hashes it again (`LosersSettled`).
`migration_preserves_work_iff` says that the migration keeps the work exactly when neither
happens.
-/
import Enfold.Laws.QueueDedup
import Enfold.Model.QueueMigration
import Mathlib.Data.List.Find

namespace Enfold.Laws

open Enfold.Theory Enfold.Model Enfold.Model.QueueMigration

set_option autoImplicit false

theorem extractTable_ext {q q' : ExtractTable} (table : q.table = q'.table)
    (sequence : q.sequence = q'.sequence) (indexed : q.indexed = q'.indexed) : q = q' := by
  cases q
  cases q'
  simp_all

/-- An update returns exactly when it leaves the index satisfied. -/
theorem extractUpdate_eq_ok {q q' : ExtractTable} {p : ExtractRow → Prop} [DecidablePred p]
    {f : ExtractRow → ExtractRow} {keeps : ∀ r, (f r).id = r.id} :
    q.update p f keeps = .ok q' ↔
      (q.indexed = true → ActiveUnique (q.table.update p f keeps).rows) ∧
        q'.table = q.table.update p f keeps ∧ q'.sequence = q.sequence ∧
        q'.indexed = q.indexed := by
  unfold ExtractTable.update
  constructor
  · intro done
    obtain ⟨⟨unique⟩, -, done⟩ := bind_eq_ok.1 done
    cases pure_eq_ok.1 done
    exact ⟨unique, rfl, rfl, rfl⟩
  · rintro ⟨unique, table, sequence, indexed⟩
    rw [checked_of unique]
    exact congrArg Except.ok (extractTable_ext table.symm sequence.symm indexed.symm)

section Settled

variable (host : QueueHost) (rows : List ExtractRow)

/-! ## The hash a row ends with -/

/-- An active row before `r` claims the hash. -/
def ClaimedBefore (r : ExtractRow) (digest : String) : Prop :=
  ∃ e ∈ rows, e.Active ∧ e.id < r.id ∧ candidateHash host e = digest

instance (r : ExtractRow) (digest : String) : Decidable (ClaimedBefore host rows r digest) :=
  inferInstanceAs (Decidable (∃ e ∈ rows, _))

def settledHash (r : ExtractRow) : Option String :=
  if r.Active ∧ ClaimedBefore host rows r (candidateHash host r) then none
  else some (candidateHash host r)

def settled (r : ExtractRow) : ExtractRow := { r with payloadHash := settledHash host rows r }

variable {host rows}

/-- Two active rows do not end with one hash. -/
theorem settledHash_unique {r r' : ExtractRow} (mem : r ∈ rows) (mem' : r' ∈ rows)
    (active : r.Active) (active' : r'.Active) {digest : String}
    (hash : settledHash host rows r = some digest)
    (hash' : settledHash host rows r' = some digest) : r.id = r'.id := by
  unfold settledHash at hash hash'
  split at hash
  · cases hash
  rename_i free
  split at hash'
  · cases hash'
  rename_i free'
  have claim := Option.some.inj hash
  have claim' := Option.some.inj hash'
  rcases Int.lt_trichotomy r.id r'.id with before | same | after
  · exact absurd ⟨active', r, mem, active, before, claim.trans claim'.symm⟩ free'
  · exact same
  · exact absurd ⟨active, r', mem', active', after, claim'.trans claim.symm⟩ free

/-- Among the active rows that claim a hash there is a first, and it gets the hash. -/
theorem exists_first {r : ExtractRow} (mem : r ∈ rows) (active : r.Active) {digest : String}
    (claim : candidateHash host r = digest) :
    ∃ e ∈ rows, e.Active ∧ e.id ≤ r.id ∧ candidateHash host e = digest ∧
      settledHash host rows e = some digest := by
  have listed : r.id ∈ (rows.filter fun e => e.Active ∧ candidateHash host e = digest).map
      ExtractRow.id :=
    List.mem_map_of_mem (List.mem_filter.2 ⟨mem, by simpa using ⟨active, claim⟩⟩)
  obtain ⟨least, found⟩ := Option.ne_none_iff_exists'.1
    (fun none => List.ne_nil_of_mem listed (List.min?_eq_none_iff.1 none))
  obtain ⟨among, below⟩ := List.min?_eq_some_iff.1 found
  obtain ⟨e, inside, rfl⟩ := List.mem_map.1 among
  obtain ⟨mem', holds⟩ := List.mem_filter.1 inside
  obtain ⟨active', claim'⟩ : e.Active ∧ candidateHash host e = digest := by simpa using holds
  refine ⟨e, mem', active', below _ listed, claim', ?_⟩
  unfold settledHash
  rw [if_neg, claim']
  rintro ⟨-, e', mem'', active'', before, claim''⟩
  have least := below e'.id (List.mem_map_of_mem (List.mem_filter.2
    ⟨mem'', by simpa using ⟨active'', claim''.trans claim'⟩⟩))
  omega

end Settled

/-! ## The loop -/

section Loop

variable (host : QueueHost) (q : ExtractTable)

/-- The table once the rows with these ids are settled. -/
def settledUpTo (ids : List Int) : Table Int ExtractRow ExtractRow.id :=
  q.table.update (fun r => r.id ∈ ids) (settled host q.table.rows) fun _ => rfl

variable {host q}

theorem mem_settledUpTo {ids : List Int} {r : ExtractRow} :
    r ∈ settledUpTo host q ids ↔
      ∃ r₀ ∈ q, (if r₀.id ∈ ids then settled host q.table.rows r₀ else r₀) = r :=
  Table.mem_update

/-- Settling one row more is the `UPDATE` of that row. -/
theorem settledUpTo_snoc {ids : List Int} {r : ExtractRow} (mem : r ∈ q) :
    (settledUpTo host q ids).update (fun row => row.id = r.id)
      (fun row => { row with payloadHash := settledHash host q.table.rows r }) (fun _ => rfl) =
    settledUpTo host q (ids ++ [r.id]) := by
  refine Table.ext ?_
  unfold settledUpTo Table.update
  dsimp only
  rw [List.map_map]
  refine List.map_congr_left fun row mem' => ?_
  simp only [Function.comp, List.mem_append, List.mem_singleton]
  by_cases same : row.id = r.id
  · rw [Table.eq_of_key mem' mem same]
    by_cases done : r.id ∈ ids
    · simp [done, settled]
    · simp [done, settled]
  · by_cases done : row.id ∈ ids
    · simp [done, same, settled]
    · simp [done, same]

/-- In the order of their ids the rows before `r` are those with smaller ids. -/
theorem mem_before_iff {before rest : List ExtractRow} {r : ExtractRow}
    (sorted : (before ++ r :: rest).Pairwise fun r r' => r.id < r'.id)
    (all : ∀ e, e ∈ before ++ r :: rest ↔ e ∈ q) (e : ExtractRow) :
    e ∈ before ↔ e ∈ q ∧ e.id < r.id := by
  obtain ⟨-, later, across⟩ := List.pairwise_append.1 sorted
  constructor
  · exact fun inside => ⟨(all e).1 (List.mem_append_left _ inside),
      across e inside r List.mem_cons_self⟩
  · rintro ⟨inTable, less⟩
    obtain inside | after := List.mem_append.1 ((all e).2 inTable)
    · exact inside
    · obtain rfl | after := List.mem_cons.1 after
      · exact absurd less (Int.lt_irrefl _)
      · exact absurd ((List.pairwise_cons.1 later).1 e after) (Int.not_lt.2 (Int.le_of_lt less))

/-- The hashes that the active rows of a list claim. -/
def Seen (host : QueueHost) (before : List ExtractRow) (hashes : List String) : Prop :=
  ∀ digest, digest ∈ hashes ↔ ∃ e ∈ before, e.Active ∧ candidateHash host e = digest

theorem Seen.claimed_iff {before : List ExtractRow} {hashes : List String}
    (seen : Seen host before hashes) {r : ExtractRow}
    (smaller : ∀ e, e ∈ before ↔ e ∈ q ∧ e.id < r.id) :
    candidateHash host r ∈ hashes ↔ ClaimedBefore host q.table.rows r (candidateHash host r) := by
  rw [seen]
  constructor
  · rintro ⟨e, inside, active, claim⟩
    exact ⟨e, ((smaller e).1 inside).1, active, ((smaller e).1 inside).2, claim⟩
  · rintro ⟨e, inside, active, less, claim⟩
    exact ⟨e, (smaller e).2 ⟨inside, less⟩, active, claim⟩

theorem Seen.snoc_iff {before : List ExtractRow} {hashes : List String}
    (seen : Seen host before hashes) (r : ExtractRow) (digest : String) :
    (∃ e ∈ before ++ [r], e.Active ∧ candidateHash host e = digest) ↔
      digest ∈ hashes ∨ r.Active ∧ candidateHash host r = digest := by
  simp only [List.mem_append, List.mem_singleton, or_and_right, exists_or, exists_eq_left,
    seen digest]

/-- Whichever branch a row takes, it sets its settled hash, and the loop goes on with the hashes seen
so far. -/
theorem rehashRows_cons {r : ExtractRow} {rest before : List ExtractRow} {hashes : List String}
    (current : ExtractTable) (smaller : ∀ e, e ∈ before ↔ e ∈ q ∧ e.id < r.id)
    (seen : Seen host before hashes) :
    ∃ hashes', Seen host (before ++ [r]) hashes' ∧
      rehashRows host (r :: rest) hashes current =
        (setHash current r.id (settledHash host q.table.rows r) >>=
          rehashRows host rest hashes') := by
  have claimed := seen.claimed_iff smaller
  by_cases active : r.Active
  · by_cases taken : candidateHash host r ∈ hashes
    · refine ⟨hashes, fun digest => ?_, ?_⟩
      · rw [seen.snoc_iff]
        refine ⟨Or.inl, ?_⟩
        rintro (held | ⟨-, rfl⟩)
        · exact held
        · exact taken
      · have given : settledHash host q.table.rows r = none := if_pos ⟨active, claimed.1 taken⟩
        rw [rehashRows, if_pos active, if_pos taken, given]
    · refine ⟨hashes ++ [candidateHash host r], fun digest => ?_, ?_⟩
      · rw [seen.snoc_iff, List.mem_append, List.mem_singleton, eq_comm]
        simp only [active, true_and]
      · have given : settledHash host q.table.rows r = some (candidateHash host r) :=
          if_neg fun both => taken (claimed.2 both.2)
        rw [rehashRows, if_pos active, if_neg taken, given]
  · refine ⟨hashes, fun digest => ?_, ?_⟩
    · rw [seen.snoc_iff]
      simp only [active, false_and, or_false]
    · have given : settledHash host q.table.rows r = some (candidateHash host r) :=
        if_neg fun both => active both.1
      rw [rehashRows, if_neg active, given]

/-- Setting the hash of one row settles one row more, unless the index refuses it. -/
theorem setHash_eq_ok {current updated : ExtractTable} {ids : List Int} {r : ExtractRow} (mem : r ∈ q)
    (table : current.table = settledUpTo host q ids) (indexed : current.indexed = q.indexed) :
    setHash current r.id (settledHash host q.table.rows r) = .ok updated ↔
      (q.indexed = true → ActiveUnique (settledUpTo host q (ids ++ [r.id])).rows) ∧
        updated.table = settledUpTo host q (ids ++ [r.id]) ∧
        updated.sequence = current.sequence ∧ updated.indexed = q.indexed := by
  rw [setHash, extractUpdate_eq_ok, table, settledUpTo_snoc mem, indexed]

theorem setHash_ok {current : ExtractTable} {ids : List Int} {r : ExtractRow} (mem : r ∈ q)
    (table : current.table = settledUpTo host q ids) (indexed : current.indexed = q.indexed)
    (unique : q.indexed = true → ActiveUnique (settledUpTo host q (ids ++ [r.id])).rows) :
    ∃ updated, setHash current r.id (settledHash host q.table.rows r) = .ok updated := by
  rw [← settledUpTo_snoc mem, ← table, ← indexed] at unique
  obtain ⟨updated, done, -⟩ := update_of unique
  exact ⟨updated, done⟩

/-- The loop over the rows after `before`. -/
theorem rehashRows_eq_ok {rest before : List ExtractRow} {hashes : List String}
    {current q' : ExtractTable} (sorted : (before ++ rest).Pairwise fun r r' => r.id < r'.id)
    (all : ∀ r, r ∈ before ++ rest ↔ r ∈ q) (seen : Seen host before hashes)
    (table : current.table = settledUpTo host q (before.map ExtractRow.id))
    (sequence : current.sequence = q.sequence) (indexed : current.indexed = q.indexed) :
    rehashRows host rest hashes current = .ok q' ↔
      (∀ more, more ≠ [] → more <+: rest → q.indexed = true →
        ActiveUnique (settledUpTo host q ((before ++ more).map ExtractRow.id)).rows) ∧
      q'.table = settledUpTo host q ((before ++ rest).map ExtractRow.id) ∧
      q'.sequence = q.sequence ∧ q'.indexed = q.indexed := by
  induction rest generalizing before hashes current with
  | nil =>
      rw [rehashRows, List.append_nil]
      constructor
      · intro done
        cases done
        refine ⟨fun more nonempty inside => ?_, table, sequence, indexed⟩
        exact absurd (List.prefix_nil.1 inside) nonempty
      · rintro ⟨-, table', sequence', indexed'⟩
        exact congrArg Except.ok (extractTable_ext (table.trans table'.symm)
          (sequence.trans sequence'.symm) (indexed.trans indexed'.symm))
  | cons r rest ih =>
      have mem : r ∈ q := (all r).1 (List.mem_append_right _ List.mem_cons_self)
      obtain ⟨hashes', seen', branch⟩ :=
        @rehashRows_cons host q r rest before hashes current (mem_before_iff sorted all) seen
      have ids : before.map ExtractRow.id ++ [r.id] = (before ++ [r]).map ExtractRow.id := by
        rw [List.map_append, List.map_singleton]
      have shift : before ++ r :: rest = before ++ [r] ++ rest := by simp
      rw [branch, bind_eq_ok]
      rw [shift] at sorted all ⊢
      constructor
      · rintro ⟨updated, done, going⟩
        obtain ⟨unique, table', sequence', indexed'⟩ := (setHash_eq_ok mem table indexed).1 done
        rw [ids] at unique table'
        obtain ⟨later, final⟩ :=
          (ih sorted all seen' table' (sequence'.trans sequence) indexed').1 going
        refine ⟨fun more nonempty inside enforced => ?_, final⟩
        cases more with
        | nil => exact absurd rfl nonempty
        | cons first more =>
            obtain ⟨rfl, inside'⟩ := List.cons_prefix_cons.1 inside
            cases more with
            | nil => exact unique enforced
            | cons second more =>
                have step := later (second :: more) (List.cons_ne_nil _ _) inside' enforced
                rwa [List.append_assoc] at step
      · rintro ⟨unique, final⟩
        have first : q.indexed = true → ActiveUnique
            (settledUpTo host q (before.map ExtractRow.id ++ [r.id])).rows := by
          rw [ids]
          exact unique [r] (List.cons_ne_nil _ _) (List.prefix_append [r] rest)
        obtain ⟨updated, done⟩ := setHash_ok mem table indexed first
        obtain ⟨-, tableU, sequenceU, indexedU⟩ := (setHash_eq_ok mem table indexed).1 done
        rw [ids] at tableU
        refine ⟨updated, done, (ih sorted all seen' tableU (sequenceU.trans sequence) indexedU).2
          ⟨fun more nonempty inside enforced => ?_, final⟩⟩
        have step := unique (r :: more) (List.cons_ne_nil _ _)
          (List.cons_prefix_cons.2 ⟨rfl, inside⟩) enforced
        rwa [List.append_cons] at step

/-! ## Both conditions -/

variable (host q)

/-- No active row without a hash stands before an active row that holds the digest of its
payload. -/
def HashedFirst : Prop :=
  ∀ r ∈ q, ∀ later ∈ q, r.Active → later.Active → r.id < later.id →
    (r.payloadHash = none ∨ r.payloadHash = some "") →
      later.payloadHash ≠ some (host.sha256 r.payload)

/-- An active row that loses its hash to an earlier one has its digest claimed before it too. -/
def LosersSettled : Prop :=
  ∀ r ∈ q, r.Active → ClaimedBefore host q.table.rows r (candidateHash host r) →
    ClaimedBefore host q.table.rows r (host.sha256 r.payload)

variable {host q}

theorem inOrder_spec :
    (inOrder q).Pairwise (fun r r' => r.id < r'.id) ∧ ∀ r, r ∈ inOrder q ↔ r ∈ q := by
  have listed : ∀ r, r ∈ inOrder q ↔ r ∈ q := fun r => List.mem_mergeSort
  have distinct : ((inOrder q).map ExtractRow.id).Nodup :=
    ((List.mergeSort_perm _ _).map ExtractRow.id).nodup_iff.2 q.table.nodup
  have weak : (inOrder q).Pairwise fun r r' => r.id ≤ r'.id := by
    refine (List.pairwise_mergeSort (fun a b c first second => ?_) (fun a b => ?_)
      q.table.rows).imp fun {a b} le => by simpa using le
    · have := of_decide_eq_true first
      have := of_decide_eq_true second
      exact decide_eq_true (by omega)
    · rw [Bool.or_eq_true, decide_eq_true_eq, decide_eq_true_eq]
      exact Int.le_total _ _
  refine ⟨?_, listed⟩
  exact (weak.and (List.pairwise_map.1 distinct)).imp fun both => by omega

/-- A hash that counts as absent makes the row claim the digest of its payload. -/
theorem candidateHash_of_absent {r : ExtractRow}
    (absent : r.payloadHash = none ∨ r.payloadHash = some "") :
    candidateHash host r = host.sha256 r.payload := by
  unfold candidateHash
  obtain none | empty := absent
  · rw [none]
  · rw [empty]
    exact if_pos rfl

/-- Otherwise the row claims the hash it holds. -/
theorem candidateHash_of_held (host : QueueHost) {r : ExtractRow}
    (held : ¬ (r.payloadHash = none ∨ r.payloadHash = some "")) :
    r.payloadHash = some (candidateHash host r) := by
  unfold candidateHash
  cases hash : r.payloadHash with
  | none => exact absurd (.inl hash) held
  | some digest =>
      dsimp only
      rw [if_neg fun empty => held (.inr (by rw [hash, empty]))]

/-- The index that is there already refuses no step of the loop exactly when `HashedFirst`: of two rows
that claim one digest only the step that settles the first can meet the other. -/
theorem prefixes_unique_iff (unique : ActiveUnique q.table.rows) :
    (∀ more, more ≠ [] → more <+: inOrder q →
      ActiveUnique (settledUpTo host q (more.map ExtractRow.id)).rows) ↔ HashedFirst host q := by
  obtain ⟨sorted, all⟩ := inOrder_spec (q := q)
  constructor
  · intro prefixes r mem later mem' active active' before absent hash
    obtain ⟨first, memF, activeF, least, claim, given⟩ :=
      exists_first mem active (candidateHash_of_absent absent)
    obtain ⟨upTo, beyond, split⟩ := List.append_of_mem ((all first).2 memF)
    have inside : upTo ++ [first] <+: inOrder q := ⟨beyond, by rw [split]; simp⟩
    rw [split] at sorted
    have outside : later.id ∉ (upTo ++ [first]).map ExtractRow.id := by
      intro listed
      obtain ⟨e, mem, same⟩ := List.mem_map.1 listed
      obtain earlier | only := List.mem_append.1 mem
      · have := (List.pairwise_append.1 sorted).2.2 e earlier first List.mem_cons_self
        omega
      · have := congrArg ExtractRow.id (List.mem_singleton.1 only)
        omega
    have listed : first.id ∈ (upTo ++ [first]).map ExtractRow.id :=
      List.mem_map_of_mem (List.mem_append_right _ List.mem_cons_self)
    have here : settled host q.table.rows first ∈
        (settledUpTo host q ((upTo ++ [first]).map ExtractRow.id)).rows :=
      mem_settledUpTo.2 ⟨first, memF, if_pos listed⟩
    have there : later ∈ (settledUpTo host q ((upTo ++ [first]).map ExtractRow.id)).rows :=
      mem_settledUpTo.2 ⟨later, mem', if_neg outside⟩
    have same : first.id = later.id :=
      prefixes (upTo ++ [first]) (by simp) inside _ here _ there activeF active' _ given hash
    omega
  · intro hashed more _ inside r mem r' mem' active active' digest hash hash'
    obtain ⟨beyond, split⟩ := inside
    rw [← split] at sorted all
    have apart : ∀ x ∈ q, ∀ y ∈ q, x.id ∈ more.map ExtractRow.id →
        y.id ∉ more.map ExtractRow.id → x.Active → y.Active →
        settledHash host q.table.rows x = some digest → y.payloadHash = some digest → False := by
      intro x memX y memY done toCome activeX activeY given held
      obtain ⟨e, memE, same⟩ := List.mem_map.1 done
      have inMore : x ∈ more := by
        rw [← Table.eq_of_key ((all e).1 (List.mem_append_left _ memE)) memX same]
        exact memE
      have inRest : y ∈ beyond := by
        obtain early | late := List.mem_append.1 ((all y).2 memY)
        · exact absurd (List.mem_map_of_mem early) toCome
        · exact late
      have before := (List.pairwise_append.1 sorted).2.2 x inMore y inRest
      unfold settledHash at given
      split at given
      · cases given
      have claim := Option.some.inj given
      by_cases absent : x.payloadHash = none ∨ x.payloadHash = some ""
      · rw [candidateHash_of_absent absent] at claim
        exact hashed x memX y memY activeX activeY before absent (held.trans (by rw [claim]))
      · have holds : x.payloadHash = some digest := by
          rw [candidateHash_of_held host absent, claim]
        have same := unique x memX y memY activeX activeY digest holds held
        omega
    obtain ⟨r₀, mem₀, rfl⟩ := mem_settledUpTo.1 mem
    obtain ⟨r₀', mem₀', rfl⟩ := mem_settledUpTo.1 mem'
    by_cases done : r₀.id ∈ more.map ExtractRow.id
    · rw [if_pos done] at active hash ⊢
      by_cases done' : r₀'.id ∈ more.map ExtractRow.id
      · rw [if_pos done'] at active' hash' ⊢
        exact @settledHash_unique host q.table.rows r₀ r₀' mem₀ mem₀' active active' digest hash
          hash'
      · rw [if_neg done'] at active' hash' ⊢
        exact (apart r₀ mem₀ r₀' mem₀' done done' active active' hash hash').elim
    · rw [if_neg done] at active hash ⊢
      by_cases done' : r₀'.id ∈ more.map ExtractRow.id
      · rw [if_pos done'] at active' hash' ⊢
        exact (apart r₀' mem₀' r₀ mem₀ done' done active' active hash' hash).elim
      · rw [if_neg done'] at active' hash' ⊢
        exact unique r₀ mem₀ r₀' mem₀' active active' digest hash hash'

/-- The whole loop. -/
theorem rehash_eq_ok {q' : ExtractTable} :
    rehashRows host (inOrder q) [] q = .ok q' ↔
      (q.indexed = true → HashedFirst host q) ∧
        q'.table.rows = q.table.rows.map (settled host q.table.rows) ∧
        q'.sequence = q.sequence ∧ q'.indexed = q.indexed := by
  obtain ⟨sorted, all⟩ := inOrder_spec (q := q)
  have start : q.table = settledUpTo host q ([].map ExtractRow.id) := by
    refine (Table.update_of_none fun r _ inside => ?_).symm
    cases inside
  have final : (settledUpTo host q ((inOrder q).map ExtractRow.id)).rows =
      q.table.rows.map (settled host q.table.rows) := by
    unfold settledUpTo Table.update
    exact List.map_congr_left fun r mem => if_pos (List.mem_map_of_mem ((all r).2 mem))
  have none : Seen host [] [] := fun digest => by simp
  have loop := @rehashRows_eq_ok host q (inOrder q) [] [] q q' sorted all none start rfl rfl
  rw [List.nil_append] at loop
  rw [loop, ← final]
  constructor
  · rintro ⟨unique, table, rest⟩
    refine ⟨fun indexed => ?_, congrArg Table.rows table, rest⟩
    exact (prefixes_unique_iff (q.unique indexed)).1 fun more nonempty inside =>
      unique more nonempty inside indexed
  · rintro ⟨hashed, table, rest⟩
    refine ⟨fun more nonempty inside indexed => ?_, Table.ext table, rest⟩
    exact (prefixes_unique_iff (q.unique indexed)).2 (hashed indexed) more nonempty inside

end Loop

/-! ## The second run -/

section Again

variable {host : QueueHost} {rows : List ExtractRow} {r : ExtractRow}

theorem candidateHash_settled_none (given : settledHash host rows r = none) :
    candidateHash host (settled host rows r) = host.sha256 r.payload :=
  candidateHash_of_absent (.inl given)

theorem settledHash_eq_some {digest : String} (given : settledHash host rows r = some digest) :
    candidateHash host r = digest := by
  unfold settledHash at given
  split at given
  · cases given
  · exact Option.some.inj given

/-- Only the digest of the payload can be an empty candidate. -/
theorem sha256_of_empty (empty : candidateHash host r = "") : host.sha256 r.payload = "" := by
  by_cases absent : r.payloadHash = none ∨ r.payloadHash = some ""
  · rw [← empty, candidateHash_of_absent absent]
  · have held := candidateHash_of_held host absent
    rw [empty] at held
    exact absurd (.inr held) absent

theorem candidateHash_settled_some {digest : String}
    (given : settledHash host rows r = some digest) :
    candidateHash host (settled host rows r) = digest := by
  by_cases empty : digest = ""
  · rw [candidateHash_of_absent (.inr (given.trans (by rw [empty])))]
    rw [empty] at given ⊢
    exact sha256_of_empty (r := r) (settledHash_eq_some given)
  · have held : ¬ ((settled host rows r).payloadHash = none ∨
        (settled host rows r).payloadHash = some "") := by
      rintro (none | blank)
      · cases given.symm.trans none
      · exact empty (Option.some.inj (given.symm.trans blank))
    exact Option.some.inj ((candidateHash_of_held host held).symm.trans given)

theorem claimedBefore_settled {digest : String} :
    ClaimedBefore host (rows.map (settled host rows)) (settled host rows r) digest ↔
      ∃ e ∈ rows, e.Active ∧ e.id < r.id ∧ candidateHash host (settled host rows e) = digest := by
  unfold ClaimedBefore
  constructor
  · rintro ⟨e, mem, active, before, claim⟩
    obtain ⟨e₀, mem₀, rfl⟩ := List.mem_map.1 mem
    exact ⟨e₀, mem₀, active, before, claim⟩
  · rintro ⟨e, mem, active, before, claim⟩
    exact ⟨_, List.mem_map_of_mem mem, active, before, claim⟩

variable {q : ExtractTable}

/-- Every row has its settled hash again: the first row that claims a digest in the second run kept it
in the first, and a row that the loop leaves without a hash has a row before it that got its
digest. -/
theorem settledHash_again_iff :
    (∀ r ∈ q, settledHash host (q.table.rows.map (settled host q.table.rows))
        (settled host q.table.rows r) = settledHash host q.table.rows r) ↔
      LosersSettled host q := by
  constructor
  · intro again r mem active claimed
    have lost : settledHash host q.table.rows r = none := if_pos ⟨active, claimed⟩
    have lostAgain := (again r mem).trans lost
    unfold settledHash at lostAgain
    split at lostAgain
    · rename_i both
      obtain ⟨e, memE, activeE, before, claim⟩ := claimedBefore_settled.1 both.2
      rw [candidateHash_settled_none lost] at claim
      obtain ⟨first, memF, activeF, least, -, given⟩ :=
        exists_first (List.mem_map_of_mem memE) activeE claim
      obtain ⟨first₀, memF₀, rfl⟩ := List.mem_map.1 memF
      rw [again first₀ memF₀] at given
      exact ⟨first₀, memF₀, activeF, Int.lt_of_le_of_lt least before, settledHash_eq_some given⟩
    · cases lostAgain
  · intro losers r mem
    have winner : ∀ x ∈ q, x.Active → settledHash host q.table.rows x = none →
        ∃ e ∈ q.table.rows, e.Active ∧ e.id < x.id ∧
          settledHash host q.table.rows e = some (host.sha256 x.payload) := by
      intro x memX activeX lost
      unfold settledHash at lost
      split at lost
      · rename_i both
        obtain ⟨e, memE, activeE, before, claim⟩ := losers x memX activeX both.2
        obtain ⟨first, memF, activeF, least, -, given⟩ := exists_first memE activeE claim
        exact ⟨first, memF, activeF, Int.lt_of_le_of_lt least before, given⟩
      · cases lost
    cases given : settledHash host q.table.rows r with
    | none =>
        have active : r.Active := by
          unfold settledHash at given
          split at given
          · rename_i both
            exact both.1
          · cases given
        obtain ⟨e, memE, activeE, before, got⟩ := winner r mem active given
        refine if_pos ⟨active, claimedBefore_settled.2 ⟨e, memE, activeE, before, ?_⟩⟩
        rw [candidateHash_settled_some got, candidateHash_settled_none given]
    | some digest =>
        have claim := candidateHash_settled_some given
        have free : ¬ ((settled host q.table.rows r).Active ∧
            ClaimedBefore host (q.table.rows.map (settled host q.table.rows))
              (settled host q.table.rows r)
              (candidateHash host (settled host q.table.rows r))) := by
          rintro ⟨active, claimed⟩
          obtain ⟨e, memE, activeE, before, same⟩ := claimedBefore_settled.1 claimed
          rw [claim] at same
          cases kept : settledHash host q.table.rows e with
          | some digest' =>
              rw [candidateHash_settled_some kept] at same
              have := settledHash_unique memE mem activeE active (kept.trans (by rw [same])) given
              omega
          | none =>
              rw [candidateHash_settled_none kept] at same
              obtain ⟨l, memL, activeL, before', got⟩ := winner e memE activeE kept
              have := settledHash_unique memL mem activeL active (got.trans (by rw [same])) given
              omega
        unfold settledHash
        rw [if_neg free, claim]

/-- The index the first run installs does not refuse the second. -/
theorem hashedFirst_again {q' : ExtractTable} (losers : LosersSettled host q)
    (rows : q'.table.rows = q.table.rows.map (settled host q.table.rows)) :
    HashedFirst host q' := by
  intro r mem later mem' active active' before absent hash
  have listed : r ∈ q'.table.rows := mem
  have listed' : later ∈ q'.table.rows := mem'
  rw [rows] at listed listed'
  obtain ⟨r₀, mem₀, rfl⟩ := List.mem_map.1 listed
  obtain ⟨later₀, mem₀', rfl⟩ := List.mem_map.1 listed'
  have hash' : settledHash host q.table.rows later₀ = some (host.sha256 r₀.payload) := hash
  obtain none | empty := absent
  · have lost : settledHash host q.table.rows r₀ = .none := none
    unfold settledHash at lost
    split at lost
    · rename_i both
      obtain ⟨e, memE, activeE, less, claim⟩ := losers r₀ mem₀ active both.2
      obtain ⟨first, memF, activeF, least, -, got⟩ := exists_first memE activeE claim
      have := settledHash_unique memF mem₀' activeF active' got hash'
      have : r₀.id < later₀.id := before
      omega
    · cases lost
  · have blank : settledHash host q.table.rows r₀ = some "" := empty
    rw [sha256_of_empty (settledHash_eq_some blank)] at hash'
    have := @settledHash_unique host q.table.rows r₀ later₀ mem₀ mem₀' active active' "" blank hash'
    have : r₀.id < later₀.id := before
    omega

/-- After a first run, a second changes nothing exactly when `LosersSettled`. -/
theorem rehash_again_iff {q' : ExtractTable}
    (rows : q'.table.rows = q.table.rows.map (settled host q.table.rows)) :
    rehashRows host (inOrder q') [] q' = .ok q' ↔ LosersSettled host q := by
  have same : q'.table.rows = q'.table.rows.map (settled host q'.table.rows) ↔
      ∀ r ∈ q, settledHash host (q.table.rows.map (settled host q.table.rows))
        (settled host q.table.rows r) = settledHash host q.table.rows r := by
    rw [rows, List.map_map]
    constructor
    · intro same r mem
      exact (congrArg ExtractRow.payloadHash (List.map_inj_left.1 same r mem)).symm
    · intro again
      refine List.map_congr_left fun r mem => ?_
      simp only [Function.comp, settled]
      exact congrArg (fun digest => { r with payloadHash := digest }) (again r mem).symm
  rw [rehash_eq_ok]
  constructor
  · rintro ⟨-, fixed, -⟩
    exact settledHash_again_iff.1 (same.1 fixed)
  · intro losers
    exact ⟨fun _ => hashedFirst_again losers rows, same.2 (settledHash_again_iff.2 losers), rfl, rfl⟩

end Again

/-! ## The layout -/

section Layout

/-- The layouts the migration accepts. -/
structure Compatible (columns : List Column) : Prop where
  key : (∃ c ∈ column? columns "id", c.primaryKey = 1) ∨
    "id" ∉ names columns ∧ ∃ c ∈ column? columns "queue_id", c.primaryKey = 1
  payload : ∃ c ∈ column? columns "payload", c.notNull = true

def renamed (columns : List Column) : List Column :=
  if "id" ∈ names columns then columns
  else columns.map fun c => if c.name = "queue_id" then { c with name := "id" } else c

variable {columns : List Column}

theorem mem_names_of_column? {name : String} {c : Column} (found : column? columns name = some c) :
    name ∈ names columns := by
  have here : c.name = name := by simpa using List.find?_some found
  exact List.mem_map.2 ⟨c, List.mem_of_find?_eq_some found, here⟩

/-- A column other than `id` and `queue_id` is found as before. -/
theorem column?_renamed {name : String} (notId : name ≠ "id") (notQueueId : name ≠ "queue_id") :
    column? (renamed columns) name = column? columns name := by
  unfold renamed
  split
  · rfl
  unfold column?
  rw [List.find?_map]
  have same : ((fun c : Column => decide (c.name = name)) ∘ fun c =>
      if c.name = "queue_id" then { c with name := "id" } else c) =
      fun c : Column => decide (c.name = name) := by
    funext c
    simp only [Function.comp]
    split
    · rename_i key
      simp [key, Ne.symm notId, Ne.symm notQueueId]
    · rfl
  rw [same]
  cases found : columns.find? fun c => decide (c.name = name) with
  | none => rfl
  | some c =>
      have here : c.name = name := by simpa using List.find?_some found
      simp [here, notQueueId]

/-- `queue_id` is found as `id`. -/
theorem column?_renamed_id (absent : "id" ∉ names columns) :
    column? (renamed columns) "id" =
      (column? columns "queue_id").map fun c => { c with name := "id" } := by
  unfold renamed
  rw [if_neg absent]
  unfold column?
  rw [List.find?_map]
  have same : ∀ c ∈ columns, ((fun c : Column => decide (c.name = "id")) ∘ fun c =>
      if c.name = "queue_id" then { c with name := "id" } else c) c =
      decide (c.name = "queue_id") := by
    intro c mem
    have other : c.name ≠ "id" := fun here => absent (List.mem_map.2 ⟨c, mem, here⟩)
    simp only [Function.comp]
    split
    · rename_i key
      simp [key]
    · rename_i notKey
      simp [notKey, other]
  rw [List.find?_congr same]
  cases found : columns.find? fun c => decide (c.name = "queue_id") with
  | none => rfl
  | some c =>
      have here : c.name = "queue_id" := by simpa using List.find?_some found
      simp [here]

theorem renameKey_ok (compatible : Compatible columns) :
    renameKey columns = .ok (renamed columns) := by
  unfold renameKey renamed
  split
  · rfl
  · rename_i absent
    obtain ⟨c, found, -⟩ | ⟨-, c, found, key⟩ := compatible.key
    · exact absurd (mem_names_of_column? found) absent
    · rw [Option.mem_def.1 found]
      dsimp only
      rw [require_of key]
      rfl

theorem renamed_key (compatible : Compatible columns) :
    ∃ c ∈ column? (renamed columns) "id", c.primaryKey = 1 := by
  obtain ⟨c, found, key⟩ | ⟨absent, c, found, key⟩ := compatible.key
  · refine ⟨c, ?_, key⟩
    unfold renamed
    rwa [if_pos (mem_names_of_column? found)]
  · refine ⟨{ c with name := "id" }, ?_, key⟩
    rw [column?_renamed_id absent, Option.mem_def.1 found]
    rfl

theorem renamed_payload (compatible : Compatible columns) :
    ∃ c ∈ column? (renamed columns) "payload", c.notNull = true := by
  rw [column?_renamed (by decide) (by decide)]
  exact compatible.payload

/-- Columns at the end hide none before. -/
theorem column?_addColumns {name : String} {c : Column} (found : column? columns name = some c) :
    column? (addColumns columns) name = some c := by
  unfold addColumns column?
  rw [List.find?_append]
  unfold column? at found
  rw [found]
  rfl

theorem addColumns_again : addColumns (addColumns columns) = addColumns columns := by
  have none : addedColumns.filter (fun c => c.name ∉ names (addColumns columns)) = [] := by
    refine List.filter_eq_nil_iff.2 fun c mem => ?_
    have there : c.name ∈ names (addColumns columns) := by
      unfold addColumns names
      rw [List.map_append]
      by_cases old : c.name ∈ names columns
      · exact List.mem_append_left _ old
      · refine List.mem_append_right _ (List.mem_map_of_mem (List.mem_filter.2 ⟨mem, ?_⟩))
        exact decide_eq_true old
    simpa using there
  conv_lhs => rw [addColumns]
  rw [none, List.append_nil]

/-- The layout the migration leaves is one it leaves alone. -/
theorem migrated_layout (compatible : Compatible columns) :
    Compatible (addColumns (renamed columns)) ∧
      renamed (addColumns (renamed columns)) = addColumns (renamed columns) := by
  obtain ⟨key, foundKey, first⟩ := renamed_key compatible
  obtain ⟨payload, foundPayload, notNull⟩ := renamed_payload compatible
  have foundId := column?_addColumns (Option.mem_def.1 foundKey)
  exact ⟨⟨.inl ⟨key, foundId, first⟩, payload, column?_addColumns foundPayload, notNull⟩,
    if_pos (mem_names_of_column? foundId)⟩

end Layout

/-! ## The migration -/

section Migration

variable {host : QueueHost} {now : String} {q : ExtractTable} {db db' : QueueDb}

/-- What the backfill makes of a row. -/
def backfilled (now : String) (r : ExtractRow) : ExtractRow :=
  if r.createdAt = none then { r with createdAt := some now } else r

/-- Only the time of a row changes. -/
theorem backfilled_same (now : String) (r : ExtractRow) :
    (backfilled now r).id = r.id ∧ (backfilled now r).payload = r.payload ∧
      (backfilled now r).status = r.status ∧ (backfilled now r).attempts = r.attempts ∧
      (backfilled now r).payloadHash = r.payloadHash ∧
      (backfilled now r).proposalJson = r.proposalJson ∧
      (backfilled now r).proposalHash = r.proposalHash := by
  unfold backfilled
  split
  · exact ⟨rfl, rfl, rfl, rfl, rfl, rfl, rfl⟩
  · exact ⟨rfl, rfl, rfl, rfl, rfl, rfl, rfl⟩

theorem backfillCreated_ok (q : ExtractTable) (now : String) :
    ∃ q', backfillCreated q now = .ok q' ∧ q'.table.rows = q.table.rows.map (backfilled now) ∧
      q'.sequence = q.sequence ∧ q'.indexed = q.indexed := by
  have quiet : q.indexed = true → ActiveUnique (q.table.update (fun r => r.createdAt = none)
      (fun r => { r with createdAt := some now }) fun _ => rfl).rows := fun indexed =>
    activeUnique_update (q.unique indexed) fun _ _ _ => ⟨rfl, id⟩
  obtain ⟨q', done, -⟩ := update_of quiet
  obtain ⟨-, table, sequence, indexed⟩ := extractUpdate_eq_ok.1 done
  refine ⟨q', done, ?_, sequence, indexed⟩
  rw [table]
  rfl

theorem candidateHash_backfilled (r : ExtractRow) :
    candidateHash host (backfilled now r) = candidateHash host r := by
  obtain ⟨-, payload, -, -, hash, -⟩ := backfilled_same now r
  unfold candidateHash
  rw [payload, hash]

theorem active_backfilled (r : ExtractRow) : (backfilled now r).Active ↔ r.Active := by
  unfold ExtractRow.Active
  rw [(backfilled_same _ r).2.2.1]

theorem claimedBefore_backfilled {rows : List ExtractRow} {r : ExtractRow} {digest : String} :
    ClaimedBefore host (rows.map (backfilled now)) (backfilled now r) digest ↔
      ClaimedBefore host rows r digest := by
  unfold ClaimedBefore
  rw [(backfilled_same _ r).1]
  constructor
  · rintro ⟨e, mem, active, before, claim⟩
    obtain ⟨e₀, mem₀, rfl⟩ := List.mem_map.1 mem
    rw [(backfilled_same _ e₀).1] at before
    rw [candidateHash_backfilled] at claim
    exact ⟨e₀, mem₀, (active_backfilled e₀).1 active, before, claim⟩
  · rintro ⟨e, mem, active, before, claim⟩
    refine ⟨_, List.mem_map_of_mem mem, (active_backfilled e).2 active, ?_, ?_⟩
    · rwa [(backfilled_same _ e).1]
    · rwa [candidateHash_backfilled]

/-- Both conditions speak of what the backfill leaves alone. -/
theorem conditions_backfilled (host : QueueHost) {q' : ExtractTable}
    (rows : q'.table.rows = q.table.rows.map (backfilled now)) :
    (HashedFirst host q' ↔ HashedFirst host q) ∧ (LosersSettled host q' ↔ LosersSettled host q) := by
  have forth : ∀ r ∈ q, backfilled now r ∈ q' := fun r mem => by
    show backfilled now r ∈ q'.table.rows
    rw [rows]
    exact List.mem_map_of_mem mem
  have back : ∀ r' ∈ q', ∃ r ∈ q, backfilled now r = r' := fun r' mem => by
    have listed : r' ∈ q'.table.rows := mem
    rw [rows] at listed
    exact List.mem_map.1 listed
  have same := fun r => backfilled_same now r
  constructor
  · constructor
    · intro hashed r mem later mem' active active' before absent
      have found := hashed _ (forth r mem) _ (forth later mem') ((active_backfilled r).2 active)
        ((active_backfilled later).2 active') (by rwa [(same r).1, (same later).1])
        (by rwa [(same r).2.2.2.2.1])
      rwa [(same later).2.2.2.2.1, (same r).2.1] at found
    · intro hashed r mem later mem' active active' before absent
      obtain ⟨r₀, mem₀, rfl⟩ := back r mem
      obtain ⟨later₀, mem₀', rfl⟩ := back later mem'
      rw [(same r₀).1, (same later₀).1] at before
      rw [(same r₀).2.2.2.2.1] at absent
      rw [(same later₀).2.2.2.2.1, (same r₀).2.1]
      exact hashed r₀ mem₀ later₀ mem₀' ((active_backfilled r₀).1 active)
        ((active_backfilled later₀).1 active') before absent
  · constructor
    · intro losers r mem active claimed
      have found := losers _ (forth r mem) ((active_backfilled r).2 active) (by
        rw [rows, candidateHash_backfilled]
        exact claimedBefore_backfilled.2 claimed)
      rw [rows, (same r).2.1] at found
      exact claimedBefore_backfilled.1 found
    · intro losers r mem active claimed
      obtain ⟨r₀, mem₀, rfl⟩ := back r mem
      rw [rows, candidateHash_backfilled] at claimed
      rw [rows, (same r₀).2.1]
      exact claimedBefore_backfilled.2 (losers r₀ mem₀ ((active_backfilled r₀).1 active)
        (claimedBefore_backfilled.1 claimed))

theorem installIndex_eq_ok {q' : ExtractTable} :
    installIndex q = .ok q' ↔ ActiveUnique q.table.rows ∧ q'.table = q.table ∧
      q'.sequence = q.sequence ∧ q'.indexed = true := by
  unfold installIndex
  constructor
  · intro done
    obtain ⟨⟨unique⟩, -, done⟩ := bind_eq_ok.1 done
    cases pure_eq_ok.1 done
    exact ⟨unique, rfl, rfl, rfl⟩
  · rintro ⟨unique, table, sequence, indexed⟩
    rw [checked_of unique]
    exact congrArg Except.ok (extractTable_ext table.symm sequence.symm indexed.symm)

/-- The checks of the rows. -/
structure SoundRows (q : ExtractTable) : Prop where
  paired : ∀ r ∈ q, ¬ SnapshotMismatch r
  counted : ∀ r ∈ q, 0 ≤ r.attempts

theorem ensure_eq_ok (compatible : Compatible db.columns) (sound : SoundRows db.queue) :
    ensureExtractionQueueSchema host now (some db) = .ok db' ↔
      ∃ filled hashed, backfillCreated db.queue now = .ok filled ∧
        rehashRows host (inOrder filled) [] filled = .ok hashed ∧
        installIndex hashed = .ok db'.queue ∧
        db'.columns = addColumns (renamed db.columns) := by
  obtain ⟨filled, done, rows, -⟩ := backfillCreated_ok db.queue now
  have stillSound : (¬ ∃ r ∈ filled.table.rows, SnapshotMismatch r) ∧
      ¬ ∃ r ∈ filled.table.rows, r.attempts < 0 := by
    rw [rows]
    constructor
    · rintro ⟨r, mem, mismatch⟩
      obtain ⟨r₀, mem₀, rfl⟩ := List.mem_map.1 mem
      obtain ⟨-, -, -, -, -, json, hash⟩ := backfilled_same now r₀
      rw [SnapshotMismatch, json, hash] at mismatch
      exact sound.paired r₀ mem₀ mismatch
    · rintro ⟨r, mem, negative⟩
      obtain ⟨r₀, mem₀, rfl⟩ := List.mem_map.1 mem
      rw [(backfilled_same _ r₀).2.2.2.1] at negative
      exact absurd negative (Int.not_lt.2 (sound.counted r₀ mem₀))
  unfold ensureExtractionQueueSchema
  dsimp only [Option.getD_some]
  rw [renameKey_ok compatible, ok_bind, require_of (renamed_key compatible), ok_bind,
    require_of (renamed_payload compatible), ok_bind, done, ok_bind, require_of stillSound.1,
    ok_bind, require_of stillSound.2, ok_bind]
  constructor
  · intro finished
    obtain ⟨hashed, rehashed, finished⟩ := bind_eq_ok.1 finished
    obtain ⟨indexed, installed, finished⟩ := bind_eq_ok.1 finished
    cases pure_eq_ok.1 finished
    exact ⟨filled, hashed, rfl, rehashed, installed, rfl⟩
  · rintro ⟨filled', hashed, done', rehashed, installed, columns⟩
    cases done'
    rw [rehashed, ok_bind, installed, ok_bind, ← columns]
    rfl

/-- The rows keep their id, payload, status, attempts and snapshot, in place. -/
def SameWork (q q' : ExtractTable) : Prop :=
  List.Forall₂ (fun r r' : ExtractRow => r'.id = r.id ∧ r'.payload = r.payload ∧
    r'.status = r.status ∧ r'.attempts = r.attempts ∧ r'.proposalJson = r.proposalJson ∧
    r'.proposalHash = r.proposalHash) q.table.rows q'.table.rows

/-- The migration returns, keeps the work, leaves one active row a hash, and changes nothing
when it runs again. -/
def PreservesWork (host : QueueHost) (now : String) (db : QueueDb) : Prop :=
  ∃ db', ensureExtractionQueueSchema host now (some db) = .ok db' ∧
    SameWork db.queue db'.queue ∧ ActiveUnique db'.queue.table.rows ∧
    ∀ later, ensureExtractionQueueSchema host later (some db') = .ok db'

/-- What a first run leaves. -/
theorem migrated (now : String) (compatible : Compatible db.columns) (sound : SoundRows db.queue)
    (hashedFirst : db.queue.indexed = true → HashedFirst host db.queue) :
    ∃ filled db', backfillCreated db.queue now = .ok filled ∧
      filled.table.rows = db.queue.table.rows.map (backfilled now) ∧
      ensureExtractionQueueSchema host now (some db) = .ok db' ∧
      db'.columns = addColumns (renamed db.columns) ∧ db'.queue.indexed = true ∧
      db'.queue.table.rows = filled.table.rows.map (settled host filled.table.rows) := by
  obtain ⟨filled, done, rows, -, indexed⟩ := backfillCreated_ok db.queue now
  have conditions := conditions_backfilled host rows
  have distinct : ((filled.table.rows.map (settled host filled.table.rows)).map
      ExtractRow.id).Nodup := by
    have same : ExtractRow.id ∘ settled host filled.table.rows = ExtractRow.id := rfl
    rw [List.map_map, same]
    exact filled.table.nodup
  have unique : ActiveUnique (filled.table.rows.map (settled host filled.table.rows)) := by
    intro r mem r' mem' active active' digest hash hash'
    obtain ⟨r₀, mem₀, rfl⟩ := List.mem_map.1 mem
    obtain ⟨r₀', mem₀', rfl⟩ := List.mem_map.1 mem'
    exact @settledHash_unique host _ r₀ r₀' mem₀ mem₀' active active' digest hash hash'
  have bounded : ∀ r ∈ filled.table.rows.map (settled host filled.table.rows),
      r.id ≤ filled.sequence := by
    intro r mem
    obtain ⟨r₀, mem₀, rfl⟩ := List.mem_map.1 mem
    exact filled.bounded r₀ mem₀
  let hashed : ExtractTable :=
    ⟨⟨_, distinct⟩, filled.sequence, bounded, filled.indexed, fun _ => unique⟩
  have rehashed : rehashRows host (inOrder filled) [] filled = .ok hashed :=
    rehash_eq_ok.2 ⟨fun here => conditions.1.2 (hashedFirst (indexed.symm.trans here)),
      rfl, rfl, rfl⟩
  let final : QueueDb :=
    ⟨addColumns (renamed db.columns), { hashed with indexed := true, unique := fun _ => unique }⟩
  refine ⟨filled, final, done, rows, ?_, rfl, rfl, rfl⟩
  exact (ensure_eq_ok compatible sound).2 ⟨filled, hashed, done, rehashed,
    installIndex_eq_ok.2 ⟨unique, rfl, rfl, rfl⟩, rfl⟩

theorem sameWork_settled (now : String) {q' : ExtractTable} {rows : List ExtractRow}
    (map : q'.table.rows = (q.table.rows.map (backfilled now)).map (settled host rows)) :
    SameWork q q' := by
  unfold SameWork
  rw [map, List.map_map, List.forall₂_map_right_iff]
  refine List.forall₂_same.2 fun r _ => ?_
  obtain ⟨id, payload, status, attempts, -, json, hash⟩ := backfilled_same now r
  exact ⟨id, payload, status, attempts, json, hash⟩

/-- A second run changes nothing exactly when its loop does not. -/
theorem ensure_again_iff (compatible : Compatible db.columns) (sound : SoundRows db.queue)
    (layout : renamed db.columns = db.columns ∧ addColumns db.columns = db.columns)
    (filled : ∀ r ∈ db.queue, r.createdAt ≠ none) (indexed : db.queue.indexed = true) :
    ensureExtractionQueueSchema host now (some db) = .ok db ↔
      rehashRows host (inOrder db.queue) [] db.queue = .ok db.queue := by
  have still : backfillCreated db.queue now = .ok db.queue := by
    refine extractUpdate_eq_ok.2 ⟨fun _ => ?_, ?_, rfl, rfl⟩
    · rw [Table.update_of_none filled]
      exact db.queue.unique indexed
    · exact (Table.update_of_none filled).symm
  rw [ensure_eq_ok compatible sound, layout.1, layout.2]
  constructor
  · rintro ⟨same, hashed, done, rehashed, installed, -⟩
    cases done.symm.trans still
    obtain ⟨-, table, sequence, -⟩ := installIndex_eq_ok.1 installed
    obtain ⟨-, -, -, indexed'⟩ := rehash_eq_ok.1 rehashed
    rw [rehashed]
    exact congrArg Except.ok (extractTable_ext table.symm sequence.symm indexed')
  · intro rehashed
    exact ⟨db.queue, db.queue, still, rehashed,
      installIndex_eq_ok.2 ⟨db.queue.unique indexed, rfl, rfl, indexed⟩, rfl⟩

/-- A migration that returns met no hash below its row under an installed index. -/
theorem hashedFirst_of_done (compatible : Compatible db.columns) (sound : SoundRows db.queue)
    (done : ensureExtractionQueueSchema host now (some db) = .ok db')
    (installed : db.queue.indexed = true) : HashedFirst host db.queue := by
  obtain ⟨filled, hashed, filling, rehashed, -⟩ := (ensure_eq_ok compatible sound).1 done
  obtain ⟨filled', filling', rows, -, indexed⟩ := backfillCreated_ok db.queue now
  cases filling.symm.trans filling'
  exact (conditions_backfilled _ rows).1.1 ((rehash_eq_ok.1 rehashed).1 (indexed.trans installed))

/-- The migration of a compatible queue preserves its work exactly when a row without a hash
never stands before the row that holds its digest under an index that is installed, and a row
that loses its hash has its digest claimed before it. -/
theorem migration_preserves_work_iff (now : String) (compatible : Compatible db.columns)
    (sound : SoundRows db.queue) :
    PreservesWork host now db ↔
      (db.queue.indexed = true → HashedFirst host db.queue) ∧ LosersSettled host db.queue := by
  have again : ∀ filled db', backfillCreated db.queue now = .ok filled →
      filled.table.rows = db.queue.table.rows.map (backfilled now) →
      db'.columns = addColumns (renamed db.columns) → db'.queue.indexed = true →
      db'.queue.table.rows = filled.table.rows.map (settled host filled.table.rows) →
      ∀ later, ensureExtractionQueueSchema host later (some db') = .ok db' ↔
        LosersSettled host db.queue := by
    intro filled db' done rows columns indexed settledRows later
    have traced : ∀ r ∈ db'.queue, ∃ r₀ ∈ db.queue,
        settled host filled.table.rows (backfilled now r₀) = r := by
      intro r mem
      have listed : r ∈ db'.queue.table.rows := mem
      rw [settledRows] at listed
      obtain ⟨f, inside, rfl⟩ := List.mem_map.1 listed
      rw [rows] at inside
      obtain ⟨r₀, mem₀, rfl⟩ := List.mem_map.1 inside
      exact ⟨r₀, mem₀, rfl⟩
    have sound' : SoundRows db'.queue := by
      refine ⟨fun r mem => ?_, fun r mem => ?_⟩
      · obtain ⟨r₀, mem₀, rfl⟩ := traced r mem
        obtain ⟨-, -, -, -, -, json, hash⟩ := backfilled_same now r₀
        have paired := sound.paired r₀ mem₀
        unfold SnapshotMismatch settled at *
        rwa [json, hash]
      · obtain ⟨r₀, mem₀, rfl⟩ := traced r mem
        have counted := sound.counted r₀ mem₀
        unfold settled
        rwa [(backfilled_same _ r₀).2.2.2.1]
    have filled' : ∀ r ∈ db'.queue, r.createdAt ≠ none := by
      intro r mem
      obtain ⟨r₀, mem₀, rfl⟩ := traced r mem
      unfold settled backfilled
      split
      · exact Option.some_ne_none _
      · rename_i present
        exact present
    have layout := migrated_layout compatible
    rw [← columns] at layout
    have complete : addColumns db'.columns = db'.columns := by
      rw [columns, addColumns_again]
    rw [ensure_again_iff layout.1 sound' ⟨layout.2, complete⟩ filled' indexed,
      rehash_again_iff settledRows, (conditions_backfilled _ rows).2]
  constructor
  · rintro ⟨db', done, -, -, stays⟩
    have hashedFirst := hashedFirst_of_done compatible sound done
    obtain ⟨filled', db'', filling', rows', done', columns, indexed', settledRows⟩ :=
      migrated now compatible sound hashedFirst
    cases done.symm.trans done'
    exact ⟨hashedFirst, (again filled' db' filling' rows' columns indexed' settledRows now).1
      (stays now)⟩
  · rintro ⟨hashedFirst, losers⟩
    obtain ⟨filled, db', filling, rows, done, columns, indexed, settledRows⟩ :=
      migrated now compatible sound hashedFirst
    refine ⟨db', done, sameWork_settled now (by rw [settledRows, ← rows]),
      db'.queue.unique indexed, fun later => ?_⟩
    exact (again filled db' filling rows columns indexed settledRows later).2 losers

end Migration

/-- An active row without a hash before the row that holds its digest. -/
def hashedTwin : List ExtractRow :=
  [bareRow 1 "first" "pending" none, bareRow 2 "first" "pending" (some "sha256:first")]

def twinDb (indexed : Bool) : QueueDb where
  columns := freshDb.columns
  queue :=
    { table := ⟨hashedTwin, by decide⟩
      sequence := 2
      bounded := by decide
      indexed := indexed
      unique := fun _ => by decide }

theorem twin_compatible (indexed : Bool) : Compatible (twinDb indexed).columns := by
  have fresh : Compatible freshDb.columns :=
    ⟨.inl ⟨⟨"id", false, 1⟩, by decide +kernel, rfl⟩,
      ⟨⟨"payload", true, 0⟩, by decide +kernel, rfl⟩⟩
  exact fresh

theorem twin_sound (indexed : Bool) : SoundRows (twinDb indexed).queue := by
  constructor
  · intro r (mem : r ∈ hashedTwin)
    revert r
    decide
  · intro r (mem : r ∈ hashedTwin)
    revert r
    decide

/-- Without the index the later row gives up its hash. -/
theorem twin_migration_preserves_work :
    PreservesWork sampleQueueHost "2025-01-01 00:00:00" (twinDb false) := by
  refine (migration_preserves_work_iff _ (twin_compatible false) (twin_sound false)).2
    ⟨fun never => (by cases never), ?_⟩
  intro r (mem : r ∈ hashedTwin)
  revert r
  decide +kernel

/-- Under the index the first row cannot take the hash of the second. -/
theorem indexed_twin_refused :
    ¬ PreservesWork sampleQueueHost "2025-01-01 00:00:00" (twinDb true) := by
  rintro ⟨db', done, -⟩
  have hashedFirst := hashedFirst_of_done (twin_compatible true) (twin_sound true) done rfl
  have mem : ∀ r ∈ hashedTwin, r ∈ (twinDb true).queue := fun r listed => listed
  have absent := hashedFirst (bareRow 1 "first" "pending" none) (mem _ List.mem_cons_self)
    (bareRow 2 "first" "pending" (some "sha256:first"))
    (mem _ (List.mem_cons_of_mem _ List.mem_cons_self)) (by decide) (by decide) (by decide)
    (.inl rfl)
  revert absent
  decide +kernel

end Enfold.Laws
