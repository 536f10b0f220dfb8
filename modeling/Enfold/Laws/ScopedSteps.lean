/-
# Laws.ScopedSteps -- statements on two stores that agree on a scope

Two stores are alike for a scope when they agree on the registrations, the log, the
observations, the next ids, and on the facts and conflicts of that scope (`Alike`).  Other
scopes can differ in any way.  A lookup that names the scope, or a fact of it, then answers
alike on both, and so does every statement of a write on facts and conflicts: it fails with
the same error, or leaves stores that are alike again.

`Paired` is what the statements of one write keep: besides `Alike`, the facts the write has
found or inserted so far are facts of the scope.
-/
import Enfold.Laws.Progress
import Enfold.Laws.References
import Enfold.Theory.TwoRuns
import Mathlib.Data.Fintype.Basic

namespace Enfold.Laws

open Enfold.Theory Enfold.Model

set_option autoImplicit false

/-- The row is in the scope. -/
abbrev OfScope (scope : String) (r : FactRow) : Prop := r.scope = scope

/-- The stores agree on everything a write of the scope can see. -/
structure Alike (scope : String) (s t : Store) : Prop where
  clients : SameRows s.clients t.clients
  sessions : SameRows s.sessions t.sessions
  writeLog : SameRows s.writeLog t.writeLog
  observations : SameRows s.observations t.observations
  sequence : s.facts.sequence = t.facts.sequence
  facts : SameOn (OfScope scope) s.facts.table t.facts.table
  conflicts : SameOn (fun c : ConflictRow => c.scope = scope) s.conflicts t.conflicts

/-- What the branches of a write also rely on: the listed ids are facts of the scope, and so
is the conflict to join; the stores agree on the members with ids beyond the bound. -/
structure Paired (scope : String) (bound : Nat) (ids : List Nat) (group : Option String)
    (s t : Store) : Prop extends Alike scope s t where
  below : bound ≤ s.facts.sequence
  held : ∀ k ∈ ids, ∃ r ∈ s.facts, r.factId = k ∧ r.scope = scope
  members : SameOn (fun m : MemberRow => bound < m.factId) s.conflictMembers t.conflictMembers
  group : ∀ g ∈ group, ∃ c ∈ s.conflicts, c.conflictId = g ∧ c.scope = scope

/-! ## Lookups -/

section Lookups

variable {scope : String} {s t : Store}

/-- A fact of the scope is found in both. -/
theorem Alike.get?_of (alike : Alike scope s t) {k : Nat} {r : FactRow}
    (found : s.facts.get? k = some r) (inScope : r.scope = scope) : t.facts.get? k = some r :=
  SameOn.get?_of alike.facts found inScope

instance : Std.Total (fun r r' : FactRow => r.factId ≤ r'.factId) := ⟨fun _ _ => le_total _ _⟩

instance : IsTrans FactRow (fun r r' : FactRow => r.factId ≤ r'.factId) :=
  ⟨fun _ _ _ first second => le_trans first second⟩

/-- A query within the scope, ordered by id, returns the same list. -/
theorem Alike.orderById_eq (alike : Alike scope s t) {q : FactRow → Prop} [DecidablePred q]
    (inside : ∀ r, q r → r.scope = scope) :
    orderById (s.facts.table.select q) = orderById (t.facts.table.select q) :=
  SameOn.sorted_select_eq alike.facts (fun r _ holds => inside r holds)
    (fun r _ holds => inside r holds)
    fun _ mem _ mem' first second => Facts.eq_of_id mem mem' (le_antisymm first second)

theorem Alike.currentRows_eq (alike : Alike scope s t) {k : Slot} (here : k.scope = scope) :
    currentRows s.facts k = currentRows t.facts k :=
  alike.orderById_eq fun _ holds => holds.1.2.1.trans here

theorem Alike.decideStateWrite_eq (alike : Alike scope s t) {candidate : StateCandidate}
    (here : candidate.scope = scope) : decideStateWrite s candidate = decideStateWrite t candidate := by
  unfold decideStateWrite
  split
  · rfl
  · rw [currentStateFacts_of candidate.subjectValid candidate.predicateValid candidate.scopeValid,
      currentStateFacts_of candidate.subjectValid candidate.predicateValid candidate.scopeValid,
      alike.currentRows_eq here]

theorem Alike.supersessionPolicy_eq (alike : Alike scope s t) {request : WriteRequest}
    (here : request.scope = scope) (targetId : Option Nat) (authority : Option Decimal) :
    supersessionPolicy s request targetId authority =
      supersessionPolicy t request targetId authority := by
  have lookup : ∀ k, ((s.facts.get? k).filter fun r => r.scope = request.scope) =
      (t.facts.get? k).filter fun r => r.scope = request.scope := by
    intro k
    rw [here]
    exact SameOn.get?_filter alike.facts k
  unfold supersessionPolicy
  split
  · rfl
  · refine bind_congr_ok fun k _ => ?_
    rw [lookup]

/-- The decisions are the same. -/
theorem Alike.decide_eq (alike : Alike scope s t) {service : MemoryWriteService} {tick : Tick}
    {context : ConnectionContext} {request : WriteRequest} {candidate : Option StateCandidate}
    (here : request.scope = scope) (typedHere : ∀ c ∈ candidate, c.scope = scope) :
    Model.decide service s tick context request candidate =
      Model.decide service t tick context request candidate := by
  have policies : policyDecision service s context request candidate =
      policyDecision service t context request candidate := by
    refine bind_congr_ok fun decision _ => ?_
    cases decision with
    | some decision => rfl
    | none =>
        dsimp only
        rw [alike.supersessionPolicy_eq here]
  unfold Model.decide
  rw [policies]
  refine bind_congr_ok fun decision _ => bind_congr_ok fun effective timed => ?_
  cases decision with
  | some decision => rfl
  | none =>
      cases effective with
      | none => rfl
      | some effective =>
          have scope' : effective.scope = scope := by
            obtain ⟨c, given, slot, -⟩ := effectiveCandidate_eq_ok timed
            exact (congrArg Slot.scope slot).trans (typedHere c given)
          dsimp only
          rw [alike.decideStateWrite_eq scope']
          refine bind_congr_ok fun state _ => ?_
          rw [alike.supersessionPolicy_eq here]

end Lookups

/-! ## Constraints -/

/-- The rows are checked alike when they violate the slot index alike. -/
theorem checkRows_both {table table' : Table Nat FactRow FactRow.factId} {sequence sequence' : Nat}
    {positive : ∀ r ∈ table, 0 < r.factId} {bounded : ∀ r ∈ table, r.factId ≤ sequence}
    {positive' : ∀ r ∈ table', 0 < r.factId} {bounded' : ∀ r ∈ table', r.factId ≤ sequence'}
    (slots : UniqueSlots table.rows ↔ UniqueSlots table'.rows) (links : Linked table.rows)
    (links' : Linked table'.rows) :
    Both (fun a b : Facts => (a.table = table ∧ a.sequence = sequence) ∧
        b.table = table' ∧ b.sequence = sequence')
      (Facts.checkRows table sequence positive bounded)
      (Facts.checkRows table' sequence' positive' bounded') := by
  by_cases unique : UniqueSlots table.rows
  · rw [Facts.checkRows_of unique links, Facts.checkRows_of (slots.1 unique) links']
    exact ⟨⟨rfl, rfl⟩, rfl, rfl⟩
  · have violated : ¬ UniqueSlots table'.rows := fun unique' => unique (slots.2 unique')
    simp only [Facts.checkRows, checked, dif_neg unique, dif_neg violated, error_bind]
    exact .error _

/-- The slots of the scope are unique in both tables or in neither, when the rest of each
table is as it was. -/
theorem uniqueSlots_of {scope : String} {table table' : Table Nat FactRow FactRow.factId}
    {facts : Facts} (same : SameOn (OfScope scope) table table') (unique : UniqueSlots table.rows)
    (outside : ∀ r ∈ table', r.scope ≠ scope → r ∈ facts) : UniqueSlots table'.rows := by
  intro r mem r' mem' k slot indexed indexed'
  have together : r'.scope = r.scope := indexed'.1.2.1.trans indexed.1.2.1.symm
  by_cases here : r.scope = scope
  · exact unique r ((same r here).2 mem) r' ((same r' (together.trans here)).2 mem') k slot indexed
      indexed'
  · exact facts.slots r (outside r mem here) r' (outside r' mem' (together ▸ here)) k slot indexed
      indexed'

section Statements

variable {scope : String} {bound : Nat} {ids : List Nat} {group : Option String} {s t : Store}

/-- A listed id names the same row in both stores, and the row is in the scope. -/
theorem Paired.row (paired : Paired scope bound ids group s t) {k : Nat} (listed : k ∈ ids) :
    ∃ r, s.facts.get? k = some r ∧ t.facts.get? k = some r ∧ r.scope = scope := by
  obtain ⟨r, mem, here, inScope⟩ := paired.held k listed
  have found := Facts.get?_eq_some.2 ⟨mem, here⟩
  exact ⟨r, found, paired.get?_of found inScope, inScope⟩

/-- In both stores, the rows with listed ids are in the scope. -/
theorem Paired.inside (paired : Paired scope bound ids group s t) {p : FactRow → Prop}
    (listed : ∀ r, p r → r.factId ∈ ids) :
    (∀ r ∈ s.facts, p r → r.scope = scope) ∧ ∀ r ∈ t.facts, p r → r.scope = scope := by
  constructor
  · intro r mem holds
    obtain ⟨r', found, -, inScope⟩ := paired.row (listed r holds)
    obtain ⟨mem', same⟩ := Facts.get?_eq_some.1 found
    rwa [Facts.eq_of_id mem mem' same.symm]
  · intro r mem holds
    obtain ⟨r', -, found, inScope⟩ := paired.row (listed r holds)
    obtain ⟨mem', same⟩ := Facts.get?_eq_some.1 found
    rwa [Facts.eq_of_id mem mem' same.symm]

theorem Paired.withIds (paired : Paired scope bound ids group s t) {ids' : List Nat}
    (held : ∀ k ∈ ids', ∃ r ∈ s.facts, r.factId = k ∧ r.scope = scope) :
    Paired scope bound ids' group s t :=
  { paired with held }

theorem Paired.withGroup (paired : Paired scope bound ids group s t) {group' : Option String}
    (known : ∀ g ∈ group', ∃ c ∈ s.conflicts, c.conflictId = g ∧ c.scope = scope) :
    Paired scope bound ids group' s t :=
  { paired with group := known }

/-- The facts of both stores are replaced by alike ones. -/
theorem Paired.withFacts (paired : Paired scope bound ids group s t) {facts facts' : Facts}
    {ids' : List Nat} (sequence : facts.sequence = facts'.sequence)
    (grows : s.facts.sequence ≤ facts.sequence)
    (same : SameOn (OfScope scope) facts.table facts'.table)
    (held : ∀ k ∈ ids', ∃ r ∈ facts, r.factId = k ∧ r.scope = scope) :
    Paired scope bound ids' group { s with facts } { t with facts := facts' } where
  clients := paired.clients
  sessions := paired.sessions
  writeLog := paired.writeLog
  observations := paired.observations
  sequence := sequence
  facts := same
  conflicts := paired.conflicts
  below := paired.below.trans grows
  held := held
  members := paired.members
  group := paired.group

/-- The full-text index, the embedding jobs and the provenance are not compared. -/
theorem Paired.withOthers (paired : Paired scope bound ids group s t) (index index' jobs jobs' links
    links') :
    Paired scope bound ids group
      { s with factsFts := index, embeddingJobs := jobs, provenance := links }
      { t with factsFts := index', embeddingJobs := jobs', provenance := links' } where
  clients := paired.clients
  sessions := paired.sessions
  writeLog := paired.writeLog
  observations := paired.observations
  sequence := paired.sequence
  facts := paired.facts
  conflicts := paired.conflicts
  below := paired.below
  held := paired.held
  members := paired.members
  group := paired.group

/-- `UPDATE facts` of listed rows. -/
theorem Paired.updateFacts (paired : Paired scope bound ids group s t) {p : FactRow → Prop}
    [DecidablePred p] {f : FactRow → FactRow} {keeps : ∀ r, (f r).factId = r.factId}
    (listed : ∀ r, p r → r.factId ∈ ids) (stays : ∀ r, r.scope = scope → (f r).scope = scope)
    (linked : ∀ r, p r → ∀ k ∈ (f r).supersededBy, k ∈ r.supersededBy ∨ k ∈ ids) :
    Both (Paired scope bound ids group) (Model.updateFacts s p f keeps)
      (Model.updateFacts t p f keeps) := by
  obtain ⟨inside, inside'⟩ := paired.inside listed
  have same : SameOn (OfScope scope) (s.facts.table.update p f keeps)
      (t.facts.table.update p f keeps) := paired.facts.update inside inside'
  have outside : ∀ (facts : Facts), (∀ r ∈ facts, p r → r.scope = scope) →
      ∀ r ∈ facts.table.update p f keeps, r.scope ≠ scope → r ∈ facts := by
    intro facts within r' mem' other
    obtain ⟨r, mem, rfl⟩ := Table.mem_update.1 mem'
    by_cases touched : p r
    · rw [if_pos touched] at other
      exact absurd (stays r (within r mem touched)) other
    · rw [if_neg touched]
      exact mem
  have slots : UniqueSlots (s.facts.table.update p f keeps).rows ↔
      UniqueSlots (t.facts.table.update p f keeps).rows :=
    ⟨fun unique => uniqueSlots_of same unique (outside t.facts inside'),
      fun unique => uniqueSlots_of same.symm unique (outside s.facts inside)⟩
  have links : Linked (s.facts.table.update p f keeps).rows :=
    linked_update fun r _ touched k edge => by
      rcases linked r touched k edge with old | here
      · exact .inl old
      · obtain ⟨x, found, -, -⟩ := paired.row here
        exact .inr ⟨x, Facts.get?_eq_some.1 found⟩
  have links' : Linked (t.facts.table.update p f keeps).rows :=
    linked_update fun r _ touched k edge => by
      rcases linked r touched k edge with old | here
      · exact .inl old
      · obtain ⟨x, -, found, -⟩ := paired.row here
        exact .inr ⟨x, Facts.get?_eq_some.1 found⟩
  refine (checkRows_both slots links links').bind fun a b _ _ rows => .pure ?_
  obtain ⟨⟨table, sequence⟩, table', sequence'⟩ := rows
  refine paired.withFacts ?_ sequence.ge ?_ ?_
  · rw [sequence, sequence', paired.sequence]
  · rw [table, table']
    exact same
  · intro k here
    obtain ⟨r, mem, sameId, inScope⟩ := paired.held k here
    by_cases touched : p r
    · exact ⟨f r, by rw [← Facts.mem_table, table]; exact Table.mem_update_of mem touched,
        (keeps r).trans sameId, stays r inScope⟩
    · exact ⟨r, by rw [← Facts.mem_table, table]; exact Table.mem_update_of_not mem touched,
        sameId, inScope⟩

theorem Paired.updateOne (paired : Paired scope bound ids group s t) {p : FactRow → Prop}
    [DecidablePred p] {f : FactRow → FactRow} {missing : Raised}
    {keeps : ∀ r, (f r).factId = r.factId} (listed : ∀ r, p r → r.factId ∈ ids)
    (stays : ∀ r, r.scope = scope → (f r).scope = scope)
    (linked : ∀ r, p r → ∀ k ∈ (f r).supersededBy, k ∈ r.supersededBy ∨ k ∈ ids) :
    Both (Paired scope bound ids group) (Model.updateOne s p f missing keeps)
      (Model.updateOne t p f missing keeps) := by
  obtain ⟨inside, inside'⟩ := paired.inside listed
  have counts : s.facts.table.rowcount p = t.facts.table.rowcount p :=
    SameOn.rowcount_eq paired.facts inside inside'
  refine (paired.updateFacts listed stays linked).bind fun a b _ _ updated => ?_
  exact Both.require (by rw [counts]) fun _ _ => .pure updated

/-! ## Inserting a fact -/

/-- The inserted rows are alike, and the new id is listed. -/
theorem Paired.insert (paired : Paired scope bound ids group s t) {row : FactRow}
    (here : row.scope = scope) (root : row.supersededBy = none) :
    Both (fun a b => Paired scope bound (s.facts.nextId :: ids) group { s with facts := a }
      { t with facts := b }) (s.facts.insert row) (t.facts.insert row) := by
  have sameId : t.facts.nextId = s.facts.nextId := by
    rw [Facts.nextId, Facts.nextId, paired.sequence]
  have same : SameOn (OfScope scope)
      (s.facts.table.insert { row with factId := s.facts.nextId }
        (Facts.nextId_not_mem s.facts _ rfl))
      (t.facts.table.insert { row with factId := t.facts.nextId }
        (Facts.nextId_not_mem t.facts _ rfl)) := by
    intro r inScope
    rw [Table.mem_insert, Table.mem_insert, paired.facts r inScope, sameId]
  have outside : ∀ (facts : Facts) r, r ∈ facts.table.insert { row with factId := facts.nextId }
      (Facts.nextId_not_mem facts _ rfl) → r.scope ≠ scope → r ∈ facts := by
    intro facts r mem other
    rcases Table.mem_insert.1 mem with old | rfl
    · exact old
    · exact absurd here other
  have links : ∀ facts : Facts, Linked (facts.table.insert { row with factId := facts.nextId }
      (Facts.nextId_not_mem facts _ rfl)).rows := by
    intro facts r mem k edge
    rcases Table.mem_insert.1 mem with old | rfl
    · obtain ⟨r', mem', target⟩ := List.mem_map.1 (facts.links r old k edge)
      exact List.mem_map.2 ⟨r', Table.mem_insert.2 (.inl mem'), target⟩
    · rw [root] at edge
      cases edge
  refine (checkRows_both ⟨fun unique => uniqueSlots_of same unique (outside t.facts),
    fun unique => uniqueSlots_of same.symm unique (outside s.facts)⟩ (links s.facts)
    (links t.facts)).mono ?_
  rintro a b ⟨⟨table, sequence⟩, table', sequence'⟩
  refine paired.withFacts ?_ (sequence ▸ Nat.le_succ _) ?_ ?_
  · rw [sequence, sequence', sameId]
  · rw [table, table']
    exact same
  · intro k listed
    rcases List.mem_cons.1 listed with rfl | old
    · refine ⟨{ row with factId := s.facts.nextId }, ?_, rfl, here⟩
      rw [← Facts.mem_table, table]
      exact Table.mem_insert.2 (.inr rfl)
    · obtain ⟨r, mem, sameKey, inScope⟩ := paired.held k old
      refine ⟨r, ?_, sameKey, inScope⟩
      rw [← Facts.mem_table, table]
      exact Table.mem_insert.2 (.inl mem)

theorem Paired.factWriter (paired : Paired scope bound ids group s t) {tick : Tick}
    {request : WriteRequest} (here : request.scope = scope) :
    Both (fun a b => a.2 = b.2 ∧ a.2 = ⟨s.facts.nextId, .inserted, none⟩ ∧
        Paired scope bound (s.facts.nextId :: ids) group a.1 b.1)
      (factWriter s tick request) (factWriter t tick request) := by
  have sameId : t.facts.nextId = s.facts.nextId := by
    rw [Facts.nextId, Facts.nextId, paired.sequence]
  unfold Model.factWriter insertFact
  simp only [required_of request.contentValid, required_of request.categoryValid,
    required_of request.scopeValid, required_of request.sensitivityValid, ok_bind]
  refine Both.bind (R := fun a b => a.2 = s.facts.nextId ∧ b.2 = s.facts.nextId ∧
    Paired scope bound (s.facts.nextId :: ids) group a.1 b.1) ?_ ?_
  · refine Both.require Iff.rfl fun _ _ => Both.require Iff.rfl fun _ _ => ?_
    refine (paired.insert here rfl).bind fun a b _ _ inserted => .pure ⟨rfl, sameId, ?_⟩
    rw [sameId]
    exact inserted.withOthers _ _ _ _ _ _
  · rintro ⟨a, k⟩ ⟨b, k'⟩ - - ⟨rfl, rfl, inserted⟩
    dsimp only at inserted ⊢
    refine Both.bind (R := Paired scope bound (s.facts.nextId :: ids) group) ?_ ?_
    · cases request.correctionStatus with
      | none => exact .ok inserted
      | some status =>
          refine inserted.updateFacts (fun r same => ?_) (fun r inScope => inScope)
            fun r _ k edge => .inl edge
          rw [same]
          exact List.mem_cons_self
    · intro a b _ _ written
      exact .pure ⟨rfl, rfl, written⟩

/-! ## Conflicts -/

/-- Rows whose keys are taken alike are inserted into both tables or refused by both. -/
theorem insertRow_both {K R : Type} {key : R → K} [DecidableEq K] {t u : Table K R key} {r r' : R}
    {columns : String} (iff : (∃ x ∈ t, key x = key r) ↔ ∃ x ∈ u, key x = key r') :
    Both (fun a b => t.insert? r = some a ∧ u.insert? r' = some b) (insertRow t r columns)
      (insertRow u r' columns) := by
  have some? := SameOn.insert?_isSome iff
  unfold insertRow
  cases inserted : t.insert? r with
  | none =>
      cases inserted' : u.insert? r' with
      | none => exact .error _
      | some b => simp [inserted, inserted'] at some?
  | some a =>
      cases inserted' : u.insert? r' with
      | none => simp [inserted, inserted'] at some?
      | some b => exact .ok ⟨rfl, rfl⟩

/-- A listed fact joins a conflict of the scope; `q` is where the members are compared. -/
theorem Paired.insertMember (paired : Paired scope bound ids group s t) {g : String} {k : Nat}
    {q : MemberRow → Prop} (known : ∃ c ∈ s.conflicts, c.conflictId = g ∧ c.scope = scope)
    (listed : k ∈ ids) (same : SameOn q s.conflictMembers t.conflictMembers)
    (compared : ∀ m : MemberRow, m.conflictId = g → m.factId = k → q m) :
    Both (fun a b => Paired scope bound ids group a b ∧ a.conflicts = s.conflicts ∧
        SameOn q a.conflictMembers b.conflictMembers)
      (insertMember s g k) (insertMember t g k) := by
  obtain ⟨c, mem, rfl, inScope⟩ := known
  obtain ⟨r, found, found', -⟩ := paired.row listed
  have conflict := Table.get?_eq_some.2 ⟨mem, rfl⟩
  have conflict' := paired.conflicts.get?_of conflict inScope
  refine Both.require (by simp [conflict, conflict', found, found']) fun _ _ => ?_
  have taken : (∃ m ∈ s.conflictMembers, (m.conflictId, m.factId) = (c.conflictId, k)) ↔
      ∃ m ∈ t.conflictMembers, (m.conflictId, m.factId) = (c.conflictId, k) := by
    constructor
    · rintro ⟨m, memM, key⟩
      obtain ⟨first, second⟩ := Prod.mk.inj key
      exact ⟨m, (same m (compared m first second)).1 memM, key⟩
    · rintro ⟨m, memM, key⟩
      obtain ⟨first, second⟩ := Prod.mk.inj key
      exact ⟨m, (same m (compared m first second)).2 memM, key⟩
  refine (insertRow_both taken).bind fun a b _ _ inserted => .pure ⟨?_, rfl, ?_⟩
  · exact
      { clients := paired.clients, sessions := paired.sessions, writeLog := paired.writeLog
        observations := paired.observations, sequence := paired.sequence, facts := paired.facts
        conflicts := paired.conflicts, below := paired.below, held := paired.held
        group := paired.group
        members := paired.members.insert? inserted.1 inserted.2 }
  · exact same.insert? inserted.1 inserted.2

/-- The first members of a new conflict. -/
theorem Paired.insertMembers {g : String} (members : List Nat) (listed : ∀ k ∈ members, k ∈ ids) :
    ∀ {s t : Store}, Paired scope bound ids group s t →
      (∃ c ∈ s.conflicts, c.conflictId = g ∧ c.scope = scope) →
      SameOn (fun m : MemberRow => m.conflictId = g) s.conflictMembers t.conflictMembers →
      Both (fun a b => Paired scope bound ids group a b ∧ a.conflicts = s.conflicts)
        (members.foldlM (fun s k => Model.insertMember s g k) s)
        (members.foldlM (fun s k => Model.insertMember s g k) t) := by
  induction members with
  | nil =>
      intro s t paired _ _
      exact .pure ⟨paired, rfl⟩
  | cons k members ih =>
      intro s t paired known same
      rw [List.foldlM_cons, List.foldlM_cons]
      refine (paired.insertMember known (listed k List.mem_cons_self) same
        fun m here _ => here).bind ?_
      rintro a b - - ⟨paired', conflicts, same'⟩
      rw [← conflicts] at known ⊢
      exact ih (fun k' mem => listed k' (List.mem_cons_of_mem _ mem)) paired' known same'

/-- A conflict is opened over listed facts of the scope. -/
theorem Paired.openStateConflict (paired : Paired scope bound ids group s t)
    (members : MembersKnown s) (members' : MembersKnown t) {conflictId : Uuid}
    {subjectKey predicateKey : String} {existing : List Nat} {detectedAt : String} {detail : Json}
    (taken : (∃ c ∈ s.conflicts, c.conflictId = conflictId.text) ↔
      ∃ c ∈ t.conflicts, c.conflictId = conflictId.text)
    (valid : Required scope) (listed : ∀ k ∈ existing, k ∈ ids) :
    Both (fun a b => a.2 = b.2 ∧ Paired scope bound ids (some a.2.conflictId) a.1 b.1)
      (openStateConflict s conflictId subjectKey predicateKey existing scope detectedAt detail)
      (openStateConflict t conflictId subjectKey predicateKey existing scope detectedAt detail) := by
  unfold Model.openStateConflict
  refine Both.bind_same fun subject _ => Both.bind_same fun predicate _ => ?_
  rw [required_of valid]
  simp only [ok_bind]
  refine Both.require Iff.rfl fun _ _ => Both.require Iff.rfl fun _ _ => ?_
  refine Both.bind_same fun detail _ => Both.bind_same fun _ _ => ?_
  have found := SameOn.select_perm (q := fun r : FactRow =>
    r.factId ∈ existing ∧ r.Indexed ⟨scope, subject, predicate⟩) paired.facts
    (fun r _ holds => holds.2.1.2.1) fun r _ holds => holds.2.1.2.1
  have foundIds : ∀ k, k ∈ (s.facts.table.select _).map FactRow.factId ↔
      k ∈ (t.facts.table.select _).map FactRow.factId :=
    fun k => (found.map FactRow.factId).mem_iff
  refine Both.require (by simp only [foundIds]) fun _ _ => ?_
  refine (insertRow_both taken).bind ?_
  rintro conflicts conflicts' - - ⟨inserted, inserted'⟩
  have opened : Paired scope bound ids (some conflictId.text) { s with conflicts }
      { t with conflicts := conflicts' } :=
    { clients := paired.clients, sessions := paired.sessions, writeLog := paired.writeLog
      observations := paired.observations, sequence := paired.sequence, facts := paired.facts
      conflicts := paired.conflicts.insert? inserted inserted'
      below := paired.below, held := paired.held, members := paired.members
      group := by
        intro g here
        cases here
        exact ⟨_, (Table.mem_of_insert? inserted).2 (.inr rfl), rfl, rfl⟩ }
  refine Both.bind (opened.updateFacts (fun r here => listed _ here) (fun r inScope => inScope)
    fun r _ k edge => .inl edge) ?_
  intro a b updated updated' marked
  have frame := (updateFacts_eq_ok updated).1
  have frame' := (updateFacts_eq_ok updated').1
  have fresh : ∀ m ∈ s.conflictMembers, m.conflictId ≠ conflictId.text := by
    intro m mem same
    obtain ⟨⟨c, memC, sameC⟩, -⟩ := members m mem
    exact Table.fresh_of_insert? inserted memC (sameC.trans same)
  have fresh' : ∀ m ∈ t.conflictMembers, m.conflictId ≠ conflictId.text := by
    intro m mem same
    obtain ⟨⟨c, memC, sameC⟩, -⟩ := members' m mem
    exact Table.fresh_of_insert? inserted' memC (sameC.trans same)
  have none : SameOn (fun m : MemberRow => m.conflictId = conflictId.text) a.conflictMembers
      b.conflictMembers := by
    intro m here
    rw [frame, frame']
    exact ⟨fun mem => absurd here (fresh m mem), fun mem => absurd here (fresh' m mem)⟩
  refine (Paired.insertMembers existing listed marked (marked.group _ rfl) none).bind ?_
  rintro a b - - ⟨joined, -⟩
  exact .pure ⟨rfl, joined⟩

end Statements

end Enfold.Laws
