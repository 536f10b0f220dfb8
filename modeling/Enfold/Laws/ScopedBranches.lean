/-
# Laws.ScopedBranches -- the branches of a write on two alike stores

Each branch of a write, and everything after it, answers alike on stores that agree on the
scope.  The routines are followed in the order of `Model.WriteService`; every fact they
touch was found by a lookup in the scope, or was just inserted into it.
-/
import Enfold.Laws.ScopedSteps

namespace Enfold.Laws

open Enfold.Theory Enfold.Model

set_option autoImplicit false

/-! ## Typed branches -/

section Branches

variable {scope : String} {bound : Nat} {ids : List Nat} {group : Option String} {s t : Store}
  {tick : Tick} {request : WriteRequest} {candidate : StateCandidate} {d : SlotDecision}

/-- The rows with listed ids are in the same groups in both stores. -/
theorem Paired.groups_eq (paired : Paired scope bound ids group s t) {existing : List Nat}
    (listed : ∀ k ∈ existing, k ∈ ids) :
    ((s.facts.table.select fun r => r.factId ∈ existing).filterMap FactRow.conflictGroup).Perm
      ((t.facts.table.select fun r => r.factId ∈ existing).filterMap FactRow.conflictGroup) := by
  obtain ⟨inside, inside'⟩ := paired.inside (p := fun r => r.factId ∈ existing)
    fun r here => listed _ here
  exact (SameOn.select_perm paired.facts inside inside').filterMap _

/-- Their groups are conflicts of the scope. -/
theorem Paired.groups_known (paired : Paired scope bound ids group s t) {existing : List Nat}
    (listed : ∀ k ∈ existing, k ∈ ids) (grouped : Grouped s) :
    ∀ g ∈ (s.facts.table.select fun r => r.factId ∈ existing).filterMap FactRow.conflictGroup,
      ∃ c ∈ s.conflicts, c.conflictId = g ∧ c.scope = scope := by
  intro g mem
  obtain ⟨r, selected, inGroup⟩ := List.mem_filterMap.1 mem
  obtain ⟨memR, named⟩ := Table.mem_select.1 selected
  obtain ⟨c, memC, same, inScope⟩ := grouped r memR g inGroup
  refine ⟨c, memC, same, inScope.trans ?_⟩
  exact (paired.inside (p := fun r => r.factId ∈ existing) fun r here => listed _ here).1 r memR
    named

theorem Paired.prepareConflict (paired : Paired scope bound ids none s t)
    (members : MembersKnown s) (members' : MembersKnown t) (grouped : Grouped s)
    (taken : (∃ c ∈ s.conflicts, c.conflictId = tick.conflictId.text) ↔
      ∃ c ∈ t.conflicts, c.conflictId = tick.conflictId.text)
    (valid : Required scope) (action : d.action = .conflict) (here : d.scope = scope)
    (listed : ∀ k ∈ d.currentFactIds, k ∈ ids) :
    Both (fun a b => a.2 = b.2 ∧ Paired scope bound ids a.2 a.1 b.1)
      (prepareStateMutation s tick d) (prepareStateMutation t tick d) := by
  have dedup := (paired.groups_eq listed).dedup
  have known := paired.groups_known listed grouped
  simp only [prepareStateMutation, action]
  split
  · rename_i g single
    rw [single] at dedup
    rw [← List.singleton_perm.1 dedup]
    refine .pure ⟨rfl, paired.withGroup fun g' same => ?_⟩
    cases same
    exact known g (List.mem_dedup.1 (single ▸ List.mem_singleton.2 rfl))
  · rename_i g g' rest several
    rw [several] at dedup
    split
    · rename_i g'' single
      rw [single] at dedup
      exact absurd dedup.length_eq (by simp)
    · exact .error _
    · rename_i empty
      rw [empty] at dedup
      exact absurd dedup.length_eq (by simp)
  · rename_i empty
    rw [empty] at dedup
    rw [List.nil_perm.1 dedup, here]
    refine (paired.openStateConflict members members' taken valid listed).bind ?_
    rintro ⟨a, record⟩ ⟨b, record'⟩ - - ⟨rfl, opened⟩
    exact .pure ⟨rfl, opened⟩

theorem Paired.prepareSupersede (paired : Paired scope bound ids none s t)
    (action : d.action = .supersede) (target : ∀ k ∈ d.targetFactId, k ∈ ids) :
    Both (fun a b => a.2 = b.2 ∧ Paired scope bound ids a.2 a.1 b.1)
      (prepareStateMutation s tick d) (prepareStateMutation t tick d) := by
  simp only [prepareStateMutation, action]
  cases found : d.targetFactId with
  | none => exact .error _
  | some k =>
      refine Both.bind (R := Paired scope bound ids none) ?_ fun a b _ _ updated =>
        .pure ⟨rfl, updated⟩
      refine paired.updateOne (fun r holds => ?_) (fun r inScope => inScope)
        fun r _ k edge => .inl edge
      rw [holds.1]
      exact target k found

theorem Paired.prepareStateMutation (paired : Paired scope bound ids none s t)
    (members : MembersKnown s) (members' : MembersKnown t) (grouped : Grouped s)
    (taken : (∃ c ∈ s.conflicts, c.conflictId = tick.conflictId.text) ↔
      ∃ c ∈ t.conflicts, c.conflictId = tick.conflictId.text)
    (valid : Required scope) (here : d.scope = scope)
    (listed : d.action = .conflict → ∀ k ∈ d.currentFactIds, k ∈ ids)
    (target : d.action ≠ .add → ∀ k ∈ d.targetFactId, k ∈ ids) :
    Both (fun a b => a.2 = b.2 ∧ Paired scope bound ids a.2 a.1 b.1)
      (prepareStateMutation s tick d) (prepareStateMutation t tick d) := by
  cases action : d.action with
  | add =>
      simp only [Model.prepareStateMutation, action]
      exact .pure ⟨rfl, paired⟩
  | dedup =>
      simp only [Model.prepareStateMutation, action]
      exact .pure ⟨rfl, paired⟩
  | supersede => exact paired.prepareSupersede action (target (by simp [action]))
  | conflict =>
      exact paired.prepareConflict members members' grouped taken valid action here (listed action)

theorem Paired.persistStateCandidate (paired : Paired scope bound ids group s t)
    {result : FactWriteResult} {g : Option String} (listed : result.factId ∈ ids)
    (here : candidate.scope = scope) :
    Both (Paired scope bound ids group) (persistStateCandidate s result candidate g)
      (persistStateCandidate t result candidate g) := by
  refine Both.require Iff.rfl fun _ _ => ?_
  refine paired.updateOne (fun r holds => ?_) (fun r _ => here) fun r _ k edge => .inl edge
  rw [holds.1]
  exact listed

theorem Paired.addConflictMember {g : String} (paired : Paired scope bound ids (some g) s t) {k : Nat}
    (listed : k ∈ ids) (new : bound < k) :
    Both (Paired scope bound ids (some g)) (addConflictMember s g k)
      (addConflictMember t g k) := by
  obtain ⟨c, mem, rfl, inScope⟩ := paired.group g rfl
  have conflict := Table.get?_eq_some.2 ⟨mem, rfl⟩
  have conflict' := paired.conflicts.get?_of conflict inScope
  obtain ⟨r, found, found', -⟩ := paired.row listed
  simp only [Model.addConflictMember, conflict, conflict', found, found']
  refine Both.require Iff.rfl fun _ _ => Both.require Iff.rfl fun _ _ =>
    Both.require Iff.rfl fun _ _ => ?_
  refine (paired.insertMember ⟨c, mem, rfl, inScope⟩ listed paired.members ?_).mono
    fun a b joined => joined.1
  rintro m - rfl
  exact new

theorem Paired.settleState (paired : Paired scope bound ids group s t) {k : Nat}
    (listed : k ∈ ids) (new : bound < k) (target : d.action ≠ .add → ∀ k ∈ d.targetFactId, k ∈ ids) :
    Both (Paired scope bound ids group) (settleState s d group k) (settleState t d group k) := by
  unfold Model.settleState
  cases action : d.action with
  | add => exact .ok paired
  | dedup => exact .ok paired
  | supersede =>
      cases found : d.targetFactId with
      | none => exact .error _
      | some old =>
          refine paired.updateOne (fun r holds => ?_) (fun r inScope => inScope)
            fun r _ k' edge => ?_
          · rw [holds.1]
            exact target (by simp [action]) old found
          · cases edge
            exact .inr listed
  | conflict =>
      cases group with
      | none => exact .error _
      | some g => exact paired.addConflictMember listed new

/-- The branches leave the same result over alike stores. -/
structure SameApplied (scope : String) (bound : Nat) (a b : Applied) : Prop where
  result : a.result = b.result
  conflictId : a.conflictId = b.conflictId
  enqueue : a.enqueue = b.enqueue
  stores : Paired scope bound
    (a.result.factId :: a.result.existingFactId.toList ++ a.enqueue.toList) none a.store b.store

theorem Paired.insertState (paired : Paired scope bound ids none s t)
    (members : MembersKnown s) (members' : MembersKnown t) (grouped : Grouped s)
    (taken : (∃ c ∈ s.conflicts, c.conflictId = tick.conflictId.text) ↔
      ∃ c ∈ t.conflicts, c.conflictId = tick.conflictId.text)
    (valid : Required scope) (request' : request.scope = scope) (typed : candidate.scope = scope)
    (here : d.scope = scope) (listed : d.action = .conflict → ∀ k ∈ d.currentFactIds, k ∈ ids)
    (target : d.action ≠ .add → ∀ k ∈ d.targetFactId, k ∈ ids) :
    Both (SameApplied scope bound) (insertState s tick request candidate d)
      (insertState t tick request candidate d) := by
  refine (paired.prepareStateMutation members members' grouped taken valid here listed
    target).bind ?_
  rintro ⟨a, g⟩ ⟨b, g'⟩ prepared - ⟨same, room⟩
  cases same
  dsimp only at room ⊢
  refine (room.factWriter request').bind ?_
  rintro ⟨a', inserted⟩ ⟨b', inserted'⟩ - - ⟨same, result, wrote⟩
  cases same
  dsimp only at result wrote ⊢
  have listed' : inserted.factId ∈ a.facts.nextId :: ids := by
    rw [result]
    exact List.mem_cons_self
  have new : bound < inserted.factId := by
    rw [result]
    exact Nat.lt_succ_of_le room.below
  refine (wrote.persistStateCandidate listed' typed).bind fun a b _ _ persisted => ?_
  refine (persisted.settleState listed' new fun action k named =>
    List.mem_cons_of_mem _ (target action k named)).bind fun a b _ _ settled => .pure ?_
  refine ⟨rfl, rfl, rfl, (settled.withGroup (by simp)).withIds fun k mem => ?_⟩
  have same : k = inserted.factId := by simpa [result] using mem
  rw [same]
  exact settled.held _ listed'

/-- A decision that is not to insert repeats a listed fact. -/
theorem Paired.applyState (paired : Paired scope bound ids none s t)
    (members : MembersKnown s) (members' : MembersKnown t) (grouped : Grouped s)
    (taken : (∃ c ∈ s.conflicts, c.conflictId = tick.conflictId.text) ↔
      ∃ c ∈ t.conflicts, c.conflictId = tick.conflictId.text)
    (valid : Required scope) (request' : request.scope = scope) (typed : candidate.scope = scope)
    (here : d.scope = scope)
    (listed : d.action = .conflict → d.targetFactId = none → ∀ k ∈ d.currentFactIds, k ∈ ids)
    (target : d.action ≠ .add → ∀ k ∈ d.targetFactId, k ∈ ids) :
    Both (SameApplied scope bound) (applyState s tick request candidate d)
      (applyState t tick request candidate d) := by
  have repeated : d.action ≠ .add → ∀ k, d.targetFactId = some k →
      Paired scope bound [k, k] none s t := by
    intro action k named
    refine paired.withIds fun k' mem => ?_
    have same : k' = k := by simpa using mem
    rw [same]
    exact paired.held k (target action k named)
  unfold Model.applyState
  split
  · rename_i k action named
    exact .ok ⟨rfl, rfl, rfl, repeated (by simp [action]) k named⟩
  · rename_i k action named
    refine .ok ⟨rfl, ?_, rfl, repeated (by simp [action]) k named⟩
    obtain ⟨r, found, found', -⟩ := paired.row (target (by simp [action]) k named)
    simp only [groupOf, found, found']
  · rename_i notDedup notRepeated
    refine paired.insertState members members' grouped taken valid request' typed here
      (fun action => listed action ?_) target
    cases named : d.targetFactId with
    | none => rfl
    | some k => exact (notRepeated k action named).elim

/-! ## Untyped branches -/

theorem Alike.findUntypedExactDuplicate_eq (alike : Alike scope s t) (here : request.scope = scope) :
    findUntypedExactDuplicate s request = findUntypedExactDuplicate t request := by
  unfold findUntypedExactDuplicate
  rw [alike.orderById_eq fun r holds => holds.1.trans here]

theorem Paired.applyUntyped (paired : Paired scope bound ids none s t)
    (here : request.scope = scope) :
    Both (SameApplied scope bound)
      (applyUntyped s tick request (findUntypedExactDuplicate s request) none)
      (applyUntyped t tick request (findUntypedExactDuplicate t request) none) := by
  rw [← paired.toAlike.findUntypedExactDuplicate_eq here]
  unfold Model.applyUntyped
  split
  · rename_i k found
    obtain ⟨r, mem, same, inScope, -⟩ := findUntypedExactDuplicate_eq_some found
    refine .ok ⟨rfl, rfl, rfl, paired.withIds fun k' listed => ?_⟩
    have same' : k' = k := by simpa using listed
    rw [same']
    exact ⟨r, mem, same, inScope.trans here⟩
  · refine (paired.factWriter here).bind ?_
    rintro ⟨a, inserted⟩ ⟨b, inserted'⟩ - - ⟨same, result, wrote⟩
    cases same
    dsimp only at result wrote
    subst result
    refine .pure ⟨rfl, rfl, rfl, wrote.withIds fun k mem => ?_⟩
    have same : k = s.facts.nextId := by simpa using mem
    rw [same]
    exact wrote.held _ List.mem_cons_self

/-! ## Finishing -/

/-- The outbox takes a fact that is there. -/
theorem enqueueInTransaction_ok {host : Host} {spec : EmbeddingSpec} {now : String} {k : Nat}
    {r : FactRow} (found : s.facts.get? k = some r) :
    ∃ jobs, enqueueInTransaction host spec now s k = .ok { s with embeddingJobs := jobs } := by
  simp only [enqueueInTransaction, found]
  split
  · exact ⟨_, rfl⟩
  · exact ⟨_, rfl⟩

theorem Paired.enqueueEmbedding (paired : Paired scope bound ids group s t) {host : Host}
    {service : MemoryWriteService} {now : String} {k : Option Nat} (listed : ∀ k' ∈ k, k' ∈ ids) :
    Both (Paired scope bound ids group) (enqueueEmbedding host service now s k)
      (enqueueEmbedding host service now t k) := by
  unfold Model.enqueueEmbedding
  split
  · rename_i k spec outbox
    obtain ⟨r, found, found', -⟩ := paired.row (listed k rfl)
    obtain ⟨jobs, queued⟩ := enqueueInTransaction_ok found
    obtain ⟨jobs', queued'⟩ := enqueueInTransaction_ok found'
    rw [queued, queued']
    exact .ok (paired.withOthers _ _ _ _ _ _)
  · exact .ok paired

theorem Paired.authorizeFactScope (paired : Paired scope bound ids group s t) {k : Nat}
    {requested : String} (listed : k ∈ ids) :
    Both Eq (authorizeFactScope s k requested) (authorizeFactScope t k requested) := by
  obtain ⟨r, found, found', -⟩ := paired.row listed
  refine .of_eq ?_
  simp only [Model.authorizeFactScope, found, found']

theorem Paired.attachProvenance (paired : Paired scope bound ids group s t) {k o : Nat}
    {now : String} (listed : k ∈ ids) :
    Both (Paired scope bound ids group) (attachProvenance s k o request now)
      (attachProvenance t k o request now) := by
  obtain ⟨r, found, found', -⟩ := paired.row listed
  have observed := paired.observations.get?_eq o
  refine Both.require (by rw [found, found', observed]) fun _ _ => ?_
  exact .pure (paired.withOthers _ _ _ _ _ _)

theorem Paired.supersedeIfRequested (paired : Paired scope bound ids group s t) {old : Option Nat}
    {k : Nat} {now : String} (listed : k ∈ ids) :
    Both (fun a b => a.2 = b.2 ∧ Paired scope bound ids group a.1 b.1)
      (supersedeIfRequested s old k now) (supersedeIfRequested t old k now) := by
  cases old with
  | none => exact .pure ⟨rfl, paired⟩
  | some old =>
      obtain ⟨r, found, found', inScope⟩ := paired.row listed
      have lookup : ((s.facts.get? old).filter fun r' => r'.scope = r.scope) =
          (t.facts.get? old).filter fun r' => r'.scope = r.scope := by
        rw [inScope]
        exact SameOn.get?_filter paired.facts old
      refine Both.require Iff.rfl fun _ _ => ?_
      simp only [found, found', lookup]
      cases target : (t.facts.get? old).filter fun r' => r'.scope = r.scope with
      | none => exact .error _
      | some row =>
          have held : Paired scope bound (old :: ids) group s t := by
            refine paired.withIds fun k' mem => ?_
            rcases List.mem_cons.1 mem with rfl | mem
            · obtain ⟨foundOld, there⟩ := Option.filter_eq_some_iff.1 (lookup.trans target)
              obtain ⟨memOld, same⟩ := Facts.get?_eq_some.1 foundOld
              exact ⟨row, memOld, same, (of_decide_eq_true there).trans inScope⟩
            · exact paired.held k' mem
          refine Both.require Iff.rfl fun _ _ => ?_
          refine Both.bind (R := Paired scope bound (old :: ids) group) ?_
            fun a b _ _ updated => .pure ⟨rfl, updated.withIds fun k' mem =>
              updated.held k' (List.mem_cons_of_mem _ mem)⟩
          refine held.updateOne (fun r' holds => ?_) (fun r' inScope => inScope)
            fun r' _ k' edge => ?_
          · rw [holds.1]
            exact List.mem_cons_self
          · cases edge
            exact .inr (List.mem_cons_of_mem _ listed)

/-- A log row about listed facts is appended to both logs or to neither. -/
theorem Paired.appendLog (paired : Paired scope bound ids group s t) {row : WriteLogRow}
    (fact : ∀ k ∈ row.factId, k ∈ ids) (existing : ∀ k ∈ row.existingFactId, k ∈ ids) :
    Both (Alike scope) (appendLog s row) (appendLog t row) := by
  have exist : ∀ k : Option Nat, (∀ k' ∈ k, k' ∈ ids) → factExists s k ∧ factExists t k := by
    intro k listed
    constructor
    · intro k' named
      obtain ⟨r, found, -, -⟩ := paired.row (listed k' named)
      simp [found]
    · intro k' named
      obtain ⟨r, -, found, -⟩ := paired.row (listed k' named)
      simp [found]
  have ids : (∀ old ∈ s.writeLog.rows, old.writeId ≠ row.writeId) ↔
      ∀ old ∈ t.writeLog.rows, old.writeId ≠ row.writeId := by
    constructor
    · exact fun new old mem => new old (paired.writeLog.rows.2 mem)
    · exact fun new old mem => new old (paired.writeLog.rows.1 mem)
  have keys : (∃ old ∈ s.writeLog, (old.clientId, old.idempotencyKey) =
      (row.clientId, row.idempotencyKey)) ↔
      ∃ old ∈ t.writeLog, (old.clientId, old.idempotencyKey) = (row.clientId, row.idempotencyKey) := by
    simp only [paired.writeLog.rows]
  refine Both.require ids fun _ _ => Both.require ?_ fun _ _ => ?_
  · simp only [paired.clients.get?_eq, paired.observations.get?_eq, exist _ fact, exist _ existing]
  · refine (insertRow_both keys).bind fun a b _ _ inserted => .pure ?_
    exact { paired.toAlike with writeLog := paired.writeLog.insert? inserted.1 inserted.2 }

/-- The rest of a write after its branch. -/
theorem SameApplied.finish {a b : Applied} (same : SameApplied scope bound a b) {host : Host}
    {service : MemoryWriteService} {context : ConnectionContext} {requestHash : String}
    {observationId : Nat} {near : Option NearDuplicateCandidate} {state : Option SlotDecision} :
    Both (fun x y => x.2 = y.2 ∧ Alike scope x.1 y.1)
      (finish host service tick context request requestHash observationId near state a)
      (finish host service tick context request requestHash observationId near state b) := by
  obtain ⟨store, result, conflictId, enqueue⟩ := a
  obtain ⟨store', result', conflictId', enqueue'⟩ := b
  obtain ⟨rfl, rfl, rfl, stores⟩ := same
  dsimp only at stores
  refine Both.bind (stores.enqueueEmbedding fun k mem => ?_) fun a b _ _ queued => ?_
  · exact List.mem_append_right _ (Option.mem_toList.2 mem)
  refine (queued.authorizeFactScope List.mem_cons_self).bind fun _ _ _ _ _ => ?_
  refine (queued.attachProvenance List.mem_cons_self).bind fun a b _ _ linked => ?_
  refine (linked.supersedeIfRequested List.mem_cons_self).bind ?_
  rintro ⟨a, superseded⟩ ⟨b, superseded'⟩ - - ⟨rfl, settled⟩
  refine (settled.appendLog ?_ ?_).bind fun a b _ _ logged => ?_
  · intro k named
    cases named
    exact List.mem_cons_self
  · intro k named
    exact List.mem_append_left _ (List.mem_cons_of_mem _ (Option.mem_toList.2 named))
  · exact Both.bind_same fun outcome _ => .pure ⟨rfl, logged⟩

end Branches

end Enfold.Laws
