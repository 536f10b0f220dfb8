/-
# Laws.JobCoverage -- every active fact has a vector or a job on its way

With one outbox configured, no interleaving of writes, resolutions, backfills and workers leaves
an active fact without a vector and without an open job (`active_covered`): a job is completed
only when, at that moment, its fact is not active or its vector is stored.  An erasure can: it
makes the last member of a conflict active without enqueueing it, so what it leaves is covered
exactly when that member was (`erase_servable_iff`).
-/
import Enfold.Laws.JobMachine

namespace Enfold.Laws.EmbeddingSystem

open Enfold.Theory Enfold.Model Enfold.Model.EmbeddingSystem
open Enfold.Model.EmbeddingJobProcessor (activeContent)

set_option autoImplicit false

/-! ## Coverage -/

/-- The fact has its vector, or a job that is not completed. -/
def Covered (spec : EmbeddingSpec) (s : Store) (factId : Nat) : Prop :=
  HasVector s spec factId ∨ ∃ j ∈ s.embeddingJobs, j.factId = factId ∧
    j.documentIdentity = spec.documentIdentity ∧
    (j.status = .pending ∨ j.status = .processing ∨ j.status = .deadLetter)

theorem open_of_not_completed {j : JobRow} (opened : j.status ≠ .completed) :
    j.status = .pending ∨ j.status = .processing ∨ j.status = .deadLetter := by
  cases status : j.status with
  | pending => exact .inl rfl
  | processing => exact .inr (.inl rfl)
  | deadLetter => exact .inr (.inr rfl)
  | completed => exact absurd status opened

theorem not_completed_of_open {j : JobRow}
    (opened : j.status = .pending ∨ j.status = .processing ∨ j.status = .deadLetter) :
    j.status ≠ .completed := by
  rcases opened with status | status | status
  · rw [status]
    simp
  · rw [status]
    simp
  · rw [status]
    simp

/-- Edits keep a fact covered when they complete a job only with its vector stored, or when its
fact is not active. -/
theorem covered_of_edits {spec : EmbeddingSpec} {Move : JobRow → JobRow → Prop} {s s' : Store}
    (edits : JobEdits Move s.embeddingJobs s'.embeddingJobs)
    (vectors : ∀ other, HasVector s spec other → HasVector s' spec other)
    (completes : ∀ j j', Move j j' → j'.status = .completed →
      (∀ r ∈ s.facts, r.factId = j.factId → ¬ r.Active) ∨ HasVector s' spec j.factId)
    {r : FactRow} (mem : r ∈ s.facts) (active : r.Active) (covered : Covered spec s r.factId) :
    Covered spec s' r.factId := by
  rcases covered with stored | ⟨j, memJ, about, identity, opened⟩
  · exact .inl (vectors _ stored)
  · obtain ⟨j', mem', same, -, kept⟩ := edits.kept
      (R := fun j j' => j'.factId = j.factId ∧ (j.status ≠ .completed → j'.status ≠ .completed ∨
        (∀ r ∈ s.facts, r.factId = j.factId → ¬ r.Active) ∨ HasVector s' spec j.factId))
      (fun _ => ⟨rfl, .inl⟩) (by
        rintro j₀ j j' ⟨sameFact, soFar⟩ same moved
        refine ⟨same.factId.trans sameFact, fun opened => ?_⟩
        rcases soFar opened with still | done
        · by_cases completed : j'.status = .completed
          · right
            rw [← sameFact]
            exact completes j j' moved completed
          · exact .inl completed
        · exact .inr done) memJ
    rcases kept (not_completed_of_open opened) with still | inactive | stored
    · exact .inr ⟨j', mem', same.factId.trans about, same.identity.trans identity,
        open_of_not_completed still⟩
    · exact absurd active (inactive r mem about.symm)
    · exact .inl (about ▸ stored)

/-- Enqueueing completes nothing. -/
theorem restarts_completes_nothing {j j' : JobRow} (restarts : Restarts j j') :
    j'.status ≠ .completed := by
  rw [restarts.starts.pending]
  simp

theorem claims_completes_nothing {maxAttempts : Nat} {token : String} {j j' : JobRow}
    (claims : Claims maxAttempts token j j') : j'.status ≠ .completed := by
  rcases claims with buries | leases
  · rw [buries.buried]
    simp
  · rw [leases.processing]
    simp

/-- A call that enqueues the only fact it makes active keeps every active fact covered. -/
theorem covered_of_enqueues {host : Host} {service : MemoryWriteService} {spec : EmbeddingSpec}
    {s s' : Store} (enqueues : Enqueues host service s s') (outbox : service.outbox = some spec)
    (covered : ∀ r ∈ s.facts, r.Active → Covered spec s r.factId) :
    ∀ r ∈ s'.facts, r.Active → Covered spec s' r.factId := by
  have vectors : ∀ other, HasVector s spec other → HasVector s' spec other := by
    intro other stored
    rw [HasVector, enqueues.vectors]
    exact stored
  intro r mem active
  obtain ⟨middle, next, now, factId, -, sameVectors, enqueued, jobs, fresh⟩ := enqueues.enqueued
  rcases fresh r mem active with old | rfl
  · exact covered_of_edits enqueues.edits vectors
      (fun j j' moved completed => absurd completed (restarts_completes_nothing moved))
      old active (covered r old active)
  · unfold enqueueEmbedding at enqueued
    rw [outbox] at enqueued
    obtain ⟨-, -, stored | ⟨j, memJ, about, identity, opened⟩⟩ :=
      enqueueInTransaction_eq_ok enqueued
    · refine .inl (vectors _ ?_)
      rw [HasVector, ← sameVectors]
      exact stored
    · exact .inr ⟨j, jobs ▸ memJ, about, identity, open_of_not_completed opened⟩

/-! ## The invariant -/

/-- The calls of a service whose outbox is the one the workers serve. -/
def Configured (setting : Setting) : Action → State → Prop
  | .call (.write call), _ => call.service.outbox = some setting.spec
  | .call (.resolveConflict service _ _ _ _ _), _ => service.outbox = some setting.spec
  | .call _, _ => False
  | _, _ => True

structure CoverageInvariant (setting : Setting) (state : State) : Prop where
  distinct : JobsDistinct state.store.embeddingJobs
  covered : ∀ r ∈ state.store.facts, r.Active → Covered setting.spec state.store r.factId
  /-- The job of every claim is there, and is about the fact of the claim. -/
  claims : ∀ worker phase, state.workers worker = some phase →
    ∃ j ∈ state.store.embeddingJobs, j.jobId = phase.job.jobId ∧ j.factId = phase.job.factId

/-- A held job is about the fact of the claim that holds it. -/
theorem CoverageInvariant.fact_of_held {setting : Setting} {state : State}
    (invariant : CoverageInvariant setting state) {worker : Nat} {phase : Phase}
    (here : state.workers worker = some phase) {j : JobRow} (mem : j ∈ state.store.embeddingJobs)
    (held : j.HeldFor phase.job) : j.factId = phase.job.factId := by
  obtain ⟨j', mem', id, about⟩ := invariant.claims worker phase here
  rw [invariant.distinct.eq_of_id mem mem' (held.1.trans id.symm)]
  exact about

/-- Edits that complete nothing, with facts and vectors left alone. -/
theorem covered_of_frame {spec : EmbeddingSpec} {Move : JobRow → JobRow → Prop} {s s' : Store}
    (frame : s' = { s with embeddingJobs := s'.embeddingJobs })
    (edits : JobEdits Move s.embeddingJobs s'.embeddingJobs)
    (completes : ∀ j j', Move j j' → j'.status = .completed →
      ∀ r ∈ s.facts, r.factId = j.factId → ¬ r.Active)
    (covered : ∀ r ∈ s.facts, r.Active → Covered spec s r.factId) :
    ∀ r ∈ s'.facts, r.Active → Covered spec s' r.factId := by
  intro r mem active
  rw [show s'.facts = s.facts by rw [frame]] at mem
  refine covered_of_edits edits (fun other stored => ?_)
    (fun j j' moved completed => .inl (completes j j' moved completed)) mem active
    (covered r mem active)
  rw [HasVector, show s'.factEmbeddings = s.factEmbeddings by rw [frame]]
  exact stored

theorem advance_covers {setting : Setting} {action : Action} {state : State}
    (configured : Configured setting action state)
    (invariant : CoverageInvariant setting state) :
    ∀ r ∈ (advance setting action state).store.facts, r.Active →
      Covered setting.spec (advance setting action state).store r.factId := by
  cases action with
  | call op =>
      cases op with
      | write call =>
          exact commit_induction
            (P := fun t : Store => ∀ r ∈ t.facts, r.Active → Covered setting.spec t r.factId)
            invariant.covered fun s' o done =>
              covered_of_enqueues (write_enqueues done) configured invariant.covered
      | resolveConflict service resolvedAt context conflictId winner reason =>
          exact commit_induction
            (P := fun t : Store => ∀ r ∈ t.facts, r.Active → Covered setting.spec t r.factId)
            invariant.covered fun s' o done =>
              covered_of_enqueues (resolveConflict_enqueues done) configured invariant.covered
      | _ => exact configured.elim
  | backfill now =>
      exact covered_of_frame rfl (enqueueBackfill_edits _ _ now state.store)
        (fun j j' moved completed => absurd completed (restarts_completes_nothing moved))
        invariant.covered
  | claim worker workerId token now leaseUntil =>
      dsimp only [advance]
      split
      · exact invariant.covered
      · obtain ⟨frame, edits, -⟩ := EmbeddingJobProcessor.claim_effect invariant.distinct rfl
        exact covered_of_frame frame edits
          (fun j j' moved completed => absurd completed (claims_completes_nothing moved))
          invariant.covered
  | embed worker raised =>
      dsimp only [advance]
      split
      · exact invariant.covered
      · exact invariant.covered
  | settle worker now =>
      dsimp only [advance]
      split
      · rename_i job here
        refine commit_induction
          (P := fun t : Store => ∀ r ∈ t.facts, r.Active → Covered setting.spec t r.factId)
          invariant.covered fun s' outcome done => ?_
        obtain ⟨frame, edits⟩ := EmbeddingJobProcessor.settleInactive_effect done
        refine covered_of_frame frame edits ?_ invariant.covered
        rintro j j' ⟨mem, releases, inactive⟩ completed
        rw [invariant.fact_of_held here mem releases.held]
        exact EmbeddingJobProcessor.activeContent_eq_none.1 (inactive completed)
      · exact invariant.covered
  | commit worker now =>
      dsimp only [advance]
      split
      · rename_i job currentHash embedding here
        refine commit_induction
          (P := fun t : Store => ∀ r ∈ t.facts, r.Active → Covered setting.spec t r.factId)
          invariant.covered fun s' outcome done => ?_
        have effect := EmbeddingJobProcessor.commitPrepared_effect invariant.distinct done
        intro r mem active
        rw [show s'.facts = state.store.facts by rw [effect.frame]] at mem
        refine covered_of_edits effect.edits effect.vectors ?_ mem active
          (invariant.covered r mem active)
        rintro j j' ⟨memJ, releases, finished⟩ completed
        rw [invariant.fact_of_held here memJ releases.held]
        exact (finished completed).imp_left EmbeddingJobProcessor.activeContent_eq_none.1
      · exact invariant.covered
  | fail worker now available =>
      dsimp only [advance]
      split
      · refine commit_induction
          (P := fun t : Store => ∀ r ∈ t.facts, r.Active → Covered setting.spec t r.factId)
          invariant.covered fun s' outcome done => ?_
        obtain ⟨frame, edits⟩ := EmbeddingJobProcessor.fail_effect done
        exact covered_of_frame frame edits
          (fun j j' moved completed => absurd completed moved.2) invariant.covered
      · exact invariant.covered
  | crash worker => exact invariant.covered

theorem advance_invariant {setting : Setting} {action : Action} {state : State}
    (configured : Configured setting action state)
    (invariant : CoverageInvariant setting state) :
    CoverageInvariant setting (advance setting action state) := by
  have edits := @advance_edits setting action state invariant.distinct
  refine ⟨edits.distinct invariant.distinct, advance_covers configured invariant, ?_⟩
  intro worker phase here
  exact claims_advance invariant.distinct invariant.claims here

/-- With one outbox, every active fact of every reachable state has its vector, or a job that is
pending, processing or dead-lettered. -/
theorem active_covered {setting : Setting} {state : State}
    (reached : Reachable (advance setting) (Configured setting) .initial state) :
    ∀ r ∈ state.store.facts,
      r.invalidAt = none → r.supersededBy = none → r.conflictGroup = none →
        HasVector state.store setting.spec r.factId ∨
          ∃ j ∈ state.store.embeddingJobs, j.factId = r.factId ∧
            j.documentIdentity = setting.spec.documentIdentity ∧
            (j.status = .pending ∨ j.status = .processing ∨ j.status = .deadLetter) := by
  have invariant : CoverageInvariant setting state :=
    reached.induction (P := CoverageInvariant setting)
      ⟨List.nodup_nil, fun r mem => absurd mem (Table.not_mem_empty r),
        fun worker phase here => by cases here⟩
      fun action _ configured invariant => advance_invariant configured invariant
  intro r mem valid unsuperseded ungrouped
  exact invariant.covered r mem ⟨⟨valid, unsuperseded⟩, ungrouped⟩

/-- The sample fact is active, its job is completed, and its vector is stored. -/
theorem embedded_fact_covered :
    let state := run (advance Sample.setting) Sample.embedding .initial
    (∃ r ∈ state.store.facts.table.rows, r.Active) ∧
      state.store.embeddingJobs.rows.map JobRow.status = [.completed] ∧
      ∀ r ∈ state.store.facts, r.invalidAt = none → r.supersededBy = none →
        r.conflictGroup = none → HasVector state.store Sample.setting.spec r.factId ∨
          ∃ j ∈ state.store.embeddingJobs, j.factId = r.factId ∧
            j.documentIdentity = Sample.setting.spec.documentIdentity ∧
            (j.status = .pending ∨ j.status = .processing ∨ j.status = .deadLetter) :=
  ⟨by decide +kernel, by decide +kernel,
    active_covered ⟨Sample.embedding, ⟨rfl, trivial, trivial, trivial, trivial⟩, rfl⟩⟩

/-! ## Erasure -/

/-- The retriever accepts the fact: it has its vector, or a job of the outbox in the queue. -/
def Servable (spec : EmbeddingSpec) (s : Store) (factId : Nat) : Prop :=
  HasVector s spec factId ∨ ∃ j ∈ s.embeddingJobs.rows, j.factId = factId ∧ j.OfSpec spec ∧
    (j.status = .pending ∨ j.status = .processing)

instance (spec : EmbeddingSpec) (s : Store) (factId : Nat) : Decidable (Servable spec s factId) :=
  inferInstanceAs (Decidable (_ ∨ ∃ j ∈ s.embeddingJobs.rows, _))

/-- The fact is an insight that cites the other. -/
def Cites (r : FactRow) (factId : Nat) : Prop :=
  r.category = "insight" ∧ ∃ cited, citedFacts r.tags = .ok cited ∧ factId ∈ cited

/-- The fact is current, in a conflict, and the last member left in a conflict of the erased
one; and it does not go down with it as an insight. -/
structure Freed (s : Store) (factId : Nat) (r : FactRow) : Prop where
  other : r.factId ≠ factId
  current : r.Current
  grouped : r.conflictGroup ≠ none
  last : ∃ conflictId ∈ conflictsOf s factId,
    remainingMembers (leaveConflicts s factId) conflictId = [r.factId]
  uncited : ¬ Cites r factId

theorem mem_citingInsights {facts : Facts} {factId : Nat} {insights : List Nat}
    (cited : citingInsights facts factId = .ok insights) {r : FactRow} (mem : r ∈ facts) :
    r.factId ∈ insights ↔ Cites r factId ∧ r.invalidAt = none := by
  obtain ⟨entries, read, done⟩ := bind_eq_ok.1 cited
  cases pure_eq_ok.1 done
  rw [List.mem_map]
  constructor
  · rintro ⟨entry, selected, same⟩
    obtain ⟨listed, cites⟩ := List.mem_filter.1 selected
    obtain ⟨r', mem', made⟩ := mem_of_mapM_eq_ok read entry listed
    obtain ⟨ids, tags, made⟩ := bind_eq_ok.1 made
    cases pure_eq_ok.1 made
    obtain ⟨inFacts, category, valid⟩ := Table.mem_select.1 mem'
    obtain rfl := Facts.eq_of_id inFacts mem same
    exact ⟨⟨category, ids, tags, of_decide_eq_true cites⟩, valid⟩
  · rintro ⟨⟨category, ids, tags, cites⟩, valid⟩
    have selected : r ∈ facts.table.select fun r => r.category = "insight" ∧ r.invalidAt = none :=
      Table.mem_select.2 ⟨mem, category, valid⟩
    obtain ⟨i, place⟩ := List.mem_iff_getElem?.1 selected
    obtain ⟨entry, there, made⟩ := forall₂_getElem? (mapM_eq_ok.1 read) place
    obtain ⟨ids', tags', made⟩ := bind_eq_ok.1 made
    cases pure_eq_ok.1 made
    rw [tags] at tags'
    cases tags'
    exact ⟨_, List.mem_filter.2 ⟨List.mem_of_getElem? there, decide_eq_true cites⟩, rfl⟩

theorem mem_lastMembers {s : Store} {conflictIds : List String} {factId : Nat} :
    factId ∈ lastMembers s conflictIds ↔
      ∃ conflictId ∈ conflictIds, remainingMembers s conflictId = [factId] := by
  unfold lastMembers
  simp only [List.mem_flatMap, List.mem_filter, decide_eq_true_eq]
  constructor
  · rintro ⟨conflictId, ⟨listed, settles⟩, mem⟩
    refine ⟨conflictId, listed, ?_⟩
    unfold Settles at settles
    cases members : remainingMembers s conflictId with
    | nil =>
        rw [members] at mem
        cases mem
    | cons first rest =>
        rw [members] at settles mem
        cases rest with
        | nil => rw [List.mem_singleton.1 mem]
        | cons second rest =>
            simp only [List.length_cons] at settles
            omega
  · rintro ⟨conflictId, listed, only⟩
    refine ⟨conflictId, ⟨listed, ?_⟩, ?_⟩
    · rw [Settles, only]
      exact Nat.le_refl _
    · rw [only]
      exact List.mem_singleton.2 rfl

/-- An erasure takes away the vectors and jobs of no other fact. -/
theorem servable_erase {host : Host} {call : EraseCall} {s s' : Store} {report : ErasureReport}
    {spec : EmbeddingSpec} (done : call.apply host s = .ok (s', report)) {factId : Nat}
    (other : factId ≠ call.factId) : Servable spec s' factId ↔ Servable spec s factId := by
  obtain ⟨jobs, vectors⟩ := erase_jobs done
  unfold Servable HasVector
  rw [jobs, vectors]
  refine or_congr ⟨?_, ?_⟩ ⟨?_, ?_⟩
  · rintro ⟨e, mem, about, rest⟩
    exact ⟨e, (Table.mem_delete.1 mem).1, about, rest⟩
  · rintro ⟨e, mem, about, rest⟩
    exact ⟨e, Table.mem_delete.2 ⟨mem, about ▸ other⟩, about, rest⟩
  · rintro ⟨j, mem, about, rest⟩
    obtain ⟨j₀, mem₀, rfl⟩ := List.mem_map.1 mem
    by_cases erased : j₀.factId = call.factId
    · rw [if_pos erased] at about
      exact absurd (about.symm.trans erased) other
    · rw [if_neg erased] at about rest
      exact ⟨j₀, mem₀, about, rest⟩
  · rintro ⟨j, mem, about, rest⟩
    have kept := List.mem_map_of_mem (f := fun j : JobRow => if j.factId = call.factId then
      { j with
        contentSha256 := "erased:" ++ call.tick.erasureId.text ++ ":" ++ natText call.factId
        status := .completed, leaseToken := none, leaseOwner := none, leaseExpiresAt := none
        lastError := some "privacy_erased", completedAt := some call.tick.erasedAt
        updatedAt := call.tick.erasedAt } else j) mem
    rw [if_neg fun erased => other (about ▸ erased)] at kept
    exact ⟨j, kept, about, rest⟩

theorem ungroupedRow_invalidAt (ids : List Nat) (r : FactRow) :
    (ungroupedRow ids r).invalidAt = r.invalidAt := by
  unfold ungroupedRow
  split <;> rfl

/-- The erased fact is not active. -/
theorem erasedRow_inactive {tick : ErasureTick} {factId : Nat} {insights ungrouped : List Nat}
    {r : FactRow} (same : r.factId = factId) :
    ¬ (erasedRow tick factId insights ungrouped r).Active := by
  intro active
  have valid := active.1.1
  rw [erasedRow, ungroupedRow_invalidAt] at valid
  have scrubbed : (scrubbedRow tick factId r).invalidAt ≠ none := by
    rw [scrubbedRow, if_pos same]
    cases r.invalidAt <;> simp
  unfold invalidatedRow at valid
  split at valid
  · exact Option.some_ne_none _ valid
  · exact scrubbed valid

/-- Another fact is active after the erasure when it stays valid and leaves its conflict. -/
theorem erasedRow_active {tick : ErasureTick} {factId : Nat} {insights ungrouped : List Nat}
    {r : FactRow} (other : r.factId ≠ factId) :
    (erasedRow tick factId insights ungrouped r).Active ↔
      r.factId ∉ insights ∧ r.Current ∧ (r.factId ∈ ungrouped ∨ r.conflictGroup = none) := by
  have scrubbed : scrubbedRow tick factId r = r := if_neg other
  rw [erasedRow, scrubbed]
  by_cases cited : r.factId ∈ insights
  · rw [invalidatedRow, if_pos cited]
    refine iff_of_false ?_ fun after => after.1 cited
    intro active
    unfold ungroupedRow at active
    split at active
    · exact Option.some_ne_none _ active.1.1
    · exact Option.some_ne_none _ active.1.1
  · rw [invalidatedRow, if_neg cited]
    unfold ungroupedRow
    split
    · rename_i last
      exact ⟨fun active => ⟨cited, active.1, .inl last⟩, fun after => ⟨after.2.1, rfl⟩⟩
    · rename_i kept
      refine ⟨fun active => ⟨cited, active.1, .inr active.2⟩, fun after => ⟨after.2.1, ?_⟩⟩
      exact after.2.2.resolve_left kept

/-- A row is active after the erasure and was not before exactly when it is freed. -/
theorem freed_iff {s : Store} {tick : ErasureTick} {factId : Nat} {insights : List Nat}
    {r : FactRow} (cites : r.factId ≠ factId →
      (r.factId ∈ insights ↔ Cites r factId ∧ r.invalidAt = none)) :
    (erasedRow tick factId insights (lastMembers (leaveConflicts s factId) (conflictsOf s factId))
        r).Active ∧ ¬ r.Active ↔ Freed s factId r := by
  by_cases same : r.factId = factId
  · exact iff_of_false (fun after => erasedRow_inactive same after.1) fun freed => freed.other same
  · rw [erasedRow_active same, mem_lastMembers]
    constructor
    · rintro ⟨⟨uncited, current, leaves⟩, inactive⟩
      have grouped : r.conflictGroup ≠ none := fun none => inactive ⟨current, none⟩
      exact ⟨same, current, grouped, leaves.resolve_right grouped,
        fun cited => uncited ((cites same).2 ⟨cited, current.1⟩)⟩
    · intro freed
      exact ⟨⟨fun cited => freed.uncited ((cites same).1 cited).1, freed.current, .inl freed.last⟩,
        fun active => freed.grouped active.2⟩

/-- An erasure leaves what it makes active servable exactly when the facts it frees from their
conflicts were servable before it. -/
theorem erase_servable_iff {host : Host} {call : EraseCall} {s s' : Store} {report : ErasureReport}
    (spec : EmbeddingSpec) (done : call.apply host s = .ok (s', report)) :
    (∀ r ∈ s'.facts, r.Active → (∀ r₀ ∈ s.facts, r₀.factId = r.factId → ¬ r₀.Active) →
        Servable spec s' r.factId) ↔
      ∀ r ∈ s.facts, Freed s call.factId r → Servable spec s r.factId := by
  obtain ⟨row, insights, effect⟩ := erase_effect done
  obtain ⟨scrubbed, scrubs, cited⟩ := effect.cited
  have cites : ∀ r ∈ s.facts, r.factId ≠ call.factId →
      (r.factId ∈ insights ↔ Cites r call.factId ∧ r.invalidAt = none) := by
    intro r mem other
    refine mem_citingInsights cited ((scrubs r).2 ⟨r, mem, if_neg other⟩)
  constructor
  · intro servable r mem freed
    obtain ⟨active, inactive⟩ := (freed_iff (cites r mem)).2 freed
    have after := (effect.facts _).2 ⟨r, mem, rfl⟩
    have served := servable _ after active (by
      intro r₀ mem₀ here
      rw [erasedRow_factId] at here
      rw [Facts.eq_of_id mem₀ mem here]
      exact inactive)
    rw [erasedRow_factId] at served
    exact (servable_erase done freed.other).1 served
  · intro servable r' mem' active fresh
    obtain ⟨r, mem, rfl⟩ := (effect.facts r').1 mem'
    have inactive := fresh r mem (erasedRow_factId _ _ _ _ _).symm
    have freed := (freed_iff (cites r mem)).1 ⟨active, inactive⟩
    rw [erasedRow_factId]
    exact (servable_erase done freed.other).2 (servable r mem freed)

/-- With its jobs skipped while the conflict was open, the survivor of the sample dispute becomes
active with no vector and no job in the queue. -/
theorem freed_survivor_unservable :
    let state := run (advance Sample.setting) Sample.skippedDispute .initial
    let s' := Model.step Sample.host (.erase Sample.erasure) state.store
    Admits (advance Sample.setting) (Configured Sample.setting) Sample.skippedDispute .initial ∧
      (Sample.erasure.apply Sample.host state.store).toOption.isSome = true ∧
      ∃ r ∈ s'.facts.table.rows, r.Active ∧
        (∀ r₀ ∈ state.store.facts.table.rows, r₀.factId = r.factId → ¬ r₀.Active) ∧
        ¬ Servable Sample.spec s' r.factId :=
  ⟨⟨rfl, rfl, trivial, trivial, trivial, trivial, trivial, trivial, trivial⟩, by decide +kernel,
    by decide +kernel⟩

/-- While its job is still in the queue, the survivor is servable. -/
theorem queued_survivor_servable :
    let state := run (advance Sample.setting) (Sample.skippedDispute.take 2) .initial
    let s' := Model.step Sample.host (.erase Sample.erasure) state.store
    (∃ r ∈ s'.facts.table.rows, r.Active ∧
        ∀ r₀ ∈ state.store.facts.table.rows, r₀.factId = r.factId → ¬ r₀.Active) ∧
      ∀ r ∈ s'.facts, r.Active → (∀ r₀ ∈ state.store.facts, r₀.factId = r.factId → ¬ r₀.Active) →
        Servable Sample.spec s' r.factId := by
  intro state s'
  have evaluated : (Sample.erasure.apply Sample.host state.store).toOption.isSome = true ∧
      (∃ r ∈ s'.facts.table.rows, r.Active ∧
        ∀ r₀ ∈ state.store.facts.table.rows, r₀.factId = r.factId → ¬ r₀.Active) ∧
      ∀ r ∈ state.store.facts.table.rows, Servable Sample.spec state.store r.factId := by
    decide +kernel
  obtain ⟨returned, fresh, queued⟩ := evaluated
  refine ⟨fresh, ?_⟩
  cases done : Sample.erasure.apply Sample.host state.store with
  | error raised =>
      rw [done] at returned
      cases returned
  | ok result =>
      obtain ⟨after, report⟩ := result
      have same : s' = after := by
        show Theory.commit state.store (Sample.erasure.apply Sample.host state.store) = after
        rw [done]
        rfl
      rw [same]
      exact (erase_servable_iff Sample.spec done).2 fun r mem _ => queued r mem

end Enfold.Laws.EmbeddingSystem
