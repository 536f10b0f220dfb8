/-
# Laws.JobMoves -- what each step may do to the embedding jobs

A step edits the jobs by updates that keep every job's id, fact and identity, and by inserting
new pending jobs (`JobEdits`).  The label of the step bounds what an update may do to a row:
enqueueing restarts completed jobs, a claim buries or leases, the worker that holds the lease
releases it, an erasure ends the jobs of its fact.  Every invariant of jobs is proved from these
moves.
-/
import Mathlib.Logic.Relation
import Enfold.Model.EmbeddingProcessor
import Enfold.Laws.Steps

namespace Enfold.Laws

open Enfold.Theory Enfold.Model

set_option autoImplicit false

/-! ## Edits -/

/-- No lease column is set. -/
def Unleased (j : JobRow) : Prop :=
  j.leaseToken = none ∧ j.leaseOwner = none ∧ j.leaseExpiresAt = none

structure SameJob (j j' : JobRow) : Prop where
  jobId : j'.jobId = j.jobId
  factId : j'.factId = j.factId
  identity : j'.documentIdentity = j.documentIdentity

theorem SameJob.refl (j : JobRow) : SameJob j j := ⟨rfl, rfl, rfl⟩

theorem SameJob.trans {j j' j'' : JobRow} (first : SameJob j j') (second : SameJob j' j'') :
    SameJob j j'' :=
  ⟨second.jobId.trans first.jobId, second.factId.trans first.factId,
    second.identity.trans first.identity⟩

/-- The state of a job that was never claimed. -/
structure Starts (j : JobRow) : Prop where
  pending : j.status = .pending
  attempts : j.attempts = 0
  unleased : Unleased j

/-- One statement on the jobs, whose updates are all `Move`s. -/
inductive JobEdit (Move : JobRow → JobRow → Prop) : JobTable → JobTable → Prop where
  | update {jobs jobs' : JobTable} {p : JobRow → Prop} [DecidablePred p] {f : JobRow → JobRow}
      (rows : jobs'.rows = jobs.rows.map fun j => if p j then f j else j)
      (same : ∀ j, SameJob j (f j)) (moves : ∀ j ∈ jobs, p j → Move j (f j)) :
      JobEdit Move jobs jobs'
  | insert {jobs jobs' : JobTable} {job : JobRow} (inserted : jobs.insert? job = some jobs')
      (fresh : ∀ j ∈ jobs, j.jobId ≠ job.jobId) (starts : Starts job) : JobEdit Move jobs jobs'

def JobEdits (Move : JobRow → JobRow → Prop) : JobTable → JobTable → Prop :=
  Relation.ReflTransGen (JobEdit Move)

/-- Job ids are a key. -/
def JobsDistinct (jobs : JobTable) : Prop := (jobs.rows.map JobRow.jobId).Nodup

theorem JobsDistinct.eq_of_id {jobs : JobTable} (distinct : JobsDistinct jobs) {j j' : JobRow}
    (mem : j ∈ jobs) (mem' : j' ∈ jobs) (same : j.jobId = j'.jobId) : j = j' :=
  List.inj_on_of_nodup_map distinct mem mem' same

namespace JobEdit

variable {Move : JobRow → JobRow → Prop} {jobs jobs' : JobTable}

theorem mono {Move' : JobRow → JobRow → Prop} (weaker : ∀ j j', Move j j' → Move' j j')
    (edit : JobEdit Move jobs jobs') : JobEdit Move' jobs jobs' := by
  cases edit with
  | @update p _ f rows same moves =>
      exact .update rows same fun j mem holds => weaker j (f j) (moves j mem holds)
  | insert inserted fresh starts => exact .insert inserted fresh starts

theorem distinct (edit : JobEdit Move jobs jobs') (before : JobsDistinct jobs) :
    JobsDistinct jobs' := by
  cases edit with
  | @update p _ f rows same moves =>
      have sameIds : jobs'.rows.map JobRow.jobId = jobs.rows.map JobRow.jobId := by
        rw [rows, List.map_map]
        refine List.map_congr_left fun j _ => ?_
        dsimp only [Function.comp]
        split
        · exact (same j).jobId
        · rfl
      rw [JobsDistinct, sameIds]
      exact before
  | @insert job inserted fresh starts =>
      rw [JobsDistinct, Table.rows_of_insert? inserted, List.map_append]
      refine before.append (List.nodup_singleton _) ?_
      intro id old new
      obtain ⟨j, mem, rfl⟩ := List.mem_map.1 old
      exact fresh j mem (List.mem_singleton.1 new)

/-- Every old row is still there, as it was or moved. -/
theorem kept (edit : JobEdit Move jobs jobs') {j : JobRow} (mem : j ∈ jobs) :
    ∃ j' ∈ jobs', SameJob j j' ∧ (j' = j ∨ Move j j') := by
  cases edit with
  | @update p _ f rows same moves =>
      have here : (if p j then f j else j) ∈ jobs' :=
        Table.mem_rows.1 (rows ▸ List.mem_map_of_mem mem)
      by_cases inside : p j
      · rw [if_pos inside] at here
        exact ⟨f j, here, same j, .inr (moves j mem inside)⟩
      · rw [if_neg inside] at here
        exact ⟨j, here, .refl j, .inl rfl⟩
  | insert inserted fresh starts =>
      exact ⟨j, (Table.mem_of_insert? inserted).2 (.inl mem), .refl j, .inl rfl⟩

/-- Every new row is an old one, as it was or moved, or a started job. -/
theorem origin (edit : JobEdit Move jobs jobs') {j' : JobRow} (mem : j' ∈ jobs') :
    (∃ j ∈ jobs, SameJob j j' ∧ (j' = j ∨ Move j j')) ∨
      Starts j' ∧ ∀ j ∈ jobs, j.jobId ≠ j'.jobId := by
  cases edit with
  | @update p _ f rows same moves =>
      obtain ⟨j, old, rfl⟩ := List.mem_map.1 (rows ▸ Table.mem_rows.2 mem)
      by_cases inside : p j
      · rw [if_pos inside]
        exact .inl ⟨j, old, same j, .inr (moves j old inside)⟩
      · rw [if_neg inside]
        exact .inl ⟨j, old, .refl j, .inl rfl⟩
  | insert inserted fresh starts =>
      rcases (Table.mem_of_insert? inserted).1 mem with old | rfl
      · exact .inl ⟨j', old, .refl j', .inl rfl⟩
      · exact .inr ⟨starts, fresh⟩

end JobEdit

namespace JobEdits

variable {Move : JobRow → JobRow → Prop} {jobs jobs' jobs'' : JobTable}

theorem refl : JobEdits Move jobs jobs := Relation.ReflTransGen.refl

theorem of_edit (edit : JobEdit Move jobs jobs') : JobEdits Move jobs jobs' :=
  Relation.ReflTransGen.single edit

theorem of_eq (same : jobs' = jobs) : JobEdits Move jobs jobs' := same ▸ refl

theorem trans (first : JobEdits Move jobs jobs') (second : JobEdits Move jobs' jobs'') :
    JobEdits Move jobs jobs'' :=
  Relation.ReflTransGen.trans first second

theorem mono {Move' : JobRow → JobRow → Prop} (weaker : ∀ j j', Move j j' → Move' j j')
    (edits : JobEdits Move jobs jobs') : JobEdits Move' jobs jobs' := by
  induction edits with
  | refl => exact .refl
  | tail _ edit ih => exact ih.tail (edit.mono weaker)

theorem distinct (edits : JobEdits Move jobs jobs') (before : JobsDistinct jobs) :
    JobsDistinct jobs' := by
  induction edits with
  | refl => exact before
  | tail _ edit ih => exact edit.distinct ih

/-- A property of single rows that new jobs have and moves keep. -/
theorem invariant {Q : JobRow → Prop} (starts : ∀ j, Starts j → Q j)
    (moved : ∀ j j', Q j → SameJob j j' → Move j j' → Q j')
    (edits : JobEdits Move jobs jobs') (before : ∀ j ∈ jobs, Q j) : ∀ j ∈ jobs', Q j := by
  induction edits with
  | refl => exact before
  | tail _ edit ih =>
      intro j' mem
      rcases edit.origin mem with ⟨j, old, same, rfl | move⟩ | ⟨new, -⟩
      · exact ih j' old
      · exact moved j j' (ih j old) same move
      · exact starts j' new

/-- Every row is still there, related to what it was by any preorder that holds the moves. -/
theorem kept {R : JobRow → JobRow → Prop} (reflexive : ∀ j, R j j)
    (moved : ∀ j₀ j j', R j₀ j → SameJob j j' → Move j j' → R j₀ j')
    (edits : JobEdits Move jobs jobs') {j : JobRow} (mem : j ∈ jobs) :
    ∃ j' ∈ jobs', SameJob j j' ∧ R j j' := by
  induction edits with
  | refl => exact ⟨j, mem, .refl j, reflexive j⟩
  | tail _ edit ih =>
      obtain ⟨j₁, mem₁, same₁, related₁⟩ := ih
      obtain ⟨j₂, mem₂, same₂, rfl | move⟩ := edit.kept mem₁
      · exact ⟨j₂, mem₂, same₁, related₁⟩
      · exact ⟨j₂, mem₂, same₁.trans same₂, moved j j₁ j₂ related₁ same₂ move⟩

end JobEdits

/-! ## Moves -/

/-- Enqueueing restarts a completed job. -/
structure Restarts (j j' : JobRow) : Prop where
  completed : j.status = .completed
  starts : Starts j'

/-- Nobody works on the job, or somebody's lease has run out. -/
def Claimable (j : JobRow) : Prop := j.status = .pending ∨ j.status = .processing

structure Buries (maxAttempts : Nat) (j j' : JobRow) : Prop where
  claimable : Claimable j
  spent : maxAttempts ≤ j.attempts
  buried : j'.status = .deadLetter
  attempts : j'.attempts = j.attempts
  unleased : Unleased j'

structure Leases (maxAttempts : Nat) (token : String) (j j' : JobRow) : Prop where
  claimable : Claimable j
  left : j.attempts < maxAttempts
  processing : j'.status = .processing
  attempts : j'.attempts = j.attempts + 1
  token : j'.leaseToken = some token
  owner : j'.leaseOwner ≠ none
  expires : j'.leaseExpiresAt ≠ none

/-- A claim buries jobs and leases one. -/
def Claims (maxAttempts : Nat) (token : String) (j j' : JobRow) : Prop :=
  Buries maxAttempts j j' ∨ Leases maxAttempts token j j'

/-- The holder of the lease gives it back. -/
structure Releases (job : ClaimedEmbeddingJob) (j j' : JobRow) : Prop where
  held : j.HeldFor job
  released : j'.status ≠ .processing
  attempts : j'.attempts = j.attempts
  unleased : Unleased j'

structure ErasesJob (factId : Nat) (j j' : JobRow) : Prop where
  about : j.factId = factId
  completed : j'.status = .completed
  attempts : j'.attempts = j.attempts
  unleased : Unleased j'

/-! ## Enqueueing -/

theorem fresh_job {jobs : JobTable} {j : JobRow} (mem : j ∈ jobs) :
    j.jobId ≠ nextRowId (jobs.rows.map JobRow.jobId) :=
  (lt_nextRowId (List.mem_map_of_mem mem)).ne

/-- The inversion of an enqueue. -/
theorem enqueueInTransaction_eq_ok {host : Host} {spec : EmbeddingSpec} {now : String}
    {s s' : Store} {factId : Nat} (enqueued : enqueueInTransaction host spec now s factId = .ok s') :
    s' = { s with embeddingJobs := s'.embeddingJobs } ∧
      JobEdits Restarts s.embeddingJobs s'.embeddingJobs ∧
      (HasVector s spec factId ∨ ∃ j ∈ s'.embeddingJobs, j.factId = factId ∧
        j.documentIdentity = spec.documentIdentity ∧ j.status ≠ .completed) := by
  unfold enqueueInTransaction at enqueued
  split at enqueued
  · cases enqueued
  · rename_i fact found
    dsimp only at enqueued
    split at enqueued
    · rename_i jobs inserted
      cases pure_eq_ok.1 enqueued
      refine ⟨rfl, .of_edit (.insert inserted (fun j mem => fresh_job mem) ⟨rfl, rfl, rfl, rfl, rfl⟩),
        .inr ⟨_, (Table.mem_of_insert? inserted).2 (.inr rfl), rfl, rfl, ?_⟩⟩
      simp
    · rename_i present
      cases pure_eq_ok.1 enqueued
      refine ⟨rfl, .of_edit (.update rfl (fun _ => ⟨rfl, rfl, rfl⟩) fun j _ restarted =>
        ⟨restarted.2.2.1, rfl, rfl, rfl, rfl, rfl⟩), ?_⟩
      by_cases stored : HasVector s spec factId
      · exact .inl stored
      · right
        unfold Table.insert? at present
        split at present
        · cases present
        · rename_i taken
          obtain ⟨j, mem, key⟩ := List.mem_map.1 (not_not.1 taken)
          obtain ⟨fact, identity⟩ := Prod.mk.inj key
          by_cases completed : j.status = .completed
          · have restarted := Table.mem_rows.2 mem
            refine ⟨_, List.mem_map_of_mem restarted, ?_⟩
            rw [if_pos ⟨fact, identity, completed, stored⟩]
            exact ⟨fact, identity, by simp⟩
          · have restarted := Table.mem_rows.2 mem
            refine ⟨_, List.mem_map_of_mem restarted, ?_⟩
            rw [if_neg fun inside => completed inside.2.2.1]
            exact ⟨fact, identity, completed⟩

theorem enqueueEmbedding_edits {host : Host} {service : MemoryWriteService} {now : String}
    {s s' : Store} {factId : Option Nat}
    (enqueued : enqueueEmbedding host service now s factId = .ok s') :
    JobEdits Restarts s.embeddingJobs s'.embeddingJobs := by
  unfold enqueueEmbedding at enqueued
  split at enqueued
  · exact (enqueueInTransaction_eq_ok enqueued).2.1
  · cases enqueued
    exact .refl

theorem backfillOne_edits (host : Host) (spec : EmbeddingSpec) (now : String) (jobs : JobTable)
    (fact : FactRow) : JobEdits Restarts jobs (backfillOne host spec now jobs fact).1 := by
  unfold backfillOne
  dsimp only
  split
  · rename_i inserted
    exact .of_edit (.insert inserted (fun j mem => fresh_job mem) ⟨rfl, rfl, rfl, rfl, rfl⟩)
  · exact .of_edit (.update rfl (fun _ => ⟨rfl, rfl, rfl⟩) fun j _ restarted =>
      ⟨restarted.2.2, rfl, rfl, rfl, rfl, rfl⟩)

theorem backfillRows_edits (host : Host) (spec : EmbeddingSpec) (now : String) (jobs : JobTable)
    (facts : List FactRow) : JobEdits Restarts jobs (backfillRows host spec now jobs facts).1 := by
  induction facts generalizing jobs with
  | nil => exact .refl
  | cons fact facts ih => exact (backfillOne_edits host spec now jobs fact).trans (ih _)

theorem enqueueBackfill_edits (host : Host) (spec : EmbeddingSpec) (now : String) (s : Store) :
    JobEdits Restarts s.embeddingJobs (enqueueBackfill host spec now s).1.embeddingJobs :=
  backfillRows_edits host spec now s.embeddingJobs _

end Enfold.Laws
