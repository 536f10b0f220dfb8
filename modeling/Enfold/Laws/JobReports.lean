/-
# Laws.JobReports -- what `process_one` and `drain` report

A worker that nobody interferes with keeps its lease to the end, so `process_one` never raises: the
row of the smallest id that is due is gone, back in the queue, or dead, and the report says which
(`job_reports`).  Every call uses up an attempt, so `drain` stops by itself when no attempt
is left, and what it has reported still holds when it returns (`drain_reports`).
-/
import Enfold.Laws.Reenqueueing
import Enfold.Theory.Keyed

namespace Enfold.Laws

open Enfold.Theory Enfold.Model

set_option autoImplicit false

/-! ## The row that is due -/

/-- A claim at this reading may take the row. -/
def Due (maxAttempts : Nat) (now : Decimal) (q : QueueRow) : Prop :=
  q.attempts < maxAttempts ∧ (∀ t ∈ q.notBefore, t.value ≤ now.value) ∧
    (q.status = .pending ∨ q.Expired now)

/-- A row that no claim may take again, still leased to a worker that is gone. -/
def Spent (maxAttempts : Nat) (now : Decimal) (q : QueueRow) : Prop :=
  q.Expired now ∧ maxAttempts ≤ q.attempts

instance (maxAttempts : Nat) (now : Decimal) : DecidablePred (Spent maxAttempts now) :=
  fun _ => inferInstanceAs (Decidable (_ ∧ _))

/-- What a claim leaves of a row that it does not take. -/
def sweptRow (maxAttempts : Nat) (now : Decimal) (q : QueueRow) : QueueRow :=
  if Spent maxAttempts now q then buriedRow q else q

theorem sweptRow_id (maxAttempts : Nat) (now : Decimal) (q : QueueRow) :
    (sweptRow maxAttempts now q).id = q.id := by
  unfold sweptRow
  split <;> rfl

theorem sweptRow_attempts (maxAttempts : Nat) (now : Decimal) (q : QueueRow) :
    (sweptRow maxAttempts now q).attempts = q.attempts := by
  unfold sweptRow
  split <;> rfl

theorem sweptRow_of_few {maxAttempts : Nat} {now : Decimal} {q : QueueRow}
    (few : q.attempts < maxAttempts) : sweptRow maxAttempts now q = q :=
  if_neg fun spent => absurd few (Nat.not_lt.2 spent.2)

theorem sweptRow_of_idle {maxAttempts : Nat} {now : Decimal} {q : QueueRow}
    (idle : q.status ≠ .processing) : sweptRow maxAttempts now q = q :=
  if_neg fun spent => idle spent.1.1

/-- A row that was not swept and is due was due before. -/
theorem Due.of_swept {maxAttempts : Nat} {now later : Decimal} {q : QueueRow}
    (due : Due maxAttempts later (sweptRow maxAttempts now q)) : Due maxAttempts later q := by
  have few := due.1
  rw [sweptRow_attempts] at few
  rwa [sweptRow_of_few few] at due

/-- Rows of other ids are as the claim at `now` leaves them. -/
def Sweeps (maxAttempts : Nat) (now : Decimal) (taken : Option Nat) (s s' : Store) : Prop :=
  ∀ q', some q'.id ≠ taken →
    (q' ∈ s'.extractQueue ↔ ∃ q ∈ s.extractQueue, sweptRow maxAttempts now q = q')

/-- Rows of other ids are untouched. -/
def OthersKept (id : Nat) (s s' : Store) : Prop :=
  ∀ q : QueueRow, q.id ≠ id → (q ∈ s'.extractQueue ↔ q ∈ s.extractQueue)

/-- A row is the first of those that are due. -/
structure FirstDue (maxAttempts : Nat) (now : Decimal) (s : Store) (row : QueueRow) : Prop where
  mem : row ∈ s.extractQueue
  due : Due maxAttempts now row
  first : ∀ q ∈ s.extractQueue, Due maxAttempts now q → row.id ≤ q.id

section Claims

variable {maxAttempts : Nat} {lease : Lease} {now leaseUntil : Decimal} {s s' : Store}

/-- What a claim takes, and what it leaves alone. -/
inductive ClaimTakes (maxAttempts : Nat) (lease : Lease) (now leaseUntil : Decimal) (s s' : Store) :
    Option QueueRow → Prop where
  | nothing (idle : ∀ q ∈ s.extractQueue, ¬ Due maxAttempts now q)
      (sweeps : Sweeps maxAttempts now none s s') :
      ClaimTakes maxAttempts lease now leaseUntil s s' none
  | first (row : QueueRow) (first : FirstDue maxAttempts now s row)
      (sweeps : Sweeps maxAttempts now (some row.id) s s') :
      ClaimTakes maxAttempts lease now leaseUntil s s' (some row)

theorem claim_total (maxAttempts : Nat) (lease : Lease) (now leaseUntil : Decimal) (s : Store) :
    ∃ s' claimed, claim maxAttempts lease now leaseUntil s = .ok (s', claimed) := by
  unfold claim
  extract_lets buried due
  split
  · exact ⟨_, _, rfl⟩
  · exact ⟨_, _, rfl⟩

theorem claim_takes {claimed : Option QueueRow}
    (done : claim maxAttempts lease now leaseUntil s = .ok (s', claimed)) :
    ClaimTakes maxAttempts lease now leaseUntil s s' claimed := by
  unfold claim at done
  extract_lets buried due at done
  have burials : Table.Maps s.extractQueue buried (sweptRow maxAttempts now) :=
    Table.Maps.of_update (t := s.extractQueue) (p := Spent maxAttempts now) (f := buriedRow)
      fun _ => rfl
  have mem_due : ∀ q, q ∈ due ↔ q ∈ s.extractQueue ∧ Due maxAttempts now q := by
    intro q
    have selected : q ∈ due ↔ q ∈ buried ∧ Due maxAttempts now q := Table.mem_select
    rw [selected, burials q]
    constructor
    · rintro ⟨⟨r, mem, rfl⟩, due⟩
      have few := due.of_swept.1
      rw [sweptRow_of_few few] at due ⊢
      exact ⟨mem, due⟩
    · rintro ⟨mem, due⟩
      exact ⟨⟨q, mem, sweptRow_of_few due.1⟩, due⟩
  split at done
  · rename_i empty
    cases pure_eq_ok.1 done
    refine .nothing (fun q mem isDue => ?_) fun q' _ => burials q'
    have listed := (List.mem_insertionSort fun q q' : QueueRow => q.id ≤ q'.id).2
      ((mem_due q).2 ⟨mem, isDue⟩)
    rw [empty] at listed
    cases listed
  · rename_i row rest first
    cases pure_eq_ok.1 done
    have sorted : (row :: rest).Pairwise fun q q' : QueueRow => q.id ≤ q'.id := by
      rw [← first]
      exact @ascending_pairwise _ _ _ QueueRow.id due
    have listed : ∀ q, q ∈ due ↔ q ∈ row :: rest := by
      intro q
      rw [← first]
      exact (List.mem_insertionSort _).symm
    obtain ⟨mem, isDue⟩ := (mem_due row).1 ((listed row).2 List.mem_cons_self)
    refine .first row ⟨mem, isDue, fun q memQ dueQ => ?_⟩ fun q' other => ?_
    · rcases List.mem_cons.1 ((listed q).1 ((mem_due q).2 ⟨memQ, dueQ⟩)) with rfl | later
      · exact Nat.le_refl _
      · exact List.rel_of_pairwise_cons sorted later
    · have apart : ¬ (q'.id = row.id ∧ q'.attempts < maxAttempts) :=
        fun same => other (congrArg some same.1)
      rw [← burials q', Table.mem_update]
      constructor
      · rintro ⟨r, memR, rfl⟩
        split at other
        · rename_i taken
          exact absurd (congrArg some taken.1) other
        · rename_i kept
          rw [if_neg kept]
          exact memR
      · exact fun kept => ⟨q', kept, if_neg apart⟩

end Claims

/-! ## The body of a job -/

theorem OthersKept.refl (id : Nat) (s : Store) : OthersKept id s s := fun _ _ => Iff.rfl

theorem OthersKept.trans {id : Nat} {s s' s'' : Store} (first : OthersKept id s s') (second : OthersKept id s' s'') :
    OthersKept id s s'' :=
  fun q other => (second q other).trans (first q other)

theorem OthersKept.of_same {id : Nat} {s s' : Store} (same : s'.extractQueue = s.extractQueue) :
    OthersKept id s s' := by
  intro q _
  rw [same]

theorem OthersKept.of_edit {id : Nat} {lease : Lease} {f : QueueRow → QueueRow} {s s' : Store}
    {q : QueueRow} (edit : HeldEdit id lease f s s' q) (keepsId : ∀ q, (f q).id = q.id) :
    OthersKept id s s' := by
  intro q' other
  refine edit.patch.mem_iff fun mem => other ?_
  have same : q'.id = (f q).id := by simpa using mem
  rw [same, keepsId, edit.here]

section Job

variable {host : Host} {processor : ExtractionProcessor} {input : JobInput} {id attempts : Nat}
  {envelope : ExtractionEnvelope} {row : QueueRow} {s s' : Store}

theorem beat_apart {lease : Lease} {heartbeats : List (Decimal × Decimal)} {result : Processing Unit}
    (beats : beat id lease heartbeats s = (s', result)) : OthersKept id s s' := by
  induction heartbeats generalizing s with
  | nil =>
      cases beats
      exact .refl id _
  | cons reading later ih =>
      obtain ⟨now, leaseUntil⟩ := reading
      unfold beat at beats
      split at beats
      · rename_i next done
        obtain ⟨q, edit⟩ := renew_effect done
        exact (OthersKept.of_edit edit fun _ => rfl).trans (ih beats)
      · cases beats
        exact .refl id _

theorem jobSnapshot_apart {result : Processing (String × String)}
    (found : jobSnapshot host processor input id envelope s = (s', result)) : OthersKept id s s' := by
  unfold jobSnapshot at found
  split at found
  · cases found
    exact .refl id _
  · cases found
    exact .refl id _
  unfold extractSnapshot at found
  split at found
  · rename_i beats
    cases found
    exact beat_apart beats
  · rename_i s₁ _ beats
    have beaten := beat_apart beats
    split at found
    · cases found
      exact beaten
    split at found
    · cases found
      exact beaten
    split at found
    · cases found
      exact beaten
    · rename_i done
      cases found
      obtain ⟨q, edit, -⟩ := persistSnapshot_effect done
      exact beaten.trans (.of_edit edit fun _ => rfl)

/-- A job deletes its row or keeps it leased, and leaves the other rows alone. -/
structure JobEnds (id : Nat) (lease : Lease) (attempts : Nat) (s : Store) (left : JobState Unit) :
    Prop where
  apart : OthersKept id s left.store
  completed : left.result = .ok () → ∀ q ∈ left.store.extractQueue, q.id ≠ id
  failed : ∀ failure, left.result = .error failure → LeasedTo id lease attempts left.store

theorem JobEnds.of_failure {lease : Lease} {written : List WriteOutcome} {failure : Failure}
    (apart : OthersKept id s s') (leased : LeasedTo id lease attempts s') :
    JobEnds id lease attempts s ⟨s', written, .error failure⟩ where
  apart := apart
  completed := by
    intro done
    cases done
  failed := fun _ _ => leased

theorem runJob_ends (leased : LeasedTo row.id input.lease attempts s) :
    JobEnds row.id input.lease attempts s (runJob host processor input row s) := by
  unfold runJob
  split
  · exact .of_failure (.refl _ _) leased
  rename_i envelope _
  split
  · rename_i found
    exact .of_failure (jobSnapshot_apart found) (jobSnapshot_lease found leased).2
  rename_i s₁ text hash found
  have apart := jobSnapshot_apart found
  have kept := (jobSnapshot_lease found leased).2
  split
  · exact .of_failure apart kept
  rename_i prepared _
  have queue := (@applyWrites_queue host input envelope.context 0 prepared s₁).1
  generalize applyWrites host input envelope.context 0 prepared s₁ = applied at queue
  have written := apart.trans (.of_same queue)
  have held := kept.of_queue queue
  dsimp only
  split
  · exact .of_failure written held
  obtain ⟨s₂, done⟩ := complete_of_leased held
  rw [done]
  obtain ⟨-, q, mem, here, -, left⟩ := complete_effect done
  refine ⟨written.trans fun q' other => ?_, fun _ q' mem' => ((left q').1 mem').2,
    fun failure failed => by cases failed⟩
  rw [left q']
  exact ⟨fun both => both.1, fun mem' => ⟨mem', other⟩⟩

end Job

/-! ## The report of a job -/

/-- What a report says of the row with the id it names. -/
inductive RowReport (maxAttempts : Nat) (retryAt : Decimal) (attempts : Nat) (id : Nat)
    (s' : Store) : ProcessOutcome → Option String → Prop where
  | completed (gone : ∀ q ∈ s'.extractQueue, q.id ≠ id) :
      RowReport maxAttempts retryAt attempts id s' .completed none
  | retry (q : QueueRow) (code : String) (mem : q ∈ s'.extractQueue) (here : q.id = id)
      (counted : q.attempts = attempts) (left : attempts < maxAttempts) (safe : code ∈ safeErrorCodes)
      (recorded : q.lastError = some code) (pending : q.status = .pending)
      (waits : q.notBefore = some retryAt) (free : q.leaseToken = none) :
      RowReport maxAttempts retryAt attempts id s' .retry (some code)
  | dead (q : QueueRow) (code : String) (mem : q ∈ s'.extractQueue) (here : q.id = id)
      (counted : q.attempts = attempts) (safe : code ∈ safeErrorCodes)
      (recorded : q.lastError = some code) (dead : q.status = .dead) (free : q.leaseToken = none) :
      RowReport maxAttempts retryAt attempts id s' .dead (some code)

/-- The report of a call that found nothing due, or took the first due row. -/
inductive Reports (processor : ExtractionProcessor) (input : JobInput) (s s' : Store) :
    ProcessResult → Prop where
  | idle (nothing : ∀ q ∈ s.extractQueue, ¬ Due processor.maxAttempts input.claimedAt q)
      (sweeps : Sweeps processor.maxAttempts input.claimedAt none s s') :
      Reports processor input s s' ⟨.idle, none, 0, 0, none⟩
  | took (row : QueueRow) (first : FirstDue processor.maxAttempts input.claimedAt s row)
      (sweeps : Sweeps processor.maxAttempts input.claimedAt (some row.id) s s')
      (writes : Nat) (outcome : ProcessOutcome) (error : Option String)
      (report : RowReport processor.maxAttempts input.retryAt (row.attempts + 1) row.id s' outcome
        error) :
      Reports processor input s s' ⟨outcome, some row.id, writes, row.attempts + 1, error⟩

theorem Sweeps.apart {maxAttempts id : Nat} {now : Decimal} {s s' s'' : Store}
    (sweeps : Sweeps maxAttempts now (some id) s s') (apart : OthersKept id s' s'') :
    Sweeps maxAttempts now (some id) s s'' := by
  intro q other
  rw [apart q fun same => other (congrArg some same)]
  exact sweeps q other

theorem safeErrorCode_safe (failure : Failure) : failure.safeErrorCode ∈ safeErrorCodes := by
  have all : ∀ candidate : Option String,
      (candidate.filter (· ∈ safeErrorCodes)).getD "extractor_failed" ∈ safeErrorCodes := by
    intro candidate
    cases known : candidate.filter (· ∈ safeErrorCodes) with
    | none => simp [safeErrorCodes]
    | some code =>
        have safe := (Option.filter_eq_some_iff.1 known).2
        exact of_decide_eq_true safe
  exact all _

section Reports

variable {host : Host} {processor : ExtractionProcessor} {input : JobInput} {row : QueueRow}
  {s s' : Store}

/-- A failure is recorded on the leased row, and on no other. -/
theorem fail_reports (failure : Failure) {attempts : Nat}
    (leased : LeasedTo row.id input.lease attempts s) :
    ∃ s', fail processor.maxAttempts row.id input.lease failure.safeErrorCode failure.Permanent
        input.retryAt s = .ok (s', attempts) ∧
      OthersKept row.id s s' ∧
      RowReport processor.maxAttempts input.retryAt attempts row.id s'
        (if failure.Permanent ∨ processor.maxAttempts ≤ attempts then .dead else .retry)
        (some failure.safeErrorCode) := by
  obtain ⟨q, mem, here, held, rfl⟩ := leased
  obtain ⟨s', done⟩ : ∃ s', fail processor.maxAttempts row.id input.lease failure.safeErrorCode
      failure.Permanent input.retryAt s = .ok (s', q.attempts) :=
    ⟨_, fail_effect_iff.2 ⟨q, mem, here, held, rfl, rfl⟩⟩
  obtain ⟨q', edit⟩ := fail_effect done
  obtain rfl := Table.eq_of_key mem edit.mem (here.trans edit.here.symm)
  have recorded := edit.patch.of_mem (List.mem_singleton.2 rfl)
  refine ⟨s', done, .of_edit edit fun _ => rfl, ?_⟩
  have safe := safeErrorCode_safe failure
  by_cases last : failure.Permanent ∨ processor.maxAttempts ≤ q.attempts
  · rw [if_pos last]
    refine .dead _ _ recorded here rfl safe rfl (if_pos ?_) rfl
    simpa only [decide_eq_true_eq] using last
  · rw [if_neg last]
    have again : ¬ (decide failure.Permanent = true ∨ processor.maxAttempts ≤ q.attempts) := by
      simpa only [decide_eq_true_eq] using last
    exact .retry _ _ recorded here rfl (Nat.not_le.1 (not_or.1 last).2) safe rfl (if_neg again)
      (if_neg again) rfl

theorem job_reports (host : Host) (processor : ExtractionProcessor) (input : JobInput) (s : Store) :
    ∃ s' result, processOne host processor input s = (s', .ok result) ∧
      Reports processor input s s' result := by
  obtain ⟨s₁, claimed, done⟩ := claim_total processor.maxAttempts input.lease input.claimedAt
    input.leaseUntil s
  unfold processOne
  rw [done]
  cases claim_takes done with
  | nothing idle sweeps => exact ⟨s₁, _, rfl, .idle idle sweeps⟩
  | first row first sweeps =>
      dsimp only
      have ends := @runJob_ends host processor input _ row s₁ (claim_lease done)
      generalize runJob host processor input row s₁ = job at ends
      obtain ⟨s₂, written, result⟩ := job
      cases result with
      | ok _ =>
          exact ⟨s₂, _, rfl, .took row first (sweeps.apart ends.apart) _ _ _
            (.completed (ends.completed rfl))⟩
      | error failure =>
          obtain ⟨s', failed, apart, report⟩ := fail_reports failure (ends.failed failure rfl)
          dsimp only
          rw [failed]
          exact ⟨s', _, rfl, .took row first (sweeps.apart (ends.apart.trans apart)) _ _ _ report⟩

end Reports

/-! ## Attempts that are left -/

/-- How many more claims the rows allow. -/
def attemptsLeft (maxAttempts : Nat) (s : Store) : Nat :=
  (s.extractQueue.rows.map fun q => maxAttempts - q.attempts).sum

section Drain

variable {host : Host} {processor : ExtractionProcessor} {input : JobInput} {result : ProcessResult}
  {s s' : Store}

/-- A report that names no row comes from an idle call. -/
theorem Reports.taken (reports : Reports processor input s s' result)
    (busy : result.outcome ≠ .idle) :
    ∃ row, FirstDue processor.maxAttempts input.claimedAt s row ∧
      Sweeps processor.maxAttempts input.claimedAt (some row.id) s s' ∧
      result.queueId = some row.id ∧ result.attempts = row.attempts + 1 ∧
      RowReport processor.maxAttempts input.retryAt (row.attempts + 1) row.id s' result.outcome
        result.error := by
  cases reports with
  | idle => exact absurd rfl busy
  | took row first sweeps writes outcome error report => exact ⟨row, first, sweeps, rfl, rfl, report⟩

theorem RowReport.counted {maxAttempts attempts id : Nat} {retryAt : Decimal}
    {outcome : ProcessOutcome} {error : Option String}
    (report : RowReport maxAttempts retryAt attempts id s' outcome error) {q' : QueueRow}
    (mem' : q' ∈ s'.extractQueue) (here : q'.id = id) : q'.attempts = attempts := by
  cases report with
  | completed gone => exact absurd here (gone q' mem')
  | retry q code mem same counted | dead q code mem same counted =>
      rwa [Table.eq_of_key mem' mem (here.trans same.symm)]

/-- Every call that takes a row uses up an attempt. -/
theorem Reports.spends (reports : Reports processor input s s' result)
    (busy : result.outcome ≠ .idle) :
    attemptsLeft processor.maxAttempts s' < attemptsLeft processor.maxAttempts s := by
  obtain ⟨row, first, sweeps, -, -, report⟩ := reports.taken busy
  have few := first.due.1
  refine @sum_lt_of_keys _ _ QueueRow.id _ _ _ row.id s'.extractQueue.nodup
    (fun q' mem' => ?_) ⟨row, first.mem, rfl, Nat.sub_pos_of_lt few⟩
  by_cases here : q'.id = row.id
  · have counted : q'.attempts = row.attempts + 1 := report.counted mem' here
    refine ⟨row, first.mem, here.symm, ?_, fun _ => ?_⟩
    · omega
    · omega
  · obtain ⟨q, mem, rfl⟩ := (sweeps q' fun same => here (Option.some.inj same)).1 mem'
    refine ⟨q, mem, (sweptRow_id _ _ q).symm, ?_, fun same => absurd same here⟩
    rw [sweptRow_attempts]

theorem Reports.nothing (reports : Reports processor input s s' result)
    (idle : result.outcome = .idle) :
    (∀ q ∈ s'.extractQueue, ¬ Due processor.maxAttempts input.claimedAt q) ∧
      attemptsLeft processor.maxAttempts s' ≤ attemptsLeft processor.maxAttempts s := by
  cases reports with
  | idle nothing sweeps =>
      have from_swept : ∀ q' ∈ s'.extractQueue, ∃ q ∈ s.extractQueue,
          sweptRow processor.maxAttempts input.claimedAt q = q' :=
        fun q' mem' => (sweeps q' (by simp)).1 mem'
      refine ⟨fun q' mem' due => ?_, @sum_le_of_keys _ _ QueueRow.id _ _ _ _ s'.extractQueue.nodup
        fun q' mem' => ?_⟩
      · obtain ⟨q, mem, rfl⟩ := from_swept q' mem'
        exact nothing q mem due.of_swept
      · obtain ⟨q, mem, rfl⟩ := from_swept q' mem'
        refine ⟨q, mem, (sweptRow_id _ _ q).symm, ?_⟩
        rw [sweptRow_attempts]
  | took row first sweeps writes outcome error report =>
      cases idle
      cases report

/-! ## What stays as it was reported -/

/-- A row of this id is dead, with these attempts and this error. -/
def DiedWith (id attempts : Nat) (error : Option String) (s : Store) : Prop :=
  ∃ q ∈ s.extractQueue, q.id = id ∧ q.status = .dead ∧ q.attempts = attempts ∧ q.lastError = error

/-- What a report says that later calls cannot change. -/
def Stands (result : ProcessResult) (s : Store) : Prop :=
  ∃ id, result.queueId = some id ∧
    (result.outcome = .completed → ∀ q ∈ s.extractQueue, q.id ≠ id) ∧
    (result.outcome = .dead → DiedWith id result.attempts result.error s)

theorem Reports.stands (reports : Reports processor input s s' result)
    (busy : result.outcome ≠ .idle) : Stands result s' := by
  obtain ⟨row, first, sweeps, named, counted, report⟩ := reports.taken busy
  rw [Stands, counted]
  generalize result.outcome = outcome, result.error = error at report
  refine ⟨row.id, named, ?_, ?_⟩
  · rintro rfl
    cases report with
    | completed gone => exact gone
  · rintro rfl
    cases report with
    | dead q code mem here count safe recorded dead => exact ⟨q, mem, here, dead, count, recorded⟩

/-- A row of the queue comes from a row of its id. -/
theorem Reports.comes_from (reports : Reports processor input s s' result) {q' : QueueRow}
    (mem' : q' ∈ s'.extractQueue) : ∃ q ∈ s.extractQueue, q.id = q'.id := by
  have swept : ∀ {taken}, Sweeps processor.maxAttempts input.claimedAt taken s s' →
      some q'.id ≠ taken → ∃ q ∈ s.extractQueue, q.id = q'.id := by
    intro taken sweeps other
    obtain ⟨q, mem, rfl⟩ := (sweeps q' other).1 mem'
    exact ⟨q, mem, (sweptRow_id _ _ q).symm⟩
  cases reports with
  | idle nothing sweeps => exact swept sweeps (by simp)
  | took row first sweeps =>
      by_cases here : q'.id = row.id
      · exact ⟨row, first.mem, here.symm⟩
      · exact swept sweeps fun same => here (Option.some.inj same)

theorem Reports.keeps_dead (reports : Reports processor input s s' result) {q : QueueRow}
    (mem : q ∈ s.extractQueue) (dead : q.status = .dead) : q ∈ s'.extractQueue := by
  have idle : q.status ≠ .processing := by
    rw [dead]
    simp
  have swept : ∀ {taken}, Sweeps processor.maxAttempts input.claimedAt taken s s' →
      some q.id ≠ taken → q ∈ s'.extractQueue :=
    fun sweeps other => (sweeps q other).2 ⟨q, mem, sweptRow_of_idle idle⟩
  cases reports with
  | idle nothing sweeps => exact swept sweeps (by simp)
  | took row first sweeps =>
      refine swept sweeps fun same => ?_
      obtain rfl := Table.eq_of_key mem first.mem (Option.some.inj same)
      rcases first.due.2.2 with pending | expired
      · rw [dead] at pending
        cases pending
      · exact idle expired.1

theorem Stands.later {earlier : ProcessResult} (stands : Stands earlier s)
    (reports : Reports processor input s s' result) : Stands earlier s' := by
  obtain ⟨id, named, completed, died⟩ := stands
  refine ⟨id, named, fun outcome q' mem' here => ?_, fun outcome => ?_⟩
  · obtain ⟨q, mem, same⟩ := reports.comes_from mem'
    exact completed outcome q mem (same.trans here)
  · obtain ⟨q, mem, here, dead, counted, recorded⟩ := died outcome
    exact ⟨q, reports.keeps_dead mem dead, here, dead, counted, recorded⟩

/-! ## The loop -/

/-- Calls from the `n`-th on, each reported truly, up to one that is idle or to the limit. -/
inductive Calls (processor : ExtractionProcessor) (input : Nat → JobInput) (s' : Store) :
    Nat → Store → List ProcessResult → Prop where
  | limit (n : Nat) : Calls processor input s' n s' []
  | idle (n : Nat) (s : Store) (result : ProcessResult)
      (reports : Reports processor (input n) s s' result) (idle : result.outcome = .idle) :
      Calls processor input s' n s []
  | takes (n : Nat) (s s₁ : Store) (result : ProcessResult) (results : List ProcessResult)
      (reports : Reports processor (input n) s s₁ result) (busy : result.outcome ≠ .idle)
      (later : Calls processor input s' (n + 1) s₁ results) :
      Calls processor input s' n s (result :: results)

/-- What a loop of at most `left` calls, from the `n`-th on, has done when it returns. -/
structure Drained (processor : ExtractionProcessor) (input : Nat → JobInput) (n left : Nat)
    (s s' : Store) (results : List ProcessResult) : Prop where
  calls : Calls processor input s' n s results
  bounded : results.length ≤ left
  /-- No more calls than attempts. -/
  spent : results.length + attemptsLeft processor.maxAttempts s' ≤
    attemptsLeft processor.maxAttempts s
  /-- A loop that stops early has nothing left to do. -/
  finished : results.length < left → ∀ q ∈ s'.extractQueue,
    ¬ Due processor.maxAttempts (input (n + results.length)).claimedAt q
  stands : ∀ result ∈ results, Stands result s'

theorem drainFrom_drains (input : Nat → JobInput) (left n : Nat) (s : Store) :
    ∃ s' results, drainFrom host processor input n left s = (s', .ok results) ∧
      Drained processor input n left s s' results ∧
      ∀ earlier, Stands earlier s → Stands earlier s' := by
  induction left generalizing n s with
  | zero =>
      refine ⟨s, [], rfl, ?_, fun _ stands => stands⟩
      exact ⟨.limit n, Nat.le_refl _, by simp, fun none => absurd none (Nat.lt_irrefl 0), by simp⟩
  | succ left ih =>
      obtain ⟨s₁, result, done, reports⟩ := job_reports host processor (input n) s
      unfold drainFrom
      rw [done]
      dsimp only
      by_cases idle : result.outcome = .idle
      · rw [if_pos idle]
        refine ⟨s₁, [], rfl, ?_, fun earlier stands => stands.later reports⟩
        obtain ⟨nothing, spent⟩ := reports.nothing idle
        exact ⟨.idle n s result reports idle, Nat.zero_le _, by simpa using spent, fun _ => nothing,
          by simp⟩
      · rw [if_neg idle]
        obtain ⟨s', results, rest, drained, kept⟩ := ih (n + 1) s₁
        rw [rest]
        refine ⟨s', result :: results, rfl, ?_, fun earlier stands =>
          kept earlier (stands.later reports)⟩
        have spends := reports.spends idle
        have spent := drained.spent
        refine ⟨.takes n s s₁ result results reports idle drained.calls,
          Nat.succ_le_succ drained.bounded, ?_, fun fewer => ?_, ?_⟩
        · rw [List.length_cons]
          omega
        · have finished := drained.finished (Nat.lt_of_succ_lt_succ fewer)
          rwa [Nat.add_assoc, Nat.add_comm 1] at finished
        · exact List.forall_mem_cons.2 ⟨kept result (reports.stands idle), drained.stands⟩

/-- `drain` never raises for a positive limit.  Each of its reports is what the queue showed, and
still shows when a row was completed or died; it makes no more calls than attempts are left, and
when it stops early nothing is due. -/
theorem drain_reports (input : Nat → JobInput) {limit : Int} (positive : 0 < limit) :
    ∃ s' results, ExtractionProcessor.drain host processor limit input s = (s', .ok results) ∧
      Drained processor input 0 limit.toNat s s' results := by
  obtain ⟨s', results, done, drained, -⟩ :=
    @drainFrom_drains host processor input limit.toNat 0 s
  refine ⟨s', results, ?_, drained⟩
  unfold ExtractionProcessor.drain
  rw [if_neg (not_le.2 positive), done]

end Drain

/-- One queued row, and a batch of one plain proposal. -/
theorem queued_row_drains :
    ∃ s' results, sampleProcessor.drain (ReenqueueSample.hostOf [ScreenSample.plain]) 10
        (fun _ => ReenqueueSample.inputOf [ScreenSample.plain])
        (ReenqueueSample.holding (ReenqueueSample.queuedRow 1) Store.empty) = (s', .ok results) ∧
      Drained sampleProcessor (fun _ => ReenqueueSample.inputOf [ScreenSample.plain]) 0 10
        (ReenqueueSample.holding (ReenqueueSample.queuedRow 1) Store.empty) s' results :=
  drain_reports _ (by decide)

end Enfold.Laws
