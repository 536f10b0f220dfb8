/-
# Laws.FactSteps -- what each statement on `facts` does to the rows

One lemma for each routine of the write service that changes facts: it says which rows
the table of facts differs in afterwards (`Table.Patches`) and that the rest of the store
is as it was.  No proof about a whole write unfolds these routines.
-/
import Enfold.Model.WriteService

namespace Enfold.Laws

open Enfold.Theory Enfold.Model

set_option autoImplicit false

/-- The facts differ in exactly the rows of the patch. -/
abbrev FactPatch (facts facts' : Facts) (patch : List FactRow) : Prop :=
  Table.Patches facts.table facts'.table patch

/-- The facts are the old ones, each rewritten. -/
abbrev FactMap (facts facts' : Facts) (g : FactRow → FactRow) : Prop :=
  Table.Maps facts.table facts'.table g

/-! ## Updates -/

theorem updateFacts_eq_ok {s s' : Store} {p : FactRow → Prop} [DecidablePred p]
    {f : FactRow → FactRow} {keeps : ∀ r, (f r).factId = r.factId}
    (updated : updateFacts s p f keeps = .ok s') :
    s' = { s with facts := s'.facts } ∧ s'.facts.sequence = s.facts.sequence ∧
      s'.facts.table = s.facts.table.update p f keeps := by
  obtain ⟨facts, written, rest⟩ := bind_eq_ok.1 updated
  cases pure_eq_ok.1 rest
  obtain ⟨table, sequence⟩ := Facts.update_eq_ok written
  exact ⟨rfl, sequence, table⟩

theorem updateFacts_map {s s' : Store} {p : FactRow → Prop} [DecidablePred p]
    {f : FactRow → FactRow} {keeps : ∀ r, (f r).factId = r.factId}
    (updated : updateFacts s p f keeps = .ok s') :
    s' = { s with facts := s'.facts } ∧ s'.facts.sequence = s.facts.sequence ∧
      FactMap s.facts s'.facts fun r => if p r then f r else r := by
  obtain ⟨frame, sequence, table⟩ := updateFacts_eq_ok updated
  refine ⟨frame, sequence, ?_⟩
  rw [FactMap, table]
  exact Table.Maps.of_update keeps

/-- An update that must find one row, by its id, changes that row. -/
theorem updateOne_eq_ok {s s' : Store} {p : FactRow → Prop} [DecidablePred p]
    {f : FactRow → FactRow} {missing : Raised} {keeps : ∀ r, (f r).factId = r.factId} {k : Nat}
    (byId : ∀ r, p r → r.factId = k) (updated : updateOne s p f missing keeps = .ok s') :
    s' = { s with facts := s'.facts } ∧ s'.facts.sequence = s.facts.sequence ∧
      ∃ r ∈ s.facts, p r ∧ FactPatch s.facts s'.facts [f r] := by
  obtain ⟨s₁, written, rest⟩ := bind_eq_ok.1 updated
  obtain ⟨one, rest⟩ := require_bind_eq_ok.1 rest
  cases pure_eq_ok.1 rest
  obtain ⟨frame, sequence, table⟩ := updateFacts_eq_ok written
  obtain ⟨r, mem, holds⟩ := Table.exists_of_rowcount_eq_one one
  refine ⟨frame, sequence, r, mem, holds, ?_⟩
  rw [FactPatch, table]
  exact Table.Patches.of_update mem holds fun r' _ holds' => (byId r' holds').trans (byId r holds).symm

/-- An update of a row that is there, by its id. -/
theorem updateFacts_byId {s s' : Store} {k : Nat} {f : FactRow → FactRow}
    {keeps : ∀ r, (f r).factId = r.factId} {r : FactRow}
    (updated : updateFacts s (fun r => r.factId = k) f keeps = .ok s') (mem : r ∈ s.facts)
    (here : r.factId = k) :
    s' = { s with facts := s'.facts } ∧ s'.facts.sequence = s.facts.sequence ∧
      FactPatch s.facts s'.facts [f r] := by
  obtain ⟨frame, sequence, table⟩ := updateFacts_eq_ok updated
  refine ⟨frame, sequence, ?_⟩
  rw [FactPatch, table]
  exact Table.Patches.of_update mem here fun r' _ there => there.trans here.symm

/-! ## Inserts -/

/-- The row `insert_fact` adds for a validated fact. -/
def newRow (fact : NewFact) (factId : Nat) : FactRow :=
  { factId, content := fact.content, category := fact.category, tags := fact.tags
    trustScore := fact.trustScore, createdAt := fact.createdAt, validFrom := fact.validFrom
    invalidAt := none, supersededBy := none, memoryKind := fact.memoryKind
    subjectKey := fact.subjectKey, predicateKey := fact.predicateKey
    objectValue := fact.objectValue, sourceAuthority := fact.sourceAuthority, scope := fact.scope
    sensitivity := fact.sensitivity, correctionStatus := none, conflictGroup := none }

/-- A validated fact is inserted as it is given. -/
theorem insertFact_eq_ok {s s' : Store} {fact : NewFact} {id : Nat}
    (inserted : insertFact s fact = .ok (s', id)) (content : Required fact.content)
    (category : Required fact.category) (scope : Required fact.scope)
    (sensitivity : Required fact.sensitivity) :
    id = s.facts.nextId ∧
      s' = { s with facts := s'.facts, factsFts := s'.factsFts } ∧
      s'.facts.sequence = s.facts.nextId ∧
      FactPatch s.facts s'.facts [newRow fact s.facts.nextId] := by
  simp only [insertFact, required_of content, required_of category, required_of scope,
    required_of sensitivity, ok_bind] at inserted
  obtain ⟨-, inserted⟩ := require_bind_eq_ok.1 inserted
  obtain ⟨-, inserted⟩ := require_bind_eq_ok.1 inserted
  obtain ⟨facts, written, inserted⟩ := bind_eq_ok.1 inserted
  obtain ⟨patch, sequence⟩ := Facts.insert_eq_ok written
  cases pure_eq_ok.1 inserted
  exact ⟨rfl, rfl, sequence, patch⟩

/-- The row an untyped write inserts. -/
def plainRow (tick : Tick) (request : WriteRequest) (factId : Nat) : FactRow :=
  { factId, content := request.content, category := request.category, tags := request.tags
    trustScore := request.trustScore, createdAt := tick.createdAt, validFrom := none
    invalidAt := none, supersededBy := none, memoryKind := none, subjectKey := none
    predicateKey := none, objectValue := none, sourceAuthority := some request.sourceAuthority
    scope := request.scope, sensitivity := request.sensitivity
    correctionStatus := request.correctionStatus, conflictGroup := none }

/-- The row a typed write inserts. -/
def stateRow (tick : Tick) (request : WriteRequest) (candidate : StateCandidate)
    (group : Option String) (factId : Nat) : FactRow :=
  { plainRow tick request factId with
    memoryKind := some "state"
    subjectKey := some candidate.subjectKey
    predicateKey := some candidate.predicateKey
    objectValue := candidate.objectValue
    sourceAuthority := some candidate.sourceAuthority
    validFrom := candidate.validFrom
    scope := candidate.scope
    conflictGroup := group }

/-- A row after it lost to another. -/
def supersededRow (r : FactRow) (moment : String) (survivor : Nat) : FactRow :=
  { r with invalidAt := some moment, supersededBy := some survivor }

theorem factWriter_eq_ok {s s' : Store} {tick : Tick} {request : WriteRequest}
    {result : FactWriteResult} (wrote : factWriter s tick request = .ok (s', result)) :
    result = ⟨s.facts.nextId, .inserted, none⟩ ∧
      s' = { s with facts := s'.facts, factsFts := s'.factsFts } ∧
      s'.facts.sequence = s.facts.nextId ∧
      FactPatch s.facts s'.facts [plainRow tick request s.facts.nextId] := by
  obtain ⟨⟨s₁, id⟩, inserted, wrote⟩ := bind_eq_ok.1 wrote
  obtain ⟨s₂, corrected, wrote⟩ := bind_eq_ok.1 wrote
  obtain ⟨rfl, frame, sequence, patch⟩ := insertFact_eq_ok inserted
    request.contentValid request.categoryValid request.scopeValid request.sensitivityValid
  cases pure_eq_ok.1 wrote
  cases status : request.correctionStatus with
  | none =>
      rw [status] at corrected
      cases corrected
      refine ⟨rfl, frame, sequence, ?_⟩
      simpa only [plainRow, newRow, status] using patch
  | some text =>
      rw [status] at corrected
      obtain ⟨frame', sequence', patch'⟩ := updateFacts_byId corrected
        (patch.of_mem (List.mem_singleton.2 rfl)) rfl
      refine ⟨rfl, ?_, sequence'.trans sequence, ?_⟩
      · rw [frame', frame]
      · simpa only [plainRow, newRow, status] using patch.trans_same patch' rfl

/-! ## Superseding -/

theorem supersedeNearDuplicate_eq_ok {s s' : Store} {loser survivor : Nat} {now : String}
    (done : supersedeNearDuplicate s loser survivor now = .ok s') :
    s' = { s with facts := s'.facts } ∧ s'.facts.sequence = s.facts.sequence ∧
      ∃ r ∈ s.facts, (r.factId = loser ∧ r.Current) ∧
        FactPatch s.facts s'.facts [supersededRow r now survivor] :=
  updateOne_eq_ok (fun _ here => here.1) done

theorem finishStateSupersession_eq_ok {s s' : Store} {old new : Nat}
    (done : finishStateSupersession s (some old) new = .ok s') :
    s' = { s with facts := s'.facts } ∧ s'.facts.sequence = s.facts.sequence ∧
      ∃ r ∈ s.facts, (r.factId = old ∧ r.invalidAt ≠ none ∧ r.supersededBy = none) ∧
        FactPatch s.facts s'.facts [{ r with supersededBy := some new }] :=
  updateOne_eq_ok (fun _ here => here.1) done

theorem persistStateCandidate_eq_ok {s s' : Store} {result : FactWriteResult}
    {candidate : StateCandidate} {group : Option String}
    (done : persistStateCandidate s result candidate group = .ok s') :
    s' = { s with facts := s'.facts } ∧ s'.facts.sequence = s.facts.sequence ∧
      ∃ r ∈ s.facts, (r.factId = result.factId ∧ r.Current) ∧
        FactPatch s.facts s'.facts
          [{ r with
             memoryKind := some "state"
             subjectKey := some candidate.subjectKey
             predicateKey := some candidate.predicateKey
             objectValue := candidate.objectValue
             sourceAuthority := some candidate.sourceAuthority
             validFrom := candidate.validFrom
             scope := candidate.scope
             conflictGroup := group }] := by
  obtain ⟨-, done⟩ := require_bind_eq_ok.1 done
  exact updateOne_eq_ok (fun _ here => here.1) done

/-- A requested supersession redirects one current, untyped, unconflicted fact of the
replacement's scope. -/
theorem supersedeIfRequested_eq_ok {s s' : Store} {old : Option Nat} {new : Nat} {now : String}
    {superseded : Bool} (done : supersedeIfRequested s old new now = .ok (s', superseded)) :
    old = none ∧ s' = s ∧ superseded = false ∨
      ∃ r ∈ s.facts, ∃ replacement ∈ s.facts, old = some r.factId ∧ superseded = true ∧
        replacement.factId = new ∧ r.factId ≠ new ∧ r.scope = replacement.scope ∧ r.Current ∧
        r.memoryKind ≠ some "state" ∧ r.conflictGroup = none ∧
        s' = { s with facts := s'.facts } ∧ s'.facts.sequence = s.facts.sequence ∧
        FactPatch s.facts s'.facts [supersededRow r now new] := by
  cases old with
  | none =>
      cases pure_eq_ok.1 done
      exact .inl ⟨rfl, rfl, rfl⟩
  | some old =>
      refine .inr ?_
      obtain ⟨distinct, done⟩ := require_bind_eq_ok.1 done
      split at done
      · cases done
      rename_i replacement foundNew
      split at done
      · cases done
      rename_i target foundOld
      obtain ⟨⟨untyped, unconflicted⟩, done⟩ := require_bind_eq_ok.1 done
      obtain ⟨s₁, updated, done⟩ := bind_eq_ok.1 done
      cases pure_eq_ok.1 done
      obtain ⟨frame, sequence, r, mem, ⟨here, inScope, current⟩, patch⟩ :=
        updateOne_eq_ok (fun _ here => here.1) updated
      obtain ⟨found, -⟩ := Option.filter_eq_some_iff.1 foundOld
      obtain ⟨memTarget, idTarget⟩ := Facts.get?_eq_some.1 found
      obtain ⟨memNew, idNew⟩ := Facts.get?_eq_some.1 foundNew
      have same : target = r := Facts.eq_of_id memTarget mem (idTarget.trans here.symm)
      subst same
      exact ⟨target, mem, replacement, memNew, by rw [here], rfl, idNew,
        by rw [here]; exact distinct, inScope, current, untyped, unconflicted, frame,
        sequence, patch⟩

end Enfold.Laws
