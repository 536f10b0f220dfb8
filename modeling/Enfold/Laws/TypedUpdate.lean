/-
# Laws.TypedUpdate -- where an accepted value goes

An accepted typed write leaves a current fact of its exact slot, and returns it.  The fact
carries the submitted value, with one exception that `decideStateWrite` makes on purpose: a
current fact with the candidate's very content counts as a repetition, whatever its
structured value (`StateEffect.represents`).  The fact is then the only current one of the
slot or a member of its open conflict, by the slot invariant.

A write answered from the log returns the fact of the first submission, which later writes
may have replaced.
-/
import Enfold.Laws.Replay
import Enfold.Laws.SlotRuns

namespace Enfold.Laws

open Enfold.Theory Enfold.Model

set_option autoImplicit false

/-- The returned fact is current in the candidate's slot and has the candidate's value. -/
def Carries (s' : Store) (candidate : StateCandidate) (o : WriteOutcome) : Prop :=
  ∃ r ∈ currentRows s'.facts candidate.slot, o.factId = some r.factId ∧
    ∀ value ∈ candidate.objectValue, r.objectValue = some value

/-- The row says what the candidate says: by its value, or as a current fact of the slot
with the same content. -/
def Represents (s : Store) (candidate : StateCandidate) (r : FactRow) : Prop :=
  ∀ value ∈ candidate.objectValue, r.objectValue = some value ∨
    r ∈ currentRows s.facts candidate.slot ∧ r.content = candidate.content

theorem represents_stateRow (s : Store) (tick : Tick) (request : WriteRequest)
    (candidate : StateCandidate) (group : Option String) (factId : Nat) :
    Represents s candidate (stateRow tick request candidate group factId) := by
  intro value given
  exact .inl given

theorem stateRow_current {facts : Facts} {tick : Tick} {request : WriteRequest}
    {candidate : StateCandidate} {group : Option String} {factId : Nat}
    (mem : stateRow tick request candidate group factId ∈ facts) :
    stateRow tick request candidate group factId ∈ currentRows facts candidate.slot :=
  mem_currentRows.2 ⟨mem, stateRow_inSlot group factId, rfl, rfl⟩

/-- The fact a typed branch returns is current in the slot and represents the candidate. -/
theorem StateEffect.represents {tick : Tick} {request : WriteRequest} {candidate : StateCandidate}
    {d : SlotDecision} {s s' : Store} {factId : Nat}
    (effect : StateEffect tick request candidate d s s' factId) :
    ∃ r ∈ currentRows s'.facts candidate.slot, r.factId = factId ∧ Represents s candidate r := by
  cases effect with
  | repeated r here repeats result same =>
      rw [same]
      refine ⟨r, here, result.symm, fun value given => ?_⟩
      rcases repeats with content | ⟨-, sameValue⟩
      · exact .inr ⟨here, content⟩
      · exact .inl (sameValue.trans given)
  | added vacant patch conflicts members result =>
      exact ⟨_, stateRow_current (patch.of_mem List.mem_cons_self), rfl,
        represents_stateRow s tick request candidate none factId⟩
  | superseded r only ungrouped patch conflicts members result =>
      exact ⟨_, stateRow_current (patch.of_mem (List.mem_cons_of_mem _ List.mem_cons_self)), rfl,
        represents_stateRow s tick request candidate none factId⟩
  | disputed r detail joined only ungrouped patch conflicts member newMember result =>
      exact ⟨_, stateRow_current (patch.of_mem (List.mem_cons_of_mem _ List.mem_cons_self)), rfl,
        represents_stateRow s tick request candidate (some tick.conflictId.text) factId⟩
  | joined r c here group open_ patch conflicts newMember result =>
      exact ⟨_, stateRow_current (patch.of_mem List.mem_cons_self), rfl,
        represents_stateRow s tick request candidate (some c.conflictId) factId⟩

/-- A current fact of a slot in order stands alone, or is a member of the open conflict. -/
theorem SlotInv.alone_or_member {s : Store} {k : Slot} (inv : SlotInv s k) {r : FactRow}
    (here : r ∈ currentRows s.facts k) :
    currentRows s.facts k = [r] ∧ r.conflictGroup = none ∨
      ∃ c ∈ s.conflicts, c.slot = k ∧ c.Unresolved ∧
        r.factId ∈ conflictMemberIds s c.conflictId := by
  cases inv with
  | settled atMostOne ungrouped quiet =>
      obtain ⟨x, only⟩ := List.length_eq_one_iff.1
        (Nat.le_antisymm atMostOne (List.length_pos_of_mem here))
      have same : r = x := by simpa [only] using here
      exact .inl ⟨by rw [only, same], ungrouped r here⟩
  | disputed c mem slot unresolved onlyOpen several grouped members =>
      exact .inr ⟨c, mem, slot, unresolved, mem_conflictMemberIds.2 ((members _).2 ⟨r, here, rfl⟩)⟩

/-- No accepted typed submission is lost.  Unless the key was logged before, the returned
fact is current in the candidate's slot and represents the candidate; where no fact was
ever erased, it is the only current fact of the slot or a member of the open conflict. -/
theorem typed_update_represented {host : Host} {s : Store} {call : WriteCall}
    {candidate : StateCandidate} (typed : call.candidate = some candidate)
    (fresh : loadPrior s call.context.clientId call.request.idempotencyKey = none)
    {s' : Store} {o : WriteOutcome} (done : call.apply host s = .ok (s', o))
    (accepted : Accepted o.outcome) :
    ∃ r ∈ currentRows s'.facts candidate.slot, o.factId = some r.factId ∧
      Represents s candidate r ∧
      (Reached host (fun op _ => ¬ op.Erases) s →
        currentRows s'.facts candidate.slot = [r] ∧ r.conflictGroup = none ∨
          ∃ c ∈ s'.conflicts, c.slot = candidate.slot ∧ c.Unresolved ∧
            r.factId ∈ conflictMemberIds s' c.conflictId) := by
  have sound' : Reached host (fun op _ => ¬ op.Erases) s → SlotSound s' :=
    fun reached => write_slotSound done (slotSound_of_reached reached)
  obtain ⟨context, authorized, -, -, branches⟩ := write_cases done
  obtain ⟨_, _, narrowed⟩ := authorizeContext_eq_ok authorized
  have client : context.clientId = call.context.clientId := by rw [narrowed]
  cases branches with
  | replay prior found sameHash answer frame clients =>
      rw [client, fresh] at found
      cases found
  | factless s₀ decision _ registered decided frame logged answer =>
      obtain ⟨-, outcome, -⟩ := make_eq_ok answer
      rw [outcome] at accepted
      rcases decision.factless with rejected | review
      · exact absurd rejected accepted.1
      · exact absurd review accepted.2
  | typed s₀ s₁ observationId effective d applied _ registered decided recorded observed _ branch
      finished =>
      obtain ⟨-, filled, -⟩ := decide_typed decided
      obtain ⟨original, given, slot, content, value, -⟩ := effectiveCandidate_eq_ok filled
      obtain rfl : candidate = original := Option.some.inj (typed.symm.trans given)
      have before : s₁.facts = s.facts := by rw [observed, registered.frame]
      have after : s'.facts = applied.store.facts := by
        rcases finished.superseded with ⟨-, same⟩ | ⟨_, -, target, -⟩
        · exact same
        · cases target
      obtain ⟨r, here, result, represents⟩ := branch.2.represents
      rw [slot, ← after] at here
      rw [Represents, slot, content, value, before] at represents
      refine ⟨r, here, ?_, represents, fun reached => ?_⟩
      · rw [finished.outcome.2.2.1, result]
      · exact ((sound' reached).slots candidate.slot).alone_or_member here
  | untyped s₀ s₁ observationId near applied _ registered decided _ _ _ _ _ _ =>
      obtain ⟨untyped, -⟩ := decide_untyped decided
      rw [typed] at untyped
      cases untyped

/-- The same sentence with another value. -/
def crimson : WriteCall :=
  ⟨Sample.service, Sample.tick "2", Sample.context "agent-b", Sample.request "the door is red",
    some (Sample.candidate "the door is red" (some "crimson"))⟩

/-- A value that joins the dispute is a member of the open conflict. -/
theorem sample_update_represented :
    ∃ s' o r, Sample.blue.apply Sample.host (step Sample.host (.write Sample.red) Store.empty) =
        .ok (s', o) ∧ r ∈ currentRows s'.facts Sample.slot ∧ o.factId = some r.factId ∧
      Represents (step Sample.host (.write Sample.red) Store.empty)
        (Sample.candidate "the door is blue" (some "blue")) r := by
  have outcome : ((Sample.blue.apply Sample.host
      (step Sample.host (.write Sample.red) Store.empty)).toOption.map fun result =>
        result.2.outcome) = some .conflict := by decide +kernel
  have fresh : loadPrior (step Sample.host (.write Sample.red) Store.empty)
      Sample.blue.context.clientId Sample.blue.request.idempotencyKey = none := by decide +kernel
  cases done : Sample.blue.apply Sample.host (step Sample.host (.write Sample.red) Store.empty) with
  | error e =>
      rw [done] at outcome
      cases outcome
  | ok result =>
      rw [done] at outcome
      have conflict : result.2.outcome = .conflict := Option.some.inj outcome
      obtain ⟨r, here, returned, represents, -⟩ := typed_update_represented rfl fresh done
        (by rw [conflict]; decide)
      exact ⟨result.1, result.2, r, rfl, here, returned, represents⟩

theorem not_carries {s' : Store} {candidate : StateCandidate} {o : WriteOutcome} {factId : Nat}
    (returned : o.factId = some factId)
    (other : ∀ r ∈ currentRows s'.facts candidate.slot, r.factId = factId →
      ∃ value ∈ candidate.objectValue, r.objectValue ≠ some value) : ¬ Carries s' candidate o := by
  rintro ⟨r, here, same, carried⟩
  obtain ⟨value, given, differs⟩ := other r here (Option.some.inj (same.symm.trans returned))
  exact differs (carried value given)

/-- Two accepted submissions that their slot does not carry: the same sentence with another
value is a repetition, and a replay returns the fact that has since lost its dispute. -/
theorem sample_updates_not_carried :
    (∃ s' o, crimson.apply Sample.host (run (step Sample.host) [.write Sample.red] Store.empty) =
        .ok (s', o) ∧ Accepted o.outcome ∧
      ¬ Carries s' (Sample.candidate "the door is red" (some "crimson")) o) ∧
    ∃ s' o, Sample.red.apply Sample.host (run (step Sample.host)
          [.write Sample.red, .write Sample.blue, .resolve sampleResolution] Store.empty) =
        .ok (s', o) ∧ Accepted o.outcome ∧
      ¬ Carries s' (Sample.candidate "the door is red" (some "red")) o := by
  constructor
  · have repeated : ((crimson.apply Sample.host
        (run (step Sample.host) [.write Sample.red] Store.empty)).toOption.map fun result =>
          (result.2.outcome, result.2.factId,
            (currentRows result.1.facts Sample.slot).map FactRow.objectValue)) =
        some (.dedup, some 1, [some "red"]) := by decide +kernel
    cases done : crimson.apply Sample.host
        (run (step Sample.host) [.write Sample.red] Store.empty) with
    | error e =>
        rw [done] at repeated
        cases repeated
    | ok result =>
        rw [done] at repeated
        obtain ⟨outcome, returned, values⟩ : result.2.outcome = .dedup ∧ result.2.factId = some 1 ∧
            (currentRows result.1.facts Sample.slot).map FactRow.objectValue = [some "red"] := by
          simpa [Except.toOption] using repeated
        refine ⟨result.1, result.2, rfl, by rw [outcome]; decide, not_carries returned ?_⟩
        intro r here _
        have value : r.objectValue = some "red" := by
          have listed := List.mem_map_of_mem (f := FactRow.objectValue) here
          rw [show (Sample.candidate "the door is red" (some "crimson")).slot = Sample.slot from rfl,
            values] at listed
          exact List.mem_singleton.1 listed
        exact ⟨"crimson", rfl, by rw [value]; decide⟩
  · have first : ((Sample.red.apply Sample.host Store.empty).toOption.map fun result =>
        (result.2.outcome, result.2.factId)) = some (.add, some 1) := by decide +kernel
    have winners : (currentRows (run (step Sample.host)
        [.write Sample.red, .write Sample.blue, .resolve sampleResolution] Store.empty).facts
          Sample.slot).map FactRow.factId = [2] := by decide +kernel
    cases done : Sample.red.apply Sample.host Store.empty with
    | error e =>
        rw [done] at first
        cases first
    | ok result =>
        rw [done] at first
        obtain ⟨outcome, returned⟩ : result.2.outcome = .add ∧ result.2.factId = some 1 := by
          simpa [Except.toOption] using first
        have start : step Sample.host (.write Sample.red) Store.empty = result.1 := by
          rw [step, done]
          rfl
        obtain ⟨o', replayed, -, ⟨-, sameOutcome, sameFact, -⟩, -⟩ := write_again
          (show Sample.red.apply Sample.host Store.empty = _ from done) [.write Sample.blue, .resolve sampleResolution] rfl rfl ⟨_, rfl⟩ ⟨rfl, rfl, rfl⟩
        rw [run_cons, start] at winners ⊢
        refine ⟨_, o', replayed, by rw [sameOutcome, outcome]; decide,
          not_carries (sameFact.trans returned) ?_⟩
        intro r here lost
        have listed := List.mem_map_of_mem (f := FactRow.factId) here
        rw [show (Sample.candidate "the door is red" (some "red")).slot = Sample.slot from rfl,
          winners, List.mem_singleton, lost] at listed
        cases listed

end Enfold.Laws
