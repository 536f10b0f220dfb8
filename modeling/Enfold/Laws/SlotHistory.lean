/-
# Laws.SlotHistory -- the order of a slot's history

Writes compare instants; the history of a slot orders what the column keeps of their texts, numbers
before texts.  The two agree in every state of a run exactly when every fact that a write adds to
the slot takes its place there (`histories_agree_iff`): where its stored start sorts before or
after that of a fact of the slot, its instant does (`Placed`).  Texts of two zones need not do so
(`zoned_history_disagrees`), nor do a date without hyphens and one with them
(`basic_history_disagrees`).
-/
import Enfold.Laws.InsertedFacts
import Enfold.Laws.StateSupersession
import Enfold.Model.ReadRoutes
import Enfold.Theory.Ranked

namespace Enfold.Laws

open Enfold.Theory Enfold.Model

set_option autoImplicit false

/-- The strict order of the history. -/
def StartsBefore (a b : FactRow) : Prop :=
  a.startKey < b.startKey ∨ a.startKey = b.startKey ∧ a.factId < b.factId

theorem startsBefore_iff {a b : FactRow} :
    StartsBefore a b ↔ toLex (a.startKey, a.factId) < toLex (b.startKey, b.factId) := by
  rw [Prod.Lex.toLex_lt_toLex]
  rfl

instance : Std.Asymm StartsBefore where
  asymm a b := by
    rw [startsBefore_iff, startsBefore_iff]
    exact lt_asymm

theorem startsBefore_or (a b : FactRow) (differ : a.factId ≠ b.factId) :
    StartsBefore a b ∨ StartsBefore b a := by
  rw [startsBefore_iff, startsBefore_iff]
  refine lt_or_gt_of_ne fun same => differ ?_
  exact congrArg (fun key => (ofLex key).2) same

section History

variable {s : Store} {scopes : List String} {subject predicate : String}

/-- The facts the history of a slot is taken from. -/
def slotFacts (s : Store) (scopes : List String) (subject predicate : String) : List FactRow :=
  s.facts.table.select fun r => r.InHistory scopes subject predicate

theorem mem_slotFacts {r : FactRow} : r ∈ slotFacts s scopes subject predicate ↔
    r ∈ s.facts ∧ r.InHistory scopes subject predicate :=
  Table.mem_select

/-- The selected facts in the order of the history. -/
def orderedFacts (s : Store) (scopes : List String) (subject predicate : String) : List FactRow :=
  (slotFacts s scopes subject predicate).insertionSort slotOrder

theorem orderedFacts_perm :
    (orderedFacts s scopes subject predicate).Perm (slotFacts s scopes subject predicate) :=
  List.perm_insertionSort _ _

theorem orderedFacts_pairwise : (orderedFacts s scopes subject predicate).Pairwise StartsBefore := by
  have sorted : (orderedFacts s scopes subject predicate).Pairwise slotOrder :=
    List.pairwise_insertionSort slotOrder _
  have distinct : (orderedFacts s scopes subject predicate).Nodup :=
    orderedFacts_perm.nodup_iff.2 (s.facts.table.nodup_select _)
  refine (sorted.and distinct).imp_of_mem fun {a b} memA memB both => ?_
  obtain ⟨order, differ⟩ := both
  have apart : a.factId ≠ b.factId := fun same => differ <|
    Facts.eq_of_id (mem_slotFacts.1 (orderedFacts_perm.mem_iff.1 memA)).1
      (mem_slotFacts.1 (orderedFacts_perm.mem_iff.1 memB)).1 same
  rcases order with less | ⟨same, le⟩
  · exact .inl less
  · exact .inr ⟨same, lt_of_le_of_ne le apart⟩

end History

/-! ## Agreement -/

theorem TypedEdge.irreflexive {host : Host} {ops : List Op} {a b : Nat}
    (edge : TypedEdge host ops a b) : a ≠ b := by
  rintro rfl
  obtain ⟨old, memOld, new, memNew, here, here', outranks⟩ := edge.goesUp
  obtain rfl := Facts.eq_of_id memOld memNew (here.trans here'.symm)
  obtain ⟨t, t', start, finish, -, less | less⟩ := outranks.time
  · exact lt_irrefl _ less
  · rw [start.unique finish] at less
    exact lt_irrefl _ less

/-- The instant the first starts at is not after that of the second. -/
def NotLater (a b : FactRow) : Prop :=
  ∃ t t', Instant (some a.startText) t ∧ Instant (some b.startText) t' ∧ t ≤ t'

/-- The history holds facts of the slot, all of them when they fit, in the order of their
instants, and no fact after one that a typed write replaced it by. -/
structure HistoryAgrees (host : Host) (ops : List Op) (scopes : List String)
    (subject predicate : String) (limit : Nat) (history : List FactRow) : Prop where
  facts : ∀ r ∈ history, r ∈ slotFacts (run (step host) ops Store.empty) scopes subject predicate
  complete : (slotFacts (run (step host) ops Store.empty) scopes subject predicate).length ≤ limit →
    ∀ r ∈ slotFacts (run (step host) ops Store.empty) scopes subject predicate, r ∈ history
  ordered : history.Pairwise NotLater
  superseded : ∀ a ∈ history, ∀ b ∈ history, TypedEdge host ops a.factId b.factId →
    [a, b].Sublist history

/-- Every history of the slot agrees, whatever its limit. -/
def HistoriesAgree (host : Host) (ops : List Op) (scopes : List String)
    (subject predicate : String) : Prop :=
  ∀ limit, HistoryAgrees host ops scopes subject predicate limit
    (slotHistory (run (step host) ops Store.empty) scopes subject predicate limit)

/-- The stored order of the slot's facts agrees with their instants and with supersession. -/
def Chronological (host : Host) (ops : List Op) (scopes : List String)
    (subject predicate : String) : Prop :=
  ∀ a ∈ slotFacts (run (step host) ops Store.empty) scopes subject predicate,
    ∀ b ∈ slotFacts (run (step host) ops Store.empty) scopes subject predicate,
      StartsBefore a b → NotLater a b ∧ ¬ TypedEdge host ops b.factId a.factId

section Agreement

variable {host : Host} {ops : List Op} {scopes : List String} {subject predicate : String}

theorem Chronological.agree (chronological : Chronological host ops scopes subject predicate) :
    HistoriesAgree host ops scopes subject predicate := by
  intro limit
  have ordered := @orderedFacts_pairwise (run (step host) ops Store.empty) scopes subject predicate
  have perm := @orderedFacts_perm (run (step host) ops Store.empty) scopes subject predicate
  have taken := ordered.sublist (List.take_sublist limit _)
  have inside : ∀ r ∈ slotHistory (run (step host) ops Store.empty) scopes subject predicate limit,
      r ∈ slotFacts (run (step host) ops Store.empty) scopes subject predicate :=
    fun r mem => perm.mem_iff.1 (List.mem_of_mem_take mem)
  refine ⟨inside, fun fits r mem => ?_, ?_, fun a memA b memB edge => ?_⟩
  · show r ∈ (orderedFacts _ scopes subject predicate).take limit
    rw [List.take_of_length_le (by rwa [perm.length_eq])]
    exact perm.mem_iff.2 mem
  · refine List.Pairwise.imp_of_mem (fun {a b} memA memB before => ?_) taken
    exact (chronological a (inside a memA) b (inside b memB) before).1
  · refine (pair_sublist_iff taken).2 ⟨memA, memB, ?_⟩
    rcases startsBefore_or a b edge.irreflexive with before | after
    · exact before
    · exact absurd edge (chronological b (inside b memB) a (inside a memA) after).2

/-- The longest history decides. -/
theorem chronological_of_agree (agree : HistoriesAgree host ops scopes subject predicate) :
    Chronological host ops scopes subject predicate := by
  intro a memA b memB before
  have ordered := @orderedFacts_pairwise (run (step host) ops Store.empty) scopes subject predicate
  have perm := @orderedFacts_perm (run (step host) ops Store.empty) scopes subject predicate
  have whole := agree (orderedFacts (run (step host) ops Store.empty) scopes subject predicate).length
  have all : slotHistory (run (step host) ops Store.empty) scopes subject predicate
      (orderedFacts (run (step host) ops Store.empty) scopes subject predicate).length =
        orderedFacts (run (step host) ops Store.empty) scopes subject predicate :=
    List.take_length
  rw [all] at whole
  have listedA := perm.mem_iff.2 memA
  have listedB := perm.mem_iff.2 memB
  constructor
  · exact List.pairwise_iff_forall_sublist.1 whole.ordered
      ((pair_sublist_iff ordered).2 ⟨listedA, listedB, before⟩)
  · intro edge
    have swapped := (pair_sublist_iff ordered).1 (whole.superseded b listedB a listedA edge)
    exact asymm_of StartsBefore before swapped.2.2

end Agreement

/-! ## Steps -/

theorem startKey_congr {r r' : FactRow} (same : fixedColumns r' = fixedColumns r) :
    r'.startText = r.startText ∧ r'.startKey = r.startKey := by
  obtain ⟨valid, rest⟩ := Prod.mk.inj same
  obtain ⟨created, -⟩ := Prod.mk.inj rest
  have text : r'.startText = r.startText := by
    unfold FactRow.startText
    rw [valid, created]
  exact ⟨text, by rw [FactRow.startKey, text, FactRow.startKey]⟩

theorem NotLater.congr {a b a' b' : FactRow} (holds : NotLater a b)
    (sameA : fixedColumns a' = fixedColumns a) (sameB : fixedColumns b' = fixedColumns b) :
    NotLater a' b' := by
  unfold NotLater
  rw [(startKey_congr sameA).1, (startKey_congr sameB).1]
  exact holds

theorem StartsBefore.congr {a b a' b' : FactRow} (holds : StartsBefore a b)
    (sameA : fixedColumns a' = fixedColumns a) (sameB : fixedColumns b' = fixedColumns b)
    (idA : a'.factId = a.factId) (idB : b'.factId = b.factId) : StartsBefore a' b' := by
  unfold StartsBefore
  rw [(startKey_congr sameA).2, (startKey_congr sameB).2, idA, idB]
  exact holds

/-- Of two ordered instants that are ordered both ways, neither is before the other. -/
theorem NotLater.instants {a b : FactRow} (holds : NotLater a b) {t t' : WithBot Int}
    (start : Instant (some a.startText) t) (finish : Instant (some b.startText) t') : t ≤ t' := by
  obtain ⟨u, u', start', finish', le⟩ := holds
  rwa [start.unique start', finish.unique finish']

/-- A fact with a validity time starts then. -/
theorem startText_of_dated {r : FactRow} (dated : r.validFrom ≠ none) :
    some r.startText = r.validFrom := by
  obtain ⟨text, given⟩ := Option.ne_none_iff_exists'.1 dated
  rw [FactRow.startText, given]
  rfl

theorem startText_of_inHistory {scopes : List String} {subject predicate : String} {r : FactRow}
    (dated : Dated r) (inHistory : r.InHistory scopes subject predicate) :
    some r.startText = r.validFrom :=
  startText_of_dated (dated (by simp [inHistory.2.1]))

section Steps

variable {host : Host} {scopes : List String} {subject predicate : String}

/-- The row a typed write keeps its candidate as. -/
def typedRow (call : WriteCall) (candidate : StateCandidate) (s : Store) : FactRow :=
  stateRow call.tick call.request candidate none s.facts.nextId

/-- The write ends with a fact that was not there. -/
def AddsFact (host : Host) (call : WriteCall) (s : Store) : Prop :=
  ∃ new ∈ (step host (.write call) s).facts, New s.facts new

/-- The new row takes its place next to a fact of the slot: its stored start is before that of the
fact only where its instant is, and not where it would supersede the fact at the same instant. -/
structure Placed (facts : Facts) (k : Slot) (r new : FactRow) : Prop where
  after : r.startKey ≤ new.startKey → NotLater r new
  before : new.startKey < r.startKey → NotLater new r
  unbeaten : new.startKey < r.startKey → currentRows facts k = [r] → r.conflictGroup = none →
    NotLater r new → authority new ≤ authority r

/-- A write adds a fact to the slot only in its place. -/
def Timely (host : Host) (scopes : List String) (subject predicate : String) : Op → Store → Prop
  | .write call, s => ∀ candidate,
      effectiveCandidate call.tick call.request call.candidate = .ok (some candidate) →
      (typedRow call candidate s).InHistory scopes subject predicate → AddsFact host call s →
      ∀ r ∈ slotFacts s scopes subject predicate,
        Placed s.facts candidate.slot r (typedRow call candidate s)
  | _, _ => True

/-- A fact of the slot was one before the step, or is new. -/
theorem slotFacts_step {op : Op} {s : Store} {r' : FactRow}
    (mem' : r' ∈ slotFacts (step host op s) scopes subject predicate) :
    (∃ r ∈ slotFacts s scopes subject predicate, r'.factId = r.factId ∧
        fixedColumns r' = fixedColumns r) ∨ New s.facts r' := by
  obtain ⟨here', inHistory⟩ := mem_slotFacts.1 mem'
  refine or_iff_not_imp_right.2 fun known => ?_
  unfold New at known
  push Not at known
  obtain ⟨r, here, same⟩ := known
  obtain ⟨faded, mem, sameId, kept⟩ := @step_fades host op s r here
  obtain rfl := Facts.eq_of_id mem here' (sameId.trans same)
  have keyed : faded.subjectKey ≠ none := by simp [inHistory.2.1]
  exact ⟨r, mem_slotFacts.2 ⟨here, (inHistory_congr (kept keyed)).1 inHistory⟩, sameId,
    (step_keeps fixedColumns_fixed op s).row here here' sameId⟩

/-- A new fact of the slot is the row of a typed write, in its place. -/
theorem Timely.placed {op : Op} {s : Store} (timely : Timely host scopes subject predicate op s)
    {new : FactRow} (mem : new ∈ slotFacts (step host op s) scopes subject predicate)
    (added : New s.facts new) :
    new.factId = s.facts.nextId ∧ ∃ k, new.InSlot k ∧
      ∀ r ∈ slotFacts s scopes subject predicate, Placed s.facts k r new := by
  obtain ⟨here, inHistory⟩ := mem_slotFacts.1 mem
  by_cases isWrite : ∃ call, op = .write call
  · obtain ⟨call, rfl⟩ := isWrite
    have keyed : new.subjectKey ≠ none := by simp [inHistory.2.1]
    have written : ∃ candidate group, effectiveCandidate call.tick call.request call.candidate =
        .ok (some candidate) ∧
        new = stateRow call.tick call.request candidate group s.facts.nextId := by
      have stepped : step host (.write call) s = commit s (call.apply host s) := rfl
      rw [stepped] at here
      refine commit_induction (P := fun s' : Store => new ∈ s'.facts → ∃ candidate group,
        effectiveCandidate call.tick call.request call.candidate = .ok (some candidate) ∧
          new = stateRow call.tick call.request candidate group s.facts.nextId)
        (fun here => absurd rfl (added new here)) (fun s' o done here => ?_) here
      obtain ⟨candidate, d, observed, applied, group, branch, row⟩ := inserted_typed done here added keyed
      exact ⟨candidate, group, branch.filled, row⟩
    obtain ⟨candidate, group, filled, rfl⟩ := written
    refine ⟨rfl, candidate.slot, stateRow_inSlot group _, fun r memR => ?_⟩
    have placed := timely candidate filled inHistory ⟨_, here, added⟩ r memR
    exact ⟨placed.after, placed.before, placed.unbeaten⟩
  · exact absurd added (unwritten_adds_none (fun call same => isWrite ⟨call, same⟩) new here)

/-- An edge of a longer run was there, or its last operation made it. -/
theorem TypedEdge.last {ops : List Op} {op : Op} {a b : Nat}
    (edge : TypedEdge host (ops ++ [op]) a b) :
    TypedEdge host ops a b ∨ ∃ old new, old.factId = a ∧ new.factId = b ∧
      Supersedes (run (step host) ops Store.empty).facts
        (step host op (run (step host) ops Store.empty)).facts old new := by
  obtain ⟨before, op', after, same, typed, absent, made⟩ := edge
  rcases List.eq_nil_or_concat after with rfl | ⟨after, last, rfl⟩
  · obtain ⟨rfl, rfl⟩ := List.append_singleton_inj.1 same
    rw [run_append] at made
    exact .inr (typed.supersedes absent made)
  · rw [List.concat_eq_append, ← List.cons_append, ← List.append_assoc] at same
    obtain ⟨rfl, -⟩ := List.append_singleton_inj.1 same
    exact .inl ⟨before, op', after, rfl, typed, absent, made⟩

/-- No edge of a run ends at a fact that is not there. -/
theorem New.no_edge {ops : List Op} {new : FactRow} {a b : Nat}
    (added : New (run (step host) ops Store.empty).facts new) (edge : TypedEdge host ops a b) :
    a ≠ new.factId ∧ b ≠ new.factId := by
  obtain ⟨old, memOld, later, memNew, rfl, rfl, -⟩ := edge.goesUp
  exact ⟨added old memOld, added later memNew⟩

/-- A row in its place does not supersede a fact that the history lists after it. -/
theorem Placed.not_supersedes {facts facts' : Facts} {k : Slot} {r new : FactRow}
    (placed : Placed facts k r new) (inSlot : new.InSlot k) (less : new.startKey < r.startKey)
    (dated : some r.startText = r.validFrom) (dated' : some new.startText = new.validFrom) :
    ¬ Supersedes facts facts' r new := by
  intro supersedes
  obtain ⟨k', only, ungrouped, inSlot'⟩ := supersedes.slot
  obtain rfl := inSlot.unique inSlot'
  obtain ⟨t, t', start, finish, le, strict⟩ := supersedes.outranks.time
  rw [← dated] at start
  rw [← dated'] at finish
  have weaker := placed.unbeaten less only ungrouped ⟨t, t', start, finish, le⟩
  rcases strict with stronger | later
  · exact absurd stronger (not_lt_of_ge weaker)
  · exact absurd later (not_lt_of_ge ((placed.before less).instants finish start))

/-- A step that adds facts in their place keeps the order: of two facts of the slot that were there
neither the order nor an edge is new, no new fact gives way, and there is only one. -/
theorem Chronological.step {ops : List Op} {op : Op}
    (chronological : Chronological host ops scopes subject predicate)
    (timely : Timely host scopes subject predicate op (run (step host) ops Store.empty)) :
    Chronological host (ops ++ [op]) scopes subject predicate := by
  intro a' memA b' memB before
  rw [run_append] at memA memB
  rcases slotFacts_step memA with ⟨a, oldA, idA, columnsA⟩ | newA <;>
    rcases slotFacts_step memB with ⟨b, oldB, idB, columnsB⟩ | newB
  · obtain ⟨notLater, noEdge⟩ := chronological a oldA b oldB
      (before.congr columnsA.symm columnsB.symm idA.symm idB.symm)
    refine ⟨notLater.congr columnsA columnsB, fun edge => ?_⟩
    rcases edge.last with edge | ⟨old, new, sameB, sameA, supersedes⟩
    · exact noEdge (idA ▸ idB ▸ edge)
    · exact supersedes.novel a (mem_slotFacts.1 oldA).1 (idA.symm.trans sameA.symm)
  · obtain ⟨-, k, -, placed⟩ := timely.placed memB newB
    have le : a.startKey ≤ b'.startKey := by
      rw [← (startKey_congr columnsA).2]
      exact before.elim le_of_lt fun same => same.1.le
    refine ⟨((placed a oldA).after le).congr columnsA rfl, fun edge => ?_⟩
    rcases edge.last with edge | ⟨old, new, sameB, sameA, supersedes⟩
    · exact (newB.no_edge edge).1 rfl
    · exact newB old supersedes.there sameB
  · obtain ⟨next, k, inSlot, placed⟩ := timely.placed memA newA
    have later : ¬ a'.factId < b.factId := by
      rw [next]
      exact not_lt_of_ge (Nat.le_succ_of_le (Facts.bounded _ b (mem_slotFacts.1 oldB).1))
    have less : a'.startKey < b.startKey := by
      rw [← (startKey_congr columnsB).2]
      exact before.resolve_right fun same => later (idB ▸ same.2)
    refine ⟨((placed b oldB).before less).congr rfl columnsB, fun edge => ?_⟩
    rcases edge.last with edge | ⟨old, new, sameB, sameA, supersedes⟩
    · exact (newA.no_edge edge).2 rfl
    · obtain rfl := Facts.eq_of_id supersedes.there (mem_slotFacts.1 oldB).1 (sameB.trans idB)
      obtain rfl := Facts.eq_of_id supersedes.added (mem_slotFacts.1 memA).1 sameA
      obtain ⟨here, inHistory⟩ := mem_slotFacts.1 oldB
      obtain ⟨here', inHistory'⟩ := mem_slotFacts.1 memA
      have dated := dated_of_run host ops
      exact (placed _ oldB).not_supersedes inSlot less
        (startText_of_inHistory (dated _ here) inHistory)
        (startText_of_inHistory (step_dated dated _ here') inHistory') supersedes
  · obtain ⟨next, -⟩ := timely.placed memA newA
    obtain ⟨next', -⟩ := timely.placed memB newB
    obtain rfl := Facts.eq_of_id (mem_slotFacts.1 memA).1 (mem_slotFacts.1 memB).1
      (next.trans next'.symm)
    exact absurd before (asymm_of StartsBefore before)

/-- A typed write adds the row of its candidate. -/
theorem AddsFact.row {call : WriteCall} {s : Store} (adds : AddsFact host call s)
    {candidate : StateCandidate}
    (filled : effectiveCandidate call.tick call.request call.candidate = .ok (some candidate)) :
    ∃ s' o d observed applied group, call.apply host s = .ok (s', o) ∧
      step host (.write call) s = s' ∧
      TypedBranch call s s' candidate d observed applied s.facts.nextId ∧
      stateRow call.tick call.request candidate group s.facts.nextId ∈ s'.facts := by
  obtain ⟨new, mem, added⟩ := adds
  have stepped : step host (.write call) s = commit s (call.apply host s) := rfl
  cases done : call.apply host s with
  | error e =>
      rw [stepped, done] at mem
      exact absurd rfl (added new mem)
  | ok result =>
      obtain ⟨s', o⟩ := result
      rw [done] at stepped
      have typed : call.candidate ≠ none := by
        obtain ⟨original, given, -⟩ := effectiveCandidate_eq_ok filled
        simp [given]
      rw [stepped] at mem
      rcases write_typed done typed with same | ⟨candidate', d, observed, applied, factId, branch⟩
      · rw [show commit s (.ok (s', o)) = s' from rfl, same] at mem
        exact absurd rfl (added new mem)
      · obtain rfl := Option.some.inj (Except.ok.inj (branch.filled.symm.trans filled))
        have inside : new ∈ applied.facts := branch.after ▸ mem
        have fresh : New observed.facts new := branch.before ▸ added
        obtain ⟨result, group, rfl⟩ := branch.effect.new_eq inside fresh
        rw [branch.before] at result
        subst result
        exact ⟨s', o, d, observed, applied, group, rfl, stepped, branch, mem⟩

/-- A fact that was there, as it is after a write. -/
theorem slotFacts_kept {call : WriteCall} {s s' : Store} {o : WriteOutcome} {r : FactRow}
    (done : call.apply host s = .ok (s', o)) (mem : r ∈ slotFacts s scopes subject predicate) :
    ∃ r' ∈ slotFacts s' scopes subject predicate, r'.factId = r.factId ∧
      fixedColumns r' = fixedColumns r := by
  obtain ⟨here, inHistory⟩ := mem_slotFacts.1 mem
  obtain ⟨r', here', same, columns⟩ := write_keeps fixedColumns_fixed.toUnmoved done r here
  have slot : slotColumns r' = slotColumns r :=
    (write_keeps slotColumns_unmoved done).row here here' same
  exact ⟨r', mem_slotFacts.2 ⟨here', (inHistory_congr slot).2 inHistory⟩, same, columns⟩

/-- A write supersedes a settled fact of the slot by a row of more authority that does not start
before it. -/
theorem TypedBranch.supersedes {call : WriteCall} {s s' observed applied : Store}
    {candidate : StateCandidate} {d : SlotDecision} {r : FactRow}
    (branch : TypedBranch call s s' candidate d observed applied s.facts.nextId)
    (only : currentRows s.facts candidate.slot = [r]) (ungrouped : r.conflictGroup = none)
    (stronger : authority r < authority (typedRow call candidate s)) {t t' : WithBot Int}
    (start : Instant r.validFrom t) (finish : Instant candidate.validFrom t') (le : t ≤ t') :
    successor s'.facts r.factId = some s.facts.nextId := by
  have next : s.facts.nextId = observed.facts.nextId := by rw [branch.before]
  have rows : currentRows observed.facts candidate.slot = [r] := by rw [branch.before, only]
  rw [branch.after]
  rcases branch.effect.against next rows ungrouped with disputed | ⟨-, edge⟩
  · have decided := decideStateWrite_against branch.kind branch.decided (by simp [disputed]) rows
      ungrouped
    rw [decideAgainst_stronger decided stronger start finish le] at disputed
    cases disputed
  · exact edge

/-- Where the order holds after a write that makes no edge against it, the row is in its place. -/
theorem placed_of_ordered {call : WriteCall} {s s' observed applied : Store} {o : WriteOutcome}
    {candidate : StateCandidate} {d : SlotDecision} {group : Option String} {r new : FactRow}
    (done : call.apply host s = .ok (s', o))
    (branch : TypedBranch call s s' candidate d observed applied s.facts.nextId)
    (row : new = stateRow call.tick call.request candidate group s.facts.nextId)
    (memNew : new ∈ slotFacts s' scopes subject predicate)
    (ordered : ∀ a ∈ slotFacts s' scopes subject predicate,
      ∀ b ∈ slotFacts s' scopes subject predicate, StartsBefore a b → NotLater a b ∧
        ¬ (successor s.facts b.factId ≠ some a.factId ∧ successor s'.facts b.factId = some a.factId))
    (dated : Dated r) (mem : r ∈ slotFacts s scopes subject predicate) :
    Placed s.facts candidate.slot r (typedRow call candidate s) := by
  obtain ⟨r', mem', same, columns⟩ := slotFacts_kept done mem
  obtain ⟨here, inHistory⟩ := mem_slotFacts.1 mem
  have key : new.startKey = (typedRow call candidate s).startKey := by rw [row]; rfl
  have kept : fixedColumns (typedRow call candidate s) = fixedColumns new := by rw [row]; rfl
  have behind : (typedRow call candidate s).startKey < r.startKey → StartsBefore new r' := by
    intro less
    rw [← (startKey_congr columns).2, ← key] at less
    exact .inl less
  refine ⟨fun le => ?_, fun less => ?_, fun less only ungrouped notLater => ?_⟩
  · have before : StartsBefore r' new := by
      rw [← (startKey_congr columns).2, ← key] at le
      refine le.lt_or_eq.imp_right fun even => ⟨even, ?_⟩
      rw [same, row]
      exact Nat.lt_succ_of_le (Facts.bounded _ r here)
    exact (ordered r' mem' new memNew before).1.congr columns.symm kept
  · exact (ordered new memNew r' mem' (behind less)).1.congr kept columns.symm
  · by_contra weaker
    obtain ⟨t, t', start, finish, le⟩ := notLater
    rw [startText_of_inHistory dated inHistory] at start
    rw [startText_of_dated (effectiveCandidate_dated branch.filled)] at finish
    have edge := branch.supersedes only ungrouped (not_le.1 weaker) start finish le
    have current := (mem_of_only only).2.2
    refine (ordered new memNew r' mem' (behind less)).2 ⟨?_, ?_⟩
    · rw [same, successor_of_mem here, current.2]
      exact Option.some_ne_none _ ∘ Eq.symm
    · rw [same, edge, row]
      rfl

/-- Where the order holds after a step, the step added facts in their place. -/
theorem timely_of_chronological {ops : List Op} {op : Op}
    (chronological : Chronological host (ops ++ [op]) scopes subject predicate) :
    Timely host scopes subject predicate op (run (step host) ops Store.empty) := by
  cases op with
  | write call =>
      intro candidate filled inHistory adds r memR
      obtain ⟨s', o, d, observed, applied, group, done, stepped, branch, mem⟩ := adds.row filled
      have dated := dated_of_run host ops
      refine placed_of_ordered done branch rfl (mem_slotFacts.2 ⟨mem, inHistory⟩)
        (fun a memA b memB before => ?_) (dated r (mem_slotFacts.1 memR).1) memR
      have reached : run (step host) (ops ++ [.write call]) Store.empty = s' := by
        rw [run_append]
        exact stepped
      obtain ⟨notLater, noEdge⟩ := chronological a (reached ▸ memA) b (reached ▸ memB) before
      refine ⟨notLater, fun new => noEdge ⟨ops, .write call, [], rfl, ?_, new.1, ?_⟩⟩
      · obtain ⟨original, given, -⟩ := effectiveCandidate_eq_ok filled
        exact fun untyped => by simp [given] at untyped
      · rw [reached]
        exact new.2
  | _ => trivial

end Steps

/-- The histories of a slot agree with its instants and with supersession in every state of a run
exactly when each of its writes adds a fact to the slot only in its place. -/
theorem histories_agree_iff (host : Host) (ops : List Op) (scopes : List String)
    (subject predicate : String) :
    (∀ before after, ops = before ++ after →
        HistoriesAgree host before scopes subject predicate) ↔
      Admits (step host) (Timely host scopes subject predicate) ops Store.empty := by
  induction ops using List.reverseRecOn with
  | nil =>
      refine ⟨fun _ => trivial, fun _ before after same => ?_⟩
      obtain ⟨rfl, -⟩ := List.nil_eq_append_iff.1 same
      exact Chronological.agree fun a mem => absurd (mem_slotFacts.1 mem).1 (Facts.not_mem_empty a)
  | append_singleton ops op ih =>
      constructor
      · intro agree
        have earlier := ih.1 fun before after same =>
          agree before (after ++ [op]) (by rw [same, List.append_assoc])
        have chronological := chronological_of_agree (agree (ops ++ [op]) [] (by simp))
        exact earlier.append ⟨timely_of_chronological chronological, trivial⟩
      · intro admitted before after same
        obtain ⟨earlier, last, -⟩ := admitted.split
        have agree := ih.2 earlier
        rcases List.eq_nil_or_concat after with rfl | ⟨after, op', rfl⟩
        · rw [List.append_nil] at same
          rw [← same]
          exact ((chronological_of_agree (agree ops [] (by simp))).step last).agree
        · rw [List.concat_eq_append, ← List.append_assoc] at same
          exact agree before after (List.append_singleton_inj.1 same).1

/-! ## Texts that do not sort as their instants -/

/-- A history does not agree where it lists the later end of an edge first. -/
theorem TypedEdge.not_reversed {host : Host} {ops : List Op} {scopes : List String}
    {subject predicate : String} {limit a b : Nat} {history : List FactRow}
    (edge : TypedEdge host ops a b) (listed : history.map FactRow.factId = [b, a]) :
    ¬ HistoryAgrees host ops scopes subject predicate limit history := by
  intro agrees
  obtain ⟨later, rest, rfl, rfl, listed'⟩ := List.map_eq_cons_iff.1 listed
  obtain ⟨earlier, rest', rfl, rfl, last⟩ := List.map_eq_cons_iff.1 listed'
  obtain rfl := List.map_eq_nil_iff.1 last
  have order := agrees.superseded earlier (by simp) later (by simp) edge
  have swapped := order.eq_of_length rfl
  simp only [List.cons.injEq] at swapped
  exact edge.irreflexive (congrArg FactRow.factId swapped.1)

/-- Red from an instant written in an eastern zone, then blue from a later one with a smaller
text. -/
def zonedWrites : List Op :=
  [.write (redFrom "2026-01-01T02:00:00+05:00" ⟨_, rfl⟩),
    .write (blueFrom "2026-01-01T01:00:00+00:00" ⟨_, rfl⟩)]

/-- Blue superseded red, and the history lists it first. -/
theorem zoned_history_disagrees :
    TypedEdge Sample.host zonedWrites 1 2 ∧
      ¬ HistoryAgrees Sample.host zonedWrites ["work"] "door" "color" 100
        (slotHistory (run (step Sample.host) zonedWrites Store.empty) ["work"] "door" "color"
          100) := by
  have edge : TypedEdge Sample.host zonedWrites 1 2 :=
    ⟨[_], _, [], rfl, Option.some_ne_none _, by decide +kernel, by decide +kernel⟩
  exact ⟨edge, edge.not_reversed (by decide +kernel)⟩

/-- Red from a day, then blue from the next one, whose text is a number. -/
def basicWrites : List Op :=
  [.write (redFrom "2025-12-31" ⟨_, rfl⟩), .write (blueFrom "20260101" ⟨_, rfl⟩)]

/-- A date without hyphens is listed before every date with them. -/
theorem basic_history_disagrees :
    TypedEdge Sample.host basicWrites 1 2 ∧
      ¬ HistoryAgrees Sample.host basicWrites ["work"] "door" "color" 100
        (slotHistory (run (step Sample.host) basicWrites Store.empty) ["work"] "door" "color"
          100) := by
  have edge : TypedEdge Sample.host basicWrites 1 2 :=
    ⟨[_], _, [], rfl, Option.some_ne_none _, by decide +kernel, by decide +kernel⟩
  exact ⟨edge, edge.not_reversed (by decide +kernel)⟩

end Enfold.Laws
