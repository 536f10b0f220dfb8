/-
# Laws.StateSupersession -- typed supersession goes up

A typed write supersedes the fact of its slot only with at least its authority and at least
its validity time, one of them strictly more (`Outranks`), the times compared as instants.
Neither column changes later, so the edge stays so in every later store, and along a path of
such edges neither goes down (`state_supersession_monotone`).
-/
import Enfold.Laws.InsertedFacts
import Enfold.Laws.Lineage
import Mathlib.Data.Int.ConditionallyCompleteOrder
import Mathlib.Order.ConditionallyCompleteLattice.Basic
import Mathlib.Order.WithBot

namespace Enfold.Laws

open Enfold.Theory Enfold.Model Relation

set_option autoImplicit false

/-- The authority of a fact. -/
def authority (r : FactRow) : ℚ := (r.sourceAuthority.getD Decimal.half).value

/-- The instant a text names, in microseconds; a missing one is before all others. -/
def Instant (text : Option String) (t : WithBot Int) : Prop := parseTimestamp text = .ok t

theorem Instant.unique {text : Option String} {t t' : WithBot Int} (here : Instant text t)
    (here' : Instant text t') : t = t' :=
  Except.ok.inj (here.symm.trans here')

/-- The new fact has no less authority and starts no earlier, and one of the two is strict. -/
structure Outranks (new old : FactRow) : Prop where
  authority : authority old ≤ authority new
  time : ∃ t t', Instant old.validFrom t ∧ Instant new.validFrom t' ∧ t ≤ t' ∧
    (Laws.authority old < Laws.authority new ∨ t < t')

namespace Outranks

variable {a b c : FactRow}

theorem trans (second : Outranks c b) (first : Outranks b a) : Outranks c a := by
  obtain ⟨t, t', start, middle, le, strict⟩ := first.time
  obtain ⟨u, u', middle', finish, le', -⟩ := second.time
  obtain rfl := middle.unique middle'
  refine ⟨first.authority.trans second.authority, t, u', start, finish, le.trans le', ?_⟩
  exact strict.imp (fun less => less.trans_le second.authority) fun less => less.trans_le le'

/-- Only the two columns matter. -/
theorem congr {a' b' : FactRow} (outranks : Outranks b a) (old : fixedColumns a' = fixedColumns a)
    (new : fixedColumns b' = fixedColumns b) : Outranks b' a' := by
  obtain ⟨validA, -, authorityA, -⟩ : a'.validFrom = a.validFrom ∧ a'.createdAt = a.createdAt ∧
      a'.sourceAuthority = a.sourceAuthority ∧ a'.correctionStatus = a.correctionStatus := by
    simpa [fixedColumns] using old
  obtain ⟨validB, -, authorityB, -⟩ : b'.validFrom = b.validFrom ∧ b'.createdAt = b.createdAt ∧
      b'.sourceAuthority = b.sourceAuthority ∧ b'.correctionStatus = b.correctionStatus := by
    simpa [fixedColumns] using new
  have heldA : Laws.authority a' = Laws.authority a := by
    rw [Laws.authority, authorityA, Laws.authority]
  have heldB : Laws.authority b' = Laws.authority b := by
    rw [Laws.authority, authorityB, Laws.authority]
  constructor
  · rw [heldA, heldB]
    exact outranks.authority
  · rw [validA, validB, heldA, heldB]
    exact outranks.time

end Outranks

/-! ## One write -/

/-- The two ends are facts, and the second outranks the first. -/
def GoesUp (facts : Facts) (a b : Nat) : Prop :=
  ∃ old ∈ facts, ∃ new ∈ facts, old.factId = a ∧ new.factId = b ∧ Outranks new old

theorem le_of_notOlder {t' t : Option Int} (newer : notOlder t' t = true) :
    @LE.le (WithBot Int) _ t t' := by
  cases t with
  | none => exact bot_le
  | some existing =>
      cases t' with
      | none => cases newer
      | some candidate => exact WithBot.coe_le_coe.2 (of_decide_eq_true newer)

theorem notOlder_of_le {t' t : Option Int} (le : @LE.le (WithBot Int) _ t t') :
    notOlder t' t = true := by
  cases t with
  | none => rfl
  | some existing =>
      cases t' with
      | none => exact absurd le (WithBot.not_coe_le_bot existing)
      | some candidate => exact decide_eq_true (WithBot.coe_le_coe.1 le)

theorem lt_of_fresher {t' t : Option Int} (newer : fresher t' t = true) :
    @LT.lt (WithBot Int) _ t t' := by
  cases t' with
  | none => cases newer
  | some candidate =>
      cases t with
      | none => exact WithBot.bot_lt_coe candidate
      | some existing => exact WithBot.coe_lt_coe.2 (of_decide_eq_true newer)

/-- The decision to supersede compares what the two rows will hold. -/
theorem decideAgainst_outranks {candidate : StateCandidate} {r new : FactRow} {d : SlotDecision}
    (decided : decideAgainst candidate (.ofRow r) = .ok d) (supersedes : d.action = .supersede)
    (sameTime : new.validFrom = candidate.validFrom)
    (sameAuthority : new.sourceAuthority = some candidate.sourceAuthority) : Outranks new r := by
  obtain ⟨t', parsed', decided⟩ := bind_eq_ok.1 decided
  obtain ⟨t, parsed, decided⟩ := bind_eq_ok.1 decided
  have start : Instant r.validFrom t := storedTimestamp_eq_ok parsed
  have finish : Instant new.validFrom t' := by
    rw [sameTime]
    exact parsed'
  have held : authority new = candidate.sourceAuthority.value := by
    rw [authority, sameAuthority]
    rfl
  split at decided
  · rename_i wins
    refine ⟨?_, t, t', start, finish, le_of_notOlder wins.2, ?_⟩
    · rw [held]
      exact wins.1.le
    · rw [held]
      exact .inl wins.1
  split at decided
  · rename_i wins
    have later := lt_of_fresher wins.2
    refine ⟨?_, t, t', start, finish, later.le, .inr later⟩
    rw [held]
    exact wins.1.ge
  · cases pure_eq_ok.1 decided
    cases supersedes

/-- A slot with one settled fact is decided against it, unless the write repeats the fact. -/
theorem decideStateWrite_against {s : Store} {candidate : StateCandidate} {r : FactRow}
    {d : SlotDecision} (kind : candidate.memoryKind = "state")
    (decided : decideStateWrite s candidate = .ok d) (apart : d.action ≠ .dedup)
    (only : currentRows s.facts candidate.slot = [r]) (ungrouped : r.conflictGroup = none) :
    decideAgainst candidate (.ofRow r) = .ok d := by
  unfold decideStateWrite at decided
  rw [if_neg (by simp [kind]), currentStateFacts_of candidate.subjectValid candidate.predicateValid
    candidate.scopeValid, ok_bind] at decided
  have alone : currentRows s.facts ⟨candidate.scope, candidate.subjectKey, candidate.predicateKey⟩ =
      [r] := only
  rw [alone] at decided
  have settled : ¬ (([] : List CurrentStateFact) ≠ [] ∨
      [CurrentStateFact.ofRow r].any (fun fact => grouped fact.conflictGroup) = true) := by
    simp [CurrentStateFact.ofRow, ungrouped, grouped]
  simp only [decideAmong, List.map_cons, List.map_nil] at decided
  rw [if_neg settled] at decided
  split at decided
  · cases decided
    exact absurd rfl apart
  · exact decided

/-- A candidate of more authority that is not older wins. -/
theorem decideAgainst_stronger {candidate : StateCandidate} {r : FactRow} {d : SlotDecision}
    (decided : decideAgainst candidate (.ofRow r) = .ok d)
    (stronger : authority r < candidate.sourceAuthority.value) {t t' : WithBot Int}
    (start : Instant r.validFrom t) (finish : Instant candidate.validFrom t') (le : t ≤ t') :
    d.action = .supersede := by
  obtain ⟨candidateTime, parsed', decided⟩ := bind_eq_ok.1 decided
  obtain ⟨existingTime, parsed, decided⟩ := bind_eq_ok.1 decided
  obtain rfl := start.unique (storedTimestamp_eq_ok parsed)
  obtain rfl := finish.unique parsed'
  split at decided
  · cases pure_eq_ok.1 decided
    rfl
  · rename_i loses
    exact absurd ⟨stronger, notOlder_of_le le⟩ loses

section Edge

variable {host : Host} {call : WriteCall} {s s' : Store} {o : WriteOutcome} {a b : Nat}

/-- A typed branch makes an edge only from the settled fact of its slot to the one that it
adds. -/
theorem StateEffect.edge {tick : Tick} {request : WriteRequest} {candidate : StateCandidate}
    {d : SlotDecision} {factId : Nat}
    (effect : StateEffect tick request candidate d s s' factId)
    (absent : successor s.facts a ≠ some b) (made : successor s'.facts a = some b) :
    ∃ r, currentRows s.facts candidate.slot = [r] ∧ r.conflictGroup = none ∧ r.factId = a ∧
      d.action = .supersede ∧ factId = s.facts.nextId ∧ b = factId ∧
      stateRow tick request candidate none factId ∈ s'.facts := by
  obtain ⟨r', found, edge⟩ := Option.bind_eq_some_iff.1 made
  obtain ⟨mem', rfl⟩ := Facts.get?_eq_some.1 found
  have notNew : ∀ group, r' ≠ stateRow tick request candidate group factId := by
    rintro group rfl
    cases edge
  have notOld : r' ∉ s.facts := fun mem => absent (by rw [successor_of_mem mem, edge])
  cases effect with
  | repeated r here repeats result same =>
      rw [same] at mem'
      exact absurd mem' notOld
  | added vacant patch conflicts members result =>
      rcases (patch r').1 mem' with memP | ⟨mem, -⟩
      · exact absurd (List.mem_singleton.1 memP) (notNew _)
      · exact absurd mem notOld
  | superseded r only ungrouped patch conflicts members result chosen =>
      rcases (patch r').1 mem' with memP | ⟨mem, -⟩
      · rcases List.mem_cons.1 memP with rfl | memP
        · refine ⟨r, only, ungrouped, rfl, chosen.1, result, (Option.some.inj edge).symm, ?_⟩
          exact patch.of_mem (List.mem_cons_of_mem _ List.mem_cons_self)
        · exact absurd (List.mem_singleton.1 memP) (notNew _)
      · exact absurd mem notOld
  | disputed r detail joined only ungrouped patch conflicts member newMember result =>
      obtain ⟨-, -, current⟩ := mem_of_only only
      rcases (patch r').1 mem' with memP | ⟨mem, -⟩
      · rcases List.mem_cons.1 memP with rfl | memP
        · exact absurd (current.2.symm.trans edge) (by simp)
        · exact absurd (List.mem_singleton.1 memP) (notNew _)
      · exact absurd mem notOld
  | joined r c here group opened patch conflicts newMember result =>
      rcases (patch r').1 mem' with memP | ⟨mem, -⟩
      · exact absurd (List.mem_singleton.1 memP) (notNew _)
      · exact absurd mem notOld

/-- A typed branch that adds a fact to a slot with one settled fact disputes it or replaces it. -/
theorem StateEffect.against {tick : Tick} {request : WriteRequest} {candidate : StateCandidate}
    {d : SlotDecision} {factId : Nat} {r : FactRow}
    (effect : StateEffect tick request candidate d s s' factId) (result : factId = s.facts.nextId)
    (only : currentRows s.facts candidate.slot = [r]) (ungrouped : r.conflictGroup = none) :
    d.action = .conflict ∨ d.action = .supersede ∧ successor s'.facts r.factId = some factId := by
  cases effect with
  | repeated r' here repeats same =>
      exact absurd (same.symm.trans result) (Facts.nextId_fresh (mem_currentRows.1 here).1)
  | added vacant => simp [vacant] at only
  | superseded r' only' ungrouped' patch conflicts members result' chosen =>
      obtain rfl := List.singleton_inj.1 (only'.symm.trans only)
      have mem := patch.of_mem (r := supersededRow r' tick.recordedAt factId) List.mem_cons_self
      exact .inr ⟨chosen.1, successor_of_mem mem⟩
  | disputed _ _ _ _ _ _ _ _ _ _ chosen => exact .inl chosen
  | joined r' c here group =>
      rw [only] at here
      rw [List.mem_singleton.1 here, ungrouped] at group
      cases group

/-- The settled fact of a slot gave way to one that was added and outranks it. -/
structure Supersedes (facts facts' : Facts) (old new : FactRow) : Prop where
  there : old ∈ facts
  added : new ∈ facts'
  novel : New facts new
  slot : ∃ k, currentRows facts k = [old] ∧ old.conflictGroup = none ∧ new.InSlot k
  outranks : Outranks new old

/-- The edge that a typed write makes. -/
theorem typed_write_supersedes (done : call.apply host s = .ok (s', o))
    (typed : call.candidate ≠ none) (absent : successor s.facts a ≠ some b)
    (made : successor s'.facts a = some b) :
    ∃ old new, old.factId = a ∧ new.factId = b ∧ Supersedes s.facts s'.facts old new := by
  rcases write_typed done typed with same | ⟨candidate, d, observed, applied, factId, branch⟩
  · rw [same] at made
    exact absurd made absent
  · rw [branch.after] at made
    rw [← branch.before] at absent
    obtain ⟨r, only, ungrouped, here, supersedes, rfl, rfl, added⟩ := branch.effect.edge absent made
    have decided := decideStateWrite_against branch.kind branch.decided (by simp [supersedes]) only
      ungrouped
    have outranks : Outranks (stateRow call.tick call.request candidate none observed.facts.nextId)
        r := decideAgainst_outranks decided supersedes rfl rfl
    rw [branch.before] at only
    refine ⟨r, _, here, rfl, (mem_of_only only).1, branch.after ▸ added, fun old mem => ?_,
      ⟨candidate.slot, only, ungrouped, stateRow_inSlot none _⟩, outranks⟩
    rw [branch.before]
    exact Facts.nextId_fresh mem

end Edge

/-! ## Runs -/

/-- A write of a state candidate. -/
def TypedWrite : Op → Prop
  | .write call => call.candidate ≠ none
  | _ => False

/-- Some typed write of the run made the edge. -/
def TypedEdge (host : Host) (ops : List Op) (a b : Nat) : Prop :=
  ∃ before op after, ops = before ++ op :: after ∧ TypedWrite op ∧
    successor (run (step host) before Store.empty).facts a ≠ some b ∧
    successor (run (step host) (before ++ [op]) Store.empty).facts a = some b

theorem GoesUp.trans {facts : Facts} {a b c : Nat} (first : GoesUp facts a b)
    (second : GoesUp facts b c) : GoesUp facts a c := by
  obtain ⟨old, memOld, middle, memMiddle, rfl, rfl, up⟩ := first
  obtain ⟨middle', memMiddle', new, memNew, same, rfl, up'⟩ := second
  obtain rfl := Facts.eq_of_id memMiddle' memMiddle same
  exact ⟨old, memOld, new, memNew, rfl, rfl, up'.trans up⟩

theorem GoesUp.kept {facts facts' : Facts} {a b : Nat} (up : GoesUp facts a b)
    (keeps : Keeps fixedColumns facts facts') : GoesUp facts' a b := by
  obtain ⟨old, memOld, new, memNew, rfl, rfl, outranks⟩ := up
  obtain ⟨old', memOld', sameOld, columnsOld⟩ := keeps old memOld
  obtain ⟨new', memNew', sameNew, columnsNew⟩ := keeps new memNew
  exact ⟨old', memOld', new', memNew', sameOld, sameNew, outranks.congr columnsOld columnsNew⟩

variable {host : Host} {ops : List Op} {a b : Nat}

/-- What a typed write did when it made an edge. -/
theorem TypedWrite.supersedes {op : Op} {s : Store} (typed : TypedWrite op)
    (absent : successor s.facts a ≠ some b) (made : successor (step host op s).facts a = some b) :
    ∃ old new, old.factId = a ∧ new.factId = b ∧
      Supersedes s.facts (step host op s).facts old new := by
  cases op with
  | write call =>
      have stepped : step host (.write call) s = commit s (call.apply host s) := rfl
      rw [stepped] at made ⊢
      exact commit_induction (P := fun s' => successor s'.facts a = some b →
          ∃ old new, old.factId = a ∧ new.factId = b ∧ Supersedes s.facts s'.facts old new)
        (fun same => absurd same absent)
        (fun s' o done made => typed_write_supersedes done typed absent made) made
  | _ => exact absurd typed id

theorem TypedEdge.goesUp (edge : TypedEdge host ops a b) :
    GoesUp (run (step host) ops Store.empty).facts a b := by
  obtain ⟨before, op, after, rfl, typed, absent, made⟩ := edge
  rw [run_append, run_cons, run_nil] at made
  rw [run_append, run_cons]
  refine GoesUp.kept ?_ (run_keeps fixedColumns_fixed after _)
  obtain ⟨old, new, rfl, rfl, supersedes⟩ := typed.supersedes absent made
  obtain ⟨old', mem', same, columns⟩ :=
    @step_keeps _ _ fixedColumns_fixed host op _ old supersedes.there
  exact ⟨old', mem', new, supersedes.added, same, rfl, supersedes.outranks.congr columns rfl⟩

/-- The edge is still there at the end of the run. -/
theorem TypedEdge.stays (edge : TypedEdge host ops a b) :
    successor (run (step host) ops Store.empty).facts a = some b := by
  obtain ⟨before, op, after, rfl, -, -, made⟩ := edge
  obtain ⟨r, found, edge⟩ := Option.bind_eq_some_iff.1 made
  obtain ⟨mem, rfl⟩ := Facts.get?_eq_some.1 found
  have reached : Reached host (fun _ _ => True) (run (step host) (before ++ [op]) Store.empty) :=
    ⟨before ++ [op], Admits.always _ _, rfl⟩
  have later : LineageSince (run (step host) (before ++ [op]) Store.empty).facts
      (run (step host) after (run (step host) (before ++ [op]) Store.empty)) :=
    run_induction (fun _ _ _ since => step_lineage since)
      { lineage := (lineage_of_reached reached).lineage
        grouped := (lineage_of_reached reached).grouped
        kept := fun r mem k edge => ⟨r, mem, rfl, edge⟩ } (Admits.always after _)
  obtain ⟨r', mem', same, edge'⟩ := later.kept r mem b edge
  rw [← run_append, List.append_assoc, List.singleton_append] at mem'
  rw [← same, successor_of_mem mem', edge']

/-- In every run of any operations, an edge that a typed write made is still there, and leads
to a fact of no less authority that starts no earlier, one of the two strictly; and so does
every path of such edges. -/
theorem state_supersession_monotone (host : Host) (ops : List Op) (a b : Nat) :
    (TypedEdge host ops a b →
      successor (run (step host) ops Store.empty).facts a = some b ∧
        GoesUp (run (step host) ops Store.empty).facts a b) ∧
      (TransGen (TypedEdge host ops) a b →
        GoesUp (run (step host) ops Store.empty).facts a b) := by
  refine ⟨fun edge => ⟨edge.stays, edge.goesUp⟩, fun path => ?_⟩
  induction path with
  | single edge => exact edge.goesUp
  | tail _ edge ih => exact ih.trans edge.goesUp

/-- The door is red, from a time that is written so. -/
def redFrom (validFrom : String) (parses : Parses (some validFrom)) : WriteCall :=
  ⟨Sample.service, Sample.tick "1", Sample.context "agent-a", Sample.request "the door is red",
    some { Sample.candidate "the door is red" (some "red") with
      validFrom := some validFrom
      validFromParses := parses }⟩

/-- The door is blue, from a time that is written so. -/
def blueFrom (validFrom : String) (parses : Parses (some validFrom)) : WriteCall :=
  ⟨Sample.service, Sample.tick "2", Sample.context "agent-b", Sample.request "the door is blue",
    some { Sample.candidate "the door is blue" (some "blue") with
      validFrom := some validFrom
      validFromParses := parses }⟩

/-- Blue supersedes red, and starts later. -/
theorem blue_supersedes_red :
    TypedEdge Sample.host [.write (redFrom "2025-12-31" ⟨_, rfl⟩),
        .write (blueFrom "2026-01-01T00:00:00Z" ⟨_, rfl⟩)] 1 2 ∧
      GoesUp (run (step Sample.host) [.write (redFrom "2025-12-31" ⟨_, rfl⟩),
        .write (blueFrom "2026-01-01T00:00:00Z" ⟨_, rfl⟩)] Store.empty).facts 1 2 := by
  have edge : TypedEdge Sample.host [.write (redFrom "2025-12-31" ⟨_, rfl⟩),
      .write (blueFrom "2026-01-01T00:00:00Z" ⟨_, rfl⟩)] 1 2 :=
    ⟨[_], _, [], rfl, Option.some_ne_none _, by decide +kernel, by decide +kernel⟩
  exact ⟨edge, ((state_supersession_monotone _ _ 1 2).1 edge).2⟩

end Enfold.Laws
