/-
# Laws.SlotSteps -- what a typed write can do to its slot

`Decides` lists the decisions `decideStateWrite` takes, each with what the slot holds.
`StateEffect` lists what a typed write that passed its policies does: repeat a fact of the
slot, add the first one, supersede the only one, open a conflict with it, or join the open
conflict.  Every invariant of slots is proved from these cases.
-/
import Enfold.Laws.FactSteps

namespace Enfold.Laws

open Enfold.Theory Enfold.Model

set_option autoImplicit false

/-! ## Decisions -/

theorem currentStateFacts_of {s : Store} {subjectKey predicateKey scope : String}
    (subject : Required subjectKey) (predicate : Required predicateKey) (inScope : Required scope) :
    currentStateFacts s subjectKey predicateKey scope =
      .ok ((currentRows s.facts ⟨scope, subjectKey, predicateKey⟩).map .ofRow) := by
  simp only [currentStateFacts, required_of subject, required_of predicate, required_of inScope,
    ok_bind]
  rfl

/-- The slot is in dispute: two current facts, or a group on one. -/
def InDispute (rows : List FactRow) : Prop :=
  2 ≤ rows.length ∨ ∃ r ∈ rows, grouped r.conflictGroup = true

/-- The decisions about a state candidate, and what the current rows of the slot are at
each. -/
inductive Decides (rows : List FactRow) (candidate : StateCandidate) (d : SlotDecision) : Prop where
  | add (action : d.action = .add) (vacant : rows = [])
  /-- A fact of the disputed slot is repeated. -/
  | repeatMember (r : FactRow) (action : d.action = .conflict)
      (target : d.targetFactId = some r.factId) (disputed : InDispute rows) (here : r ∈ rows)
      (repeats : Repeats candidate (.ofRow r))
  | join (action : d.action = .conflict) (target : d.targetFactId = none)
      (disputed : InDispute rows) (ids : d.currentFactIds = rows.map FactRow.factId)
      (novel : ∀ r ∈ rows, ¬ Repeats candidate (.ofRow r))
  | dedup (r : FactRow) (action : d.action = .dedup) (target : d.targetFactId = some r.factId)
      (only : rows = [r]) (ungrouped : grouped r.conflictGroup = false)
      (repeats : Repeats candidate (.ofRow r))
  | supersede (r : FactRow) (action : d.action = .supersede)
      (target : d.targetFactId = some r.factId) (only : rows = [r])
      (ungrouped : grouped r.conflictGroup = false) (novel : ¬ Repeats candidate (.ofRow r))
  | dispute (r : FactRow) (action : d.action = .conflict) (target : d.targetFactId = none)
      (ids : d.currentFactIds = [r.factId]) (only : rows = [r])
      (ungrouped : grouped r.conflictGroup = false) (novel : ¬ Repeats candidate (.ofRow r))

theorem decideAgainst_eq_ok {candidate : StateCandidate} {r : FactRow} {d : SlotDecision}
    (decided : decideAgainst candidate (.ofRow r) = .ok d) :
    d.action = .supersede ∧ d.targetFactId = some r.factId ∨
      d.action = .conflict ∧ d.targetFactId = none ∧ d.currentFactIds = [r.factId] := by
  obtain ⟨candidateTime, -, decided⟩ := bind_eq_ok.1 decided
  obtain ⟨existingTime, -, decided⟩ := bind_eq_ok.1 decided
  split at decided
  · cases pure_eq_ok.1 decided
    exact .inl ⟨rfl, rfl⟩
  split at decided
  · cases pure_eq_ok.1 decided
    exact .inl ⟨rfl, rfl⟩
  · cases pure_eq_ok.1 decided
    exact .inr ⟨rfl, rfl, rfl⟩

theorem decideAmong_eq_ok {candidate : StateCandidate} {rows : List FactRow} {d : SlotDecision}
    (decided : decideAmong candidate (rows.map .ofRow) = .ok d) : Decides rows candidate d := by
  cases rows with
  | nil =>
      cases decided
      exact .add rfl rfl
  | cons r rest =>
      simp only [decideAmong, List.map_cons] at decided
      rw [← List.map_cons] at decided
      split at decided
      · rename_i disputed
        have inDispute : InDispute (r :: rest) := by
          rcases disputed with more | anyGrouped
          · refine .inl ?_
            cases rest with
            | nil => simp at more
            | cons r' rest => simp
          · rw [List.any_map, List.any_eq_true] at anyGrouped
            exact .inr anyGrouped
        cases decided
        cases found : ((r :: rest).map CurrentStateFact.ofRow).find?
            (fun fact => Repeats candidate fact) with
        | none =>
            refine .join rfl (by simp [SlotDecision.about]) inDispute
              (by simp [SlotDecision.about, Function.comp_def, CurrentStateFact.ofRow]) fun r' mem => ?_
            simpa using List.find?_eq_none.1 found _ (List.mem_map_of_mem mem)
        | some fact =>
            obtain ⟨member, mem, rfl⟩ := List.mem_map.1 (List.mem_of_find?_eq_some found)
            exact .repeatMember member rfl (by simp [SlotDecision.about, CurrentStateFact.ofRow])
              inDispute mem (by simpa using List.find?_some found)
      · rename_i undisputed
        obtain ⟨single, ungrouped⟩ := not_or.1 undisputed
        have last : rest = [] := by simpa using single
        subst last
        have ungrouped : grouped r.conflictGroup = false := by
          simpa [CurrentStateFact.ofRow] using ungrouped
        split at decided
        · rename_i fact found
          cases decided
          obtain ⟨member, mem, rfl⟩ := List.mem_map.1 (List.mem_of_find?_eq_some found)
          obtain rfl := List.mem_singleton.1 mem
          exact .dedup member rfl rfl rfl ungrouped (by simpa using List.find?_some found)
        · rename_i missing
          have novel : ¬ Repeats candidate (.ofRow r) := by
            simpa using List.find?_eq_none.1 missing _ (List.mem_singleton.2 rfl)
          rcases decideAgainst_eq_ok decided with ⟨action, target⟩ | ⟨action, target, ids⟩
          · exact .supersede r action target rfl ungrouped novel
          · exact .dispute r action target ids rfl ungrouped novel

theorem decideStateWrite_eq_ok {s : Store} {candidate : StateCandidate} {d : SlotDecision}
    (kind : candidate.memoryKind = "state") (decided : decideStateWrite s candidate = .ok d) :
    Decides (currentRows s.facts candidate.slot) candidate d := by
  unfold decideStateWrite at decided
  rw [if_neg (by simp [kind]), currentStateFacts_of candidate.subjectValid candidate.predicateValid
    candidate.scopeValid, ok_bind] at decided
  exact decideAmong_eq_ok decided

/-- A decision is about the candidate's slot. -/
theorem decideStateWrite_slot {s : Store} {candidate : StateCandidate} {d : SlotDecision}
    (decided : decideStateWrite s candidate = .ok d) :
    d.scope = candidate.scope ∧ d.subjectKey = candidate.subjectKey ∧
      d.predicateKey = candidate.predicateKey := by
  have about : ∀ action ids target reason,
      (SlotDecision.about candidate action ids target reason).scope = candidate.scope ∧
      (SlotDecision.about candidate action ids target reason).subjectKey = candidate.subjectKey ∧
      (SlotDecision.about candidate action ids target reason).predicateKey =
        candidate.predicateKey := fun _ _ _ _ => ⟨rfl, rfl, rfl⟩
  unfold decideStateWrite at decided
  split at decided
  · cases pure_eq_ok.1 decided
    exact about _ _ _ _
  obtain ⟨current, -, decided⟩ := bind_eq_ok.1 decided
  unfold decideAmong at decided
  split at decided
  · cases decided
    exact about _ _ _ _
  dsimp only at decided
  split at decided
  · cases decided
    exact about _ _ _ _
  split at decided
  · cases decided
    exact about _ _ _ _
  obtain ⟨candidateTime, -, decided⟩ := bind_eq_ok.1 decided
  obtain ⟨existingTime, -, decided⟩ := bind_eq_ok.1 decided
  split at decided
  · cases pure_eq_ok.1 decided
    exact about _ _ _ _
  split at decided
  · cases pure_eq_ok.1 decided
    exact about _ _ _ _
  · cases pure_eq_ok.1 decided
    exact about _ _ _ _

/-! ## Conflict tables -/

theorem insertMember_eq_ok {s s' : Store} {conflictId : String} {factId : Nat}
    (done : insertMember s conflictId factId = .ok s') :
    s' = { s with conflictMembers := s'.conflictMembers } ∧
      s.conflictMembers.insert? ⟨conflictId, factId⟩ = some s'.conflictMembers := by
  obtain ⟨-, done⟩ := require_bind_eq_ok.1 done
  obtain ⟨members, inserted, done⟩ := bind_eq_ok.1 done
  cases pure_eq_ok.1 done
  exact ⟨rfl, insertRow_eq_ok.1 inserted⟩

/-- The row of a conflict when it is opened. -/
def openedConflict (conflictId : String) (k : Slot) (detectedAt : String) (detailJson : Json) :
    ConflictRow :=
  { conflictId, scope := k.scope, subjectKey := k.subjectKey, predicateKey := k.predicateKey
    detectedAt, resolvedAt := none, resolutionFactId := none, resolvedBy := none
    resolutionReason := none, detailJson }

/-- Opening a conflict with the one current fact of a slot. -/
theorem openStateConflict_eq_ok {s s' : Store} {conflictId : Uuid} {k : Slot} {factId : Nat}
    {detectedAt : String} {detail : List (String × Json)} {record : ConflictRecord}
    (opened : openStateConflict s conflictId k.subjectKey k.predicateKey [factId] k.scope detectedAt
      (.obj detail) = .ok (s', record))
    (subject : Required k.subjectKey) (predicate : Required k.predicateKey)
    (inScope : Required k.scope) :
    record.conflictId = conflictId.text ∧
      s' = { s with facts := s'.facts, conflicts := s'.conflicts
                    conflictMembers := s'.conflictMembers } ∧
      s'.facts.sequence = s.facts.sequence ∧
      s.conflicts.insert? (openedConflict conflictId.text k detectedAt (.obj detail)) =
        some s'.conflicts ∧
      s.conflictMembers.insert? ⟨conflictId.text, factId⟩ = some s'.conflictMembers ∧
      ∃ r ∈ s.facts, (r.factId = factId ∧ r.Indexed k) ∧
        FactPatch s.facts s'.facts [{ r with conflictGroup := some conflictId.text }] := by
  simp only [openStateConflict, required_of subject, required_of predicate, required_of inScope,
    ok_bind, canonicalJsonObject] at opened
  obtain ⟨-, opened⟩ := require_bind_eq_ok.1 opened
  obtain ⟨-, opened⟩ := require_bind_eq_ok.1 opened
  obtain ⟨-, -, opened⟩ := bind_eq_ok.1 opened
  obtain ⟨⟨-, found⟩, opened⟩ := require_bind_eq_ok.1 opened
  obtain ⟨conflicts, inserted, opened⟩ := bind_eq_ok.1 opened
  obtain ⟨s₁, updated, opened⟩ := bind_eq_ok.1 opened
  obtain ⟨s₂, members, opened⟩ := bind_eq_ok.1 opened
  cases pure_eq_ok.1 opened
  obtain ⟨r, selected, here⟩ := List.mem_map.1 (found factId (by simp))
  obtain ⟨mem, -, indexed⟩ := Table.mem_select.1 selected
  have byId : updateFacts { s with conflicts } (fun r => r.factId = factId)
      (fun r => { r with conflictGroup := some conflictId.text }) = .ok s₁ := by
    simpa only [List.mem_singleton] using updated
  obtain ⟨frame, sequence, patch⟩ := updateFacts_byId byId mem here
  obtain ⟨s₃, first, rest⟩ := bind_eq_ok.1 (by simpa only [List.foldlM_cons] using members)
  cases pure_eq_ok.1 rest
  obtain ⟨frame', inserted'⟩ := insertMember_eq_ok first
  refine ⟨rfl, ?_, ?_, ?_, ?_, r, mem, ⟨here, indexed⟩, ?_⟩
  · rw [frame', frame]
  · rw [frame']
    exact sequence
  · rw [frame', frame]
    exact insertRow_eq_ok.1 inserted
  · rw [frame] at inserted'
    exact inserted'
  · rw [frame']
    exact patch

/-- A new member is a current fact of the slot of an open conflict. -/
theorem addConflictMember_eq_ok {s s' : Store} {conflictId : String} {factId : Nat}
    (added : addConflictMember s conflictId factId = .ok s') :
    s' = { s with conflictMembers := s'.conflictMembers } ∧
      s.conflictMembers.insert? ⟨conflictId, factId⟩ = some s'.conflictMembers ∧
      ∃ c ∈ s.conflicts, c.conflictId = conflictId ∧ c.Unresolved ∧
        ∃ r ∈ s.facts, r.factId = factId ∧ r.InSlot c.slot := by
  unfold addConflictMember at added
  split at added
  · cases added
  rename_i conflict foundConflict
  obtain ⟨unresolved, added⟩ := require_bind_eq_ok.1 added
  split at added
  · cases added
  rename_i fact foundFact
  obtain ⟨⟨inSlot, -⟩, added⟩ := require_bind_eq_ok.1 added
  obtain ⟨-, added⟩ := require_bind_eq_ok.1 added
  obtain ⟨frame, inserted⟩ := insertMember_eq_ok added
  obtain ⟨memConflict, sameConflict⟩ := Table.get?_eq_some.1 foundConflict
  obtain ⟨memFact, sameFact⟩ := Facts.get?_eq_some.1 foundFact
  exact ⟨frame, inserted, conflict, memConflict, sameConflict, unresolved, fact, memFact, sameFact,
    inSlot⟩

/-! ## The effect of a typed write -/

/-- Only the facts, their index and the conflict tables differ. -/
def FactFrame (s s' : Store) : Prop :=
  s' = { s with facts := s'.facts, factsFts := s'.factsFts, conflicts := s'.conflicts
                conflictMembers := s'.conflictMembers }

/-- What a typed write does to the facts and the conflicts of its slot. -/
inductive StateEffect (tick : Tick) (request : WriteRequest) (candidate : StateCandidate)
    (d : SlotDecision) (s s' : Store) (factId : Nat) : Prop where
  /-- A current fact of the slot already says so. -/
  | repeated (r : FactRow) (here : r ∈ currentRows s.facts candidate.slot)
      (repeats : Repeats candidate (.ofRow r)) (result : factId = r.factId) (same : s' = s)
  | added (vacant : currentRows s.facts candidate.slot = [])
      (patch : FactPatch s.facts s'.facts [stateRow tick request candidate none factId])
      (conflicts : s'.conflicts = s.conflicts) (members : s'.conflictMembers = s.conflictMembers)
      (result : factId = s.facts.nextId)
  | superseded (r : FactRow) (only : currentRows s.facts candidate.slot = [r])
      (ungrouped : r.conflictGroup = none)
      (patch : FactPatch s.facts s'.facts [supersededRow r tick.recordedAt factId,
        stateRow tick request candidate none factId])
      (conflicts : s'.conflicts = s.conflicts) (members : s'.conflictMembers = s.conflictMembers)
      (result : factId = s.facts.nextId)
      (chosen : d.action = .supersede ∧ d.targetFactId = some r.factId)
  /-- A conflict is opened with the only fact of the slot. -/
  | disputed (r : FactRow) (detail : Json) (joined : Table (String × Nat) MemberRow
        fun r => (r.conflictId, r.factId))
      (only : currentRows s.facts candidate.slot = [r]) (ungrouped : r.conflictGroup = none)
      (patch : FactPatch s.facts s'.facts [{ r with conflictGroup := some tick.conflictId.text },
        stateRow tick request candidate (some tick.conflictId.text) factId])
      (conflicts : s.conflicts.insert?
        (openedConflict tick.conflictId.text candidate.slot tick.recordedAt detail) =
          some s'.conflicts)
      (member : s.conflictMembers.insert? ⟨tick.conflictId.text, r.factId⟩ = some joined)
      (newMember : joined.insert? ⟨tick.conflictId.text, factId⟩ = some s'.conflictMembers)
      (result : factId = s.facts.nextId) (chosen : d.action = .conflict)
  /-- The open conflict of the slot gets one more member. -/
  | joined (r : FactRow) (c : ConflictRow) (here : r ∈ currentRows s.facts candidate.slot)
      (group : r.conflictGroup = some c.conflictId)
      (open_ : c ∈ s.conflicts ∧ c.Unresolved ∧ c.slot = candidate.slot)
      (patch : FactPatch s.facts s'.facts
        [stateRow tick request candidate (some c.conflictId) factId])
      (conflicts : s'.conflicts = s.conflicts)
      (newMember : s.conflictMembers.insert? ⟨c.conflictId, factId⟩ = some s'.conflictMembers)
      (result : factId = s.facts.nextId)

/-- Inserting a fact and typing it. -/
theorem insertTyped {s s₁ s₂ : Store} {tick : Tick} {request : WriteRequest}
    {candidate : StateCandidate} {group : Option String} {inserted : FactWriteResult}
    (wrote : factWriter s tick request = .ok (s₁, inserted))
    (typed : persistStateCandidate s₁ inserted candidate group = .ok s₂) :
    inserted = ⟨s.facts.nextId, .inserted, none⟩ ∧
      s₂ = { s with facts := s₂.facts, factsFts := s₂.factsFts } ∧
      s₂.facts.sequence = s.facts.nextId ∧
      FactPatch s.facts s₂.facts [stateRow tick request candidate group s.facts.nextId] := by
  obtain ⟨rfl, frame, sequence, patch⟩ := factWriter_eq_ok wrote
  obtain ⟨frame', sequence', r, mem, ⟨here, -⟩, patch'⟩ := persistStateCandidate_eq_ok typed
  have same : r = plainRow tick request s.facts.nextId :=
    Facts.eq_of_id mem (patch.of_mem (List.mem_singleton.2 rfl)) here
  subst same
  refine ⟨rfl, ?_, sequence'.trans sequence, patch.trans_same patch' rfl⟩
  rw [frame', frame]

/-- The groups a typed write finds on the facts of its slot. -/
theorem prepareStateMutation_conflict {s s' : Store} {tick : Tick} {d : SlotDecision}
    {conflictId : Option String} (action : d.action = .conflict)
    (prepared : prepareStateMutation s tick d = .ok (s', conflictId)) :
    (∃ r ∈ s.facts, r.factId ∈ d.currentFactIds ∧ conflictId = r.conflictGroup ∧
        r.conflictGroup ≠ none ∧ s' = s) ∨
      (∀ r ∈ s.facts, r.factId ∈ d.currentFactIds → r.conflictGroup = none) ∧
        ∃ record, openStateConflict s tick.conflictId d.subjectKey d.predicateKey d.currentFactIds
          d.scope tick.recordedAt (.obj [("reason", .str d.reason)]) = .ok (s', record) ∧
        conflictId = some record.conflictId := by
  unfold prepareStateMutation at prepared
  rw [action] at prepared
  dsimp only at prepared
  split at prepared
  · rename_i group single
    cases pure_eq_ok.1 prepared
    have mem : group ∈ ((s.facts.table.select fun r => r.factId ∈ d.currentFactIds).filterMap
        FactRow.conflictGroup).dedup := by
      rw [single]
      simp
    obtain ⟨r, selected, same⟩ := List.mem_filterMap.1 (List.mem_dedup.1 mem)
    obtain ⟨inFacts, here⟩ := Table.mem_select.1 selected
    exact .inl ⟨r, inFacts, here, same.symm, by simp [same], rfl⟩
  · cases prepared
  · rename_i noGroups
    obtain ⟨⟨s₁, record⟩, opened, rest⟩ := bind_eq_ok.1 prepared
    cases pure_eq_ok.1 rest
    refine .inr ⟨fun r mem here => ?_, record, opened, rfl⟩
    by_contra grouped
    obtain ⟨group, same⟩ := Option.ne_none_iff_exists'.1 grouped
    have : group ∈ ((s.facts.table.select fun r => r.factId ∈ d.currentFactIds).filterMap
        FactRow.conflictGroup).dedup :=
      List.mem_dedup.2 (List.mem_filterMap.2 ⟨r, Table.mem_select.2 ⟨mem, here⟩, same⟩)
    rw [noGroups] at this
    cases this

theorem mem_of_only {facts : Facts} {k : Slot} {r : FactRow} (only : currentRows facts k = [r]) :
    r ∈ facts ∧ r.InSlot k ∧ r.Current :=
  mem_currentRows.1 (only ▸ List.mem_singleton.2 rfl)

/-- Two current facts of a slot cannot both be outside every conflict. -/
theorem not_inDispute {facts : Facts} {k : Slot}
    (ungrouped : ∀ r ∈ currentRows facts k, r.conflictGroup = none) :
    ¬ InDispute (currentRows facts k) := by
  have indexed : ∀ r ∈ currentRows facts k, r ∈ facts ∧ r.Indexed k := by
    intro r mem
    obtain ⟨inFacts, inSlot, current⟩ := mem_currentRows.1 mem
    exact ⟨inFacts, inSlot, current, ungrouped r mem⟩
  rintro (two | ⟨r, mem, group⟩)
  · have distinct := currentRows_nodup facts k
    cases rows : currentRows facts k with
    | nil => simp [rows] at two
    | cons r rest =>
        cases rest with
        | nil => simp [rows] at two
        | cons r' rest =>
            obtain ⟨first, firstIndexed⟩ := indexed r (by simp [rows])
            obtain ⟨second, secondIndexed⟩ := indexed r' (by simp [rows])
            have same := Facts.eq_of_indexed first second firstIndexed secondIndexed
            simp [rows, same] at distinct
  · simp [grouped, ungrouped r mem] at group

theorem settleState_add {s s' : Store} {d : SlotDecision} {group : Option String} {k : Nat}
    (action : d.action = .add) (settled : settleState s d group k = .ok s') : s' = s := by
  unfold settleState at settled
  rw [action] at settled
  cases settled
  rfl

/-- The last step of a supersession completes the old row. -/
theorem settleState_supersede {s s' : Store} {d : SlotDecision} {group : Option String}
    {old new : Nat} (action : d.action = .supersede) (target : d.targetFactId = some old)
    (settled : settleState s d group new = .ok s') :
    finishStateSupersession s (some old) new = .ok s' := by
  unfold settleState at settled
  rw [action, target] at settled
  exact settled

theorem settleState_conflict {s s' : Store} {d : SlotDecision} {group : Option String} {new : Nat}
    (action : d.action = .conflict) (settled : settleState s d group new = .ok s') :
    ∃ conflict, group = some conflict ∧ addConflictMember s conflict new = .ok s' := by
  unfold settleState at settled
  rw [action] at settled
  cases group with
  | none => cases settled
  | some conflict => exact ⟨conflict, rfl, settled⟩

section Insert

variable {tick : Tick} {request : WriteRequest} {candidate : StateCandidate} {d : SlotDecision}
  {s : Store} {applied : Applied}

/-- The four steps of a typed insert. -/
theorem insertState_eq_ok (inserted : insertState s tick request candidate d = .ok applied) :
    ∃ s₁ s₂ conflictId, prepareStateMutation s tick d = .ok (s₁, conflictId) ∧
      s₂ = { s₁ with facts := s₂.facts, factsFts := s₂.factsFts } ∧
      FactPatch s₁.facts s₂.facts [stateRow tick request candidate conflictId s₁.facts.nextId] ∧
      settleState s₂ d conflictId s₁.facts.nextId = .ok applied.store ∧
      applied.result.factId = s₁.facts.nextId := by
  obtain ⟨⟨s₁, conflictId⟩, prepared, inserted⟩ := bind_eq_ok.1 inserted
  obtain ⟨⟨s₁', result⟩, wrote, inserted⟩ := bind_eq_ok.1 inserted
  obtain ⟨s₂, typed, inserted⟩ := bind_eq_ok.1 inserted
  obtain ⟨s₃, settled, inserted⟩ := bind_eq_ok.1 inserted
  cases pure_eq_ok.1 inserted
  obtain ⟨rfl, frame, -, patch⟩ := insertTyped wrote typed
  exact ⟨s₁, s₂, conflictId, prepared, frame, patch, settled, rfl⟩

theorem insertState_add (action : d.action = .add)
    (vacant : currentRows s.facts candidate.slot = [])
    (inserted : insertState s tick request candidate d = .ok applied) :
    FactFrame s applied.store ∧
      StateEffect tick request candidate d s applied.store applied.result.factId := by
  obtain ⟨s₁, s₂, conflictId, prepared, frame, patch, settled, result⟩ := insertState_eq_ok inserted
  unfold prepareStateMutation at prepared
  rw [action] at prepared
  cases pure_eq_ok.1 prepared
  have last := settleState_add action settled
  rw [result, last]
  refine ⟨by rw [FactFrame, frame], .added vacant patch ?_ ?_ rfl⟩
  · rw [frame]
  · rw [frame]

/-- The old row, now invalid, and the new row: two patches at different ids. -/
theorem insertState_supersede {r : FactRow} (action : d.action = .supersede)
    (target : d.targetFactId = some r.factId) (only : currentRows s.facts candidate.slot = [r])
    (inserted : insertState s tick request candidate d = .ok applied) :
    FactFrame s applied.store ∧
      StateEffect tick request candidate d s applied.store applied.result.factId := by
  obtain ⟨s₁, s₂, conflictId, prepared, frame, patch, settled, result⟩ := insertState_eq_ok inserted
  obtain ⟨memR, -, -⟩ := mem_of_only only
  unfold prepareStateMutation at prepared
  rw [action, target] at prepared
  obtain ⟨s₁', updated, prepared⟩ := bind_eq_ok.1 prepared
  cases pure_eq_ok.1 prepared
  obtain ⟨frame₁, sequence, r₁, mem₁, ⟨same, -, -, ungrouped⟩, first⟩ :=
    updateOne_eq_ok (fun _ here => here.1) updated
  obtain rfl : r₁ = r := Facts.eq_of_id mem₁ memR same
  obtain ⟨frame₃, -, r₂, mem₂, ⟨same₂, -, -⟩, last⟩ :=
    finishStateSupersession_eq_ok (settleState_supersede action target settled)
  have next : s₁.facts.nextId = s.facts.nextId := by rw [Facts.nextId, sequence, Facts.nextId]
  have apart : r₁.factId ≠ s.facts.nextId := Facts.nextId_fresh memR
  have both := first.trans_disjoint patch (by
    intro x mem
    obtain rfl := List.mem_singleton.1 mem
    simpa [stateRow, plainRow, next] using apart)
  have old : r₂ = { r₁ with invalidAt := some tick.recordedAt } :=
    Facts.eq_of_id mem₂ (both.of_mem (by simp)) same₂
  subst old
  have whole := both.trans_head last rfl (by simpa [stateRow, plainRow, next] using apart)
  rw [result, next] at *
  refine ⟨?_, .superseded r₁ only ungrouped whole ?_ ?_ rfl ⟨action, target⟩⟩
  · rw [FactFrame, frame₃, frame, frame₁]
  · rw [frame₃, frame, frame₁]
  · rw [frame₃, frame, frame₁]

theorem stateRow_inSlot (group : Option String) (factId : Nat) :
    (stateRow tick request candidate group factId).InSlot candidate.slot :=
  ⟨rfl, rfl, rfl, rfl⟩

/-- Joining the conflict that a fact of the slot carries. -/
theorem insertState_join {r : FactRow} {s₁ : Store} {group : Option String}
    (action : d.action = .conflict) (here : r ∈ currentRows s.facts candidate.slot)
    (carried : group = r.conflictGroup)
    (frame : s₁ = { s with facts := s₁.facts, factsFts := s₁.factsFts })
    (patch : FactPatch s.facts s₁.facts [stateRow tick request candidate group s.facts.nextId])
    (settled : settleState s₁ d group s.facts.nextId = .ok applied.store)
    (result : applied.result.factId = s.facts.nextId) :
    FactFrame s applied.store ∧
      StateEffect tick request candidate d s applied.store applied.result.factId := by
  obtain ⟨conflict, rfl, added⟩ := settleState_conflict action settled
  obtain ⟨frame', inserted, c, memC, rfl, unresolved, new, memNew, sameNew, inSlot⟩ :=
    addConflictMember_eq_ok added
  have row : new = stateRow tick request candidate (some c.conflictId) s.facts.nextId :=
    Facts.eq_of_id memNew (patch.of_mem (List.mem_singleton.2 rfl)) sameNew
  subst row
  have slot : c.slot = candidate.slot := inSlot.unique (stateRow_inSlot _ _)
  have memC' : c ∈ s.conflicts := by rwa [frame] at memC
  rw [result]
  refine ⟨?_, .joined r c here carried.symm ⟨memC', unresolved, slot⟩ ?_ ?_ ?_ rfl⟩
  · rw [FactFrame, frame', frame]
  · rw [frame']
    exact patch
  · rw [frame', frame]
  · rw [frame] at inserted
    exact inserted

/-- Opening a conflict with the only fact of the slot. -/
theorem insertState_dispute {r : FactRow} {s₁ s₂ : Store} {record : ConflictRecord}
    {detail : List (String × Json)} (action : d.action = .conflict)
    (only : currentRows s.facts candidate.slot = [r]) (ungrouped : r.conflictGroup = none)
    (opened : openStateConflict s tick.conflictId candidate.subjectKey candidate.predicateKey
      [r.factId] candidate.scope tick.recordedAt (.obj detail) = .ok (s₁, record))
    (frame : s₂ = { s₁ with facts := s₂.facts, factsFts := s₂.factsFts })
    (patch : FactPatch s₁.facts s₂.facts
      [stateRow tick request candidate (some record.conflictId) s₁.facts.nextId])
    (settled : settleState s₂ d (some record.conflictId) s₁.facts.nextId = .ok applied.store)
    (result : applied.result.factId = s₁.facts.nextId) :
    FactFrame s applied.store ∧
      StateEffect tick request candidate d s applied.store applied.result.factId := by
  obtain ⟨memR, -, -⟩ := mem_of_only only
  obtain ⟨sameId, frame₁, sequence, conflicts, member, r₁, mem₁, ⟨same, -⟩, first⟩ :=
    openStateConflict_eq_ok (k := candidate.slot) opened candidate.subjectValid
      candidate.predicateValid candidate.scopeValid
  obtain rfl : r₁ = r := Facts.eq_of_id mem₁ memR same
  obtain ⟨conflict, sameConflict, added⟩ := settleState_conflict action settled
  obtain rfl : conflict = tick.conflictId.text := by
    rw [← sameId]
    exact (Option.some.inj sameConflict).symm
  obtain ⟨frame₃, newMember, -⟩ := addConflictMember_eq_ok added
  have next : s₁.facts.nextId = s.facts.nextId := by rw [Facts.nextId, sequence, Facts.nextId]
  have apart : r₁.factId ≠ s.facts.nextId := Facts.nextId_fresh memR
  rw [sameId, next] at patch
  have both := first.trans_disjoint patch (by
    intro x mem
    obtain rfl := List.mem_singleton.1 mem
    simpa [stateRow, plainRow] using apart)
  rw [next] at newMember result
  rw [result]
  refine ⟨?_, .disputed r₁ (.obj detail) s₁.conflictMembers only ungrouped ?_ ?_ member ?_ rfl
    action⟩
  · rw [FactFrame, frame₃, frame, frame₁]
  · rw [frame₃]
    exact both
  · rw [frame₃, frame]
    exact conflicts
  · rw [frame] at newMember
    exact newMember

theorem insertState_conflict (action : d.action = .conflict)
    (slot : d.scope = candidate.scope ∧ d.subjectKey = candidate.subjectKey ∧
      d.predicateKey = candidate.predicateKey)
    (ids : d.currentFactIds = (currentRows s.facts candidate.slot).map FactRow.factId)
    (shape : InDispute (currentRows s.facts candidate.slot) ∨
      ∃ r, currentRows s.facts candidate.slot = [r])
    (inserted : insertState s tick request candidate d = .ok applied) :
    FactFrame s applied.store ∧
      StateEffect tick request candidate d s applied.store applied.result.factId := by
  obtain ⟨s₁, s₂, conflictId, prepared, frame, patch, settled, result⟩ := insertState_eq_ok inserted
  rcases prepareStateMutation_conflict action prepared with
    ⟨r, mem, inIds, carried, -, rfl⟩ | ⟨ungrouped, record, opened, rfl⟩
  · rw [ids] at inIds
    obtain ⟨r', here, sameId⟩ := List.mem_map.1 inIds
    obtain rfl : r' = r := Facts.eq_of_id (mem_currentRows.1 here).1 mem sameId
    exact insertState_join action here carried frame patch settled result
  · have noGroup : ∀ r ∈ currentRows s.facts candidate.slot, r.conflictGroup = none := by
      intro r here
      refine ungrouped r (mem_currentRows.1 here).1 ?_
      rw [ids]
      exact List.mem_map_of_mem here
    rcases shape with disputed | ⟨r, only⟩
    · exact absurd disputed (not_inDispute noGroup)
    · obtain ⟨scope, subject, predicate⟩ := slot
      rw [ids, only, scope, subject, predicate] at opened
      exact insertState_dispute action only (noGroup r (by simp [only])) opened frame patch settled
        result

/-- What a typed write that passed its policies does. -/
theorem applyState_effect (kind : candidate.memoryKind = "state")
    (decided : decideStateWrite s candidate = .ok d)
    (done : applyState s tick request candidate d = .ok applied) :
    FactFrame s applied.store ∧
      StateEffect tick request candidate d s applied.store applied.result.factId := by
  have slot := decideStateWrite_slot decided
  unfold applyState at done
  cases decideStateWrite_eq_ok kind decided with
  | add action vacant =>
      rw [action] at done
      exact insertState_add action vacant done
  | repeatMember r action target disputed here repeats =>
      rw [action, target] at done
      cases done
      exact ⟨rfl, .repeated r here repeats rfl rfl⟩
  | join action target disputed ids novel =>
      rw [action, target] at done
      exact insertState_conflict action slot ids (.inl disputed) done
  | dedup r action target only ungrouped repeats =>
      rw [action, target] at done
      cases done
      exact ⟨rfl, .repeated r (by simp [only]) repeats rfl rfl⟩
  | supersede r action target only ungrouped novel =>
      rw [action, target] at done
      exact insertState_supersede action target only done
  | dispute r action target ids only ungrouped novel =>
      rw [action, target] at done
      exact insertState_conflict action slot (by simp [ids, only]) (.inr ⟨r, only⟩) done

end Insert

end Enfold.Laws
