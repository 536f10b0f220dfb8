/-
# Laws.SlotRuns -- slots and conflicts over whole runs

A resolution closes the one open conflict of its slot and leaves the winner alone in it;
with the steps of writes this makes the state-slot invariant hold in every store that
writes and resolutions reach (`slots_settled_or_disputed`).

The invariant is what makes an open conflict resolvable: the three row counts that
`resolveStateConflict` checks never fail, and the index over current slots is not violated
(`open_conflict_resolves`).
-/
import Enfold.Laws.Progress
import Enfold.Laws.SlotInvariant
import Enfold.Laws.Steps

namespace Enfold.Laws

open Enfold.Theory Enfold.Model

set_option autoImplicit false

/-! ## Resolutions -/

section Resolution

variable {s s' : Store} {conflictId : String} {winner : Nat} {moment resolvedBy reason : String}

/-- The conflicts after a resolution: the resolved one is closed, the others stay. -/
theorem ResolveEffect.mem_conflicts
    (effect : ResolveEffect s s' conflictId winner moment resolvedBy reason) {c : ConflictRow}
    (unresolved : c.Unresolved) : c ∈ s'.conflicts ↔ c ∈ s.conflicts ∧ c.conflictId ≠ conflictId := by
  rw [effect.conflicts, closeConflict, Table.mem_update]
  constructor
  · rintro ⟨c₀, mem, rfl⟩
    by_cases touched : c₀.conflictId = conflictId ∧ c₀.Unresolved
    · rw [if_pos touched] at unresolved
      cases unresolved
    · rw [if_neg touched] at unresolved ⊢
      exact ⟨mem, fun same => touched ⟨same, unresolved⟩⟩
  · rintro ⟨mem, other⟩
    exact ⟨c, mem, if_neg fun touched => other touched.1⟩

/-- A resolved conflict stays as it is. -/
theorem ResolveEffect.keeps_resolved
    (effect : ResolveEffect s s' conflictId winner moment resolvedBy reason) {c : ConflictRow}
    (mem : c ∈ s.conflicts) (resolved : ¬ c.Unresolved) : c ∈ s'.conflicts := by
  rw [effect.conflicts, closeConflict]
  exact Table.mem_update_of_not mem fun touched => resolved touched.2

/-- The slot of the resolved conflict, and its members. -/
theorem ResolveEffect.slot
    (effect : ResolveEffect s s' conflictId winner moment resolvedBy reason) (sound : SlotSound s) :
    ∃ c ∈ s.conflicts, c.conflictId = conflictId ∧ c.Unresolved ∧
      (∀ c' ∈ s.conflicts, c'.slot = c.slot → c'.Unresolved → c' = c) ∧
      ∀ r ∈ s.facts, r.factId ∈ conflictMemberIds s conflictId ↔ r ∈ currentRows s.facts c.slot := by
  obtain ⟨c, memC, rfl, unresolved⟩ := effect.opened
  obtain ⟨onlyOpen, -, -, members⟩ := (sound.slots c.slot).disputed_of_open memC rfl unresolved
  refine ⟨c, memC, rfl, unresolved, onlyOpen, fun r mem => ?_⟩
  rw [mem_conflictMemberIds]
  exact ⟨sound.member_row memC unresolved mem, fun here => (members _).2 ⟨r, here, rfl⟩⟩

/-- Only the winner is still current in the slot of the conflict, and no row of another slot is a
member. -/
theorem ResolveEffect.slotSound
    (effect : ResolveEffect s s' conflictId winner moment resolvedBy reason) (sound : SlotSound s) :
    SlotSound s' := by
  obtain ⟨c, memC, sameC, unresolved, onlyOpen, members⟩ := effect.slot sound
  have sameMembers : s'.conflictMembers = s.conflictMembers := by rw [effect.frame]
  refine { slots := fun k => ?_, known := fun m mem => ?_, audited := fun x mem => ?_ }
  · by_cases here : k = c.slot
    · subst here
      refine .of_ungrouped (fun r' mem' => ?_) (fun c' memC' slot' open' => ?_)
      · obtain ⟨inFacts, inSlot, current⟩ := mem_currentRows.1 mem'
        obtain ⟨r, mem, rfl⟩ := (effect.facts r').1 inFacts
        unfold resolvedRow at inSlot current ⊢
        split at current
        · rename_i won
          rw [if_pos won]
        split at current
        · exact absurd current supersededRow_not_current
        · rename_i lost outside
          rw [if_neg lost, if_neg outside] at inSlot
          exact absurd ((members r mem).2 (mem_currentRows.2 ⟨mem, inSlot, current⟩)) outside
      · obtain ⟨old, other⟩ := (effect.mem_conflicts open').1 memC'
        have same := onlyOpen c' old slot' open'
        exact other (by rw [same, sameC])
    · refine (sound.slots k).frame (currentRows_congr fun r => ?_) (fun c' slot' open' => ?_)
        (by simp [sameMembers])
      · have untouched : ∀ r ∈ s.facts, r.InSlot k →
            resolvedRow (conflictMemberIds s conflictId) winner moment r = r := by
          intro r mem inSlot
          have outside : r.factId ∉ conflictMemberIds s conflictId := fun inMembers =>
            here (inSlot.unique (mem_currentRows.1 ((members r mem).1 inMembers)).2.1)
          have notWinner : r.factId ≠ winner := fun same => outside (same ▸ effect.member)
          rw [resolvedRow, if_neg notWinner, if_neg outside]
        rw [mem_currentRows, mem_currentRows]
        constructor
        · rintro ⟨inFacts, inSlot, current⟩
          obtain ⟨r₀, mem, rfl⟩ := (effect.facts r).1 inFacts
          have inSlot₀ : r₀.InSlot k := by
            unfold resolvedRow at inSlot
            split at inSlot
            · exact inSlot
            split at inSlot
            · exact inSlot
            · exact inSlot
          rw [untouched r₀ mem inSlot₀] at current ⊢
          exact ⟨mem, inSlot₀, current⟩
        · rintro ⟨mem, inSlot, current⟩
          exact ⟨(effect.facts r).2 ⟨r, mem, untouched r mem inSlot⟩, inSlot, current⟩
      · rw [effect.mem_conflicts open']
        refine ⟨And.left, fun mem => ⟨mem, fun same => here ?_⟩⟩
        rw [← slot', Table.eq_of_key mem memC (same.trans sameC.symm)]
  · rw [sameMembers] at mem
    obtain ⟨c', memC', same⟩ := sound.known m mem
    rw [effect.conflicts]
    by_cases touched : c'.conflictId = conflictId ∧ c'.Unresolved
    · exact ⟨_, mem_closeConflict memC' touched.1 touched.2, same⟩
    · exact ⟨c', Table.mem_update_of_not memC' touched, same⟩
  · have old : ∀ x ∈ s.conflictResolutions, ∃ c ∈ s'.conflicts, c.conflictId = x.conflictId ∧
        ¬ c.Unresolved := by
      intro x mem
      obtain ⟨c', memC', same, resolved⟩ := sound.audited x mem
      exact ⟨c', effect.keeps_resolved memC' resolved, same, resolved⟩
    rcases effect.audit with same | ⟨row, about, inserted⟩
    · rw [same] at mem
      exact old x mem
    · rcases (Table.mem_of_insert? inserted).1 mem with mem | rfl
      · exact old x mem
      · rw [effect.conflicts]
        refine ⟨_, mem_closeConflict memC sameC unresolved, sameC.trans about.symm, ?_⟩
        exact fun open' => by cases open'

end Resolution

/-! ## Runs -/

theorem not_erases_of_mutates {op : Op} (mutates : op.Mutates) : ¬ op.Erases := by
  cases op <;> simp_all [Op.Mutates, Op.Erases]

/-- Every operation but an erasure keeps the slots in order. -/
theorem step_slotSound {host : Host} {op : Op} {s : Store} (keeps : ¬ op.Erases)
    (sound : SlotSound s) : SlotSound (step host op s) := by
  refine step_induction sound (fun call s s' o done => write_slotSound done)
    (fun call s s' o done => (resolve_effect done).slotSound) (fun call s' o same _ => ?_)
    (fun s s' aside sound => ?_)
  · rw [same] at keeps
    exact absurd trivial keeps
  · exact sound.of_same (by rw [aside.frame]) (by rw [aside.frame]) (by rw [aside.frame]) (by rw [aside.frame])

theorem slotSound_of_reached {host : Host} {s : Store}
    (reached : Reached host (fun op _ => ¬ op.Erases) s) : SlotSound s :=
  reached.induction SlotSound.empty fun _ _ keeps sound => step_slotSound keeps sound

/-- In every store that writes and resolutions reach, every slot is settled or openly
disputed. -/
theorem slots_settled_or_disputed {host : Host} {s : Store}
    (reached : Reached host (fun op _ => op.Mutates) s) (k : Slot) : SlotInv s k :=
  (slotSound_of_reached (reached.mono fun _ _ => not_erases_of_mutates)).slots k

/-- The slot of two diverging values is disputed. -/
theorem sample_slot_disputed :
    (currentRows (run (step Sample.host) Sample.dispute Store.empty).facts Sample.slot).length = 2 ∧
      SlotInv (run (step Sample.host) Sample.dispute Store.empty) Sample.slot :=
  ⟨by decide +kernel,
    slots_settled_or_disputed ⟨Sample.dispute, ⟨trivial, trivial, trivial⟩, rfl⟩ Sample.slot⟩

/-! ## Resolving -/

/-- The arguments of a resolution besides the conflict and the fact are in order: texts
are stated, the time parses, and a resolver is given completely and registered, or not at
all. -/
structure ResolveArgs (call : ResolveCall) (s : Store) : Prop where
  resolvedBy : strip call.resolvedBy ≠ ""
  reason : strip call.reason ≠ ""
  moment : Parses (some (orElse call.resolvedAt call.now))
  resolver : call.resolverClientId = none ∧ call.resolverSessionId = none ∧
      call.resolverAgentId = none ∨
    ∃ client ∈ call.resolverClientId, ∃ session ∈ call.resolverSessionId,
      ∃ agent ∈ call.resolverAgentId, Required client ∧ Required session ∧ Required agent ∧
        s.sessions.get? (client, session) ≠ none

theorem required_of_stated {value : String} (name : String) (stated : strip value ≠ "") :
    ∃ text, required value name = .ok text := by
  unfold required
  rw [dif_neg stated]
  exact ⟨_, rfl⟩

/-- The losers of an open conflict are all superseded. -/
theorem supersedeLosers_ok {s : Store} {conflictId : String} {losers : List Nat} {winner : Nat}
    {moment : String} (distinct : losers.Nodup)
    (carried : ∀ k ∈ losers, ∃ r ∈ s.facts, r.factId = k ∧ r.conflictGroup = some conflictId ∧
      r.invalidAt = none)
    (target : ∃ r ∈ s.facts, r.factId = winner) :
    ∃ s', supersedeLosers s conflictId losers winner moment = .ok s' := by
  unfold supersedeLosers
  split
  · exact ⟨s, rfl⟩
  · obtain ⟨s', updated⟩ : ∃ s', updateFacts s
        (fun r => r.factId ∈ losers ∧ r.conflictGroup = some conflictId ∧ r.invalidAt = none)
        (fun r => supersededRow r moment winner) (fun _ => rfl) = .ok s' := supersede_ok target
    have count : s.facts.table.rowcount (fun r => r.factId ∈ losers ∧
        r.conflictGroup = some conflictId ∧ r.invalidAt = none) = losers.length := by
      refine Table.rowcount_eq_length distinct (fun k mem => ?_) fun r _ lost => lost.1
      obtain ⟨r, inFacts, here, group, valid⟩ := carried k mem
      exact ⟨r, inFacts, here, by rwa [here], group, valid⟩
    refine ⟨s', bind_eq_ok.2 ⟨s', updated, ?_⟩⟩
    exact require_bind_eq_ok.2 ⟨count, rfl⟩

/-- The winner is released when the index has no other entry for its slot. -/
theorem releaseWinner_ok {s : Store} {conflictId : String} {w : FactRow} (mem : w ∈ s.facts)
    (group : w.conflictGroup = some conflictId) (current : w.Current)
    (alone : ∀ r ∈ s.facts, ∀ k, w.InSlot k → ¬ r.Indexed k) :
    ∃ s', releaseWinner s conflictId w.factId = .ok s' := by
  have only : ∀ r ∈ s.facts, r.factId = w.factId → r = w :=
    fun r inFacts same => Facts.eq_of_id inFacts mem same
  obtain ⟨s', updated⟩ : ∃ s', updateFacts s
      (fun r => r.factId = w.factId ∧ r.conflictGroup = some conflictId ∧ r.Current)
      (fun r => { r with conflictGroup := none }) (fun _ => rfl) = .ok s' := by
    refine updateFacts_ok (uniqueSlots_update fun r inFacts here k indexed r' inFacts' indexed' => ?_)
      (linked_update fun r inFacts here k link => .inl link)
    obtain rfl := only r inFacts here.1
    by_cases there : r'.factId = r.factId ∧ r'.conflictGroup = some conflictId ∧ r'.Current
    · exact there.1
    · rw [if_neg there] at indexed'
      exact absurd indexed' (alone r' inFacts' k indexed.1)
  have count : s.facts.table.rowcount (fun r => r.factId = w.factId ∧
      r.conflictGroup = some conflictId ∧ r.Current) = 1 :=
    Table.rowcount_eq_one mem ⟨rfl, group, current⟩ fun r _ here => here.1
  exact ⟨s', bind_eq_ok.2 ⟨s', updated, require_bind_eq_ok.2 ⟨count, rfl⟩⟩⟩

/-- The audit row of the first resolution of a conflict is recorded. -/
theorem recordResolution_ok {s : Store} {conflictId : String} {winner : Nat}
    {clientId sessionId agentId : Option String} {reason moment : String}
    (unaudited : ∀ x ∈ s.conflictResolutions, x.conflictId ≠ conflictId)
    (conflict : s.conflicts.get? conflictId ≠ none) (fact : s.facts.get? winner ≠ none)
    (resolver : clientId = none ∧ sessionId = none ∧ agentId = none ∨
      ∃ client ∈ clientId, ∃ session ∈ sessionId, ∃ agent ∈ agentId,
        Required client ∧ Required session ∧ Required agent ∧
          s.sessions.get? (client, session) ≠ none) :
    ∃ s', recordResolution s conflictId winner clientId sessionId agentId reason moment = .ok s' := by
  unfold recordResolution
  rcases resolver with absent | ⟨client, rfl, session, rfl, agent, rfl, validC, validS, validA, known⟩
  · rw [if_pos absent]
    exact ⟨s, rfl⟩
  · rw [if_neg (by simp)]
    simp only [Option.getD_some, required_of validC, required_of validS, required_of validA, ok_bind]
    rw [require_of ⟨conflict, fact, known⟩, ok_bind]
    obtain ⟨resolutions, inserted⟩ := insertRow_ok s.conflictResolutions
      ⟨conflictId, winner, client, session, agent, reason, moment⟩ _ unaudited
    exact ⟨_, bind_eq_ok.2 ⟨resolutions, inserted, rfl⟩⟩

/-- What a resolution of the conflict to the fact `winner` leaves behind. -/
structure ResolvedTo (s s' : Store) (conflictId : String) (winner : Nat) : Prop where
  /-- The winner is the one current fact of its slot, outside every conflict. -/
  won : ∃ r ∈ s'.facts, r.factId = winner ∧ r.conflictGroup = none ∧
    ∃ k, r.InSlot k ∧ currentRows s'.facts k = [r]
  lost : ∀ id ∈ conflictMemberIds s conflictId, id ≠ winner → ∃ r ∈ s'.facts, r.factId = id ∧
    r.invalidAt ≠ none ∧ r.supersededBy = some winner
  resolved : ∃ c ∈ s'.conflicts, c.conflictId = conflictId ∧ ¬ c.Unresolved ∧
    c.resolutionFactId = some winner
  others : ∀ r, r.factId ∉ conflictMemberIds s conflictId → (r ∈ s'.facts ↔ r ∈ s.facts)

theorem ResolveEffect.resolvedTo {s s' : Store} {conflictId : String} {winner : Nat}
    {moment resolvedBy reason : String}
    (effect : ResolveEffect s s' conflictId winner moment resolvedBy reason) (sound : SlotSound s) :
    ResolvedTo s s' conflictId winner := by
  obtain ⟨c, memC, sameC, unresolved, -, members⟩ := effect.slot sound
  obtain ⟨w, memW, idW, -, -⟩ := effect.carried winner effect.member
  obtain ⟨-, inSlot, current⟩ := mem_currentRows.1 ((members w memW).1 (idW ▸ effect.member))
  have released : { w with conflictGroup := none } ∈ s'.facts :=
    (effect.facts _).2 ⟨w, memW, if_pos idW⟩
  refine
    { won := ⟨_, released, idW, rfl, c.slot, inSlot, ?_⟩
      lost := fun id mem other => ?_
      resolved := ?_
      others := fun r outside => ?_ }
  · exact ((effect.slotSound sound).slots c.slot).settled_of_ungrouped
      (mem_currentRows.2 ⟨released, inSlot, current⟩) rfl |>.1
  · obtain ⟨r, memR, rfl, -, -⟩ := effect.carried id mem
    refine ⟨_, (effect.facts _).2 ⟨r, memR, rfl⟩, ?_⟩
    rw [resolvedRow, if_neg other, if_pos mem]
    exact ⟨rfl, by simp [supersededRow], rfl⟩
  · rw [effect.conflicts]
    refine ⟨_, mem_closeConflict memC sameC unresolved, sameC, ?_, rfl⟩
    exact fun open' => by cases open'
  · rw [← Facts.mem_table, effect.facts]
    have same : ∀ r₀, r₀.factId = r.factId →
        resolvedRow (conflictMemberIds s conflictId) winner moment r₀ = r₀ := by
      intro r₀ sameId
      rw [← sameId] at outside
      have notWinner : r₀.factId ≠ winner := fun here => outside (here ▸ effect.member)
      rw [resolvedRow, if_neg notWinner, if_neg outside]
    constructor
    · rintro ⟨r₀, mem, rfl⟩
      rwa [same r₀ (resolvedRow_factId _ _ _ _).symm]
    · exact fun mem => ⟨r, mem, same r rfl⟩

/-- The steps of a resolution all succeed on an open conflict of a sound store: a row of the slot that
is still current is the winner, and an audited conflict is resolved. -/
theorem resolve_ok {s : Store} (sound : SlotSound s) {call : ResolveCall}
    (opened : ∃ c ∈ s.conflicts.rows, c.conflictId = call.conflictId ∧ c.Unresolved)
    (member : call.resolutionFactId ∈ conflictMemberIds s call.conflictId)
    (args : ResolveArgs call s) : ∃ result, call.apply s = .ok result := by
  obtain ⟨c, memC, sameC, unresolved⟩ := opened
  obtain ⟨-, -, grouped, members⟩ := (sound.slots c.slot).disputed_of_open memC rfl unresolved
  have row : ∀ id ∈ conflictMemberIds s call.conflictId, ∃ r ∈ currentRows s.facts c.slot,
      r.factId = id := by
    intro id mem
    rw [mem_conflictMemberIds, ← sameC] at mem
    exact (members id).1 mem
  obtain ⟨w, here, idW⟩ := row _ member
  obtain ⟨memW, inSlotW, currentW⟩ := mem_currentRows.1 here
  have groupW := grouped w here
  rw [sameC] at groupW
  obtain ⟨s₁, superseded⟩ : ∃ s₁, supersedeLosers s call.conflictId
      ((conflictMemberIds s call.conflictId).filter (· ≠ call.resolutionFactId))
      call.resolutionFactId (orElse call.resolvedAt call.now) = .ok s₁ := by
    refine supersedeLosers_ok ((conflictMemberIds_nodup _ _).filter _) (fun k mem => ?_)
      ⟨w, memW, idW⟩
    obtain ⟨r, hereR, idR⟩ := row k (List.mem_filter.1 mem).1
    obtain ⟨memR, -, currentR⟩ := mem_currentRows.1 hereR
    exact ⟨r, memR, idR, by rw [grouped r hereR, sameC], currentR.1⟩
  obtain ⟨frame₁, -, -, facts₁⟩ := supersedeLosers_eq_ok superseded
  have memW₁ : w ∈ s₁.facts := (facts₁ w).2 ⟨w, memW, if_neg (by simp [idW])⟩
  obtain ⟨s₂, released⟩ : ∃ s₂, releaseWinner s₁ call.conflictId w.factId = .ok s₂ := by
    refine releaseWinner_ok memW₁ groupW currentW fun r mem k inSlot indexed => ?_
    obtain ⟨r₀, mem₀, rfl⟩ := (facts₁ r).1 mem
    dsimp only at indexed
    split at indexed
    · cases indexed.2.1.1
    · cases inSlotW.unique inSlot
      have group := grouped r₀ (mem_currentRows.2 ⟨mem₀, indexed.1, indexed.2.1⟩)
      rw [indexed.2.2] at group
      cases group
  obtain ⟨frame₂, -, -, facts₂⟩ := releaseWinner_eq_ok released
  rw [idW] at released
  obtain ⟨resolvedBy, statedBy⟩ := required_of_stated "resolved_by" args.resolvedBy
  obtain ⟨reason, statedReason⟩ := required_of_stated "reason" args.reason
  obtain ⟨instant, parsed⟩ := args.moment
  have found : s.conflicts.get? call.conflictId = some c := Table.get?_eq_some.2 ⟨memC, sameC⟩
  have winnerRow : ∃ r ∈ s₂.facts, r.factId = call.resolutionFactId :=
    ⟨_, (facts₂ _).2 ⟨w, memW₁, rfl⟩, by simpa using idW⟩
  obtain ⟨s₃, recorded⟩ : ∃ s₃, recordResolution
      { s₂ with
        conflicts := closeConflict s₂.conflicts call.conflictId call.resolutionFactId
          (orElse call.resolvedAt call.now) resolvedBy reason }
      call.conflictId call.resolutionFactId call.resolverClientId call.resolverSessionId
      call.resolverAgentId reason (orElse call.resolvedAt call.now) = .ok s₃ := by
    refine recordResolution_ok (fun x mem same => ?_) ?_ ?_ ?_
    · rw [frame₂, frame₁] at mem
      obtain ⟨c', memC', sameC', resolved⟩ := sound.audited x mem
      have : c' = c := Table.eq_of_key memC' memC (sameC'.trans (same.trans sameC.symm))
      exact resolved (this ▸ unresolved)
    · have memC₂ : c ∈ s₂.conflicts := by
        rw [frame₂, frame₁]
        exact memC
      intro missing
      exact Table.get?_eq_none.1 missing _ (mem_closeConflict memC₂ sameC unresolved) sameC
    · obtain ⟨r, mem, here⟩ := winnerRow
      intro missing
      rw [Facts.get?_eq_some.2 ⟨mem, here⟩] at missing
      cases missing
    · rw [frame₂, frame₁]
      exact args.resolver
  refine ⟨(s₃, ⟨call.conflictId, call.resolutionFactId,
    (conflictMemberIds s call.conflictId).filter (· ≠ call.resolutionFactId), resolvedBy, reason,
    orElse call.resolvedAt call.now⟩), ?_⟩
  refine bind_eq_ok.2 ⟨resolvedBy, statedBy, bind_eq_ok.2 ⟨reason, statedReason, ?_⟩⟩
  refine bind_eq_ok.2 ⟨instant, parsed, ?_⟩
  rw [found]
  refine require_bind_eq_ok.2 ⟨unresolved, require_bind_eq_ok.2 ⟨member, ?_⟩⟩
  exact bind_eq_ok.2 ⟨s₁, superseded, bind_eq_ok.2 ⟨s₂, released, bind_eq_ok.2 ⟨s₃, recorded, rfl⟩⟩⟩

/-- In every store that writes and resolutions reach, every open conflict resolves to any
of its members. -/
theorem open_conflict_resolves {host : Host} {s : Store}
    (reached : Reached host (fun op _ => op.Mutates) s) (call : ResolveCall)
    (opened : ∃ c ∈ s.conflicts.rows, c.conflictId = call.conflictId ∧ c.Unresolved)
    (member : call.resolutionFactId ∈ conflictMemberIds s call.conflictId)
    (args : ResolveArgs call s) :
    ∃ s' resolution, call.apply s = .ok (s', resolution) ∧
      ResolvedTo s s' call.conflictId call.resolutionFactId := by
  have sound := slotSound_of_reached (reached.mono fun _ _ => not_erases_of_mutates)
  obtain ⟨⟨s', resolution⟩, done⟩ := resolve_ok sound opened member args
  exact ⟨s', resolution, done, (resolve_effect done).resolvedTo sound⟩

/-- A resolution of the sample dispute to the second value. -/
def sampleResolution : ResolveCall :=
  ⟨"2026-01-03T00:00:00+00:00", "2", 2, "agent-a", "checked the door", none, some "agent-a",
    some "session", some "agent"⟩

theorem sample_conflict_resolves :
    ∃ s' resolution,
      sampleResolution.apply (run (step Sample.host) Sample.dispute Store.empty) =
        .ok (s', resolution) ∧
      ResolvedTo (run (step Sample.host) Sample.dispute Store.empty) s' "2" 2 := by
  refine open_conflict_resolves ⟨Sample.dispute, ⟨trivial, trivial, trivial⟩, rfl⟩ sampleResolution
    (by decide +kernel) (by decide +kernel) ?_
  refine ⟨by decide +kernel, by decide +kernel, ⟨_, rfl⟩, .inr ⟨"agent-a", rfl, "session", rfl, "agent",
    rfl, by decide +kernel, by decide +kernel, by decide +kernel, ?_⟩⟩
  have known : ((run (step Sample.host) Sample.dispute Store.empty).sessions.get?
      ("agent-a", "session")).isSome = true := by decide +kernel
  intro missing
  rw [missing] at known
  cases known

end Enfold.Laws
