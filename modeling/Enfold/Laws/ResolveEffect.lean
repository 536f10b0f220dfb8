/-
# Laws.ResolveEffect -- what a conflict resolution does

`ResolveEffect` is the inversion of `resolveStateConflict`: the conflict was open, every
member still carried it, and afterwards the winner is released, every other member is
superseded by it, and no other fact differs.  The authorized path through the service adds
only registrations and an embedding job.
-/
import Enfold.Laws.WriteEffect

namespace Enfold.Laws

open Enfold.Theory Enfold.Model

set_option autoImplicit false

/-- A row after the resolution of a conflict with these members. -/
def resolvedRow (members : List Nat) (winner : Nat) (moment : String) (r : FactRow) : FactRow :=
  if r.factId = winner then { r with conflictGroup := none }
  else if r.factId ∈ members then supersededRow r moment winner
  else r

@[simp] theorem resolvedRow_factId (members : List Nat) (winner : Nat) (moment : String)
    (r : FactRow) : (resolvedRow members winner moment r).factId = r.factId := by
  unfold resolvedRow supersededRow
  split
  · rfl
  · split <;> rfl

theorem mem_conflictMemberIds {s : Store} {conflictId : String} {factId : Nat} :
    factId ∈ conflictMemberIds s conflictId ↔ ⟨conflictId, factId⟩ ∈ s.conflictMembers := by
  unfold conflictMemberIds
  rw [(List.perm_insertionSort _ _).mem_iff, List.mem_map]
  constructor
  · rintro ⟨m, selected, rfl⟩
    obtain ⟨mem, rfl⟩ := Table.mem_select.1 selected
    exact mem
  · intro mem
    exact ⟨_, Table.mem_select.2 ⟨mem, rfl⟩, rfl⟩

theorem conflictMemberIds_nodup (s : Store) (conflictId : String) :
    (conflictMemberIds s conflictId).Nodup := by
  unfold conflictMemberIds
  rw [(List.perm_insertionSort _ _).nodup_iff]
  refine List.Nodup.map_on ?_ (s.conflictMembers.nodup_select _)
  intro m mem m' mem' same
  obtain ⟨inTable, here⟩ := Table.mem_select.1 mem
  obtain ⟨inTable', here'⟩ := Table.mem_select.1 mem'
  exact Table.eq_of_key inTable inTable' (by simp [here, here', same])

/-- The conflicts after one of them is resolved. -/
def closeConflict (conflicts : Table String ConflictRow ConflictRow.conflictId)
    (conflictId : String) (winner : Nat) (moment resolvedBy reason : String) :
    Table String ConflictRow ConflictRow.conflictId :=
  conflicts.update (fun c => c.conflictId = conflictId ∧ c.Unresolved)
    (fun c =>
      { c with
        resolvedAt := some moment
        resolutionFactId := some winner
        resolvedBy := some resolvedBy
        resolutionReason := some reason })
    (fun _ => rfl)

theorem mem_closeConflict {conflicts : Table String ConflictRow ConflictRow.conflictId}
    {conflictId : String} {winner : Nat} {moment resolvedBy reason : String} {c : ConflictRow}
    (mem : c ∈ conflicts) (here : c.conflictId = conflictId) (unresolved : c.Unresolved) :
    { c with
      resolvedAt := some moment
      resolutionFactId := some winner
      resolvedBy := some resolvedBy
      resolutionReason := some reason } ∈
        closeConflict conflicts conflictId winner moment resolvedBy reason :=
  Table.mem_update_of (f := fun c => { c with
      resolvedAt := some moment
      resolutionFactId := some winner
      resolvedBy := some resolvedBy
      resolutionReason := some reason }) mem ⟨here, unresolved⟩

/-- What a resolution that returned has done. -/
structure ResolveEffect (s s' : Store) (conflictId : String) (winner : Nat)
    (moment resolvedBy reason : String) : Prop where
  opened : ∃ c ∈ s.conflicts, c.conflictId = conflictId ∧ c.Unresolved
  member : winner ∈ conflictMemberIds s conflictId
  /-- Every member still carries the conflict and is not yet invalid. -/
  carried : ∀ k ∈ conflictMemberIds s conflictId, ∃ r ∈ s.facts, r.factId = k ∧
    r.conflictGroup = some conflictId ∧ r.invalidAt = none
  winnerCurrent : ∀ r ∈ s.facts, r.factId = winner → r.Current
  facts : FactMap s.facts s'.facts (resolvedRow (conflictMemberIds s conflictId) winner moment)
  sequence : s'.facts.sequence = s.facts.sequence
  conflicts : s'.conflicts = closeConflict s.conflicts conflictId winner moment resolvedBy reason
  frame : s' = { s with facts := s'.facts, conflicts := s'.conflicts
                        conflictResolutions := s'.conflictResolutions }
  audit : s'.conflictResolutions = s.conflictResolutions ∨
    ∃ row, row.conflictId = conflictId ∧
      s.conflictResolutions.insert? row = some s'.conflictResolutions

/-! ## The three updates -/

/-- As many rows are superseded as there are losers, so each loser is there, in the conflict and valid. -/
theorem supersedeLosers_eq_ok {s s' : Store} {conflictId : String} {losers : List Nat}
    {winner : Nat} {moment : String}
    (done : supersedeLosers s conflictId losers winner moment = .ok s') :
    s' = { s with facts := s'.facts } ∧ s'.facts.sequence = s.facts.sequence ∧
      (∀ k ∈ losers, ∃ r ∈ s.facts, r.factId = k ∧ r.conflictGroup = some conflictId ∧
        r.invalidAt = none) ∧
      FactMap s.facts s'.facts
        fun r => if r.factId ∈ losers then supersededRow r moment winner else r := by
  unfold supersedeLosers at done
  split at done
  · rename_i noLosers
    cases pure_eq_ok.1 done
    subst noLosers
    exact ⟨rfl, rfl, by simp, (Table.Maps.refl _).congr fun r _ => by simp⟩
  · dsimp only at done
    obtain ⟨s₁, updated, done⟩ := bind_eq_ok.1 done
    obtain ⟨count, done⟩ := require_bind_eq_ok.1 done
    cases pure_eq_ok.1 done
    obtain ⟨frame, sequence, map⟩ := updateFacts_map updated
    have found := Table.exists_of_rowcount_eq_length count fun _ _ lost => lost.1
    have carried : ∀ k ∈ losers, ∃ r ∈ s.facts, r.factId = k ∧
        r.conflictGroup = some conflictId ∧ r.invalidAt = none := by
      intro k mem
      obtain ⟨r, inFacts, here, -, group, valid⟩ := found k mem
      exact ⟨r, inFacts, here, group, valid⟩
    refine ⟨frame, sequence, carried, map.congr fun r mem => ?_⟩
    have lost : (r.factId ∈ losers ∧ r.conflictGroup = some conflictId ∧ r.invalidAt = none) ↔
        r.factId ∈ losers := by
      refine ⟨And.left, fun inLosers => ⟨inLosers, ?_⟩⟩
      obtain ⟨r₀, mem₀, same, group, valid⟩ := carried _ inLosers
      rw [Facts.eq_of_id mem mem₀ same.symm]
      exact ⟨group, valid⟩
    simp only [lost, supersededRow]

theorem releaseWinner_eq_ok {s s' : Store} {conflictId : String} {winner : Nat}
    (done : releaseWinner s conflictId winner = .ok s') :
    s' = { s with facts := s'.facts } ∧ s'.facts.sequence = s.facts.sequence ∧
      (∃ r ∈ s.facts, r.factId = winner ∧ r.conflictGroup = some conflictId ∧ r.Current) ∧
      FactMap s.facts s'.facts
        fun r => if r.factId = winner then { r with conflictGroup := none } else r := by
  obtain ⟨s₁, updated, done⟩ := bind_eq_ok.1 done
  obtain ⟨count, done⟩ := require_bind_eq_ok.1 done
  cases pure_eq_ok.1 done
  obtain ⟨frame, sequence, map⟩ := updateFacts_map updated
  obtain ⟨w, memW, here, group, current⟩ := Table.exists_of_rowcount_eq_one count
  refine ⟨frame, sequence, ⟨w, memW, here, group, current⟩, map.congr fun r mem => ?_⟩
  have won : (r.factId = winner ∧ r.conflictGroup = some conflictId ∧ r.Current) ↔
      r.factId = winner := by
    refine ⟨And.left, fun same => ⟨same, ?_⟩⟩
    rw [Facts.eq_of_id mem memW (same.trans here.symm)]
    exact ⟨group, current⟩
  simp only [won]

theorem recordResolution_eq_ok {s s' : Store} {conflictId : String} {winner : Nat}
    {client session agent : Option String} {reason moment : String}
    (done : recordResolution s conflictId winner client session agent reason moment = .ok s') :
    s' = { s with conflictResolutions := s'.conflictResolutions } ∧
      (s'.conflictResolutions = s.conflictResolutions ∨
        ∃ row, row.conflictId = conflictId ∧
          s.conflictResolutions.insert? row = some s'.conflictResolutions) := by
  unfold recordResolution at done
  split at done
  · cases pure_eq_ok.1 done
    exact ⟨rfl, .inl rfl⟩
  · obtain ⟨clientText, -, done⟩ := bind_eq_ok.1 done
    obtain ⟨sessionText, -, done⟩ := bind_eq_ok.1 done
    obtain ⟨agentText, -, done⟩ := bind_eq_ok.1 done
    obtain ⟨-, done⟩ := require_bind_eq_ok.1 done
    obtain ⟨resolutions, inserted, done⟩ := bind_eq_ok.1 done
    cases pure_eq_ok.1 done
    exact ⟨rfl, .inr ⟨_, rfl, insertRow_eq_ok.1 inserted⟩⟩

/-! ## The resolution -/

/-- The inversion of a resolution. -/
theorem resolve_effect {call : ResolveCall} {s s' : Store} {resolution : ConflictResolution}
    (done : call.apply s = .ok (s', resolution)) :
    ResolveEffect s s' call.conflictId call.resolutionFactId (orElse call.resolvedAt call.now)
      (strip call.resolvedBy) (strip call.reason) := by
  unfold ResolveCall.apply resolveStateConflict at done
  obtain ⟨⟨resolvedBy, validBy⟩, statedBy, done⟩ := bind_eq_ok.1 done
  obtain ⟨⟨reason, validReason⟩, statedReason, done⟩ := bind_eq_ok.1 done
  obtain rfl := required_eq_ok statedBy
  obtain rfl := required_eq_ok statedReason
  dsimp only at done
  obtain ⟨instant, -, done⟩ := bind_eq_ok.1 done
  split at done
  · cases done
  rename_i conflict found
  obtain ⟨memC, sameC⟩ := Table.get?_eq_some.1 found
  obtain ⟨unresolved, done⟩ := require_bind_eq_ok.1 done
  obtain ⟨member, done⟩ := require_bind_eq_ok.1 done
  obtain ⟨s₁, superseded, done⟩ := bind_eq_ok.1 done
  obtain ⟨s₂, released, done⟩ := bind_eq_ok.1 done
  obtain ⟨s₃, recorded, done⟩ := bind_eq_ok.1 done
  cases pure_eq_ok.1 done
  obtain ⟨frame₁, sequence₁, losers, facts₁⟩ := supersedeLosers_eq_ok superseded
  obtain ⟨frame₂, sequence₂, ⟨w, memW, idW, groupW, currentW⟩, facts₂⟩ :=
    releaseWinner_eq_ok released
  obtain ⟨frame₃, audit⟩ := recordResolution_eq_ok recorded
  have oldW : w ∈ s.facts := by
    obtain ⟨r, mem, same⟩ := (facts₁ w).1 memW
    dsimp only at same
    by_cases lost : r.factId ∈ (conflictMemberIds s call.conflictId).filter
        (· ≠ call.resolutionFactId)
    · rw [if_pos lost] at same
      have : r.factId = call.resolutionFactId := by rw [← idW, ← same]; rfl
      simp [this] at lost
    · rw [if_neg lost] at same
      rwa [← same]
  refine
    { opened := ⟨conflict, memC, sameC, unresolved⟩
      member := member
      carried := ?_
      winnerCurrent := ?_
      facts := ?_
      sequence := ?_
      conflicts := ?_
      frame := ?_
      audit := ?_ }
  · intro k mem
    by_cases won : k = call.resolutionFactId
    · exact ⟨w, oldW, idW.trans won.symm, groupW, currentW.1⟩
    · exact losers k (List.mem_filter.2 ⟨mem, by simpa using won⟩)
  · intro r mem here
    rwa [Facts.eq_of_id mem oldW (here.trans idW.symm)]
  · rw [FactMap, show s'.facts = s₂.facts by rw [frame₃]]
    refine (facts₁.trans facts₂).congr fun r mem => ?_
    unfold resolvedRow
    by_cases won : r.factId = call.resolutionFactId
    · simp [won]
    · by_cases inMembers : r.factId ∈ conflictMemberIds s call.conflictId
      · simp [won, inMembers, supersededRow]
      · simp [won, inMembers]
  · rw [frame₃]
    exact sequence₂.trans sequence₁
  · rw [frame₃, frame₂, frame₁]
    rfl
  · rw [frame₃, frame₂, frame₁]
  · rw [frame₂, frame₁] at audit
    exact audit

/-- A resolution through the service is a resolution in a store with the resolver
registered, followed by an embedding job. -/
theorem resolveConflict_effect {host : Host} {service : MemoryWriteService} {resolvedAt : String}
    {context : ConnectionContext} {conflictId : String} {winner : Nat} {reason : String}
    {s s' : Store} {resolution : ConflictResolution}
    (done : resolveConflict host service resolvedAt context conflictId winner reason s =
      .ok (s', resolution)) :
    ∃ s₁ s₂ call, Registered s s₁ ∧ ResolveCall.apply call s₁ = .ok (s₂, resolution) ∧
      s' = { s₂ with embeddingJobs := s'.embeddingJobs } := by
  unfold resolveConflict at done
  obtain ⟨-, done⟩ := require_bind_eq_ok.1 done
  dsimp only at done
  obtain ⟨-, done⟩ := require_bind_eq_ok.1 done
  obtain ⟨-, done⟩ := require_bind_eq_ok.1 done
  obtain ⟨-, done⟩ := require_bind_eq_ok.1 done
  obtain ⟨-, done⟩ := require_bind_eq_ok.1 done
  unfold asInvalidResolution at done
  split at done
  · rename_i pair returned
    cases done
    obtain ⟨s₀, client, returned⟩ := bind_eq_ok.1 returned
    obtain ⟨s₁, session, returned⟩ := bind_eq_ok.1 returned
    obtain ⟨⟨s₂, inner⟩, resolved, returned⟩ := bind_eq_ok.1 returned
    obtain ⟨s₃, enqueued, returned⟩ := bind_eq_ok.1 returned
    cases pure_eq_ok.1 returned
    obtain ⟨frame₀, clients, -⟩ := registerClient_eq_ok client
    have frame₁ := registerSession_eq_ok session
    refine ⟨s₁, s₂, ⟨resolvedAt, strip conflictId, winner, context.agentId, strip reason,
      some resolvedAt, some context.clientId, some context.sessionId, some context.agentId⟩,
      ⟨by rw [frame₁, frame₀], fun c mem => ?_⟩, resolved, enqueueEmbedding_eq_ok enqueued⟩
    rw [frame₁]
    exact clients c mem
  · split at done
    all_goals cases done

end Enfold.Laws
