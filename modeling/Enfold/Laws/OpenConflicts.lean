/-
# Laws.OpenConflicts -- an open conflict has members

A conflict is opened with its first members, members are only added to it while it is open, and an
erasure that removes a member settles the conflict unless two others are left.  So in every
reachable store, erasures included, every open conflict has a member.
-/
import Enfold.Laws.ErasureFrame
import Enfold.Laws.References

namespace Enfold.Laws

open Enfold.Theory Enfold.Model

set_option autoImplicit false

/-- Every open conflict has a member. -/
def OpenMembered (s : Store) : Prop :=
  ∀ c ∈ s.conflicts, c.Unresolved → ∃ id, ⟨c.conflictId, id⟩ ∈ s.conflictMembers

variable {s s' : Store}

theorem OpenMembered.of_same (membered : OpenMembered s) (conflicts : s'.conflicts = s.conflicts)
    (members : s'.conflictMembers = s.conflictMembers) : OpenMembered s' := by
  unfold OpenMembered
  rw [conflicts, members]
  exact membered

theorem StateEffect.openMembered {tick : Tick} {request : WriteRequest} {candidate : StateCandidate}
    {d : SlotDecision} {factId : Nat} (effect : StateEffect tick request candidate d s s' factId)
    (membered : OpenMembered s) : OpenMembered s' := by
  have kept : ∀ c ∈ s.conflicts, c.Unresolved → ∃ id, ⟨c.conflictId, id⟩ ∈ s'.conflictMembers := by
    intro c mem unresolved
    obtain ⟨id, member⟩ := membered c mem unresolved
    exact ⟨id, effect.conflictGrowth.keptMembers _ member⟩
  intro c mem unresolved
  cases effect with
  | repeated r here repeats result same => exact kept c (same ▸ mem) unresolved
  | added vacant patch conflicts members result => exact kept c (conflicts ▸ mem) unresolved
  | superseded r only ungrouped patch conflicts members result chosen =>
      exact kept c (conflicts ▸ mem) unresolved
  | disputed r detail joined only ungrouped patch conflicts member newMember result =>
      rcases (Table.mem_of_insert? conflicts).1 mem with old | rfl
      · exact kept c old unresolved
      · exact ⟨_, (Table.mem_of_insert? newMember).2 (.inr rfl)⟩
  | joined r c' here group open_ patch conflicts newMember result =>
      exact kept c (conflicts ▸ mem) unresolved

theorem write_openMembered {host : Host} {call : WriteCall} {o : WriteOutcome}
    (done : call.apply host s = .ok (s', o)) (membered : OpenMembered s) : OpenMembered s' := by
  obtain ⟨context, -, -, -, branches⟩ := write_cases done
  cases branches with
  | replay prior found sameHash answer frame clients =>
      exact membered.of_same (by rw [frame]) (by rw [frame])
  | factless s₀ decision fresh registered decided frame logged answer =>
      exact membered.of_same (by rw [frame, registered.frame]) (by rw [frame, registered.frame])
  | typed s₀ s₁ observationId effective d applied fresh registered decided recorded observed accepted
      branch finished =>
      have membered₁ : OpenMembered s₁ := membered.of_same (by rw [observed, registered.frame])
        (by rw [observed, registered.frame])
      exact (branch.2.openMembered membered₁).of_same (by rw [finished.frame]) (by rw [finished.frame])
  | untyped s₀ s₁ observationId near applied fresh registered decided recorded observed searched
      accepted branch finished =>
      obtain ⟨-, -, conflicts, members⟩ := branch
      exact membered.of_same (by rw [finished.frame, conflicts, observed, registered.frame])
        (by rw [finished.frame, members, observed, registered.frame])

theorem ResolveEffect.openMembered {conflictId moment resolvedBy reason : String} {winner : Nat}
    (effect : ResolveEffect s s' conflictId winner moment resolvedBy reason)
    (membered : OpenMembered s) : OpenMembered s' := by
  intro c mem unresolved
  rw [effect.conflicts, closeConflict] at mem
  obtain ⟨c₀, mem₀, made⟩ := Table.mem_update.1 mem
  rw [effect.frame]
  split at made
  · subst made
    cases unresolved
  · subst made
    exact membered c₀ mem₀ unresolved

theorem EraseEffect.openMembered {host : Host} {call : EraseCall} {row : FactRow}
    {insights : List Nat} (effect : EraseEffect host call s s' row insights)
    (membered : OpenMembered s) : OpenMembered s' := by
  intro c mem unresolved
  obtain ⟨held, stays⟩ := (effect.mem_open unresolved).1 mem
  by_cases ofFact : ⟨c.conflictId, call.factId⟩ ∈ s.conflictMembers
  · have several : ¬ (otherMembers s c.conflictId call.factId).length ≤ 1 := fun few =>
      stays ⟨ofFact, few⟩
    obtain ⟨id, left⟩ := List.exists_mem_of_length_pos (by omega :
      0 < (otherMembers s c.conflictId call.factId).length)
    exact ⟨id, effect.mem_members.2 (mem_otherMembers.1 left)⟩
  · obtain ⟨id, member⟩ := membered c held unresolved
    refine ⟨id, effect.mem_members.2 ⟨member, ?_⟩⟩
    rintro rfl
    exact ofFact member

theorem openMembered_of_reached {host : Host} (reached : Reached host (fun _ _ => True) s) :
    OpenMembered s := by
  refine reached.induction (P := OpenMembered) (fun c mem => absurd mem (Table.not_mem_empty c)) ?_
  rintro op s - membered
  refine step_induction (P := OpenMembered) membered (fun call s s' o done => write_openMembered done)
    (fun call s s' o done => (resolve_effect done).openMembered) (fun call s' o _ done => ?_)
    (fun s s' aside membered => ?_)
  · obtain ⟨row, insights, effect⟩ := erase_effect done
    exact effect.openMembered membered
  · exact membered.of_same (by rw [aside.frame]) (by rw [aside.frame])

end Enfold.Laws
