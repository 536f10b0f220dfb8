/-
# Laws.ConflictScopes -- the facts of a conflict are of its scope

A conflict is opened with facts of its slot, and joined by a fact of its slot.  A resolution, and an
erasure that ends a conflict, choose one of the members.  So in every reachable store the members of
a conflict and the fact that resolved it exist and have its scope (`conflictScopes_of_reached`).
-/
import Enfold.Laws.References

namespace Enfold.Laws

open Enfold.Theory Enfold.Model

set_option autoImplicit false

/-- A fact of this id and scope. -/
def HasFact (s : Store) (factId : Nat) (scope : String) : Prop :=
  ∃ r ∈ s.facts, r.factId = factId ∧ r.scope = scope

structure ConflictScopes (s : Store) : Prop where
  members : ∀ m ∈ s.conflictMembers, ∀ c ∈ s.conflicts, c.conflictId = m.conflictId →
    HasFact s m.factId c.scope
  resolutions : ∀ c ∈ s.conflicts, ∀ k ∈ c.resolutionFactId, HasFact s k c.scope

theorem conflictScopes_empty : ConflictScopes Store.empty :=
  ⟨fun m mem => absurd mem (Table.not_mem_empty m), fun c mem => absurd mem (Table.not_mem_empty c)⟩

section Steps

variable {s s' : Store}

theorem HasFact.kept (link : LinkStep s.facts s'.facts) {factId : Nat} {scope : String}
    (has : HasFact s factId scope) : HasFact s' factId scope := by
  obtain ⟨r, mem, here, same⟩ := has
  obtain ⟨r', mem', here', same', -⟩ := link.kept r mem
  exact ⟨r', mem', here'.trans here, same'.trans same⟩

/-- Conflicts and members that are not old are of facts of their scope. -/
theorem ConflictScopes.of_kept (scopes : ConflictScopes s) (link : LinkStep s.facts s'.facts)
    (conflicts : ∀ c' ∈ s'.conflicts, (∃ c ∈ s.conflicts, c.conflictId = c'.conflictId ∧
        c.scope = c'.scope ∧ ∀ k ∈ c'.resolutionFactId, k ∈ c.resolutionFactId ∨
          HasFact s' k c'.scope) ∨
      c'.resolutionFactId = none ∧ ∀ m ∈ s.conflictMembers, m.conflictId ≠ c'.conflictId)
    (members : ∀ m ∈ s'.conflictMembers, m ∈ s.conflictMembers ∨
      ∀ c ∈ s'.conflicts, c.conflictId = m.conflictId → HasFact s' m.factId c.scope) :
    ConflictScopes s' where
  members := by
    intro m mem c' memC' same
    rcases members m mem with old | new
    · rcases conflicts c' memC' with ⟨c, memC, here, scope, -⟩ | ⟨-, unjoined⟩
      · exact scope ▸ (scopes.members m old c memC (here.trans same)).kept link
      · exact absurd same.symm (unjoined m old)
    · exact new c' memC' same
  resolutions := by
    intro c' memC' k chosen
    rcases conflicts c' memC' with ⟨c, memC, -, scope, kept⟩ | ⟨open_, -⟩
    · rcases kept k chosen with old | new
      · exact scope ▸ (scopes.resolutions c memC k old).kept link
      · exact new
    · rw [open_] at chosen
      cases chosen

theorem ConflictScopes.of_same (scopes : ConflictScopes s) (facts : s'.facts = s.facts)
    (conflicts : s'.conflicts = s.conflicts) (members : s'.conflictMembers = s.conflictMembers) :
    ConflictScopes s' := by
  refine scopes.of_kept (facts ▸ LinkStep.refl s.facts) (fun c mem => .inl ?_) fun m mem => .inl ?_
  · exact ⟨c, conflicts ▸ mem, rfl, rfl, fun k chosen => .inl chosen⟩
  · exact members ▸ mem

/-- The only conflict of a new id is the one that the write opened, about its own slot. -/
theorem StateEffect.conflictScopes {tick : Tick} {request : WriteRequest}
    {candidate : StateCandidate} {d : SlotDecision} {factId : Nat}
    (effect : StateEffect tick request candidate d s s' factId) (known : MembersKnown s)
    (scopes : ConflictScopes s) : ConflictScopes s' := by
  have link := effect.linkStep
  have old : s'.conflicts = s.conflicts → ∀ c' ∈ s'.conflicts, ∃ c ∈ s.conflicts,
      c.conflictId = c'.conflictId ∧ c.scope = c'.scope ∧
        ∀ k ∈ c'.resolutionFactId, k ∈ c.resolutionFactId ∨ HasFact s' k c'.scope :=
    fun same c' mem => ⟨c', same ▸ mem, rfl, rfl, fun k chosen => .inl chosen⟩
  cases effect with
  | repeated r here repeats result same => exact scopes.of_same (by rw [same]) (by rw [same]) (by rw [same])
  | added vacant patch conflicts members result =>
      exact scopes.of_kept link (fun c mem => .inl (old conflicts c mem)) fun m mem =>
        .inl (members ▸ mem)
  | superseded r only ungrouped patch conflicts members result chosen =>
      exact scopes.of_kept link (fun c mem => .inl (old conflicts c mem)) fun m mem =>
        .inl (members ▸ mem)
  | disputed r detail joined only ungrouped patch conflicts member newMember result =>
      obtain ⟨memR, inSlot, -⟩ := mem_of_only only
      have fresh : ∀ c ∈ s.conflicts, c.conflictId ≠ tick.conflictId.text := fun c mem =>
        Table.fresh_of_insert? conflicts mem
      have opened := (Table.mem_of_insert? conflicts).2 (.inr rfl)
      have ofSlot : ∀ c ∈ s'.conflicts, c.conflictId = tick.conflictId.text →
          c.scope = candidate.slot.scope := by
        intro c memC same
        rw [Table.eq_of_key memC opened same]
        rfl
      refine scopes.of_kept link (fun c memC => ?_) fun m memM => ?_
      · rcases (Table.mem_of_insert? conflicts).1 memC with mem | rfl
        · exact .inl ⟨c, mem, rfl, rfl, fun k chosen => .inl chosen⟩
        · refine .inr ⟨rfl, fun m memM same => ?_⟩
          obtain ⟨⟨c, memC, here⟩, -⟩ := known m memM
          exact fresh c memC (here.trans same)
      · rcases (Table.mem_of_insert? newMember).1 memM with memM | rfl
        · rcases (Table.mem_of_insert? member).1 memM with memM | rfl
          · exact .inl memM
          · refine .inr fun c memC same => ?_
            rw [ofSlot c memC same]
            exact ⟨_, patch.of_mem List.mem_cons_self, rfl, inSlot.2.1⟩
        · refine .inr fun c memC same => ?_
          rw [ofSlot c memC same]
          exact ⟨_, patch.of_mem (List.mem_cons_of_mem _ List.mem_cons_self), rfl, rfl⟩
  | joined r c here group open_ patch conflicts newMember result =>
      refine scopes.of_kept link (fun c mem => .inl (old conflicts c mem)) fun m memM => ?_
      rcases (Table.mem_of_insert? newMember).1 memM with memM | rfl
      · exact .inl memM
      · refine .inr fun c' memC' same => ?_
        rw [conflicts] at memC'
        rw [Table.eq_of_key memC' open_.1 same]
        exact ⟨_, patch.of_mem List.mem_cons_self, rfl, (congrArg Slot.scope open_.2.2).symm⟩

theorem write_conflictScopes {host : Host} {call : WriteCall} {o : WriteOutcome}
    (done : call.apply host s = .ok (s', o)) (known : MembersKnown s) (scopes : ConflictScopes s) :
    ConflictScopes s' := by
  obtain ⟨context, -, -, -, branches⟩ := write_cases done
  have kept : ∀ {s₁ : Store}, ConflictScopes s₁ → LinkStep s₁.facts s'.facts →
      s'.conflicts = s₁.conflicts → s'.conflictMembers = s₁.conflictMembers → ConflictScopes s' :=
    fun scopes₁ link conflicts members => scopes₁.of_kept link
      (fun c mem => .inl ⟨c, conflicts ▸ mem, rfl, rfl, fun k chosen => .inl chosen⟩)
      fun m mem => .inl (members ▸ mem)
  cases branches with
  | replay prior found sameHash answer frame clients =>
      exact scopes.of_same (by rw [frame]) (by rw [frame]) (by rw [frame])
  | factless s₀ decision fresh registered decided frame logged answer =>
      exact scopes.of_same (by rw [frame, registered.frame]) (by rw [frame, registered.frame])
        (by rw [frame, registered.frame])
  | typed s₀ s₁ observationId effective d applied fresh registered decided recorded observed accepted
      branch finished =>
      have scopes₁ : ConflictScopes s₁ := scopes.of_same (by rw [observed, registered.frame])
        (by rw [observed, registered.frame]) (by rw [observed, registered.frame])
      have known₁ : MembersKnown s₁ := known.of_same (by rw [observed, registered.frame])
        (by rw [observed, registered.frame]) (by rw [observed, registered.frame])
      exact kept (branch.2.conflictScopes known₁ scopes₁)
        (finished.linkStep fun target => absurd rfl target) (by rw [finished.frame])
        (by rw [finished.frame])
  | untyped s₀ s₁ observationId near applied fresh registered decided recorded observed searched
      accepted branch finished =>
      obtain ⟨-, effect, conflicts, members⟩ := branch
      have near := nearDuplicate_row searched
      have scopes₁ : ConflictScopes s₁ := scopes.of_same (by rw [observed, registered.frame])
        (by rw [observed, registered.frame]) (by rw [observed, registered.frame])
      have scopes₂ : ConflictScopes applied.store := scopes₁.of_kept (effect.linkStep near)
        (fun c mem => .inl ⟨c, conflicts ▸ mem, rfl, rfl, fun k chosen => .inl chosen⟩)
        fun m mem => .inl (members ▸ mem)
      exact kept scopes₂ (finished.linkStep fun _ => effect.result_current near)
        (by rw [finished.frame]) (by rw [finished.frame])

/-- The fact a conflict is resolved to is a member of it. -/
theorem ResolveEffect.conflictScopes {conflictId moment resolvedBy reason : String} {winner : Nat}
    (effect : ResolveEffect s s' conflictId winner moment resolvedBy reason)
    (link : LinkStep s.facts s'.facts) (scopes : ConflictScopes s) : ConflictScopes s' := by
  refine scopes.of_kept link (fun c' mem' => .inl ?_) fun m mem => .inl ?_
  · rw [effect.conflicts, closeConflict] at mem'
    obtain ⟨c, mem, made⟩ := Table.mem_update.1 mem'
    split at made
    · rename_i chosen
      subst made
      refine ⟨c, mem, rfl, rfl, ?_⟩
      rintro k ⟨⟩
      exact .inr ((scopes.members _ (mem_conflictMemberIds.1 effect.member) c mem chosen.1).kept link)
    · subst made
      exact ⟨c, mem, rfl, rfl, fun k chosen => .inl chosen⟩
  · rwa [effect.frame] at mem

/-- A conflict that lost a member is settled for one that is left. -/
theorem EraseEffect.conflictScopes {host : Host} {call : EraseCall} {row : FactRow}
    {insights : List Nat} (effect : EraseEffect host call s s' row insights)
    (scopes : ConflictScopes s) : ConflictScopes s' := by
  refine scopes.of_kept effect.linkStep (fun c' mem' => .inl ?_) fun m mem => .inl ?_
  · obtain ⟨c, mem, rfl⟩ := (effect.conflicts c').1 mem'
    refine ⟨c, mem, (cleanedConflict_conflictId _ _ _ _ _).symm, ?_, fun k chosen => ?_⟩
    · unfold cleanedConflict
      split <;> rfl
    · unfold cleanedConflict at chosen ⊢
      split at chosen
      · rename_i settles
        rw [if_pos settles]
        have listed : k ∈ remainingMembers (leaveConflicts s call.factId) c.conflictId :=
          List.mem_of_mem_head? chosen
        obtain ⟨m, left, rfl⟩ := List.mem_map.1 listed
        obtain ⟨stays, same⟩ := Table.mem_select.1 left
        exact .inr ((scopes.members m (Table.mem_delete.1 stays).1 c mem same.symm).kept
          effect.linkStep)
      · exact .inl chosen
  · rw [effect.members] at mem
    exact (Table.mem_delete.1 mem).1

end Steps

theorem conflictScopes_of_reached {host : Host} {s : Store}
    (reached : Reached host (fun _ _ => True) s) : ConflictScopes s := by
  have start : Reached host (fun _ _ => True) Store.empty := Reachable.refl
  have all : LineageSince Facts.empty s ∧ MembersKnown s ∧ ConflictScopes s := by
    refine reached.induction
      (P := fun s => LineageSince Facts.empty s ∧ MembersKnown s ∧ ConflictScopes s)
      ⟨lineage_of_reached start, membersKnown_of_reached start, conflictScopes_empty⟩ ?_
    rintro op s - all
    refine step_induction
      (P := fun s => LineageSince Facts.empty s ∧ MembersKnown s ∧ ConflictScopes s) all
      (fun call s s' o done all => ?_) (fun call s s' o done all => ?_) (fun call s' o _ done => ?_)
      (fun s s' aside all => ?_)
    all_goals obtain ⟨since, known, scopes⟩ := all
    · exact ⟨write_lineage done since, write_membersKnown done known,
        write_conflictScopes done known scopes⟩
    · have effect := resolve_effect done
      have link := effect.linkStep since.lineage since.grouped
      exact ⟨since.step link (effect.grouped since.grouped), effect.membersKnown link known,
        effect.conflictScopes link scopes⟩
    · obtain ⟨row, insights, effect⟩ := erase_effect done
      exact ⟨since.step effect.linkStep (effect.grouped since.grouped), effect.membersKnown known,
        effect.conflictScopes scopes⟩
    · exact ⟨since.of_same (by rw [aside.frame]) (by rw [aside.frame]),
        known.of_same (by rw [aside.frame]) (by rw [aside.frame]) (by rw [aside.frame]),
        scopes.of_same (by rw [aside.frame]) (by rw [aside.frame]) (by rw [aside.frame])⟩
  exact all.2.2

end Enfold.Laws
