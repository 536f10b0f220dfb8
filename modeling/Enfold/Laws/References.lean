/-
# Laws.References -- references between the tables of a reachable store

A conflict member names a conflict and a fact that are there, and no two observations share
a digest under one session and source type.  Both hold in every reachable store; they make
the ids that a write generates fresh where it needs them to be.
-/
import Enfold.Laws.Lineage

namespace Enfold.Laws

open Enfold.Theory Enfold.Model

set_option autoImplicit false

/-! ## Conflict members -/

/-- Every member of a conflict is a fact, and its conflict exists. -/
def MembersKnown (s : Store) : Prop :=
  ∀ m ∈ s.conflictMembers, (∃ c ∈ s.conflicts, c.conflictId = m.conflictId) ∧
    ∃ r ∈ s.facts, r.factId = m.factId

/-- Facts are not lost, and neither are conflicts. -/
theorem MembersKnown.of_kept {s s' : Store} (known : MembersKnown s)
    (link : LinkStep s.facts s'.facts)
    (conflicts : ∀ c ∈ s.conflicts, ∃ c' ∈ s'.conflicts, c'.conflictId = c.conflictId)
    (members : ∀ m ∈ s'.conflictMembers, m ∈ s.conflictMembers ∨
      (∃ c ∈ s'.conflicts, c.conflictId = m.conflictId) ∧ ∃ r ∈ s'.facts, r.factId = m.factId) :
    MembersKnown s' := by
  intro m mem
  rcases members m mem with old | new
  · obtain ⟨⟨c, memC, sameC⟩, r, memR, sameR⟩ := known m old
    obtain ⟨c', memC', sameC'⟩ := conflicts c memC
    obtain ⟨r', memR', sameR', -⟩ := link.kept r memR
    exact ⟨⟨c', memC', sameC'.trans sameC⟩, r', memR', sameR'.trans sameR⟩
  · exact new

theorem StateEffect.membersKnown {tick : Tick} {request : WriteRequest}
    {candidate : StateCandidate} {d : SlotDecision} {s s' : Store} {factId : Nat}
    (effect : StateEffect tick request candidate d s s' factId) (known : MembersKnown s) :
    MembersKnown s' := by
  have link := effect.linkStep
  have kept : ∀ c ∈ s.conflicts, ∃ c' ∈ s'.conflicts, c'.conflictId = c.conflictId :=
    fun c mem => ⟨c, effect.conflictGrowth.keptConflicts c mem, rfl⟩
  refine known.of_kept link kept fun m mem => ?_
  cases effect with
  | repeated r here repeats result same => exact .inl (same ▸ mem)
  | added vacant patch conflicts members result => exact .inl (members ▸ mem)
  | superseded r only ungrouped patch conflicts members result chosen => exact .inl (members ▸ mem)
  | disputed r detail joined only ungrouped patch conflicts member newMember result =>
      have opened : ∃ c ∈ s'.conflicts, c.conflictId = tick.conflictId.text :=
        ⟨_, (Table.mem_of_insert? conflicts).2 (.inr rfl), rfl⟩
      rcases (Table.mem_of_insert? newMember).1 mem with mem | rfl
      · rcases (Table.mem_of_insert? member).1 mem with mem | rfl
        · exact .inl mem
        · exact .inr ⟨opened, _, patch.of_mem List.mem_cons_self, rfl⟩
      · refine .inr ⟨opened, _, patch.of_mem (List.mem_cons_of_mem _ List.mem_cons_self), ?_⟩
        rfl
  | joined r c here group open_ patch conflicts newMember result =>
      rcases (Table.mem_of_insert? newMember).1 mem with mem | rfl
      · exact .inl mem
      · exact .inr ⟨⟨c, conflicts ▸ open_.1, rfl⟩, _, patch.of_mem List.mem_cons_self, rfl⟩

theorem MembersKnown.of_same {s s' : Store} (known : MembersKnown s) (facts : s'.facts = s.facts)
    (conflicts : s'.conflicts = s.conflicts) (members : s'.conflictMembers = s.conflictMembers) :
    MembersKnown s' := by
  unfold MembersKnown
  rw [facts, conflicts, members]
  exact known

theorem write_membersKnown {host : Host} {call : WriteCall} {s s' : Store} {o : WriteOutcome}
    (done : call.apply host s = .ok (s', o)) (known : MembersKnown s) : MembersKnown s' := by
  obtain ⟨context, -, -, -, branches⟩ := write_cases done
  cases branches with
  | replay prior found sameHash answer frame clients =>
      exact known.of_same (by rw [frame]) (by rw [frame]) (by rw [frame])
  | factless s₀ decision fresh registered decided frame logged answer =>
      exact known.of_same (by rw [frame, registered.frame]) (by rw [frame, registered.frame])
        (by rw [frame, registered.frame])
  | typed s₀ s₁ observationId effective d applied fresh registered decided recorded observed accepted
      branch finished =>
      have known₁ : MembersKnown s₁ := known.of_same (by rw [observed, registered.frame])
        (by rw [observed, registered.frame]) (by rw [observed, registered.frame])
      refine (branch.2.membersKnown known₁).of_kept
        (finished.linkStep fun target => absurd rfl target) (fun c mem => ⟨c, ?_, rfl⟩)
        fun m mem => .inl ?_
      · rw [finished.frame]
        exact mem
      · rwa [finished.frame] at mem
  | untyped s₀ s₁ observationId near applied fresh registered decided recorded observed searched
      accepted branch finished =>
      obtain ⟨-, effect, conflicts, members⟩ := branch
      have near := nearDuplicate_row searched
      have known₁ : MembersKnown s₁ := known.of_same (by rw [observed, registered.frame])
        (by rw [observed, registered.frame]) (by rw [observed, registered.frame])
      have known₂ : MembersKnown applied.store := known₁.of_kept (effect.linkStep near)
        (fun c mem => ⟨c, conflicts ▸ mem, rfl⟩) fun m mem => .inl (members ▸ mem)
      refine known₂.of_kept (finished.linkStep fun _ => effect.result_current near)
        (fun c mem => ⟨c, ?_, rfl⟩) fun m mem => .inl ?_
      · rw [finished.frame]
        exact mem
      · rwa [finished.frame] at mem

theorem ResolveEffect.membersKnown {s s' : Store} {conflictId moment resolvedBy reason : String}
    {winner : Nat} (effect : ResolveEffect s s' conflictId winner moment resolvedBy reason)
    (link : LinkStep s.facts s'.facts) (known : MembersKnown s) : MembersKnown s' := by
  refine known.of_kept link (fun c mem => ?_) fun m mem => .inl ?_
  · rw [effect.conflicts, closeConflict]
    refine ⟨_, Table.mem_update.2 ⟨c, mem, rfl⟩, ?_⟩
    split <;> rfl
  · rwa [effect.frame] at mem

theorem EraseEffect.membersKnown {host : Host} {call : EraseCall} {s s' : Store} {row : FactRow}
    {insights : List Nat} (effect : EraseEffect host call s s' row insights)
    (known : MembersKnown s) : MembersKnown s' := by
  refine known.of_kept effect.linkStep
    (fun c mem => ⟨_, effect.conflicts.of_mem mem, cleanedConflict_conflictId _ _ _ _ _⟩)
    fun m mem => .inl ?_
  rw [effect.members] at mem
  exact (Table.mem_delete.1 mem).1

theorem membersKnown_of_reached {host : Host} {s : Store}
    (reached : Reached host (fun _ _ => True) s) : MembersKnown s := by
  have start : Reached host (fun _ _ => True) Store.empty := Reachable.refl
  have both : LineageSince Facts.empty s ∧ MembersKnown s := by
    refine reached.induction (P := fun s => LineageSince Facts.empty s ∧ MembersKnown s)
      ⟨lineage_of_reached start, fun m mem => absurd mem (Table.not_mem_empty m)⟩ ?_
    rintro op s - ⟨since, known⟩
    refine step_induction (P := fun s => LineageSince Facts.empty s ∧ MembersKnown s) ⟨since, known⟩
      (fun call s s' o done both => ⟨write_lineage done both.1, write_membersKnown done both.2⟩)
      (fun call s s' o done both => ?_) (fun call s' o _ done => ?_) (fun s s' aside both => ?_)
    · have effect := resolve_effect done
      have link := effect.linkStep both.1.lineage both.1.grouped
      exact ⟨both.1.step link (effect.grouped both.1.grouped), effect.membersKnown link both.2⟩
    · obtain ⟨row, insights, effect⟩ := erase_effect done
      exact ⟨since.step effect.linkStep (effect.grouped since.grouped), effect.membersKnown known⟩
    · exact ⟨both.1.of_same (by rw [aside.frame]) (by rw [aside.frame]),
        both.2.of_same (by rw [aside.frame]) (by rw [aside.frame]) (by rw [aside.frame])⟩
  exact both.2

/-! ## Observation digests -/

/-- The digest of an observation identifies it. -/
def DigestsUnique (s : Store) : Prop :=
  ∀ o ∈ s.observations, ∀ o' ∈ s.observations, o.digestKey = o'.digestKey → o = o'

/-- An observation is added only when its digest is new. -/
theorem recordObservation_digests {host : Host} {s s' : Store} {context : ConnectionContext}
    {request : WriteRequest} {now : String} {observationId : Nat}
    (recorded : recordObservation host s context request now = .ok (s', observationId))
    (unique : DigestsUnique s) : DigestsUnique s' := by
  unfold recordObservation at recorded
  dsimp only at recorded
  split at recorded
  · cases pure_eq_ok.1 recorded
    exact unique
  rename_i none
  obtain ⟨-, recorded⟩ := require_bind_eq_ok.1 recorded
  obtain ⟨observations, inserted, recorded⟩ := bind_eq_ok.1 recorded
  cases pure_eq_ok.1 recorded
  have new : ∀ o ∈ s.observations, o.digestKey ≠ (context.clientId,
      observationSha256 host context request, context.sessionId, request.sourceType) := by
    intro o mem same
    obtain ⟨client, hash, session, source⟩ : o.clientId = context.clientId ∧
        o.contentSha256 = observationSha256 host context request ∧
        o.sessionId = context.sessionId ∧ o.sourceType = request.sourceType := by
      simpa [ObservationRow.digestKey] using same
    exact List.eq_nil_iff_forall_not_mem.1 none o
      (Table.mem_select.2 ⟨mem, client, hash, session, source⟩)
  intro o mem o' mem' same
  rcases (Table.mem_of_insert? (insertRow_eq_ok.1 inserted)).1 mem with old | rfl
  · rcases (Table.mem_of_insert? (insertRow_eq_ok.1 inserted)).1 mem' with old' | rfl
    · exact unique o old o' old' same
    · exact absurd same (new o old)
  · rcases (Table.mem_of_insert? (insertRow_eq_ok.1 inserted)).1 mem' with old' | rfl
    · exact absurd same.symm (new o' old')
    · rfl

theorem write_digests {host : Host} {call : WriteCall} {s s' : Store} {o : WriteOutcome}
    (done : call.apply host s = .ok (s', o)) (unique : DigestsUnique s) : DigestsUnique s' := by
  obtain ⟨context, -, -, -, branches⟩ := write_cases done
  cases branches with
  | replay prior found sameHash answer frame clients =>
      rw [frame]
      exact unique
  | factless s₀ decision fresh registered decided frame logged answer =>
      rw [frame, registered.frame]
      exact unique
  | typed s₀ s₁ observationId effective d applied fresh registered decided recorded observed accepted
      branch finished =>
      have unique₁ := recordObservation_digests recorded
        (show DigestsUnique s₀ by rw [registered.frame]; exact unique)
      rw [finished.frame, branch.1]
      exact unique₁
  | untyped s₀ s₁ observationId near applied fresh registered decided recorded observed searched
      accepted branch finished =>
      have unique₁ := recordObservation_digests recorded
        (show DigestsUnique s₀ by rw [registered.frame]; exact unique)
      rw [finished.frame, branch.1]
      exact unique₁

/-- An erasure that would make two digests equal raises: no later statement touches the
observations. -/
theorem erase_digests {host : Host} {call : EraseCall} {s s' : Store} {report : ErasureReport}
    (done : call.apply host s = .ok (s', report)) : DigestsUnique s' := by
  unfold EraseCall.apply eraseFact at done
  obtain ⟨-, done⟩ := require_bind_eq_ok.1 done
  dsimp only at done
  obtain ⟨-, done⟩ := require_bind_eq_ok.1 done
  split at done
  · cases done
  obtain ⟨s₁, observed, done⟩ := bind_eq_ok.1 done
  obtain ⟨s₂, scrubbed, done⟩ := bind_eq_ok.1 done
  obtain ⟨s₃, queued, done⟩ := bind_eq_ok.1 done
  obtain ⟨insights, -, done⟩ := bind_eq_ok.1 done
  obtain ⟨s₄, invalidated, done⟩ := bind_eq_ok.1 done
  obtain ⟨⟨s₅, count⟩, cleaned, done⟩ := bind_eq_ok.1 done
  obtain ⟨erasures, -, done⟩ := bind_eq_ok.1 done
  obtain ⟨-, done⟩ := require_bind_eq_ok.1 done
  obtain ⟨-, done⟩ := require_bind_eq_ok.1 done
  cases pure_eq_ok.1 done
  have same₂ : s₂.observations = s₁.observations := by
    rw [(scrubFact_eq_ok scrubbed).1]
    rfl
  have same₃ : s₃.observations = s₂.observations := by
    rw [(eraseQueue_eq_ok queued).1]
    rfl
  have same₄ : s₄.observations = s₃.observations := by rw [(updateFacts_eq_ok invalidated).1]
  have same₅ : s₅.observations = s₄.observations := by
    rw [(cleanConflicts_eq_ok cleaned).1]
    rfl
  have unique : DigestsUnique s₁ := by
    obtain ⟨distinct, observed⟩ := require_bind_eq_ok.1 observed
    cases pure_eq_ok.1 observed
    exact fun o mem o' mem' digest => List.inj_on_of_nodup_map distinct mem mem' digest
  show ∀ o ∈ s₅.observations, ∀ o' ∈ s₅.observations, o.digestKey = o'.digestKey → o = o'
  rw [same₅, same₄, same₃, same₂]
  exact unique

theorem digestsUnique_of_reached {host : Host} {s : Store}
    (reached : Reached host (fun _ _ => True) s) : DigestsUnique s := by
  refine reached.induction (P := DigestsUnique) (fun o mem => absurd mem (Table.not_mem_empty o)) ?_
  intro op s _ unique
  refine step_induction unique (fun call s s' o done => write_digests done)
    (fun call s s' o done unique => ?_) (fun call s' o _ done => erase_digests done)
    (fun s s' aside unique => ?_)
  · rw [(resolve_effect done).frame]
    exact unique
  · rw [aside.frame]
    exact unique

end Enfold.Laws
