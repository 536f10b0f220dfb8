/-
# Laws.FactHistory -- what `fact_history` returns

The first pass collects every fact that leads to the given one, the second what those lead to.
A fact leads to at most one other, so the answer is what leads to the fact and what the fact
leads to.  Side branches that join further on are missed: every fact of a connected component
gets the whole component exactly when no fact of it superseded two (`history_whole_iff`).
-/
import Enfold.Model.Temporal
import Enfold.Theory.Forest

namespace Enfold.Laws

open Enfold.Theory Enfold.Model Relation

set_option autoImplicit false

/-- One fact of the table was superseded by another. -/
structure Superseded (facts : Table Nat FactRow FactRow.factId) (a b : FactRow) : Prop where
  source : a ∈ facts
  target : b ∈ facts
  edge : a.supersededBy = some b.factId

/-- A link the second pass follows. -/
def Followed (facts : Table Nat FactRow FactRow.factId) (a b : FactRow) : Prop :=
  Superseded facts a b ∧ b.factId ≠ 0

section History

variable {facts : Table Nat FactRow FactRow.factId} {a b r : FactRow}

theorem superseded_functional : Relator.RightUnique (Superseded facts) := by
  intro a b c first second
  exact Table.eq_of_key first.target second.target
    (Option.some.inj (first.edge.symm.trans second.edge))

/-- What the first pass collects leads to where it started. -/
theorem backward_path (mem : a ∈ facts) :
    ReflTransGen (EdgeIn facts Supersedes) a r ↔ ReflTransGen (Superseded facts) r a := by
  constructor
  · intro path
    have both : r ∈ facts ∧ ReflTransGen (Superseded facts) r a := by
      induction path with
      | refl => exact ⟨mem, .refl⟩
      | tail _ step ih => exact ⟨step.2, .head ⟨step.2, ih.1, step.1⟩ ih.2⟩
    exact both.2
  · intro path
    induction path using ReflTransGen.head_induction_on with
    | refl => exact .refl
    | head step _ ih => exact ih.tail ⟨step.edge, step.source⟩

/-- What the second pass adds, the links reach. -/
theorem forward_path (mem : a ∈ facts) :
    ReflTransGen (EdgeIn facts SupersededInto) a r ↔ ReflTransGen (Followed facts) a r := by
  constructor
  · intro path
    have both : r ∈ facts ∧ ReflTransGen (Followed facts) a r := by
      induction path with
      | refl => exact ⟨mem, .refl⟩
      | tail _ step ih => exact ⟨step.2, ih.2.tail ⟨⟨ih.1, step.2, step.1.1⟩, step.1.2⟩⟩
    exact both.2
  · exact ReflTransGen.mono (fun _ _ step => ⟨⟨step.1.edge, step.2⟩, step.1.target⟩) _ _

/-- Both passes, at a fact of the table. -/
theorem factHistory_spec (mem : a ∈ facts) :
    (factHistory facts a.factId).Nodup ∧
      ∀ r, r ∈ factHistory facts a.factId ↔
        ∃ c, ReflTransGen (Superseded facts) c a ∧ ReflTransGen (Followed facts) c r := by
  have found : facts.get? a.factId = some a := Table.get?_eq_some.2 ⟨mem, rfl⟩
  have start : ∀ c ∈ [a], c ∈ facts := by
    intro c only
    rwa [List.mem_singleton.1 only]
  obtain ⟨distinct, inside⟩ : (saturate facts Supersedes [a]).Nodup ∧
      ∀ r ∈ saturate facts Supersedes [a], r ∈ facts :=
    saturate_nodup start (List.nodup_singleton a)
  unfold factHistory
  rw [found]
  dsimp only
  refine ⟨((List.mergeSort_perm _ _).nodup_iff).2 (saturate_nodup inside distinct).1, fun r => ?_⟩
  rw [List.mem_mergeSort, mem_saturate inside]
  constructor
  · rintro ⟨c, collected, path⟩
    obtain ⟨only, single, back⟩ := (mem_saturate start).1 collected
    rw [List.mem_singleton.1 single] at back
    exact ⟨c, (backward_path mem).1 back, (forward_path (inside c collected)).1 path⟩
  · rintro ⟨c, back, path⟩
    have collected : c ∈ saturate facts Supersedes [a] :=
      (mem_saturate start).2 ⟨a, List.mem_singleton_self a, (backward_path mem).2 back⟩
    exact ⟨c, collected, (forward_path (inside c collected)).2 path⟩

theorem path_of_followed (path : ReflTransGen (Followed facts) a b) :
    ReflTransGen (Superseded facts) a b :=
  ReflTransGen.mono (fun _ _ step => step.1) _ _ path

/-- Whatever is returned stands on one line with the fact. -/
theorem comparable_of_mem (mem : a ∈ facts) (returned : r ∈ factHistory facts a.factId) :
    ReflTransGen (Superseded facts) r a ∨ ReflTransGen (Superseded facts) a r := by
  obtain ⟨c, back, path⟩ := ((factHistory_spec mem).2 r).1 returned
  exact (ReflTransGen.total_of_right_unique superseded_functional back
    (path_of_followed path)).symm

/-- The answer for `a` is its connected component, each fact of it once. -/
def Whole (facts : Table Nat FactRow FactRow.factId) (a : FactRow) : Prop :=
  (factHistory facts a.factId).Nodup ∧
    ∀ r, r ∈ factHistory facts a.factId ↔ Joined (Superseded facts) a r

/-- The facts that `a` leads to superseded one fact each, and none of them is number 0. -/
def Unbranched (facts : Table Nat FactRow FactRow.factId) (a : FactRow) : Prop :=
  ∀ w, TransGen (Superseded facts) a w →
    w.factId ≠ 0 ∧ ∀ x y, Superseded facts x w → Superseded facts y w → x = y

theorem joined_of_mem (mem : a ∈ facts) (returned : r ∈ factHistory facts a.factId) :
    Joined (Superseded facts) a r := by
  obtain back | path := comparable_of_mem mem returned
  · exact (Joined.of_path back).symm
  · exact Joined.of_path path

/-- One fact gets its whole component exactly when nothing joins after it. -/
theorem whole_iff (acyclic : ∀ x, ¬ TransGen (Superseded facts) x x) (mem : a ∈ facts) :
    Whole facts a ↔ Unbranched facts a := by
  constructor
  · rintro ⟨-, whole⟩ w path
    refine ⟨fun zero => ?_, fun x y here there => ?_⟩
    · obtain ⟨c, back, reached⟩ := ((factHistory_spec mem).2 w).1
        ((whole w).2 (Joined.of_path path.to_reflTransGen))
      obtain rfl | ⟨last, -, step⟩ := ReflTransGen.cases_tail reached
      · exact acyclic a (path.trans_left back)
      · exact step.2 zero
    · exact alone_of_comparable superseded_functional acyclic
        (fun r joined => comparable_of_mem mem ((whole r).2 joined)) path here there
  · intro unbranched
    refine ⟨(factHistory_spec mem).1, fun r => ⟨joined_of_mem mem, fun joined => ?_⟩⟩
    refine ((factHistory_spec mem).2 r).2 ?_
    obtain back | path := comparable_of_joined superseded_functional
      (fun w x y path => (unbranched w path).2 x y) joined
    · exact ⟨r, back, .refl⟩
    · refine ⟨a, .refl, ?_⟩
      induction path with
      | refl => exact .refl
      | tail path step ih =>
          exact (ih (Joined.of_path path)).tail
            ⟨step, (unbranched _ (TransGen.tail' path step)).1⟩

/-- Every fact of a component gets the whole component exactly when no fact of it superseded
two, and none superseded by fact 0. -/
theorem history_whole_iff (acyclic : ∀ x, ¬ TransGen (Superseded facts) x x) (mem : a ∈ facts) :
    (∀ b, Joined (Superseded facts) a b → Whole facts b) ↔
      ∀ w x, Joined (Superseded facts) a w → Superseded facts x w →
        w.factId ≠ 0 ∧ ∀ y, Superseded facts y w → x = y := by
  have inside : ∀ b, Joined (Superseded facts) a b → b ∈ facts := by
    intro b joined
    obtain rfl | ⟨c, -, step⟩ := ReflTransGen.cases_tail joined
    · exact mem
    · exact step.elim Superseded.target Superseded.source
  constructor
  · intro whole w x joined edge
    have joinedSource : Joined (Superseded facts) a x := joined.tail (.inr edge)
    obtain ⟨positive, alone⟩ := (whole_iff acyclic edge.source).1 (whole x joinedSource) w
      (.single edge)
    exact ⟨positive, fun y => alone x y edge⟩
  · intro single b joined
    refine (whole_iff acyclic (inside b joined)).2 fun w path => ?_
    have joinedTarget : Joined (Superseded facts) a w :=
      joined.trans (Joined.of_path path.to_reflTransGen)
    obtain ⟨last, -, edge⟩ := TransGen.tail'_iff.1 path
    exact ⟨(single w last joinedTarget edge).1, fun x y here => (single w x joinedTarget here).2 y⟩

end History

/-! ## Samples -/

/-- A plain fact. -/
def plainFact (factId : Nat) (supersededBy : Option Nat) : FactRow where
  factId := factId
  content := "the door opens"
  category := "general"
  tags := ""
  trustScore := .half
  createdAt := "2026-01-01 00:00:00"
  validFrom := none
  invalidAt := supersededBy.map fun _ => "2026-01-02T00:00:00+00:00"
  supersededBy := supersededBy
  memoryKind := none
  subjectKey := none
  predicateKey := none
  objectValue := none
  sourceAuthority := some .half
  scope := "work"
  sensitivity := "normal"
  correctionStatus := none
  conflictGroup := none

/-- A chain of three facts. -/
def chainFacts : Table Nat FactRow FactRow.factId :=
  ⟨[plainFact 1 (some 2), plainFact 2 (some 3), plainFact 3 none], by decide⟩

/-- Two facts superseded by one. -/
def branchFacts : Table Nat FactRow FactRow.factId :=
  ⟨[plainFact 1 (some 3), plainFact 2 (some 3), plainFact 3 none], by decide⟩

/-- Where every link goes to a larger id there is no cycle. -/
theorem acyclic_of_increasing {facts : Table Nat FactRow FactRow.factId}
    (increasing : ∀ r ∈ facts, ∀ k ∈ r.supersededBy, r.factId < k) (x : FactRow) :
    ¬ TransGen (Superseded facts) x x := by
  have up : ∀ y, TransGen (Superseded facts) x y → x.factId < y.factId := by
    intro y path
    induction path with
    | single step => exact increasing _ step.source _ step.edge
    | tail _ step ih => exact Nat.lt_trans ih (increasing _ step.source _ step.edge)
  exact fun cycle => Nat.lt_irrefl _ (up x cycle)

/-- Every fact of the chain gets the chain. -/
theorem chain_history_whole :
    Whole chainFacts (plainFact 1 (some 2)) ∧ Whole chainFacts (plainFact 2 (some 3)) ∧
      Whole chainFacts (plainFact 3 none) := by
  have increasing : ∀ r ∈ chainFacts.rows, ∀ k ∈ r.supersededBy, r.factId < k := by decide
  have single : ∀ w ∈ chainFacts.rows, ∀ x ∈ chainFacts.rows, x.supersededBy = some w.factId →
      w.factId ≠ 0 ∧ ∀ y ∈ chainFacts.rows, y.supersededBy = some w.factId → x = y := by decide
  have first : plainFact 1 (some 2) ∈ chainFacts := List.mem_cons_self
  have second : plainFact 2 (some 3) ∈ chainFacts := List.mem_cons_of_mem _ List.mem_cons_self
  have third : plainFact 3 none ∈ chainFacts :=
    List.mem_cons_of_mem _ (List.mem_cons_of_mem _ List.mem_cons_self)
  have toSecond : Joined (Superseded chainFacts) (plainFact 1 (some 2)) (plainFact 2 (some 3)) :=
    .single (.inl ⟨first, second, rfl⟩)
  have toThird : Joined (Superseded chainFacts) (plainFact 2 (some 3)) (plainFact 3 none) :=
    .single (.inl ⟨second, third, rfl⟩)
  have whole := (history_whole_iff (acyclic_of_increasing increasing) first).2
    fun w x _ edge => by
      obtain ⟨positive, alone⟩ := single w edge.target x edge.source edge.edge
      exact ⟨positive, fun y other => alone y other.source other.edge⟩
  exact ⟨whole _ (.refl _), whole _ toSecond, whole _ (toSecond.trans toThird)⟩

/-- Both facts that one superseded are in one component, and neither history has the other. -/
theorem branch_history_parted :
    Joined (Superseded branchFacts) (plainFact 1 (some 3)) (plainFact 2 (some 3)) ∧
      (∀ x, ¬ TransGen (Superseded branchFacts) x x) ∧
      ¬ Whole branchFacts (plainFact 1 (some 3)) := by
  have increasing : ∀ r ∈ branchFacts.rows, ∀ k ∈ r.supersededBy, r.factId < k := by decide
  have first : plainFact 1 (some 3) ∈ branchFacts := List.mem_cons_self
  have second : plainFact 2 (some 3) ∈ branchFacts := List.mem_cons_of_mem _ List.mem_cons_self
  have last : plainFact 3 none ∈ branchFacts := by
    exact List.mem_cons_of_mem _ (List.mem_cons_of_mem _ List.mem_cons_self)
  have intoThird : Superseded branchFacts (plainFact 1 (some 3)) (plainFact 3 none) :=
    ⟨first, last, rfl⟩
  have alsoIntoThird : Superseded branchFacts (plainFact 2 (some 3)) (plainFact 3 none) :=
    ⟨second, last, rfl⟩
  have acyclic := acyclic_of_increasing increasing
  refine ⟨.head (.inl intoThird) (.single (.inr alsoIntoThird)), acyclic, fun whole => ?_⟩
  have same := ((whole_iff acyclic first).1 whole _ (.single intoThird)).2 _ _ intoThird
    alsoIntoThird
  exact absurd (congrArg FactRow.factId same) (by decide)

end Enfold.Laws
