/-
# Laws.OpposingStates -- opposite lifecycle words keep two texts apart (`__init__.py`)

The lifecycle words of a text are taken from its content tokens, and `on` is a stop word.
In every other group the content tokens hold what the text holds, so texts that differ there
are opposed; in the group of `on` and `off` at most `off` is left, which opposes nothing.
The helpers of `temporal.py` are the same functions over the same tables.
-/
import Enfold.Model.NearDuplicate
import Enfold.Model.Temporal

namespace Enfold.Laws

open Enfold.Theory Enfold.Model.NearDuplicate

set_option autoImplicit false

/-! ## The two copies -/

theorem mirrored_stateWords (text : String) : Model.Temporal.stateWords text = stateWords text := rfl

theorem mirrored_negationWords (text : String) :
    Model.Temporal.negationWords text = negationWords text := rfl

theorem mirrored_overlap (content other : String) :
    Model.Temporal.hasSubjectishOverlap content other = hasSubjectishOverlap content other := rfl

theorem mirrored_opposing (content other : String) (requireContext : Bool) :
    Model.Temporal.hasOpposingStateWords content other requireContext =
      hasOpposingStateWords content other requireContext := by
  simp only [Model.Temporal.hasOpposingStateWords, hasOpposingStateWords, mirrored_overlap,
    mirrored_stateWords]
  rfl

theorem mirrored_negation (content other : String) (requireContext : Bool) :
    Model.Temporal.hasNegationMismatch content other requireContext =
      hasNegationMismatch content other requireContext := by
  simp only [Model.Temporal.hasNegationMismatch, hasNegationMismatch, mirrored_overlap,
    mirrored_negationWords]
  rfl

/-! ## Groups -/

/-- The group a stop word cuts through. -/
def switchGroup : List String := ["on", "off"]

theorem significant_of_group {group : List String} (grouped : group ∈ stateWordGroups)
    (other : group ≠ switchGroup) {word : String} (mem : word ∈ group) : word ∉ stopwords := by
  revert word group
  decide

theorem stateWords_inter {group : List String} (grouped : group ∈ stateWordGroups)
    (other : group ≠ switchGroup) (text : String) :
    stateWords text ∩ group.toFinset = normTokens text ∩ group.toFinset := by
  ext word
  simp only [stateWords, contentTokens, stateWordSet, Finset.mem_inter, Finset.mem_sdiff,
    List.mem_toFinset, List.mem_flatten]
  constructor
  · rintro ⟨⟨⟨token, -⟩, -⟩, mem⟩
    exact ⟨token, mem⟩
  · rintro ⟨token, mem⟩
    exact ⟨⟨⟨token, significant_of_group grouped other mem⟩, group, grouped, mem⟩, mem⟩

/-- Of `on` and `off` only the second is ever seen. -/
theorem stateWords_switch {text : String}
    (seen : stateWords text ∩ switchGroup.toFinset ≠ ∅) :
    stateWords text ∩ switchGroup.toFinset = {"off"} := by
  have only : ∀ word ∈ stateWords text ∩ switchGroup.toFinset, word = "off" := by
    intro word mem
    simp only [stateWords, contentTokens, switchGroup, Finset.mem_inter, Finset.mem_sdiff,
      List.mem_toFinset, List.mem_cons, List.not_mem_nil, or_false] at mem
    rcases mem.2 with rfl | rfl
    · exact absurd (by decide) mem.1.1.2
    · rfl
  exact Finset.eq_singleton_iff_nonempty_unique_mem.2
    ⟨Finset.nonempty_iff_ne_empty.2 seen, only⟩

/-! ## Verdicts -/

section Verdicts

variable {content other : String}

theorem hasOpposingStateWords_eq_true :
    hasOpposingStateWords content other false = true ↔
      ∃ group ∈ stateWordGroups, stateWords content ∩ group.toFinset ≠ ∅ ∧
        stateWords other ∩ group.toFinset ≠ ∅ ∧
        stateWords content ∩ group.toFinset ≠ stateWords other ∩ group.toFinset := by
  simp only [hasOpposingStateWords, Bool.false_and, Bool.false_eq_true, if_false]
  split
  · rename_i stateless
    refine iff_of_false (by decide) ?_
    rintro ⟨group, -, here, there, -⟩
    rcases stateless with none | none
    · exact here (by rw [none, Finset.empty_inter])
    · exact there (by rw [none, Finset.empty_inter])
  · simp only [List.any_eq_true, decide_eq_true_eq]

/-- The words of the two texts differ in a group other than `on` and `off`. -/
def OpposedOutsideSwitch (content other : String) : Prop :=
  ∃ group ∈ stateWordGroups, group ≠ switchGroup ∧ normTokens content ∩ group.toFinset ≠ ∅ ∧
    normTokens other ∩ group.toFinset ≠ ∅ ∧
    normTokens content ∩ group.toFinset ≠ normTokens other ∩ group.toFinset

theorem hasOpposingStateWords_iff :
    hasOpposingStateWords content other false = true ↔ OpposedOutsideSwitch content other := by
  rw [hasOpposingStateWords_eq_true]
  constructor
  · rintro ⟨group, grouped, here, there, differ⟩
    have outside : group ≠ switchGroup := by
      rintro rfl
      exact differ ((stateWords_switch here).trans (stateWords_switch there).symm)
    rw [stateWords_inter grouped outside] at here there differ
    rw [stateWords_inter grouped outside] at differ
    exact ⟨group, grouped, outside, here, there, differ⟩
  · rintro ⟨group, grouped, outside, here, there, differ⟩
    refine ⟨group, grouped, ?_⟩
    rw [stateWords_inter grouped outside, stateWords_inter grouped outside]
    exact ⟨here, there, differ⟩

theorem isNearDuplicate_of_opposing
    (opposed : hasOpposingStateWords content other false = true) (threshold : Score) :
    isNearDuplicate content other threshold = false := by
  obtain ⟨group, -, -, -, differ⟩ := hasOpposingStateWords_eq_true.1 opposed
  have words : contentTokens content ≠ contentTokens other := by
    intro same
    exact differ (by rw [stateWords, stateWords, same])
  simp only [isNearDuplicate, words, decide_false, ite_self]

theorem isSemanticDuplicate_of_opposing
    (opposed : hasOpposingStateWords content other false = true) (cosine : Option Score)
    (threshold : Score) : isSemanticDuplicate content other cosine threshold = false := by
  cases cosine with
  | none => rfl
  | some cosine => simp only [isSemanticDuplicate, opposed, if_true, ite_self]

end Verdicts

/-- Each text holds one word of some group, and not the same one. -/
def OneWordEach (content other : String) : Prop :=
  ∃ group ∈ stateWordGroups, ∃ x y, x ≠ y ∧ normTokens content ∩ group.toFinset = {x} ∧
    normTokens other ∩ group.toFinset = {y}

/-- **Opposite lifecycle words.**  Both copies of the helpers agree on every pair of texts.
Texts with one word of a group each are opposed, and kept apart at every threshold and cosine,
exactly when their words differ in a group other than `on` and `off`. -/
theorem opposing_words_kept_apart (content other : String) :
    (∀ requireContext,
      Model.Temporal.hasOpposingStateWords content other requireContext =
          hasOpposingStateWords content other requireContext ∧
        Model.Temporal.hasNegationMismatch content other requireContext =
          hasNegationMismatch content other requireContext ∧
        Model.Temporal.hasSubjectishOverlap content other = hasSubjectishOverlap content other ∧
        Model.Temporal.valueTokens content = valueTokens content) ∧
      (OneWordEach content other →
        ((hasOpposingStateWords content other false = true ∧
            (∀ threshold, isNearDuplicate content other threshold = false) ∧
            ∀ cosine threshold, isSemanticDuplicate content other cosine threshold = false) ↔
          OpposedOutsideSwitch content other)) := by
  constructor
  · intro requireContext
    exact ⟨mirrored_opposing content other requireContext,
      mirrored_negation content other requireContext, mirrored_overlap content other, rfl⟩
  · intro _
    rw [← hasOpposingStateWords_iff]
    constructor
    · exact fun kept => kept.1
    · intro opposed
      exact ⟨opposed, isNearDuplicate_of_opposing opposed, isSemanticDuplicate_of_opposing opposed⟩

/-! ## The update gate -/

theorem hasOpposingStateWords_context {content other : String}
    (opposed : hasOpposingStateWords content other true = true) :
    hasOpposingStateWords content other false = true := by
  unfold hasOpposingStateWords at opposed ⊢
  by_cases apart : (true && !hasSubjectishOverlap content other) = true
  · rw [if_pos apart] at opposed
    cases opposed
  · rw [if_neg apart] at opposed
    rw [if_neg (by simp)]
    exact opposed

theorem hasNegationMismatch_context {content other : String}
    (mismatch : hasNegationMismatch content other true = true) :
    hasNegationMismatch content other false = true := by
  unfold hasNegationMismatch at mismatch ⊢
  by_cases apart : (true && !hasSubjectishOverlap content other) = true
  · rw [if_pos apart] at mismatch
    cases mismatch
  · rw [if_neg apart] at mismatch
    rw [if_neg (by simp)]
    exact mismatch

/-- With the values unchanged, an update flips the state or the polarity. -/
theorem isValueUpdate_flips {content other : String}
    (same : valueTokens content = valueTokens other)
    (update : Model.Temporal.isValueUpdate content other = true) :
    hasOpposingStateWords content other true = true ∨
      hasNegationMismatch content other true = true := by
  have same' : Model.Temporal.valueTokens content = Model.Temporal.valueTokens other := same
  simp only [Model.Temporal.isValueUpdate, same', if_true, mirrored_opposing, mirrored_negation,
    Bool.or_eq_true] at update
  exact update

theorem isNearDuplicate_eq_true {content other : String} {threshold : Score}
    (near : isNearDuplicate content other threshold = true) :
    valueTokens content = valueTokens other ∧
      hasNegationMismatch content other true = false ∧
      contentTokens content = contentTokens other := by
  unfold isNearDuplicate at near
  split at near
  · cases near
  rename_i values
  split at near
  · cases near
  rename_i polarity
  split at near
  · cases near
  exact ⟨not_not.1 values, Bool.eq_false_iff.2 polarity, of_decide_eq_true near⟩

theorem isSemanticDuplicate_eq_true {content other : String} {cosine : Option Score}
    {threshold : Score} (duplicate : isSemanticDuplicate content other cosine threshold = true) :
    valueTokens content = valueTokens other ∧
      hasOpposingStateWords content other false = false ∧
      hasNegationMismatch content other false = false := by
  cases cosine with
  | none => cases duplicate
  | some cosine =>
      unfold isSemanticDuplicate at duplicate
      dsimp only at duplicate
      split at duplicate
      · cases duplicate
      rename_i values
      split at duplicate
      · cases duplicate
      rename_i opposed
      split at duplicate
      · cases duplicate
      rename_i polarity
      exact ⟨not_not.1 values, Bool.eq_false_iff.2 opposed, Bool.eq_false_iff.2 polarity⟩

/-- **Disjoint gates.**  A text that updates the value of another is no restatement of it, at
any threshold and any cosine. -/
theorem update_and_restatement_disjoint (content other : String) (jaccardThreshold : Score)
    (cosine : Option Score) (cosineThreshold : Score) :
    ¬ (Model.Temporal.isValueUpdate content other = true ∧
      (isNearDuplicate content other jaccardThreshold = true ∨
        isSemanticDuplicate content other cosine cosineThreshold = true)) := by
  rintro ⟨update, near | duplicate⟩
  · obtain ⟨values, polarity, words⟩ := isNearDuplicate_eq_true near
    rcases isValueUpdate_flips values update with opposed | mismatch
    · have apart := isNearDuplicate_of_opposing (hasOpposingStateWords_context opposed)
        jaccardThreshold
      rw [apart] at near
      cases near
    · rw [polarity] at mismatch
      cases mismatch
  · obtain ⟨values, unopposed, polarity⟩ := isSemanticDuplicate_eq_true duplicate
    rcases isValueUpdate_flips values update with opposed | mismatch
    · rw [hasOpposingStateWords_context opposed] at unopposed
      cases unopposed
    · rw [hasNegationMismatch_context mismatch] at polarity
      cases polarity

/-! ## Sample texts -/

theorem sample_opposed :
    (hasOpposingStateWords "The lamp is active." "The lamp is archived." false = true ∧
        (∀ threshold,
          isNearDuplicate "The lamp is active." "The lamp is archived." threshold = false) ∧
        ∀ cosine threshold, isSemanticDuplicate "The lamp is active." "The lamp is archived."
          cosine threshold = false) ↔
      OpposedOutsideSwitch "The lamp is active." "The lamp is archived." :=
  (opposing_words_kept_apart _ _).2
    ⟨["active", "inactive", "archived"], by decide, "active", "archived", by decide,
      by decide +kernel, by decide +kernel⟩

/-- A lamp that is on passes for one that is off. -/
theorem switch_passes :
    OneWordEach "The lamp is on." "The lamp is off." ∧
      hasOpposingStateWords "The lamp is on." "The lamp is off." false = false ∧
      isSemanticDuplicate "The lamp is on." "The lamp is off." (some (.finite (95 / 100)))
        (.finite (92 / 100)) = true := by
  refine ⟨⟨switchGroup, by decide, "on", "off", by decide, ?_, ?_⟩, ?_, ?_⟩
  · decide +kernel
  · decide +kernel
  · decide +kernel
  · decide +kernel

end Enfold.Laws
