/-
# Laws.LifecycleFlips -- two texts that differ by one lifecycle word (`cluster_merge.py`)

`safeToMergeNearDuplicate` compares the *set* of lifecycle words of a text, where it compares
its values in order.  A flipped word changes the set only when the rest of the sentence does
not already hold both words.  The exception for `on` and `off` takes no part in this: the
flipped word follows a copula, so it adds nothing to the occurrences read as prepositions, and
those of the rest are the same on both sides.
-/
import Enfold.Model.ClusterMerge

namespace Enfold.Laws

open Enfold.Theory Enfold.Model

set_option autoImplicit false

/-! ## Occurrences without a copula -/

theorem mem_of_prepositional {word : String} {previous : Option String} {words : List String}
    (found : prepositional word previous words = true) : word ∈ words := by
  induction words generalizing previous with
  | nil => simp [prepositional] at found
  | cons token rest ih =>
      simp only [prepositional, Bool.or_eq_true, Bool.and_eq_true, beq_iff_eq] at found
      rcases found with ⟨here, -⟩ | later
      · simp [here]
      · simp [ih later]

theorem prepositional_append (word : String) (previous : Option String) (u rest : List String) :
    prepositional word previous (u ++ rest) =
      (prepositional word previous u || prepositional word (u.getLast?.or previous) rest) := by
  induction u generalizing previous with
  | nil => simp [prepositional]
  | cons token u ih =>
      have lastOf : (token :: u).getLast?.or previous = u.getLast?.or (some token) := by
        cases found : u.getLast? <;> simp [List.getLast?_cons, found]
      simp only [List.cons_append, prepositional, ih, lastOf, Bool.or_assoc]

/-- A token that is no copula counts for the next one as the start of the text does. -/
theorem prepositional_after (word : String) {token : String} (plain : token ∉ copulas)
    (words : List String) : prepositional word (some token) words = prepositional word none words := by
  cases words with
  | nil => rfl
  | cons next rest => simp [prepositional, plain]

/-- A word after a copula leaves the prepositions to the rest of the text. -/
theorem prepositional_flip (word : String) {u : List String} {copula : String}
    (last : u.getLast? = some copula) (asserts : copula ∈ copulas) {x : String}
    (plain : x ∉ copulas) (v : List String) :
    prepositional word none (u ++ x :: v) =
      (prepositional word none u || prepositional word none v) := by
  rw [prepositional_append, last]
  simp [prepositional, asserts, prepositional_after word plain]

/-! ## The flipped word -/

theorem state_not_copula {x : String} (state : x ∈ stateWords) : x ∉ copulas := by
  revert x
  decide

theorem state_not_value {x : String} (state : x ∈ stateWords) :
    (x.toList.any isAsciiDigit || decide (x ∈ dateWords)) = false := by
  revert x
  decide +kernel

theorem state_not_negation {x : String} (state : x ∈ stateWords) : x ∉ negationWords := by
  revert x
  decide

theorem mem_stateTokens {content word : String} :
    word ∈ stateTokens content ↔
      word ∈ stateWords ∧ word ∈ tokens content ∧
        ¬ (word ∈ ["on", "off"] ∧ prepositional word none (tokens content) = true) := by
  simp only [stateTokens, List.mem_filter, decide_eq_true_eq]

section Flip

variable {content other : String} {u v : List String} {x y copula : String}

theorem valueTokens_flip (reads : tokens content = u ++ x :: v)
    (readsOther : tokens other = u ++ y :: v) (state : x ∈ stateWords)
    (stateOther : y ∈ stateWords) : valueTokens content = valueTokens other := by
  simp only [valueTokens, reads, readsOther, List.filter_append, List.filter_cons,
    state_not_value state, state_not_value stateOther, Bool.false_eq_true, if_false]

theorem negated_flip (reads : tokens content = u ++ x :: v)
    (readsOther : tokens other = u ++ y :: v) (state : x ∈ stateWords)
    (stateOther : y ∈ stateWords) : negated content = negated other := by
  simp [negated, reads, readsOther, state_not_negation state, state_not_negation stateOther]

/-- The lifecycle words of a text, read off the sentence around the flipped word. -/
theorem mem_stateTokens_flip (reads : tokens content = u ++ x :: v) (state : x ∈ stateWords)
    (last : u.getLast? = some copula) (asserts : copula ∈ copulas) {word : String} :
    word ∈ stateTokens content ↔
      word ∈ stateWords ∧ (word = x ∨ word ∈ u ++ v) ∧
        ¬ (word ∈ ["on", "off"] ∧
          (prepositional word none u || prepositional word none v) = true) := by
  rw [mem_stateTokens, reads, prepositional_flip word last asserts (state_not_copula state)]
  have occurs : word ∈ u ++ x :: v ↔ word = x ∨ word ∈ u ++ v := by
    simp only [List.mem_append, List.mem_cons]
    tauto
  rw [occurs]

/-- A word the rest of the sentence does not hold is asserted by the copula. -/
theorem asserted_of_fresh (reads : tokens content = u ++ x :: v) (state : x ∈ stateWords)
    (last : u.getLast? = some copula) (asserts : copula ∈ copulas) (fresh : x ∉ u ++ v) :
    x ∈ stateTokens content := by
  refine (mem_stateTokens_flip reads state last asserts).2 ⟨state, Or.inl rfl, ?_⟩
  rintro ⟨-, elsewhere⟩
  rcases Bool.or_eq_true _ _ ▸ elsewhere with before | after
  · exact fresh (List.mem_append_left _ (mem_of_prepositional before))
  · exact fresh (List.mem_append_right _ (mem_of_prepositional after))

/-- The flip goes unseen exactly when the rest of the sentence holds both words. -/
theorem stateTokens_flip_iff (reads : tokens content = u ++ x :: v)
    (readsOther : tokens other = u ++ y :: v) (state : x ∈ stateWords)
    (stateOther : y ∈ stateWords) (distinct : x ≠ y) (last : u.getLast? = some copula)
    (asserts : copula ∈ copulas) :
    stateTokens content = stateTokens other ↔ x ∈ u ++ v ∧ y ∈ u ++ v := by
  constructor
  · intro same
    constructor
    · by_contra fresh
      have here := asserted_of_fresh reads state last asserts fresh
      rw [same] at here
      rcases ((mem_stateTokens_flip readsOther stateOther last asserts).1 here).2.1 with eq | mem
      · exact distinct eq
      · exact fresh mem
    · by_contra fresh
      have here := asserted_of_fresh readsOther stateOther last asserts fresh
      rw [← same] at here
      rcases ((mem_stateTokens_flip reads state last asserts).1 here).2.1 with eq | mem
      · exact distinct eq.symm
      · exact fresh mem
  · rintro ⟨memX, memY⟩
    have sameMembers : ∀ word ∈ stateWords, word ∈ stateTokens content ↔
        word ∈ stateTokens other := by
      intro word _
      rw [mem_stateTokens_flip reads state last asserts,
        mem_stateTokens_flip readsOther stateOther last asserts]
      have absorbed : (word = x ∨ word ∈ u ++ v) ↔ (word = y ∨ word ∈ u ++ v) := by
        constructor
        · rintro (rfl | mem)
          · exact Or.inr memX
          · exact Or.inr mem
        · rintro (rfl | mem)
          · exact Or.inr memY
          · exact Or.inr mem
      rw [absorbed]
    simp only [stateTokens]
    refine List.filter_congr fun word mem => ?_
    have same := sameMembers word mem
    rw [mem_stateTokens, mem_stateTokens] at same
    exact decide_eq_decide.2 (by simpa [mem] using same)

end Flip

/-- **A lifecycle flip.**  Two texts that differ by one lifecycle word after a copula are kept
apart, whatever the stored vectors say, exactly when the rest of the sentence lacks one of the
two words. -/
theorem flip_blocked_iff {group : List String} (grouped : group ∈ stateWordGroups)
    {x y : String} (memX : x ∈ group) (memY : y ∈ group) (distinct : x ≠ y)
    {u v : List String} {copula : String} (last : u.getLast? = some copula)
    (asserts : copula ∈ copulas) {content other : String}
    (reads : tokens content = u ++ x :: v) (readsOther : tokens other = u ++ y :: v) :
    (safeToMergeNearDuplicate content other = false ∧
        ∀ host vector threshold row, row.fact.content = other →
          candidateOf host content vector threshold row = none) ↔
      ¬ (x ∈ u ++ v ∧ y ∈ u ++ v) := by
  have state : x ∈ stateWords := stateWords_eq ▸ List.mem_flatten.2 ⟨group, grouped, memX⟩
  have stateOther : y ∈ stateWords := stateWords_eq ▸ List.mem_flatten.2 ⟨group, grouped, memY⟩
  have decided : safeToMergeNearDuplicate content other = true ↔ x ∈ u ++ v ∧ y ∈ u ++ v := by
    simp only [safeToMergeNearDuplicate, decide_eq_true_eq,
      valueTokens_flip reads readsOther state stateOther,
      negated_flip reads readsOther state stateOther, true_and]
    exact stateTokens_flip_iff reads readsOther state stateOther distinct last asserts
  constructor
  · rintro ⟨blocked, -⟩ both
    rw [decided.2 both] at blocked
    cases blocked
  · intro lacking
    have blocked : safeToMergeNearDuplicate content other = false := by
      cases verdict : safeToMergeNearDuplicate content other with
      | false => rfl
      | true => exact absurd (decided.1 verdict) lacking
    refine ⟨blocked, ?_⟩
    intro host vector threshold row here
    have refused : row.stored.dim ≠ vector.length ∨
        ¬ safeToMergeNearDuplicate content row.fact.content = true := by
      right
      rw [here, blocked]
      decide
    rw [candidateOf, if_pos refused]

/-! ## A flip that goes unseen -/

/-- The rest of this sentence holds both words. -/
def unseenContext : List String :=
  ["the", "mirror", "was", "inactive", "and", "then", "active", "but", "the", "primary", "is"]

/-- A sentence that holds one of the words only is kept apart from its flip. -/
theorem sample_flip_blocked :
    (safeToMergeNearDuplicate "The light is on." "The light is off." = false ∧
        ∀ host vector threshold row, row.fact.content = "The light is off." →
          candidateOf host "The light is on." vector threshold row = none) ↔
      ¬ ("on" ∈ ["the", "light", "is"] ++ ([] : List String) ∧
        "off" ∈ ["the", "light", "is"] ++ ([] : List String)) :=
  @flip_blocked_iff ["on", "off"] (by decide) "on" "off" (by decide) (by decide) (by decide)
    ["the", "light", "is"] [] "is" (by decide) (by decide) "The light is on."
    "The light is off." (by decide +kernel) (by decide +kernel)

/-- Both words occur in the rest of the sentence: the flip leaves the set as it was. -/
theorem flip_unseen :
    ¬ ∀ group ∈ stateWordGroups, ∀ x ∈ group, ∀ y ∈ group, x ≠ y →
      ∀ (u v : List String) (copula : String), u.getLast? = some copula → copula ∈ copulas →
        ∀ content other : String, tokens content = u ++ x :: v → tokens other = u ++ y :: v →
          safeToMergeNearDuplicate content other = false := by
  intro holds
  have blocked := holds ["active", "inactive", "archived"] (by decide) "active" (by decide)
    "inactive" (by decide) (by decide) unseenContext [] "is" (by decide) (by decide)
    "The mirror was inactive and then active, but the primary is active."
    "The mirror was inactive and then active, but the primary is inactive."
    (by decide +kernel) (by decide +kernel)
  have merged : safeToMergeNearDuplicate
      "The mirror was inactive and then active, but the primary is active."
      "The mirror was inactive and then active, but the primary is inactive." = true := by
    decide +kernel
  rw [merged] at blocked
  cases blocked

end Enfold.Laws
