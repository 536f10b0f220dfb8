/-
# Theory.Occurrence -- a match inside a longer text

A pattern looks at its surroundings in one way only: a word boundary asks whether the character
next to it is a word character.  So a match in a text is a match in any longer text around it
whose edges are no word characters (`ends_append`, `searchFrom_append`), and a match in one line
is a match in the joined lines (`searchFrom_intercalate`).
-/
import Enfold.Theory.Regex

namespace Enfold.Theory

set_option autoImplicit false

namespace Regex

/-- Two places of one match, before and after the text was continued. -/
structure Continued (rest : List Char) (place place' : Place) : Prop where
  after : place'.after = place.after ++ rest
  before : place'.before.any isWord = place.before.any isWord

section Continue

variable {rest : List Char}

theorem repeated_append {accepts : Char → Bool} {low : Nat} {high : Option Nat}
    {before before' : Option Char} {text : List Char} {place : Place}
    (same : before'.any isWord = before.any isWord)
    (reached : place ∈ repeated accepts low high before text) :
    ∃ place' ∈ repeated accepts low high before' (text ++ rest), Continued rest place place' := by
  induction text generalizing low high before before' with
  | nil =>
      simp only [repeated, List.append_nil] at reached
      split at reached
      · rename_i enough
        obtain rfl := List.mem_singleton.1 reached
        refine ⟨⟨before', rest⟩, ?_, rfl, same⟩
        rw [List.nil_append, repeated.eq_def]
        dsimp only
        rw [if_pos enough]
        exact List.mem_append_left _ (List.mem_singleton.2 rfl)
      · cases reached
  | cons c text ih =>
      rw [repeated] at reached
      rw [List.cons_append, repeated]
      rcases List.mem_append.1 reached with here | later
      · split at here
        · rename_i enough
          obtain rfl := List.mem_singleton.1 here
          refine ⟨⟨before', c :: (text ++ rest)⟩, ?_, rfl, same⟩
          rw [if_pos enough]
          exact List.mem_append_left _ (List.mem_singleton.2 rfl)
        · cases here
      · split at later
        · rename_i accepted
          obtain ⟨place', reached', continued⟩ := ih (rfl : (some c).any isWord = _) later
          rw [if_pos accepted]
          exact ⟨place', List.mem_append_right _ reached', continued⟩
        · cases later

/-- A match goes through in a longer text: what follows is no word character, and what precedes
is one exactly when it was. -/
theorem ends_append {pattern : Regex} (edge : rest.head?.any isWord = false) {start start' place : Place}
    (continued : Continued rest start start') (reached : place ∈ ends pattern start) :
    ∃ place' ∈ ends pattern start', Continued rest place place' := by
  induction pattern generalizing start start' place with
  | one accepts =>
      rw [ends] at reached ⊢
      rw [continued.after]
      split at reached
      · cases reached
      · rename_i c text chars
        rw [chars, List.cons_append]
        dsimp only
        split at reached
        · rename_i accepted
          obtain rfl := List.mem_singleton.1 reached
          rw [if_pos accepted]
          exact ⟨⟨some c, text ++ rest⟩, List.mem_singleton.2 rfl, rfl, rfl⟩
        · cases reached
  | many accepts low high =>
      rw [ends] at reached ⊢
      rw [continued.after]
      exact repeated_append continued.before reached
  | boundary =>
      have head : start'.after.head?.any isWord = start.after.head?.any isWord := by
        rw [continued.after]
        cases start.after with
        | nil => exact edge
        | cons c text => rfl
      rw [ends] at reached ⊢
      rw [continued.before, head]
      split at reached
      · rename_i boundary
        obtain rfl := List.mem_singleton.1 reached
        rw [if_pos boundary]
        exact ⟨start', List.mem_singleton.2 rfl, continued⟩
      · cases reached
  | done =>
      obtain rfl := List.mem_singleton.1 reached
      exact ⟨start', List.mem_singleton.2 rfl, continued⟩
  | seq first second ihFirst ihSecond =>
      obtain ⟨middle, before, after⟩ := List.mem_flatMap.1 reached
      obtain ⟨middle', before', through⟩ := ihFirst continued before
      obtain ⟨place', after', whole⟩ := ihSecond through after
      exact ⟨place', List.mem_flatMap.2 ⟨middle', before', after'⟩, whole⟩
  | alt left right ihLeft ihRight =>
      rcases List.mem_append.1 reached with inLeft | inRight
      · obtain ⟨place', reached', whole⟩ := ihLeft continued inLeft
        exact ⟨place', List.mem_append_left _ reached', whole⟩
      · obtain ⟨place', reached', whole⟩ := ihRight continued inRight
        exact ⟨place', List.mem_append_right _ reached', whole⟩

theorem searchFrom_append {pattern : Regex} (edge : rest.head?.any isWord = false)
    {before before' : Option Char} {text : List Char}
    (same : before'.any isWord = before.any isWord) (found : searchFrom pattern before text = true) :
    searchFrom pattern before' (text ++ rest) = true := by
  have starts : ∀ {before before' : Option Char} {text : List Char},
      before'.any isWord = before.any isWord → (ends pattern ⟨before, text⟩).isEmpty = false →
        (ends pattern ⟨before', text ++ rest⟩).isEmpty = false := by
    intro before before' text same some
    obtain ⟨place, reached⟩ := List.exists_mem_of_ne_nil _ (List.isEmpty_eq_false_iff.1 some)
    have continued : Continued rest ⟨before, text⟩ ⟨before', text ++ rest⟩ := ⟨rfl, same⟩
    obtain ⟨place', reached', -⟩ := ends_append edge continued reached
    exact List.isEmpty_eq_false_iff.2 (List.ne_nil_of_mem reached')
  induction text generalizing before before' with
  | nil =>
      rw [searchFrom.eq_def] at found
      simp only [Bool.or_false, Bool.not_eq_true'] at found
      rw [searchFrom.eq_def]
      dsimp only
      rw [starts same found]
      rfl
  | cons c text ih =>
      rw [searchFrom] at found
      rw [List.cons_append, searchFrom]
      rcases Bool.or_eq_true_iff.1 found with here | later
      · rw [show (ends pattern ⟨before', c :: (text ++ rest)⟩).isEmpty = false from
          starts same (by simpa using here)]
        rfl
      · rw [ih rfl later, Bool.or_true]

/-- A match in what follows is a match. -/
theorem searchFrom_prefix {pattern : Regex} (c : Char) (front : List Char) {before : Option Char}
    {text : List Char} (found : searchFrom pattern (some c) text = true) :
    searchFrom pattern before (front ++ c :: text) = true := by
  induction front generalizing before with
  | nil =>
      rw [List.nil_append, searchFrom, found, Bool.or_true]
  | cons c' front ih =>
      rw [List.cons_append, searchFrom, ih, Bool.or_true]

end Continue

/-! ## Lines -/

/-- One part of a joined text, with what stands around it. -/
theorem intercalate_eq {α : Type} (sep : α) {part : List α} {parts : List (List α)}
    (mem : part ∈ parts) :
    ∃ front back, [sep].intercalate parts = front ++ part ++ back ∧
      (front = [] ∨ ∃ text, front = text ++ [sep]) ∧ (back = [] ∨ ∃ text, back = sep :: text) := by
  induction parts with
  | nil => cases mem
  | cons first parts ih =>
      cases parts with
      | nil =>
          obtain rfl := List.mem_singleton.1 mem
          exact ⟨[], [], by simp [List.intercalate], .inl rfl, .inl rfl⟩
      | cons second parts =>
          have step : [sep].intercalate (first :: second :: parts) =
              first ++ sep :: [sep].intercalate (second :: parts) := by
            rw [List.intercalate_cons_cons, List.append_assoc, List.singleton_append]
          rcases List.mem_cons.1 mem with rfl | later
          · exact ⟨[], _, step, .inl rfl, .inr ⟨_, rfl⟩⟩
          · obtain ⟨front, back, whole, before, after⟩ := ih later
            refine ⟨first ++ sep :: front, back, by rw [step, whole]; simp, .inr ?_, after⟩
            rcases before with rfl | ⟨text, rfl⟩
            · exact ⟨first, by simp⟩
            · exact ⟨first ++ sep :: text, by simp⟩

/-- A match in one part is a match in the joined text, when the separator is no word character. -/
theorem searchFrom_intercalate {pattern : Regex} {sep : Char} (apart : isWord sep = false)
    {part : List Char} {parts : List (List Char)} (mem : part ∈ parts)
    (found : searchFrom pattern none part = true) :
    searchFrom pattern none ([sep].intercalate parts) = true := by
  obtain ⟨front, back, whole, before, after⟩ := intercalate_eq sep mem
  have edge : back.head?.any isWord = false := by
    rcases after with rfl | ⟨text, rfl⟩
    · rfl
    · exact apart
  rw [whole, List.append_assoc]
  rcases before with rfl | ⟨text, rfl⟩
  · exact searchFrom_append edge rfl found
  · rw [List.append_assoc, List.singleton_append]
    exact searchFrom_prefix sep text (searchFrom_append edge (by rw [Option.any_some, apart]; rfl) found)

end Regex

end Enfold.Theory
