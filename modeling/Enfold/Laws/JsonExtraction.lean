/-
# Laws.JsonExtraction -- the scan finds the whole of a JSON block

The scan is followed over the derivation of a JSON text.  Inside a block it comes out of every
value at the depth at which it went in, outside of any text literal (`derives_level`): a text
literal is passed whole because an escape hides the character after it, and every bracket is
matched by its own.  So the block is complete at the bracket that ends the document and not
before, whatever stands in front of the document and behind it (`json_extraction_exact`).
-/
import Enfold.Theory.JsonGrammar
import Enfold.Model.JsonBlocks

namespace Enfold.Laws

open Enfold.Theory Enfold.Theory.JsonGrammar Enfold.Model

set_option autoImplicit false

/-- The brackets that one of the two functions counts. -/
def Brackets (opening closing : Char) : Prop :=
  opening = '[' ∧ closing = ']' ∨ opening = '\x7b' ∧ closing = '\x7d'

section Scan

variable {opening closing : Char}

/-! ## Passing a piece of text -/

/-- The scan passes the text, from one state to the other. -/
def Passes (opening closing : Char) (scan : BlockScan) (text : PyText) (scan' : BlockScan) : Prop :=
  ∀ i rest, scanBlock opening closing scan i (text ++ rest) =
    scanBlock opening closing scan' (i + text.length) rest

theorem Passes.nil (scan : BlockScan) : Passes opening closing scan [] scan := fun _ _ => rfl

theorem Passes.append {first second third : BlockScan} {front back : PyText}
    (left : Passes opening closing first front second)
    (right : Passes opening closing second back third) :
    Passes opening closing first (front ++ back) third := by
  intro i rest
  rw [List.append_assoc, left, right, List.length_append, Nat.add_assoc]

/-- One round of the loop that does not complete the block. -/
theorem Passes.cons {scan next scan' : BlockScan} {ch : CodePoint} {text : PyText}
    (round : scan.step opening closing ch = (next, false))
    (more : Passes opening closing next text scan') :
    Passes opening closing scan (ch :: text) scan' := by
  intro i rest
  rw [List.cons_append, scanBlock, round]
  simp only [Bool.false_eq_true, if_false]
  rw [more, List.length_cons, Nat.add_assoc, Nat.add_comm 1]

/-! ## Text literals -/

/-- Inside a literal every character but a quote and a backslash is passed over. -/
theorem step_inside {depth : Int} {ch : CodePoint} (noQuote : ch ≠ quoteMark)
    (noEscape : ch ≠ backslash) :
    (⟨depth, true, false⟩ : BlockScan).step opening closing ch = (⟨depth, true, false⟩, false) := by
  unfold quoteMark at noQuote
  unfold backslash at noEscape
  simp [BlockScan.step, noQuote, noEscape]

/-- A backslash hides the character after it. -/
theorem passes_escape {depth : Int} {ch : CodePoint} {text : PyText} {scan' : BlockScan}
    (more : Passes opening closing ⟨depth, true, false⟩ text scan') :
    Passes opening closing ⟨depth, true, false⟩ (backslash :: ch :: text) scan' := by
  have hidden : Passes opening closing ⟨depth, true, true⟩ (ch :: text) scan' := .cons rfl more
  exact .cons rfl hidden

theorem passes_hex {depth : Int} {digits : List Char}
    (hex : ∀ c ∈ digits, isHexDigit c = true) :
    Passes opening closing ⟨depth, true, false⟩ (digits.map .char) ⟨depth, true, false⟩ := by
  induction digits with
  | nil => exact .nil _
  | cons c digits ih =>
      obtain ⟨noQuote, noEscape⟩ := hexDigit_plain (hex c List.mem_cons_self)
      exact .cons (step_inside noQuote noEscape) (ih fun d mem => hex d (List.mem_cons_of_mem c mem))

theorem passes_quoted {body : PyText} (quoted : Quoted body) (depth : Int) :
    Passes opening closing ⟨depth, true, false⟩ body ⟨depth, true, false⟩ := by
  induction quoted with
  | nil => exact .nil _
  | plain noQuote noEscape _ _ ih => exact .cons (step_inside noQuote noEscape) ih
  | escape _ _ ih => exact passes_escape ih
  | unicode _ hex _ ih => exact passes_escape ((passes_hex hex).append ih)

/-! ## Values -/

/-- The scan comes out of the text as it went in, at every depth inside a block. -/
def Level (opening closing : Char) (text : PyText) : Prop :=
  ∀ depth : Int, 1 ≤ depth →
    Passes opening closing ⟨depth, false, false⟩ text ⟨depth, false, false⟩

theorem Level.append {front back : PyText} (left : Level opening closing front)
    (right : Level opening closing back) : Level opening closing (front ++ back) :=
  fun depth inside => (left depth inside).append (right depth inside)

theorem level_literal {text : PyText} (literal : Literal text) : Level opening closing text := by
  obtain ⟨body, quoted, rfl⟩ := literal
  intro depth _
  exact .cons rfl ((passes_quoted quoted depth).append (.cons rfl (.nil _)))

variable (brackets : Brackets opening closing)
include brackets

theorem step_unmarked {depth : Int} {ch : CodePoint} (unmarked : Unmarked ch) :
    (⟨depth, false, false⟩ : BlockScan).step opening closing ch =
      (⟨depth, false, false⟩, false) := by
  have noQuote : ch ≠ .char '"' := by
    rintro rfl
    exact unmarked (by decide)
  have noOpening : ch ≠ .char opening := by
    rintro rfl
    rcases brackets with ⟨rfl, rfl⟩ | ⟨rfl, rfl⟩ <;> exact unmarked (by decide)
  have noClosing : ch ≠ .char closing := by
    rintro rfl
    rcases brackets with ⟨rfl, rfl⟩ | ⟨rfl, rfl⟩ <;> exact unmarked (by decide)
  simp [BlockScan.step, noQuote, noOpening, noClosing]

theorem level_unmarked {text : PyText} (unmarked : ∀ ch ∈ text, Unmarked ch) :
    Level opening closing text := by
  intro depth inside
  induction text with
  | nil => exact .nil _
  | cons ch text ih =>
      exact .cons (step_unmarked brackets (unmarked ch List.mem_cons_self))
        (ih fun ch mem => unmarked ch (List.mem_cons_of_mem _ mem))

/-- Text between two separate parts. -/
theorem level_separated {front back : PyText} {ch : CodePoint} (unmarked : Unmarked ch)
    (left : Level opening closing front) (right : Level opening closing back) :
    Level opening closing (front ++ ch :: back) :=
  left.append fun depth inside => .cons (step_unmarked brackets unmarked) (right depth inside)

/-- A nested block, of the brackets that are counted or of the others. -/
theorem level_block {left right : Char} (pair : Brackets left right) {inner : PyText}
    (level : Level opening closing inner) :
    Level opening closing (.char left :: (inner ++ [.char right])) := by
  intro depth inside
  by_cases counted : left = opening
  · have closes : right = closing := by
      rcases brackets with ⟨rfl, rfl⟩ | ⟨rfl, rfl⟩ <;> rcases pair with ⟨rfl, rfl⟩ | ⟨rfl, rfl⟩ <;>
        first | rfl | cases counted
    subst counted closes
    have opens : (⟨depth, false, false⟩ : BlockScan).step left right (.char left) =
        (⟨depth + 1, false, false⟩, false) := by
      rcases brackets with ⟨rfl, rfl⟩ | ⟨rfl, rfl⟩ <;> simp [BlockScan.step]
    have ends : (⟨depth + 1, false, false⟩ : BlockScan).step left right (.char right) =
        (⟨depth, false, false⟩, false) := by
      rcases brackets with ⟨rfl, rfl⟩ | ⟨rfl, rfl⟩ <;> simp [BlockScan.step] <;> omega
    exact .cons opens ((level (depth + 1) (by omega)).append (.cons ends (.nil _)))
  · have passed : ∀ ch ∈ [left, right],
        (⟨depth, false, false⟩ : BlockScan).step opening closing (.char ch) =
          (⟨depth, false, false⟩, false) := by
      rcases brackets with ⟨rfl, rfl⟩ | ⟨rfl, rfl⟩ <;> rcases pair with ⟨rfl, rfl⟩ | ⟨rfl, rfl⟩ <;>
        first | exact absurd rfl counted | simp [BlockScan.step]
    exact .cons (passed left (by simp))
      ((level depth inside).append (.cons (passed right (by simp)) (.nil _)))

/-- Every derived text is passed at its depth. -/
theorem derives_level {kind : Nonterminal} {text : PyText} (derived : Derives kind text) :
    Level opening closing text := by
  induction derived with
  | constant listed => exact level_unmarked brackets (constants_unmarked listed)
  | number numeral =>
      refine level_unmarked brackets fun ch mem => ?_
      obtain ⟨c, here, rfl⟩ := List.mem_map.1 mem
      exact numeral_unmarked numeral c here
  | text literal => exact level_literal literal
  | ofArray _ ih => exact ih
  | ofObject _ ih => exact ih
  | element left _ right ih =>
      exact ((level_unmarked brackets (blanks_unmarked left)).append ih).append
        (level_unmarked brackets (blanks_unmarked right))
  | emptyArray inside =>
      exact level_block brackets (.inl ⟨rfl, rfl⟩)
        (level_unmarked brackets (blanks_unmarked inside))
  | array _ ih => exact level_block brackets (.inl ⟨rfl, rfl⟩) ih
  | item _ ih => exact ih
  | nextItem _ _ first rest => exact level_separated brackets (by decide) first rest
  | emptyObject inside =>
      exact level_block brackets (.inr ⟨rfl, rfl⟩)
        (level_unmarked brackets (blanks_unmarked inside))
  | object _ ih => exact level_block brackets (.inr ⟨rfl, rfl⟩) ih
  | member left literal right _ ih =>
      have key := (level_unmarked brackets (blanks_unmarked left)).append
        (level_literal literal)
      exact level_separated brackets (by decide)
        (key.append (level_unmarked brackets (blanks_unmarked right))) ih
  | firstMember _ ih => exact ih
  | nextMember _ _ first rest => exact level_separated brackets (by decide) first rest

/-! ## The block -/

theorem step_opening :
    (⟨0, false, false⟩ : BlockScan).step opening closing (.char opening) =
      (⟨1, false, false⟩, false) := by
  rcases brackets with ⟨rfl, rfl⟩ | ⟨rfl, rfl⟩ <;> rfl

theorem step_closing :
    ((⟨1, false, false⟩ : BlockScan).step opening closing (.char closing)).2 = true := by
  rcases brackets with ⟨rfl, rfl⟩ | ⟨rfl, rfl⟩ <;> rfl

/-- The block is complete at the bracket that matches its first one. -/
theorem scanBlock_exact {inner : PyText} (level : Level opening closing inner) (start : Nat)
    (after : PyText) :
    scanBlock opening closing ⟨0, false, false⟩ start
        (.char opening :: (inner ++ .char closing :: after)) =
      some (start + 1 + inner.length) := by
  rw [scanBlock, step_opening brackets]
  simp only [Bool.false_eq_true, if_false]
  rw [level 1 (Int.le_refl 1), scanBlock]
  simp only [step_closing brackets, if_true]

/-- The block is found between a prefix without its bracket and whatever comes behind. -/
theorem extractBlock_exact {before inner after : PyText} (clear : .char opening ∉ before)
    (level : Level opening closing inner) :
    extractBlock opening closing
        (before ++ (.char opening :: (inner ++ [.char closing])) ++ after) =
      some (.char opening :: (inner ++ [.char closing])) := by
  generalize whole : CodePoint.char opening :: (inner ++ [.char closing]) = block
  have begins : ∃ rest, block = .char opening :: rest := ⟨_, whole.symm⟩
  have skipped : before.findIdx? (· = .char opening) = none := by
    rw [List.findIdx?_eq_none_iff]
    intro ch mem
    simpa using fun same : ch = .char opening => clear (same ▸ mem)
  have found : (before ++ block ++ after).findIdx? (· = .char opening) = some before.length := by
    obtain ⟨rest, rfl⟩ := begins
    rw [List.append_assoc, List.findIdx?_append, skipped, List.cons_append, List.findIdx?_cons]
    simp
  have ends : scanBlock opening closing ⟨0, false, false⟩ before.length (block ++ after) =
      some (before.length + 1 + inner.length) := by
    rw [← whole, List.cons_append, List.append_assoc]
    exact scanBlock_exact brackets level before.length after
  have size : before.length + 1 + inner.length + 1 = (before ++ block).length := by
    rw [← whole]
    simp
    omega
  rw [extractBlock, found]
  simp only
  rw [List.append_assoc, List.drop_left, ends, Option.map_some, ← List.append_assoc, size,
    List.take_left, List.drop_left]

end Scan

/-- A derived array is a block of square brackets. -/
theorem array_block {text : PyText} (array : Derives .array text) :
    ∃ inner, Level '[' ']' inner ∧ text = .char '[' :: (inner ++ [.char ']']) := by
  have brackets : Brackets '[' ']' := .inl ⟨rfl, rfl⟩
  cases array with
  | emptyArray inside => exact ⟨_, level_unmarked brackets (blanks_unmarked inside), rfl⟩
  | array items => exact ⟨_, derives_level brackets items, rfl⟩

theorem object_block {text : PyText} (object : Derives .object text) :
    ∃ inner, Level '\x7b' '\x7d' inner ∧ text = .char '\x7b' :: (inner ++ [.char '\x7d']) := by
  have brackets : Brackets '\x7b' '\x7d' := .inr ⟨rfl, rfl⟩
  cases object with
  | emptyObject inside => exact ⟨_, level_unmarked brackets (blanks_unmarked inside), rfl⟩
  | object members => exact ⟨_, derives_level brackets members, rfl⟩

/-- Every spelling of an array or an object is extracted whole, from behind any text without its
opening bracket and from in front of any text at all. -/
theorem json_extraction_exact (p d s : PyText) :
    (Derives .array d → .char '[' ∉ p → extractJsonArray (p ++ d ++ s) = some d) ∧
      (Derives .object d → .char '\x7b' ∉ p → extractJsonObject (p ++ d ++ s) = some d) := by
  constructor
  · intro array clear
    obtain ⟨inner, level, rfl⟩ := array_block array
    exact extractBlock_exact (.inl ⟨rfl, rfl⟩) clear level
  · intro object clear
    obtain ⟨inner, level, rfl⟩ := object_block object
    exact extractBlock_exact (.inr ⟨rfl, rfl⟩) clear level

/-- An array whose text holds a closing bracket and an escaped quote. -/
theorem sample_array : Derives .array (.ofString "[\"]\\\"\"]") := by
  have body : Quoted (.ofString "]\\\"") := by
    refine .plain (by decide) (by decide) ?_ (.escape (by decide) .nil)
    rintro c same
    cases same
    decide
  have blank : Blanks [] := fun ch mem => absurd mem List.not_mem_nil
  have element : Derives .element (.ofString "\"]\\\"\"") :=
    @Derives.element [] _ [] blank (.text ⟨_, body, rfl⟩) blank
  exact .array (.item element)

theorem sample_extraction :
    extractJsonArray (.ofString "As asked: " ++ .ofString "[\"]\\\"\"]" ++ .ofString " [and more") =
      some (.ofString "[\"]\\\"\"]") :=
  (json_extraction_exact (.ofString "As asked: ") (.ofString "[\"]\\\"\"]")
    (.ofString " [and more")).1 sample_array (by decide)

end Enfold.Laws
