/-
# Theory.Text -- text as a scripting runtime handles it

Strings are sequences of Unicode scalar values.  This module fixes the operations
the modelled code applies to them, with the runtime's own character classes: white
space (`strip`, `splitWords`), decimal and digit characters (`isDigitText`,
`readDigits`), splitting at a separator, and containment (`occursIn`, the `in`
operator).

`Required` is the shape a mandatory text argument has after validation: nonempty
and without white space at either end.
-/
import Mathlib.Data.List.DropRight
import Mathlib.Data.List.Infix

namespace Enfold.Theory

set_option autoImplicit false

/-! ## Decisions about characters

A condition on the characters of a text is decided along the text, not over all characters. -/

instance (priority := high) decidableForallMem (p : Char → Prop) [DecidablePred p]
    (cs : List Char) : Decidable (∀ c ∈ cs, p c) := List.decidableBAll p cs

instance (priority := high) decidableExistsMem (p : Char → Prop) [DecidablePred p]
    (cs : List Char) : Decidable (∃ c ∈ cs, p c) := List.decidableBEx p cs

/-! ## Character classes -/

/-- Membership in a list of closed code point ranges. -/
def inRanges (ranges : List (Nat × Nat)) (c : Char) : Bool :=
  ranges.any fun range => range.1 ≤ c.toNat && c.toNat ≤ range.2

/-- The characters `str.isspace` accepts; `\s` in a pattern is the same class. -/
def isSpace (c : Char) : Bool :=
  inRanges [(9, 13), (28, 32), (133, 133), (160, 160), (5760, 5760), (8192, 8202),
    (8232, 8233), (8239, 8239), (8287, 8287), (12288, 12288)] c

/-- Ranges of decimal digits (`str.isdecimal`), each a run of the ten digits in order;
the range of mathematical digits is five such runs. -/
def decimalRanges : List (Nat × Nat) :=
  [(48, 57), (1632, 1641), (1776, 1785), (1984, 1993), (2406, 2415), (2534, 2543),
    (2662, 2671), (2790, 2799), (2918, 2927), (3046, 3055), (3174, 3183), (3302, 3311),
    (3430, 3439), (3558, 3567), (3664, 3673), (3792, 3801), (3872, 3881), (4160, 4169),
    (4240, 4249), (6112, 6121), (6160, 6169), (6470, 6479), (6608, 6617), (6784, 6793),
    (6800, 6809), (6992, 7001), (7088, 7097), (7232, 7241), (7248, 7257), (42528, 42537),
    (43216, 43225), (43264, 43273), (43472, 43481), (43504, 43513), (43600, 43609),
    (44016, 44025), (65296, 65305), (66720, 66729), (68912, 68921), (69734, 69743),
    (69872, 69881), (69942, 69951), (70096, 70105), (70384, 70393), (70736, 70745),
    (70864, 70873), (71248, 71257), (71360, 71369), (71472, 71481), (71904, 71913),
    (72016, 72025), (72784, 72793), (73040, 73049), (73120, 73129), (92768, 92777),
    (92864, 92873), (93008, 93017), (120782, 120831), (123200, 123209), (123632, 123641),
    (125264, 125273), (130032, 130041)]

/-- Digits that are not decimal digits: superscripts, circled digits and the like.
`str.isdigit` accepts them and `int` does not. -/
def otherDigitRanges : List (Nat × Nat) :=
  [(178, 179), (185, 185), (4969, 4977), (6618, 6618), (8304, 8304), (8308, 8313),
    (8320, 8329), (9312, 9320), (9332, 9340), (9352, 9360), (9450, 9450), (9461, 9469),
    (9471, 9471), (10102, 10110), (10112, 10120), (10122, 10130), (68160, 68163),
    (69216, 69224), (69714, 69722), (127232, 127242)]

/-- The value of a decimal digit. -/
def decimalValue (c : Char) : Option Nat :=
  (decimalRanges.find? fun range => range.1 ≤ c.toNat && c.toNat ≤ range.2).map
    fun range => (c.toNat - range.1) % 10

/-- `str.isdigit`: nonempty, and every character is a digit. -/
def isDigitText (s : String) : Bool :=
  !s.isEmpty && s.toList.all fun c => inRanges decimalRanges c || inRanges otherDigitRanges c

/-- `int` on a text of digits: `none` (a raised error) on a digit that is not decimal. -/
def readDigits (s : String) : Option Nat :=
  if s.isEmpty then none
  else s.toList.foldl (fun value c => do return 10 * (← value) + (← decimalValue c)) (some 0)

/-- The most digits an integer that is read or printed may have. -/
def maxIntDigits : Nat := 4300

/-- How many decimal digits the text begins with. -/
def leadingDigits (s : String) : Nat := (s.toList.takeWhile (inRanges decimalRanges)).length

/-! ## Stripping and splitting -/

/-- A list without the items at either end that satisfy `p`. -/
def trim {α : Type} (p : α → Bool) (xs : List α) : List α := (xs.dropWhile p).rdropWhile p

/-- The kept part starts where the first cut left off, at an item that is not dropped. -/
theorem trim_trim {α : Type} (p : α → Bool) (xs : List α) : trim p (trim p xs) = trim p xs := by
  unfold trim
  generalize trimmed : xs.dropWhile p = rest
  have headless : ∀ x tail, rest = x :: tail → ¬ p x := by
    rintro x tail rfl
    have := List.head_dropWhile_not p (l := xs) (by simp [trimmed])
    simpa [trimmed] using this
  cases kept : rest.rdropWhile p with
  | nil => simp
  | cons x tail =>
      obtain ⟨dropped, whole⟩ := List.rdropWhile_prefix p rest
      rw [kept] at whole
      have notDropped := headless x (tail ++ dropped) whole.symm
      rw [List.dropWhile_cons_of_neg notDropped, ← kept, List.rdropWhile_idempotent]

/-- `str.strip()` on characters. -/
def stripChars (cs : List Char) : List Char :=
  (cs.dropWhile isSpace).rdropWhile isSpace

def strip (s : String) : String := String.ofList (stripChars s.toList)

theorem stripChars_stripChars (cs : List Char) : stripChars (stripChars cs) = stripChars cs :=
  trim_trim isSpace cs

@[simp] theorem strip_strip (s : String) : strip (strip s) = strip s := by
  simp [strip, stripChars_stripChars]

/-- Nothing is stripped from a text with no space at either end. -/
theorem strip_of_ends {s : String} (head : ∀ c, s.toList.head? = some c → isSpace c = false)
    (last : ∀ c, s.toList.getLast? = some c → isSpace c = false) : strip s = s := by
  have front : s.toList.dropWhile isSpace = s.toList := by
    cases chars : s.toList with
    | nil => rfl
    | cons c cs =>
        have notSpace := head c (by rw [chars]; rfl)
        rw [List.dropWhile_cons_of_neg (by simp [notSpace])]
  have back : s.toList.rdropWhile isSpace = s.toList := by
    rw [List.rdropWhile_eq_self_iff]
    intro nonempty
    simp [last _ (List.getLast?_eq_some_getLast nonempty)]
  rw [strip, stripChars, front, back, String.ofList_toList]

theorem strip_of_solid {s : String} (solid : ∀ c ∈ s.toList, isSpace c = false) : strip s = s :=
  strip_of_ends (fun c head => solid c (List.mem_of_mem_head? head))
    fun c last => solid c (List.mem_of_getLast? last)

/-- The shape of a mandatory text after validation. -/
def Required (s : String) : Prop := strip s = s ∧ s ≠ ""

instance (s : String) : Decidable (Required s) := inferInstanceAs (Decidable (_ ∧ _))

theorem required_strip {s : String} (nonempty : strip s ≠ "") : Required (strip s) :=
  ⟨strip_strip s, nonempty⟩

/-- `str.split(sep)` on characters, for a one-character separator. -/
def splitChars (sep : Char) : List Char → List (List Char)
  | [] => [[]]
  | c :: cs =>
      if c = sep then [] :: splitChars sep cs
      else
        match splitChars sep cs with
        | [] => [[c]]
        | piece :: pieces => (c :: piece) :: pieces

/-- `str.split(sep)` for a one-character separator. -/
def splitAt (sep : Char) (s : String) : List String :=
  (splitChars sep s.toList).map String.ofList

/-- `str.split()`: the maximal runs of characters that are not white space. -/
def splitWords (s : String) : List String :=
  (go [] s.toList).map String.ofList
where
  /-- `word` is the current run, reversed. -/
  go (word : List Char) : List Char → List (List Char)
    | [] => if word.isEmpty then [] else [word.reverse]
    | c :: cs =>
        if isSpace c then
          if word.isEmpty then go [] cs else word.reverse :: go [] cs
        else go (c :: word) cs

/-- `str.strip(chars)` for one character. -/
def stripOf (c : Char) (s : String) : String :=
  String.ofList ((s.toList.dropWhile (· = c)).rdropWhile (· = c))

/-- The part of the text after the first occurrence of `marker`
(`text.split(marker, 1)[1]`); `none` when it does not occur. -/
def afterMarker (marker : List Char) : List Char → Option (List Char)
  | [] => if marker = [] then some [] else none
  | c :: cs =>
      if marker.isPrefixOf (c :: cs) then some ((c :: cs).drop marker.length)
      else afterMarker marker cs

/-- The `in` operator: `needle` occurs in `text`. -/
def occursIn (needle text : String) : Prop := needle.toList <:+: text.toList

instance (needle text : String) : Decidable (occursIn needle text) :=
  inferInstanceAs (Decidable (_ <:+: _))

theorem occursIn_self (s : String) : occursIn s s := List.infix_rfl

/-- `value or default`: the empty text counts as absent. -/
def orElse (value : Option String) (default : String) : String :=
  match value with
  | some text => if text = "" then default else text
  | none => default

/-- The decimal numeral of a natural number (`str` of a nonnegative `int`). -/
def natText (n : Nat) : String := n.repr

/-! ## Printed numbers -/

theorem isDigit_range {c : Char} (digit : c.isDigit = true) : 48 ≤ c.toNat ∧ c.toNat ≤ 57 := by
  simpa [Char.isDigit, UInt32.le_iff_toNat_le] using digit

theorem decimalValue_of_isDigit {c : Char} (digit : c.isDigit = true) :
    decimalValue c = some (c.toNat - 48) := by
  obtain ⟨least, most⟩ := isDigit_range digit
  have first : decimalRanges.find? (fun range => range.1 ≤ c.toNat && c.toNat ≤ range.2) =
      some (48, 57) := by
    rw [decimalRanges, List.find?_cons_of_pos (by simp [least, most])]
  rw [decimalValue, first, Option.map_some, Option.some.injEq]
  exact Nat.mod_eq_of_lt (by omega)

theorem inRanges_of_isDigit {c : Char} (digit : c.isDigit = true) :
    inRanges decimalRanges c = true := by
  obtain ⟨least, most⟩ := isDigit_range digit
  rw [inRanges, decimalRanges, List.any_cons]
  simp [least, most]

theorem toList_natText (n : Nat) : (natText n).toList = Nat.toDigits 10 n := by
  rw [natText, Nat.toList_repr]

theorem natText_ne_empty (n : Nat) : (natText n).isEmpty = false := by
  rw [String.isEmpty_eq_false_iff]
  intro empty
  have none := congrArg String.toList empty
  rw [toList_natText] at none
  exact Nat.toDigits_ne_nil none

/-- A printed number is made of digits. -/
theorem isDigitText_natText (n : Nat) : isDigitText (natText n) = true := by
  rw [isDigitText, natText_ne_empty, toList_natText, Bool.not_false, Bool.true_and, List.all_eq_true]
  intro c mem
  rw [inRanges_of_isDigit (Nat.isDigit_of_mem_toDigits (by decide) (by decide) mem), Bool.true_or]

/-- A number reads back as it was printed. -/
theorem readDigits_natText (n : Nat) : readDigits (natText n) = some n := by
  have folds : ∀ (cs : List Char) (value : Nat), (∀ c ∈ cs, c.isDigit = true) →
      cs.foldl (fun value c => do return 10 * (← value) + (← decimalValue c)) (some value) =
        some (Nat.ofDigitChars 10 cs value) := by
    intro cs
    induction cs with
    | nil => exact fun value _ => by rw [List.foldl_nil, Nat.ofDigitChars_nil]
    | cons c cs ih =>
        intro value digits
        rw [List.foldl_cons, decimalValue_of_isDigit (digits c List.mem_cons_self),
          Nat.ofDigitChars_cons]
        exact ih _ fun d mem => digits d (List.mem_cons_of_mem c mem)
  rw [readDigits, natText_ne_empty, if_neg Bool.false_ne_true, toList_natText,
    folds _ _ fun c mem => Nat.isDigit_of_mem_toDigits (by decide) (by decide) mem,
    Nat.ofDigitChars_toDigits (by decide) (by decide)]

theorem leadingDigits_natText (n : Nat) :
    leadingDigits (natText n) ≤ (Nat.toDigits 10 n).length := by
  rw [leadingDigits, toList_natText]
  exact (List.takeWhile_sublist _).length_le

end Enfold.Theory
