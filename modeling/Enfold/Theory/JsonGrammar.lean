/-
# Theory.JsonGrammar -- the texts that are JSON

The grammar of JSON over the code points of the runtime, as derivations: which texts spell a
value, an array, an object, whatever blanks, escapes and nesting they use.  It says nothing about
the value that a text spells.

The names of the numbers that are not finite are texts of values as well, as the runtime's own
printer writes them.
-/
import Enfold.Theory.JsonScan
import Enfold.Theory.Regex

namespace Enfold.Theory

set_option autoImplicit false

namespace JsonGrammar

/-! ## Tokens -/

def Blanks (text : PyText) : Prop :=
  ∀ ch ∈ text, ch ∈ [CodePoint.char ' ', .char '\t', .char '\n', .char '\r']

def quoteMark : CodePoint := .char '"'

def backslash : CodePoint := .char '\\'

def isHexDigit (c : Char) : Bool :=
  isAsciiDigit c || ('a' ≤ c && c ≤ 'f') || ('A' ≤ c && c ≤ 'F')

/-- What stands between the quotes of a text. -/
inductive Quoted : PyText → Prop where
  | nil : Quoted []
  | plain {ch : CodePoint} {rest : PyText} (noQuote : ch ≠ quoteMark) (noEscape : ch ≠ backslash)
      (printed : ∀ c, ch = .char c → 32 ≤ c.toNat) (more : Quoted rest) : Quoted (ch :: rest)
  | escape {c : Char} {rest : PyText} (simple : c ∈ ['"', '\\', '/', 'b', 'f', 'n', 'r', 't'])
      (more : Quoted rest) : Quoted (backslash :: .char c :: rest)
  | unicode {digits : List Char} {rest : PyText} (four : digits.length = 4)
      (hex : ∀ c ∈ digits, isHexDigit c = true) (more : Quoted rest) :
      Quoted (backslash :: .char 'u' :: (digits.map .char ++ rest))

/-- A text with its quotes. -/
def Literal (text : PyText) : Prop := ∃ body, Quoted body ∧ text = quoteMark :: (body ++ [quoteMark])

def Digits (cs : List Char) : Prop := cs ≠ [] ∧ ∀ c ∈ cs, isAsciiDigit c = true

def Fraction (cs : List Char) : Prop := cs = [] ∨ ∃ digits, Digits digits ∧ cs = '.' :: digits

def Exponent (cs : List Char) : Prop :=
  cs = [] ∨ ∃ mark ∈ ['e', 'E'], ∃ sign ∈ [[], ['+'], ['-']], ∃ digits, Digits digits ∧
    cs = mark :: (sign ++ digits)

def Numeral (cs : List Char) : Prop :=
  ∃ sign ∈ [[], ['-']], ∃ whole fraction exponent, Digits whole ∧
    (whole.head? = some '0' → whole = ['0']) ∧ Fraction fraction ∧ Exponent exponent ∧
    cs = sign ++ whole ++ fraction ++ exponent

def constants : List String := ["null", "true", "false", "NaN", "Infinity", "-Infinity"]

/-! ## Derivations -/

inductive Nonterminal where
  | value
  | array
  | items
  | object
  | members
  /-- A value and the blanks around it. -/
  | element
  | member
  deriving DecidableEq

inductive Derives : Nonterminal → PyText → Prop where
  | constant {word : String} (listed : word ∈ constants) : Derives .value (.ofString word)
  | number {cs : List Char} (numeral : Numeral cs) : Derives .value (cs.map .char)
  | text {cs : PyText} (literal : Literal cs) : Derives .value cs
  | ofArray {cs : PyText} (array : Derives .array cs) : Derives .value cs
  | ofObject {cs : PyText} (object : Derives .object cs) : Derives .value cs
  | element {before cs after : PyText} (left : Blanks before) (value : Derives .value cs)
      (right : Blanks after) : Derives .element (before ++ cs ++ after)
  | emptyArray {blanks : PyText} (inside : Blanks blanks) :
      Derives .array (.char '[' :: (blanks ++ [.char ']']))
  | array {cs : PyText} (items : Derives .items cs) :
      Derives .array (.char '[' :: (cs ++ [.char ']']))
  | item {cs : PyText} (element : Derives .element cs) : Derives .items cs
  | nextItem {cs rest : PyText} (element : Derives .element cs) (items : Derives .items rest) :
      Derives .items (cs ++ .char ',' :: rest)
  | emptyObject {blanks : PyText} (inside : Blanks blanks) :
      Derives .object (.char '\x7b' :: (blanks ++ [.char '\x7d']))
  | object {cs : PyText} (members : Derives .members cs) :
      Derives .object (.char '\x7b' :: (cs ++ [.char '\x7d']))
  | member {before key after cs : PyText} (left : Blanks before) (literal : Literal key)
      (right : Blanks after) (element : Derives .element cs) :
      Derives .member (before ++ key ++ after ++ .char ':' :: cs)
  | firstMember {cs : PyText} (member : Derives .member cs) : Derives .members cs
  | nextMember {cs rest : PyText} (member : Derives .member cs) (members : Derives .members rest) :
      Derives .members (cs ++ .char ',' :: rest)

/-! ## Characters of tokens -/

/-- A character that is no quote and no bracket. -/
def Unmarked (ch : CodePoint) : Prop :=
  ch ∉ [quoteMark, .char '[', .char ']', .char '\x7b', .char '\x7d']

instance (ch : CodePoint) : Decidable (Unmarked ch) := inferInstanceAs (Decidable (¬ _))

theorem blanks_unmarked {text : PyText} (blanks : Blanks text) : ∀ ch ∈ text, Unmarked ch := by
  intro ch mem
  have listed := blanks ch mem
  simp only [List.mem_cons, List.not_mem_nil, or_false] at listed
  rcases listed with rfl | rfl | rfl | rfl <;> decide

theorem constants_unmarked {word : String} (listed : word ∈ constants) :
    ∀ ch ∈ PyText.ofString word, Unmarked ch := by
  simp only [constants, List.mem_cons, List.not_mem_nil, or_false] at listed
  rcases listed with rfl | rfl | rfl | rfl | rfl | rfl <;> decide

theorem digit_unmarked {c : Char} (digit : isAsciiDigit c = true) : Unmarked (.char c) := by
  intro mem
  simp only [quoteMark, List.mem_cons, List.not_mem_nil, or_false, CodePoint.char.injEq] at mem
  rcases mem with rfl | rfl | rfl | rfl | rfl <;> exact absurd digit (by decide)

/-- A text of unmarked characters. -/
def UnmarkedText (cs : List Char) : Prop := ∀ c ∈ cs, Unmarked (.char c)

theorem UnmarkedText.append {cs ds : List Char} (front : UnmarkedText cs)
    (back : UnmarkedText ds) : UnmarkedText (cs ++ ds) := by
  intro c mem
  rcases List.mem_append.1 mem with early | late
  · exact front c early
  · exact back c late

theorem digits_unmarked {cs : List Char} (digits : Digits cs) : UnmarkedText cs :=
  fun c mem => digit_unmarked (digits.2 c mem)

instance (cs : List Char) : Decidable (UnmarkedText cs) :=
  inferInstanceAs (Decidable (∀ c ∈ cs, _))

theorem UnmarkedText.nil : UnmarkedText [] := fun _ mem => absurd mem List.not_mem_nil

theorem UnmarkedText.cons {c : Char} {cs : List Char} (first : Unmarked (.char c))
    (rest : UnmarkedText cs) : UnmarkedText (c :: cs) := by
  intro d mem
  rcases List.mem_cons.1 mem with rfl | later
  · exact first
  · exact rest d later

theorem numeral_unmarked {cs : List Char} (numeral : Numeral cs) : UnmarkedText cs := by
  obtain ⟨sign, signed, whole, fraction, exponent, digits, -, point, power, rfl⟩ := numeral
  have front : UnmarkedText sign := by
    simp only [List.mem_cons, List.not_mem_nil, or_false] at signed
    rcases signed with rfl | rfl <;> decide
  have middle : UnmarkedText fraction := by
    rcases point with rfl | ⟨places, digits, rfl⟩
    · exact .nil
    · exact .cons (by decide) (digits_unmarked digits)
  have back : UnmarkedText exponent := by
    rcases power with rfl | ⟨mark, marked, sign, signed, places, digits, rfl⟩
    · exact .nil
    · have first : Unmarked (.char mark) := by
        simp only [List.mem_cons, List.not_mem_nil, or_false] at marked
        rcases marked with rfl | rfl <;> decide
      have next : UnmarkedText sign := by
        simp only [List.mem_cons, List.not_mem_nil, or_false] at signed
        rcases signed with rfl | rfl | rfl <;> decide
      exact .cons first (next.append (digits_unmarked digits))
  exact ((front.append (digits_unmarked digits)).append middle).append back

/-- A hexadecimal digit neither ends a text nor escapes in it. -/
theorem hexDigit_plain {c : Char} (hex : isHexDigit c = true) :
    CodePoint.char c ≠ quoteMark ∧ CodePoint.char c ≠ backslash := by
  constructor
  · intro same
    cases same
    exact absurd hex (by decide)
  · intro same
    cases same
    exact absurd hex (by decide)

end JsonGrammar

end Enfold.Theory
