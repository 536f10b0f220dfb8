/-
# Theory.NumericColumn -- what a column of numeric affinity keeps of a text

A text that is a decimal numeral, with blanks at its ends or not, is kept as a number: an integer
when it has neither point nor exponent and fits in 64 bits, else the nearest float, which is an
integer again where it is whole and small.  Any other text is kept as it is.  Rows are ordered by
`Stored.key`: numbers by their values, before all texts.
-/
import Enfold.Theory.Binary64
import Mathlib.Data.Sum.Order
import Mathlib.Data.String.Basic
import Mathlib.Order.WithBot

namespace Enfold.Theory

set_option autoImplicit false

/-- The value of a float without its sign. -/
def Decimal.Binary.value (b : Decimal.Binary) : ℚ := b.mantissa * 2 ^ b.exponent

namespace NumericColumn

/-- The numbers a column holds, both infinities included. -/
abbrev Number := WithBot (WithTop ℚ)

def ofRational (x : ℚ) : Number := ((x : WithTop ℚ) : Number)

/-- A value as it is kept. -/
inductive Stored where
  | integer (n : Int)
  | real (x : Number)
  | text (value : String)

/-- Numbers by value, before all texts. -/
def Stored.key : Stored → Number ⊕ₗ String
  | .integer n => toLex (.inl (ofRational n))
  | .real x => toLex (.inl x)
  | .text value => toLex (.inr value)

/-! ## Numerals -/

def isBlank (c : Char) : Bool := (9 ≤ c.toNat && c.toNat ≤ 13) || c.toNat = 32

def readSign : List Char → Bool × List Char
  | '-' :: cs => (true, cs)
  | '+' :: cs => (false, cs)
  | cs => (false, cs)

/-- Nothing, or `e`, a sign that may be left out and digits. -/
def readExponent : List Char → Option (Option Int)
  | [] => some none
  | c :: cs =>
      let (negative, digits) := readSign cs
      if (c = 'e' ∨ c = 'E') ∧ digits ≠ [] ∧ digits.all Char.isDigit then
        let magnitude : Nat := Nat.ofDigitChars 10 digits 0
        some (some (if negative then -magnitude else magnitude))
      else none

/-- The digits after a point, and the rest. -/
def readFraction : List Char → List Char × List Char
  | '.' :: cs => (cs.takeWhile Char.isDigit, cs.dropWhile Char.isDigit)
  | cs => ([], cs)

/-- A numeral, and whether it is digits alone. -/
def readNumeral (cs : List Char) : Option (Decimal.Numeral × Bool) :=
  let (negative, cs) := readSign cs
  let whole := cs.takeWhile Char.isDigit
  let rest := cs.dropWhile Char.isDigit
  let (fraction, tail) := readFraction rest
  if whole ++ fraction = [] then none
  else (readExponent tail).map fun exponent => (⟨negative, whole, fraction, exponent⟩, rest = [])

/-! ## Values -/

/-- The float a numeral is read as. -/
def nearest (n : Decimal.Numeral) : Number :=
  match (Decimal.ofNumeral n).map Decimal.binary with
  | none => ofRational 0
  | some none => if n.negative then ⊥ else ⊤
  | some (some b) => ofRational (if n.negative then -b.value else b.value)

/-- A float that is whole and small is kept as an integer. -/
def ofFloat : Number → Stored
  | some (some x) =>
      if x.den = 1 ∧ -2 ^ 51 ≤ x.num ∧ x.num < 2 ^ 51 then .integer x.num
      else .real (ofRational x)
  | x => .real x

def ofNumeral (n : Decimal.Numeral) (plain : Bool) : Stored :=
  let magnitude : Nat := Nat.ofDigitChars 10 n.whole 0
  let value : Int := if n.negative then -magnitude else magnitude
  if plain ∧ -2 ^ 63 ≤ value ∧ value < 2 ^ 63 then .integer value else ofFloat (nearest n)

/-- What the column keeps. -/
def stored (value : String) : Stored :=
  match readNumeral (trim isBlank value.toList) with
  | none => .text value
  | some (n, plain) => ofNumeral n plain

/-- A basic date is an integer, also with an exponent; the extended form is a text, and stands after
every number. -/
example : (stored "20260101").key = toLex (.inl (ofRational 20260101)) ∧
    (stored " 20260101e01").key = toLex (.inl (ofRational 202601010)) ∧
    (stored "20250101.5").key < (stored "20260101").key ∧
    (stored "20260101").key < (stored "2025-12-31").key := by
  decide +kernel

end NumericColumn

end Enfold.Theory
