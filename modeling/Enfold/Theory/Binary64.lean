/-
# Theory.Binary64 -- the float a numeral stands for

A numeral may have any number of digits; the runtime reads it as the nearest binary float,
ties going to the even mantissa, and prints that float by the shortest numeral that reads
back to it.  `Decimal.nearest` is that reading and printing in one: the numeral of the float
nearest to a given numeral, or nothing when the float would be infinite.

`binary` is the float as a mantissa and an exponent; `candidate` is the decimal of a given
number of digits nearest to it, and `shortest` the first candidate that reads back to it.
A numeral obtained by `nearest` is its own nearest (`nearest_nearest`), which is all that
reading back a printed float needs.
-/
import Enfold.Theory.Decimal

namespace Enfold.Theory

set_option autoImplicit false

namespace Decimal

/-! ## The decimal of a numeral -/

/-- The digits of a numeral do not start with a zero. -/
theorem normal_leading (n : Numeral) : n.normal.2.1.head? ≠ some '0' := by
  intro zero
  simp only [Numeral.normal] at zero
  generalize kept : (n.whole ++ n.fraction).dropWhile (· = '0') = rest at zero
  obtain ⟨dropped, whole⟩ := List.rdropWhile_prefix (· = '0') rest
  cases digits : rest.rdropWhile (· = '0') with
  | nil => simp [digits] at zero
  | cons d ds =>
      rw [digits] at zero whole
      have head : rest ≠ [] := by rw [← whole]; simp
      have notZero := List.head_dropWhile_not (· = '0') (l := n.whole ++ n.fraction)
        (by rw [kept]; exact head)
      simp only [kept] at notZero
      have first : rest.head head = d := by simp [← whole]
      rw [first] at notZero
      simp_all

/-- Nor do they end with one. -/
theorem normal_trailing (n : Numeral) : n.normal.2.1.getLast? ≠ some '0' := by
  intro zero
  simp only [Numeral.normal] at zero
  have nonempty : ((n.whole ++ n.fraction).dropWhile (· = '0')).rdropWhile (· = '0') ≠ [] := by
    intro none
    simp [none] at zero
  have notZero := List.rdropWhile_last_not (· = '0') _ nonempty
  rw [List.getLast?_eq_some_getLast nonempty] at zero
  simp [Option.some.inj zero] at notZero

/-- The float of a numeral, without the zeros at its ends. -/
def ofNumeral (n : Numeral) : Option Decimal :=
  if digits : ∀ c ∈ n.normal.2.1, c.isDigit = true then
    some
      { negative := n.negative
        digits := n.normal.2.1
        point := n.normal.2.2
        allDigits := digits
        leading := normal_leading n
        trailing := normal_trailing n
        zeroPoint := by
          intro none
          simp only [Numeral.normal] at none ⊢
          rw [if_pos none] }
  else none

theorem ofNumeral_numeral (x : Decimal) : ofNumeral x.numeral = some x := by
  have parts := x.normal_numeral
  have sign : x.numeral.negative = x.negative := congrArg Prod.fst parts
  have digits : x.numeral.normal.2.1 = x.digits := congrArg (fun p => p.2.1) parts
  have point : x.numeral.normal.2.2 = x.point := congrArg (fun p => p.2.2) parts
  have all : ∀ c ∈ x.numeral.normal.2.1, c.isDigit = true := by
    rw [digits]
    exact x.allDigits
  unfold ofNumeral
  rw [dif_pos all]
  cases x
  simp_all

/-! ## Binary floats -/

/-- The magnitude `mantissa * 2 ^ exponent`. -/
structure Binary where
  mantissa : Nat
  exponent : Int
  deriving DecidableEq

/-- The quotient rounded to the nearest whole number, ties to even. -/
def roundDiv (num den : Nat) : Nat :=
  let q := num / den
  let r := num % den
  if den < 2 * r ∨ 2 * r = den ∧ q % 2 = 1 then q + 1 else q

/-- `num / (den * base ^ e)` as a fraction. -/
def scaled (base num den : Nat) (e : Int) : Nat × Nat :=
  if 0 ≤ e then (num, den * base ^ e.toNat) else (num * base ^ (-e).toNat, den)

/-- The float nearest to a positive fraction; nothing beyond the largest float. -/
def toBinary (num den : Nat) : Option Binary :=
  -- the quotient has 52 or 53 bits at the first guess of the exponent
  let guess : Int := (num.log2 : Int) - den.log2 - 52
  let atGuess := scaled 2 num den guess
  let exact := if atGuess.1 / atGuess.2 < 2 ^ 52 then guess - 1 else guess
  let e := max exact (-1074)
  let atExponent := scaled 2 num den e
  let m := roundDiv atExponent.1 atExponent.2
  let rounded : Binary := if m = 2 ^ 53 then ⟨2 ^ 52, e + 1⟩ else ⟨m, e⟩
  if rounded.exponent ≤ 971 then some rounded else none

/-- The float a decimal is read as, without its sign.  Outside four hundred places every
decimal is read as zero or as infinity. -/
def binary (x : Decimal) : Option Binary :=
  if x.digits = [] ∨ x.point < -400 then some ⟨0, -1074⟩
  else if 400 < x.point then none
  else
    let fraction := scaled 10 (Nat.ofDigitChars 10 x.digits 0) 1 (x.digits.length - x.point)
    toBinary fraction.1 fraction.2

/-- The number of places before the decimal point; not positive below one. -/
def places (num den : Nat) : Int :=
  if den ≤ num then (Nat.toDigits 10 (num / den)).length
  else 1 - (Nat.toDigits 10 ((den - 1) / num)).length

/-- The decimal with `n` digits nearest to a float. -/
def candidate (negative : Bool) (b : Binary) (n : Nat) : Option Decimal :=
  let value := scaled 2 b.mantissa 1 (-b.exponent)
  let shift := places value.1 value.2 - n
  let digits := scaled 10 value.1 value.2 shift
  ofNumeral ⟨negative, Nat.toDigits 10 (roundDiv digits.1 digits.2), [], some shift⟩

/-- The shortest decimal that is read as the float; seventeen digits always do. -/
def shortest (negative : Bool) (b : Binary) : Option Decimal :=
  ((List.range 17).filterMap fun n => candidate negative b (n + 1)).find? fun y =>
    y.negative = negative ∧ y.binary = some b

def signedZero (negative : Bool) : Decimal := { zero with negative }

/-- The numeral of the float nearest to a decimal. -/
def nearest (x : Decimal) : Option Decimal :=
  x.binary.map fun b =>
    if b.mantissa = 0 then signedZero x.negative else (shortest x.negative b).getD x

theorem nearest_signedZero (negative : Bool) :
    (signedZero negative).nearest = some (signedZero negative) := by
  simp [nearest, binary, signedZero, zero]

/-- Reading back a printed float changes nothing. -/
theorem nearest_nearest {x y : Decimal} (read : x.nearest = some y) : y.nearest = some y := by
  simp only [nearest, Option.map_eq_some_iff] at read
  obtain ⟨b, here, printed⟩ := read
  split at printed
  · rw [← printed]
    exact nearest_signedZero x.negative
  rename_i positive
  cases found : shortest x.negative b with
  | none =>
      have same : x = y := by simpa [found] using printed
      subst same
      simp [nearest, here, positive, found]
  | some z =>
      have same : z = y := by simpa [found] using printed
      subst same
      have kept := List.find?_some found
      simp only [decide_eq_true_eq] at kept
      obtain ⟨sign, back⟩ := kept
      simp [nearest, back, positive, sign, found]

/-- Two spellings of one float, a float below one, and a numeral beyond all floats. -/
example :
    (ofNumeral ⟨false, "0".toList, "95000000000000000001".toList, none⟩).bind nearest =
        ofNumeral ⟨false, "0".toList, "95".toList, none⟩ ∧
      (ofNumeral ⟨false, "1".toList, [], some 400⟩).bind nearest = none := by
  decide +kernel

end Decimal

end Enfold.Theory
