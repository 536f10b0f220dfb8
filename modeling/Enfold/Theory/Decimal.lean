/-
# Theory.Decimal -- finite floats, by the numeral that prints them

A finite binary float prints as the shortest decimal numeral that reads back to
it, and two floats compare as their numerals do.  A float is therefore modelled by
that numeral: a sign, the significant digits, and the position of the decimal
point.  `value` is the rational the numeral denotes; comparisons of floats in the
modelled code are comparisons of values.

`text` is the printed form, with the runtime's switch to an exponent below `1e-04`
and above `1e+16`.  It determines the float (`text_injective`): `read` parses the
numeral back.
-/
import Mathlib.Algebra.Order.Ring.Rat
import Mathlib.Data.Rat.Defs
import Enfold.Theory.Text

namespace Enfold.Theory

set_option autoImplicit false

/-- A finite float: `0.d₁d₂… × 10 ^ point`, with no digit zero at either end.  Both
signed zeros have no digits. -/
structure Decimal where
  negative : Bool
  digits : List Char
  point : Int
  allDigits : ∀ c ∈ digits, c.isDigit = true
  leading : digits.head? ≠ some '0'
  trailing : digits.getLast? ≠ some '0'
  zeroPoint : digits = [] → point = 0
  deriving DecidableEq

namespace Decimal

/-- The number `0.d₁d₂… × 10 ^ point`. -/
def value (x : Decimal) : ℚ :=
  let magnitude : ℚ := (Nat.ofDigitChars 10 x.digits 0 : Nat)
  let shift := x.point - x.digits.length
  let scaled := if 0 ≤ shift then magnitude * 10 ^ shift.toNat else magnitude / 10 ^ (-shift).toNat
  if x.negative then -scaled else scaled

def zero : Decimal := ⟨false, [], 0, by simp, by simp, by simp, by simp⟩

/-- `0.5`. -/
def half : Decimal := ⟨false, ['5'], 0, by decide, by decide, by decide, by decide⟩

/-- `1.0`. -/
def one : Decimal := ⟨false, ['1'], 1, by decide, by decide, by decide, by decide⟩

example : half.value = 1 / 2 ∧ one.value = 1 ∧ zero.value = 0 := by decide +kernel

/-! ## Numerals -/

/-- The parts of a printed numeral; the exponent part is optional. -/
structure Numeral where
  negative : Bool
  whole : List Char
  fraction : List Char
  exponent : Option Int

/-- The exponent part: a sign and at least two digits. -/
def exponentText (e : Int) : List Char :=
  'e' :: (if e < 0 then '-' else '+') ::
    (if e.natAbs < 10 then '0' :: Nat.toDigits 10 e.natAbs else Nat.toDigits 10 e.natAbs)

def Numeral.text (n : Numeral) : List Char :=
  (if n.negative then ['-'] else []) ++
    (n.whole ++ ((if n.fraction = [] then [] else '.' :: n.fraction) ++
      (n.exponent.map exponentText).getD []))

/-- The numeral a float prints as.  The point stays inside or next to the digits while
it is more than four places below and at most sixteen above them. -/
def numeral (x : Decimal) : Numeral :=
  match x.digits with
  | [] => ⟨x.negative, ['0'], ['0'], none⟩
  | d :: ds =>
      if -4 < x.point ∧ x.point ≤ 16 then
        if x.point ≤ 0 then
          ⟨x.negative, ['0'], List.replicate (-x.point).toNat '0' ++ d :: ds, none⟩
        else if (d :: ds).length ≤ x.point.toNat then
          ⟨x.negative, d :: ds ++ List.replicate (x.point.toNat - (d :: ds).length) '0', ['0'], none⟩
        else ⟨x.negative, (d :: ds).take x.point.toNat, (d :: ds).drop x.point.toNat, none⟩
      else ⟨x.negative, [d], ds, some (x.point - 1)⟩

/-- The printed form of a float (`repr`). -/
def text (x : Decimal) : List Char := x.numeral.text

/-! ## Reading a numeral back -/

def readExponent : List Char → Option (Option Int)
  | [] => some none
  | 'e' :: '-' :: ds => some (some (-(Nat.ofDigitChars 10 ds 0 : Nat)))
  | 'e' :: '+' :: ds => some (some (Nat.ofDigitChars 10 ds 0 : Nat))
  | _ => none

def readUnsigned (negative : Bool) (cs : List Char) : Option Numeral :=
  let whole := cs.takeWhile Char.isDigit
  match cs.dropWhile Char.isDigit with
  | '.' :: rest =>
      (readExponent (rest.dropWhile Char.isDigit)).map fun e =>
        ⟨negative, whole, rest.takeWhile Char.isDigit, e⟩
  | rest => (readExponent rest).map fun e => ⟨negative, whole, [], e⟩

def readNumeral : List Char → Option Numeral
  | '-' :: cs => readUnsigned true cs
  | cs => readUnsigned false cs

/-- The digits and the point of a numeral, with the zeros at both ends removed. -/
def Numeral.normal (n : Numeral) : Bool × List Char × Int :=
  let all := n.whole ++ n.fraction
  let kept := all.dropWhile (· = '0')
  let digits := kept.rdropWhile (· = '0')
  (n.negative, digits,
    if digits = [] then 0
    else n.whole.length + n.exponent.getD 0 - (all.length - kept.length : Nat))

/-- The float a numeral text denotes, as its parts. -/
def read (cs : List Char) : Option (Bool × List Char × Int) :=
  (readNumeral cs).map Numeral.normal

theorem readExponent_exponentText (e : Int) : readExponent (exponentText e) = some (some e) := by
  have digits : Nat.ofDigitChars 10 (Nat.toDigits 10 e.natAbs) 0 = e.natAbs :=
    Nat.ofDigitChars_toDigits (by decide) (by decide)
  have padded : Nat.ofDigitChars 10
      (if e.natAbs < 10 then '0' :: Nat.toDigits 10 e.natAbs else Nat.toDigits 10 e.natAbs) 0 =
      e.natAbs := by
    split
    · rw [Nat.ofDigitChars_cons]
      simp [digits]
    · exact digits
  unfold exponentText
  split
  · simp only [readExponent, padded]
    congr 2
    omega
  · simp only [readExponent, padded]
    congr 2
    omega

theorem takeWhile_digits {ds rest : List Char} (all : ∀ c ∈ ds, c.isDigit = true)
    (stop : ∀ c, rest.head? = some c → c.isDigit = false) :
    (ds ++ rest).takeWhile Char.isDigit = ds ∧ (ds ++ rest).dropWhile Char.isDigit = rest := by
  rw [List.takeWhile_append_of_pos all, List.dropWhile_append_of_pos all]
  cases rest with
  | nil => simp
  | cons c cs => simp [stop c rfl]

/-- A numeral of digits is read back from its text. -/
theorem readNumeral_text (n : Numeral) (nonempty : n.whole ≠ [])
    (whole : ∀ c ∈ n.whole, c.isDigit = true) (fraction : ∀ c ∈ n.fraction, c.isDigit = true) :
    readNumeral n.text = some n := by
  obtain ⟨negative, whole', fraction', exponent⟩ := n
  have expStop : ∀ c, ((exponent.map exponentText).getD []).head? = some c → c.isDigit = false := by
    cases exponent with
    | none => simp
    | some e => simp [exponentText]
  have readExp : readExponent ((exponent.map exponentText).getD []) = some exponent := by
    cases exponent with
    | none => rfl
    | some e => exact readExponent_exponentText e
  have unsigned : readUnsigned negative
      (whole' ++ ((if fraction' = [] then [] else '.' :: fraction') ++
        (exponent.map exponentText).getD [])) = some ⟨negative, whole', fraction', exponent⟩ := by
    unfold readUnsigned
    by_cases none : fraction' = []
    · subst none
      obtain ⟨taken, dropped⟩ := takeWhile_digits whole expStop
      simp only [if_true, List.nil_append, taken, dropped]
      split
      · rename_i rest eq
        have := expStop '.' (by rw [eq]; rfl)
        cases exponent <;> simp [exponentText] at eq
      · simp [readExp]
    · obtain ⟨taken, dropped⟩ := takeWhile_digits whole
        (show ∀ c, ('.' :: (fraction' ++ (exponent.map exponentText).getD [])).head? = some c →
          c.isDigit = false by simp)
      obtain ⟨taken', dropped'⟩ := takeWhile_digits fraction expStop
      simp only [none, if_false, List.cons_append, taken, dropped, taken', dropped', readExp,
        Option.map_some]
  unfold Numeral.text readNumeral
  cases negative with
  | true => simpa using unsigned
  | false =>
      obtain ⟨d, ds, rfl⟩ := List.exists_cons_of_ne_nil nonempty
      have digit : d.isDigit = true := whole d (by simp)
      simp only [Bool.false_eq_true, if_false, List.nil_append, List.cons_append] at unsigned ⊢
      split
      · rename_i eq
        simp only [List.cons.injEq] at eq
        rw [eq.1] at digit
        exact absurd digit (by decide)
      · exact unsigned

/-! ## Printing determines the float -/

theorem dropWhile_zero {ds : List Char} (leading : ds.head? ≠ some '0') :
    ds.dropWhile (· = '0') = ds := by
  cases ds with
  | nil => rfl
  | cons d ds =>
      have : d ≠ '0' := by simpa using leading
      simp [this]

theorem rdropWhile_zero {ds : List Char} (trailing : ds.getLast? ≠ some '0') :
    ds.rdropWhile (· = '0') = ds := by
  unfold List.rdropWhile
  rw [dropWhile_zero (by simpa using trailing), List.reverse_reverse]

theorem dropWhile_replicate_zero (n : Nat) (ds : List Char) :
    (List.replicate n '0' ++ ds).dropWhile (· = '0') = ds.dropWhile (· = '0') := by
  induction n with
  | zero => rfl
  | succ n ih => simp [List.replicate_succ, ih]

theorem rdropWhile_replicate_zero (n : Nat) (ds : List Char) :
    (ds ++ List.replicate n '0').rdropWhile (· = '0') = ds.rdropWhile (· = '0') := by
  unfold List.rdropWhile
  rw [List.reverse_append, List.reverse_replicate, dropWhile_replicate_zero]

/-- The numeral of a float normalizes to its parts: the zeros that fill it up to the point, on either
side, are dropped again. -/
theorem normal_numeral (x : Decimal) :
    x.numeral.normal = (x.negative, x.digits, x.point) := by
  obtain ⟨negative, digits, point, -, leading, trailing, zeroPoint⟩ := x
  cases digits with
  | nil => simp [numeral, Numeral.normal, zeroPoint rfl]
  | cons d ds =>
      have lead := dropWhile_zero leading
      have trail := rdropWhile_zero trailing
      simp only [numeral]
      split
      · split
        · rename_i inside before
          have dropped : (['0'] ++ (List.replicate (-point).toNat '0' ++ d :: ds)).dropWhile
              (· = '0') = d :: ds := by
            simp only [List.singleton_append, List.dropWhile_cons_of_pos (p := fun c => decide (c = '0'))
              (a := '0') (by decide), dropWhile_replicate_zero, lead]
          simp only [Numeral.normal, dropped, trail, Prod.mk.injEq, true_and]
          simp
          omega
        · split
          · rename_i inside after wide
            have front : (d :: ds ++ List.replicate (point.toNat - (d :: ds).length) '0' ++
                ['0']).dropWhile (· = '0') =
                d :: ds ++ List.replicate (point.toNat - (d :: ds).length + 1) '0' := by
              rw [List.replicate_succ', ← List.append_assoc]
              exact dropWhile_zero (by simpa using leading)
            simp only [Numeral.normal, front, rdropWhile_replicate_zero, trail, Prod.mk.injEq,
              true_and]
            simp at wide ⊢
            omega
          · rename_i inside after wide
            simp only [Numeral.normal, List.take_append_drop, lead, trail, Prod.mk.injEq, true_and]
            simp at wide ⊢
            omega
      · simp only [Numeral.normal, List.singleton_append, lead, trail, Prod.mk.injEq, true_and]
        simp

theorem numeral_digits (x : Decimal) : x.numeral.whole ≠ [] ∧
    (∀ c ∈ x.numeral.whole, c.isDigit = true) ∧ (∀ c ∈ x.numeral.fraction, c.isDigit = true) := by
  obtain ⟨negative, digits, point, allDigits, -, -, -⟩ := x
  cases digits with
  | nil => simp [numeral]
  | cons d ds =>
      have zeros : ∀ n, ∀ c ∈ List.replicate n '0', c.isDigit = true := by
        intro n c mem
        rw [List.eq_of_mem_replicate mem]
        rfl
      simp only [numeral]
      split
      · split
        · refine ⟨by simp, by simp, fun c mem => ?_⟩
          rcases List.mem_append.1 mem with mem | mem
          · exact zeros _ c mem
          · exact allDigits c mem
        · split
          · refine ⟨by simp, fun c mem => ?_, by simp⟩
            rcases List.mem_append.1 mem with mem | mem
            · exact allDigits c mem
            · exact zeros _ c mem
          · rename_i inside after wide
            refine ⟨?_, fun c mem => allDigits c (List.mem_of_mem_take mem),
              fun c mem => allDigits c (List.mem_of_mem_drop mem)⟩
            simp only [ne_eq, List.take_eq_nil_iff, reduceCtorEq, or_false]
            omega
      · exact ⟨by simp, by simpa using allDigits d (by simp), fun c mem => allDigits c (by simp [mem])⟩

theorem read_text (x : Decimal) : read x.text = some (x.negative, x.digits, x.point) := by
  obtain ⟨nonempty, whole, fraction⟩ := numeral_digits x
  rw [read, text, readNumeral_text _ nonempty whole fraction, Option.map_some, normal_numeral]

/-- A float is determined by its printed form. -/
theorem text_injective : Function.Injective text := by
  intro x y same
  have parts := (read_text x).symm.trans ((congrArg read same).trans (read_text y))
  cases x
  cases y
  simp_all

end Decimal

end Enfold.Theory
