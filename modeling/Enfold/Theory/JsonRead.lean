/-
# Theory.JsonRead -- reading JSON text

`loads` reads a text as the runtime's `json.loads` does: blanks between tokens, the
standard escapes, numerals with and without a point, and objects whose last value of a
repeated key counts.  A numeral with a point or an exponent is the float nearest to it.

Two inputs that the runtime reads are outside the documents modelled here and are refused:
a number that is not finite (`NaN`, `Infinity`, a numeral beyond the largest float), and an
escaped half of a surrogate pair.

Reading takes back what `dumps` printed, for every document whose objects are in key order
and whose floats are printed by their own numerals (`loads_dumps`).  The proof follows the printer: one lemma per kind of token, then the
mutual recursion of `dump`.
-/
import Enfold.Theory.Binary64
import Enfold.Theory.Json
import Mathlib.Data.String.Basic

namespace Enfold.Theory

set_option autoImplicit false

namespace Json

/-! ## Blanks -/

def isBlank (c : Char) : Bool := c = ' ' || c = '\t' || c = '\n' || c = '\r'

def skipBlanks (cs : List Char) : List Char := cs.dropWhile isBlank

/-! ## Strings -/

def hexDigit? (c : Char) : Option Nat :=
  if c.isDigit then some (c.toNat - 48)
  else if 97 ≤ c.toNat ∧ c.toNat ≤ 102 then some (c.toNat - 87)
  else if 65 ≤ c.toNat ∧ c.toNat ≤ 70 then some (c.toNat - 55)
  else none

def readHex : List Char → Option (Nat × List Char)
  | a :: b :: c :: d :: rest => do
      let a ← hexDigit? a
      let b ← hexDigit? b
      let c ← hexDigit? c
      let d ← hexDigit? d
      return (a * 4096 + b * 256 + c * 16 + d, rest)
  | _ => none

def simpleEscape? (c : Char) : Option Char :=
  if c = '"' ∨ c = '\\' ∨ c = '/' then some c
  else if c = 'b' then some (Char.ofNat 8)
  else if c = 'f' then some (Char.ofNat 12)
  else if c = 'n' then some '\n'
  else if c = 'r' then some '\r'
  else if c = 't' then some '\t'
  else none

/-- The low half of a surrogate pair, after the high one. -/
def readLowHalf (high : Nat) : List Char → Option (Char × List Char)
  | '\\' :: 'u' :: rest => do
      let (low, rest) ← readHex rest
      if 56320 ≤ low ∧ low < 57344 then
        return (Char.ofNat (65536 + (high - 55296) * 1024 + (low - 56320)), rest)
      else none
  | _ => none

/-- The character an escape stands for; the text starts after the backslash. -/
def readEscape : List Char → Option (Char × List Char)
  | [] => none
  | c :: rest =>
      if c = 'u' then do
        let (code, rest) ← readHex rest
        if 55296 ≤ code ∧ code < 56320 then readLowHalf code rest
        else if 56320 ≤ code ∧ code < 57344 then none
        else return (Char.ofNat code, rest)
      else (simpleEscape? c).map fun e => (e, rest)

/-- The characters up to the closing quote, and the text after it. -/
def readString : Nat → List Char → Option (List Char × List Char)
  | 0, _ => none
  | _ + 1, [] => none
  | fuel + 1, c :: rest =>
      if c = '"' then some ([], rest)
      else if c = '\\' then do
        let (e, rest) ← readEscape rest
        let (cs, rest) ← readString fuel rest
        return (e :: cs, rest)
      else if c.toNat < 32 then none
      else do
        let (cs, rest) ← readString fuel rest
        return (c :: cs, rest)

/-! ## Numbers -/

/-- A zero, or digits that do not start with one. -/
def readWhole : List Char → Option (List Char × List Char)
  | [] => none
  | c :: rest =>
      if c = '0' then some (['0'], rest)
      else if c.isDigit then some (c :: rest.takeWhile Char.isDigit, rest.dropWhile Char.isDigit)
      else none

def readFraction (cs : List Char) : List Char × List Char :=
  match cs with
  | '.' :: rest =>
      if rest.takeWhile Char.isDigit = [] then ([], cs)
      else (rest.takeWhile Char.isDigit, rest.dropWhile Char.isDigit)
  | _ => ([], cs)

/-- The sign and the digits of an exponent. -/
def readSigned : List Char → Option (Int × List Char)
  | '-' :: ds =>
      if ds.takeWhile Char.isDigit = [] then none
      else some (-(Nat.ofDigitChars 10 (ds.takeWhile Char.isDigit) 0 : Nat),
        ds.dropWhile Char.isDigit)
  | '+' :: ds =>
      if ds.takeWhile Char.isDigit = [] then none
      else some ((Nat.ofDigitChars 10 (ds.takeWhile Char.isDigit) 0 : Nat),
        ds.dropWhile Char.isDigit)
  | ds =>
      if ds.takeWhile Char.isDigit = [] then none
      else some ((Nat.ofDigitChars 10 (ds.takeWhile Char.isDigit) 0 : Nat),
        ds.dropWhile Char.isDigit)

def readExponentPart (cs : List Char) : Option Int × List Char :=
  match cs with
  | [] => (none, [])
  | c :: rest =>
      if c = 'e' ∨ c = 'E' then
        match readSigned rest with
        | some (e, rest) => (some e, rest)
        | none => (none, cs)
      else (none, cs)

/-- A number without its sign. -/
def readUnsigned (negative : Bool) (cs : List Char) : Option (Json × List Char) := do
  let (whole, rest) ← readWhole cs
  let (fraction, rest) := readFraction rest
  let (exponent, rest) := readExponentPart rest
  if fraction = [] ∧ exponent = none then
    let magnitude : Int := (Nat.ofDigitChars 10 whole 0 : Nat)
    return (.int (if negative then -magnitude else magnitude), rest)
  else
    let spelled ← Decimal.ofNumeral ⟨negative, whole, fraction, exponent⟩
    return (.float (← spelled.nearest), rest)

def readNumber : List Char → Option (Json × List Char)
  | '-' :: rest => readUnsigned true rest
  | cs => readUnsigned false cs

/-! ## Documents -/

/-- Assign to a key of an object in key order. -/
def setMember : List (String × Json) → String × Json → List (String × Json)
  | [], member => [member]
  | (key, value) :: members, member =>
      if member.1 < key then member :: (key, value) :: members
      else if member.1 = key then member :: members
      else (key, value) :: setMember members member

/-- The object of a list of assignments, in their order. -/
def ofMembers (members : List (String × Json)) : Json := .obj (members.foldl setMember [])

/-- The rest of a text that starts with a word. -/
def afterWord : List Char → List Char → Option (List Char)
  | [], rest => some rest
  | _ :: _, [] => none
  | w :: word, c :: rest => if c = w then afterWord word rest else none

mutual

/-- One value at the start of the text, and the text after it. -/
def readValue : Nat → List Char → Option (Json × List Char)
  | 0, _ => none
  | fuel + 1, cs =>
      match shapeOf cs with
      | none => none
      | some .null => (afterWord ['n', 'u', 'l', 'l'] cs).map fun rest => (.null, rest)
      | some .yes => (afterWord ['t', 'r', 'u', 'e'] cs).map fun rest => (.bool true, rest)
      | some .no => (afterWord ['f', 'a', 'l', 's', 'e'] cs).map fun rest => (.bool false, rest)
      | some .number => readNumber cs
      | some .string => (readString fuel cs.tail).map fun p => (.str (String.ofList p.1), p.2)
      | some .array =>
          let rest := skipBlanks cs.tail
          if rest.head? = some ']' then some (.arr [], rest.tail)
          else do
            let (item, rest) ← readValue fuel rest
            let (items, rest) ← readItems fuel rest
            return (.arr (item :: items), rest)
      | some .object =>
          let rest := skipBlanks cs.tail
          if rest.head? = some '}' then some (.obj [], rest.tail)
          else do
            let (member, rest) ← readMember fuel rest
            let (members, rest) ← readMembers fuel rest
            return (ofMembers (member :: members), rest)

/-- The items after the first, up to the closing bracket. -/
def readItems : Nat → List Char → Option (List Json × List Char)
  | 0, _ => none
  | fuel + 1, cs =>
      let rest := skipBlanks cs
      if rest.head? = some ']' then some ([], rest.tail)
      else if rest.head? = some ',' then do
        let (item, rest) ← readValue fuel (skipBlanks rest.tail)
        let (items, rest) ← readItems fuel rest
        return (item :: items, rest)
      else none

/-- A key and its value. -/
def readMember : Nat → List Char → Option ((String × Json) × List Char)
  | 0, _ => none
  | fuel + 1, cs =>
      if cs.head? = some '"' then do
        let (key, rest) ← readString fuel cs.tail
        let rest := skipBlanks rest
        if rest.head? = some ':' then do
          let (value, rest) ← readValue fuel (skipBlanks rest.tail)
          return ((String.ofList key, value), rest)
        else none
      else none

/-- The members after the first, up to the closing brace. -/
def readMembers : Nat → List Char → Option (List (String × Json) × List Char)
  | 0, _ => none
  | fuel + 1, cs =>
      let rest := skipBlanks cs
      if rest.head? = some '}' then some ([], rest.tail)
      else if rest.head? = some ',' then do
        let (member, rest) ← readMember fuel (skipBlanks rest.tail)
        let (members, rest) ← readMembers fuel rest
        return (member :: members, rest)
      else none

end

/-- `json.loads`: one value with blanks around it; `none` is a decoding error. -/
def loads (text : String) : Option Json := do
  let (value, rest) ← readValue (text.toList.length + 1) (skipBlanks text.toList)
  if skipBlanks rest = [] then return value else none

/-! ## Reading back strings -/

theorem hexDigit?_digitChar : ∀ d < 16, hexDigit? (Nat.digitChar d) = some d := by decide

theorem readHex_hex4 {n : Nat} (small : n < 65536) (rest : List Char) :
    readHex (hex4 n ++ rest) = some (n, rest) := by
  simp only [hex4, List.cons_append, List.nil_append, readHex,
    hexDigit?_digitChar _ (Nat.mod_lt _ (by decide : 0 < 16)), Option.bind_eq_bind,
    Option.bind_some, Option.pure_def, Option.some.injEq, Prod.mk.injEq, and_true]
  omega

/-- A code that is no surrogate stands for itself. -/
theorem readEscape_small {n : Nat} (small : n < 65536) (plain : n < 55296 ∨ 57344 ≤ n)
    (rest : List Char) :
    readEscape ('u' :: (hex4 n ++ rest)) = some (Char.ofNat n, rest) := by
  have high : ¬ (55296 ≤ n ∧ n < 56320) := by omega
  have low : ¬ (56320 ≤ n ∧ n < 57344) := by omega
  simp only [readEscape, if_true, readHex_hex4 small, Option.bind_eq_bind, Option.bind_some,
    if_neg high, if_neg low, Option.pure_def]

theorem readEscape_pair {high low : Nat} (first : 55296 ≤ high ∧ high < 56320)
    (second : 56320 ≤ low ∧ low < 57344) (rest : List Char) :
    readEscape ('u' :: (hex4 high ++ '\\' :: 'u' :: (hex4 low ++ rest))) =
      some (Char.ofNat (65536 + (high - 55296) * 1024 + (low - 56320)), rest) := by
  have small : high < 65536 := by omega
  have small' : low < 65536 := by omega
  simp only [readEscape, if_true, readHex_hex4 small, Option.bind_eq_bind, Option.bind_some,
    if_pos first, readLowHalf, readHex_hex4 small', if_pos second, Option.pure_def]

theorem readEscape_escapeCode (c : Char) (rest : List Char) :
    readEscape ((escapeCode c.toNat ++ rest).tail) = some (c, rest) := by
  have valid := c.valid
  simp only [UInt32.isValidChar, Nat.isValidChar] at valid
  have code : c.val.toNat = c.toNat := rfl
  rw [code] at valid
  unfold escapeCode
  split
  · rename_i small
    simp only [List.cons_append, List.tail_cons]
    rw [readEscape_small small (by omega), Char.ofNat_toNat]
  · rename_i large
    have pair : 65536 + (55296 + (c.toNat - 65536) / 1024 - 55296) * 1024 +
        (56320 + (c.toNat - 65536) % 1024 - 56320) = c.toNat := by omega
    simp only [List.cons_append, List.append_assoc, List.tail_cons]
    rw [readEscape_pair (by omega) (by omega), pair, Char.ofNat_toNat]

/-- What follows an escape is read after it. -/
theorem readString_escape {fuel : Nat} {cs rest : List Char} {c : Char}
    (escaped : readEscape cs = some (c, rest)) :
    readString (fuel + 1) ('\\' :: cs) =
      (readString fuel rest).map fun p => (c :: p.1, p.2) := by
  have notQuote : ('\\' : Char) ≠ '"' := by decide
  simp only [readString, if_neg notQuote, if_true, escaped, Option.bind_eq_bind, Option.bind_some]
  cases readString fuel rest <;> rfl

/-- A character that needs no escape. -/
theorem readString_plain {fuel : Nat} {rest : List Char} {c : Char} (notQuote : c ≠ '"')
    (notSlash : c ≠ '\\') (printable : ¬ c.toNat < 32) :
    readString (fuel + 1) (c :: rest) = (readString fuel rest).map fun p => (c :: p.1, p.2) := by
  simp only [readString, if_neg notQuote, if_neg notSlash, if_neg printable]
  cases readString fuel rest <;> rfl

theorem escapeCode_cons (n : Nat) (rest : List Char) :
    escapeCode n ++ rest = '\\' :: (escapeCode n ++ rest).tail := by
  unfold escapeCode
  split <;> rfl

/-- An escaped character is read back. -/
theorem readString_escapeChar (style : Style) (c : Char) (fuel : Nat) (rest : List Char) :
    readString (fuel + 1) (escapeChar style c ++ rest) =
      (readString fuel rest).map fun p => (c :: p.1, p.2) := by
  have byCode : ∀ n, c.toNat = n → Char.ofNat n = c := by
    rintro n rfl
    exact Char.ofNat_toNat c
  have coded : readString (fuel + 1) (escapeCode c.toNat ++ rest) =
      (readString fuel rest).map fun p => (c :: p.1, p.2) := by
    rw [escapeCode_cons]
    exact readString_escape (readEscape_escapeCode c rest)
  unfold escapeChar
  split
  · subst_vars
    exact readString_escape rfl
  split
  · subst_vars
    exact readString_escape rfl
  split
  · subst_vars
    exact readString_escape rfl
  split
  · subst_vars
    exact readString_escape rfl
  split
  · subst_vars
    exact readString_escape rfl
  split
  · rename_i code
    exact readString_escape (by rw [← byCode 8 code]; rfl)
  split
  · rename_i code
    exact readString_escape (by rw [← byCode 12 code]; rfl)
  split
  · exact coded
  rename_i notQuote notSlash _ _ _ _ _ printable
  cases style with
  | unicode => exact readString_plain notQuote notSlash printable
  | ascii =>
      dsimp only
      split
      · exact readString_plain notQuote notSlash printable
      · exact coded

theorem readString_quote (style : Style) (s : String) (fuel : Nat) (rest : List Char)
    (enough : s.toList.length < fuel) :
    readString fuel ((quote style s).tail ++ rest) = some (s.toList, rest) := by
  simp only [quote, List.tail_cons, List.append_assoc]
  generalize s.toList = cs at enough
  induction cs generalizing fuel with
  | nil =>
      obtain ⟨fuel, rfl⟩ := Nat.exists_eq_succ_of_ne_zero (Nat.ne_of_gt enough)
      simp [readString]
  | cons c cs ih =>
      obtain ⟨fuel, rfl⟩ := Nat.exists_eq_succ_of_ne_zero (Nat.ne_of_gt (Nat.zero_lt_of_lt enough))
      rw [List.flatMap_cons, List.append_assoc, readString_escapeChar,
        ih fuel (by simpa using enough)]
      rfl

/-! ## Reading back numbers -/

/-- What follows a value in a printed document. -/
def Ends (rest : List Char) : Prop := ∀ c, rest.head? = some c → c = ',' ∨ c = ']' ∨ c = '}'

/-- The text goes on with no digit. -/
def NoDigit (rest : List Char) : Prop := ∀ c, rest.head? = some c → c.isDigit = false

theorem Ends.noDigit {rest : List Char} (ends : Ends rest) : NoDigit rest := by
  intro c head
  rcases ends c head with rfl | rfl | rfl <;> rfl

/-- Digits that start with no zero, or a zero. -/
def WholePart (ds : List Char) : Prop :=
  ds = ['0'] ∨ ∃ d rest, ds = d :: rest ∧ d ≠ '0' ∧ ∀ c ∈ ds, c.isDigit = true

theorem readWhole_append {ds rest : List Char} (whole : WholePart ds) (stop : NoDigit rest) :
    readWhole (ds ++ rest) = some (ds, rest) := by
  rcases whole with rfl | ⟨d, tail, rfl, notZero, all⟩
  · rfl
  · have digit := all d List.mem_cons_self
    obtain ⟨taken, dropped⟩ := Decimal.takeWhile_digits
      (fun c mem => all c (List.mem_cons_of_mem d mem)) stop
    simp only [List.cons_append, readWhole, if_neg notZero, digit, if_true, taken, dropped]

theorem readFraction_append {ds rest : List Char} (all : ∀ c ∈ ds, c.isDigit = true)
    (stop : NoDigit rest) (noPoint : rest.head? ≠ some '.') :
    readFraction ((if ds = [] then [] else '.' :: ds) ++ rest) = (ds, rest) := by
  by_cases none : ds = []
  · subst none
    simp only [if_true, List.nil_append]
    unfold readFraction
    split
    · rename_i point
      simp at noPoint
    · rfl
  · obtain ⟨taken, dropped⟩ := Decimal.takeWhile_digits all stop
    simp only [if_neg none, List.cons_append, readFraction, taken, dropped]

theorem readSigned_minus {ds rest : List Char} (nonempty : ds ≠ [])
    (all : ∀ c ∈ ds, c.isDigit = true) (stop : NoDigit rest) :
    readSigned ('-' :: (ds ++ rest)) = some (-((Nat.ofDigitChars 10 ds 0 : Nat) : Int), rest) := by
  obtain ⟨taken, dropped⟩ := Decimal.takeWhile_digits all stop
  simp only [readSigned, taken, dropped, if_neg nonempty]

theorem readSigned_plus {ds rest : List Char} (nonempty : ds ≠ [])
    (all : ∀ c ∈ ds, c.isDigit = true) (stop : NoDigit rest) :
    readSigned ('+' :: (ds ++ rest)) = some (((Nat.ofDigitChars 10 ds 0 : Nat) : Int), rest) := by
  obtain ⟨taken, dropped⟩ := Decimal.takeWhile_digits all stop
  simp only [readSigned, taken, dropped, if_neg nonempty]

/-- The digits of a printed exponent. -/
def exponentDigits (e : Int) : List Char :=
  if e.natAbs < 10 then '0' :: Nat.toDigits 10 e.natAbs else Nat.toDigits 10 e.natAbs

theorem exponentDigits_value (e : Int) :
    Nat.ofDigitChars 10 (exponentDigits e) 0 = e.natAbs := by
  have digits : Nat.ofDigitChars 10 (Nat.toDigits 10 e.natAbs) 0 = e.natAbs :=
    Nat.ofDigitChars_toDigits (by decide) (by decide)
  unfold exponentDigits
  split
  · rw [Nat.ofDigitChars_cons]
    simp [digits]
  · exact digits

theorem exponentDigits_isDigit (e : Int) : ∀ c ∈ exponentDigits e, c.isDigit = true := by
  intro c mem
  unfold exponentDigits at mem
  split at mem
  · rcases List.mem_cons.1 mem with rfl | mem
    · rfl
    · exact toDigits_isDigit mem
  · exact toDigits_isDigit mem

theorem exponentDigits_ne_nil (e : Int) : exponentDigits e ≠ [] := by
  unfold exponentDigits
  split
  · exact List.cons_ne_nil _ _
  · exact Nat.toDigits_ne_nil

theorem readExponentPart_append {e : Option Int} {rest : List Char} (ends : Ends rest) :
    readExponentPart ((e.map Decimal.exponentText).getD [] ++ rest) = (e, rest) := by
  cases e with
  | none =>
      simp only [Option.map_none, Option.getD_none, List.nil_append]
      cases rest with
      | nil => rfl
      | cons c cs =>
          have other : ¬ (c = 'e' ∨ c = 'E') := by
            rcases ends c rfl with rfl | rfl | rfl <;> decide
          simp only [readExponentPart, if_neg other]
  | some e =>
      have value := exponentDigits_value e
      simp only [Option.map_some, Option.getD_some, Decimal.exponentText, List.cons_append,
        readExponentPart, true_or, if_true]
      by_cases sign : e < 0
      · rw [if_pos sign, show (if e.natAbs < 10 then '0' :: Nat.toDigits 10 e.natAbs
          else Nat.toDigits 10 e.natAbs) = exponentDigits e from rfl,
          readSigned_minus (exponentDigits_ne_nil e) (exponentDigits_isDigit e) ends.noDigit, value]
        simp only [Prod.mk.injEq, Option.some.injEq, and_true]
        omega
      · rw [if_neg sign, show (if e.natAbs < 10 then '0' :: Nat.toDigits 10 e.natAbs
          else Nat.toDigits 10 e.natAbs) = exponentDigits e from rfl,
          readSigned_plus (exponentDigits_ne_nil e) (exponentDigits_isDigit e) ends.noDigit, value]
        simp only [Prod.mk.injEq, Option.some.injEq, and_true]
        omega

/-- The exponent of a numeral starts with no digit and no point. -/
theorem exponent_stops {e : Option Int} {rest : List Char} (ends : Ends rest) :
    NoDigit ((e.map Decimal.exponentText).getD [] ++ rest) ∧
      ((e.map Decimal.exponentText).getD [] ++ rest).head? ≠ some '.' := by
  cases e with
  | none =>
      refine ⟨ends.noDigit, fun point => ?_⟩
      rcases ends '.' point with eq | eq | eq <;> cases eq
  | some e => simp [NoDigit, Decimal.exponentText]

/-- A numeral is read back. -/
theorem readUnsigned_numeral {n : Decimal.Numeral} {rest : List Char} (whole : WholePart n.whole)
    (fraction : ∀ c ∈ n.fraction, c.isDigit = true) (ends : Ends rest) :
    readUnsigned n.negative (n.whole ++ ((if n.fraction = [] then [] else '.' :: n.fraction) ++
        (n.exponent.map Decimal.exponentText).getD []) ++ rest) =
      if n.fraction = [] ∧ n.exponent = none then
        some (.int (if n.negative then -(Nat.ofDigitChars 10 n.whole 0 : Nat)
          else (Nat.ofDigitChars 10 n.whole 0 : Nat)), rest)
      else ((Decimal.ofNumeral n).bind Decimal.nearest).map fun x => (.float x, rest) := by
  obtain ⟨stops, noPoint⟩ := exponent_stops (e := n.exponent) ends
  have afterWhole : NoDigit ((if n.fraction = [] then [] else '.' :: n.fraction) ++
      ((n.exponent.map Decimal.exponentText).getD [] ++ rest)) := by
    by_cases none : n.fraction = []
    · rw [if_pos none]
      exact stops
    · rw [if_neg none]
      intro c head
      cases head
      rfl
  simp only [readUnsigned, List.append_assoc, readWhole_append whole afterWhole,
    readFraction_append fraction stops noPoint, readExponentPart_append ends, Option.bind_eq_bind,
    Option.bind_some, Option.pure_def]
  split
  · rfl
  · show ((Decimal.ofNumeral n).bind fun x => x.nearest.bind fun y => some (Json.float y, rest)) = _
    rw [← Option.bind_assoc, Option.map_eq_bind]
    rfl

/-- A digit list of a natural number has no zero in front. -/
theorem toDigits_wholePart (n : Nat) : WholePart (Nat.toDigits 10 n) := by
  have all : ∀ n, ∀ c ∈ Nat.toDigits 10 n, c.isDigit = true := fun n c mem => toDigits_isDigit mem
  by_cases zero : n = 0
  · subst zero
    exact .inl (Nat.toDigits_zero 10)
  · refine .inr ?_
    induction n using Nat.strongRecOn with
    | _ n ih =>
        by_cases small : n < 10
        · refine ⟨n.digitChar, [], Nat.toDigits_of_lt_base small, ?_, all n⟩
          have digits : ∀ d < 10, d ≠ 0 → Nat.digitChar d ≠ '0' := by decide
          exact digits n small zero
        · obtain ⟨d, rest, shape, notZero, -⟩ := ih (n / 10) (by omega) (by omega)
          refine ⟨d, rest ++ [Nat.digitChar (n % 10)], ?_, notZero, all n⟩
          rw [Nat.toDigits_of_base_le (by decide) (by omega), shape]
          rfl

/-- So has the whole part of a float. -/
theorem numeral_wholePart (x : Decimal) : WholePart x.numeral.whole := by
  obtain ⟨-, whole, -⟩ := x.numeral_digits
  have leading := x.leading
  revert whole
  unfold Decimal.numeral
  split
  · exact fun _ => .inl rfl
  rename_i d ds digits
  rw [digits] at leading
  have notZero : d ≠ '0' := by simpa using leading
  split
  · split
    · exact fun _ => .inl rfl
    split
    · exact fun whole => .inr ⟨d, _, rfl, notZero, whole⟩
    · rename_i inside after wide
      intro whole
      obtain ⟨k, shift⟩ : ∃ k, x.point.toNat = k + 1 := ⟨x.point.toNat - 1, by omega⟩
      rw [shift] at whole ⊢
      exact .inr ⟨d, ds.take k, rfl, notZero, whole⟩
  · exact fun whole => .inr ⟨d, [], rfl, notZero, whole⟩

/-- A printed float has a fraction or an exponent. -/
theorem numeral_marked (x : Decimal) :
    ¬ (x.numeral.fraction = [] ∧ x.numeral.exponent = none) := by
  unfold Decimal.numeral
  split
  · simp
  split
  · split
    · simp
    split
    · simp
    · rename_i inside after wide
      simp only [not_and, List.drop_eq_nil_iff]
      omega
  · simp

theorem readNumber_int (n : Int) {rest : List Char} (ends : Ends rest) :
    readNumber (intText n ++ rest) = some (.int n, rest) := by
  have read : ∀ negative, readUnsigned negative (Nat.toDigits 10 n.natAbs ++ rest) =
      some (.int (if negative then -(n.natAbs : Int) else n.natAbs), rest) := by
    intro negative
    have numeral := readUnsigned_numeral (n := ⟨negative, Nat.toDigits 10 n.natAbs, [], none⟩)
      (toDigits_wholePart n.natAbs) (by simp) ends
    have value : Nat.ofDigitChars 10 (Nat.toDigits 10 n.natAbs) 0 = n.natAbs :=
      Nat.ofDigitChars_toDigits (by decide) (by decide)
    simpa [value] using numeral
  unfold intText
  split
  · rename_i negative
    simp only [List.cons_append, readNumber, read, if_true, Option.some.injEq, Prod.mk.injEq,
      Json.int.injEq, and_true]
    omega
  · rename_i positive
    obtain ⟨c, cs, shape, digit⟩ := toDigits_head n.natAbs
    have first : readNumber (Nat.toDigits 10 n.natAbs ++ rest) =
        readUnsigned false (Nat.toDigits 10 n.natAbs ++ rest) := by
      rw [shape]
      unfold readNumber
      split
      · rename_i eq
        simp only [List.cons_append, List.cons.injEq] at eq
        rw [eq.1] at digit
        cases digit
      · rfl
    rw [first, read]
    simp only [Bool.false_eq_true, if_false, Option.some.injEq, Prod.mk.injEq, Json.int.injEq,
      and_true]
    omega

theorem readNumber_float {x : Decimal} (printed : x.nearest = some x) {rest : List Char}
    (ends : Ends rest) :
    readNumber (x.text ++ rest) = some (.float x, rest) := by
  obtain ⟨nonempty, whole, fraction⟩ := x.numeral_digits
  have numeral := readUnsigned_numeral (numeral_wholePart x) fraction ends
  rw [if_neg (numeral_marked x), Decimal.ofNumeral_numeral, Option.bind_some, printed,
    Option.map_some] at numeral
  unfold Decimal.text Decimal.Numeral.text
  cases sign : x.numeral.negative with
  | true =>
      rw [sign] at numeral
      simpa only [if_true, List.cons_append, List.nil_append, readNumber] using numeral
  | false =>
      rw [sign] at numeral
      obtain ⟨c, cs, shape⟩ := List.exists_cons_of_ne_nil nonempty
      have digit := whole c (by simp [shape])
      simp only [Bool.false_eq_true, if_false, List.nil_append]
      rw [← numeral, shape]
      unfold readNumber
      split
      · rename_i eq
        simp only [List.cons_append, List.cons.injEq] at eq
        rw [eq.1] at digit
        cases digit
      · rfl

/-! ## Reading back documents -/

mutual

/-- The members of every object are in strictly increasing key order, and every float is
given by the numeral that prints it. -/
def Canonical : Json → Prop
  | .float x => x.nearest = some x
  | .arr items => CanonicalItems items
  | .obj members => (members.map Prod.fst).Pairwise (· < ·) ∧ CanonicalMembers members
  | _ => True

def CanonicalItems : List Json → Prop
  | [] => True
  | item :: items => Canonical item ∧ CanonicalItems items

def CanonicalMembers : List (String × Json) → Prop
  | [] => True
  | (_, value) :: members => Canonical value ∧ CanonicalMembers members

end

theorem canonical_ofText (text : Option String) : (Json.ofText text).Canonical := by
  cases text <;> simp [Json.ofText, Canonical]

/-- A larger key is added at the end. -/
theorem setMember_append {members : List (String × Json)} {member : String × Json}
    (larger : ∀ m ∈ members, m.1 < member.1) : setMember members member = members ++ [member] := by
  induction members with
  | nil => rfl
  | cons m members ih =>
      obtain ⟨key, value⟩ := m
      have less : key < member.1 := larger (key, value) List.mem_cons_self
      have different : member.1 ≠ key := by
        intro same
        exact String.lt_irrefl key (same ▸ less)
      rw [setMember, if_neg (String.lt_asymm less), if_neg different,
        ih fun m mem => larger m (List.mem_cons_of_mem _ mem)]
      rfl

theorem ofMembers_of_ordered {members : List (String × Json)}
    (ordered : (members.map Prod.fst).Pairwise (· < ·)) : ofMembers members = .obj members := by
  have fold : ∀ (added rest : List (String × Json)),
      ((added ++ rest).map Prod.fst).Pairwise (· < ·) →
        rest.foldl setMember added = added ++ rest := by
    intro added rest
    induction rest generalizing added with
    | nil => simp
    | cons m rest ih =>
        intro ordered
        have larger : ∀ m' ∈ added, m'.1 < m.1 := by
          intro m' mem
          rw [List.map_append] at ordered
          exact (List.pairwise_append.1 ordered).2.2 _ (List.mem_map_of_mem mem) _
            (by simp)
        rw [List.foldl_cons, setMember_append larger, ih (added ++ [m]) (by simpa using ordered)]
        simp
  simpa [ofMembers] using fold [] members (by simpa using ordered)

/-- A printed value starts with no blank and closes nothing. -/
theorem dump_head (style : Style) (v : Json) (rest : List Char) :
    skipBlanks (dump style v ++ rest) = dump style v ++ rest ∧
      (dump style v ++ rest).head? ≠ some ']' := by
  have shape := shapeOf_dump style v rest
  cases text : dump style v ++ rest with
  | nil => simp [text, shapeOf] at shape
  | cons c cs =>
      rw [text] at shape
      constructor
      · have solid : isBlank c = false := by
          cases blank : isBlank c with
          | false => rfl
          | true =>
              simp only [isBlank, Bool.or_eq_true, decide_eq_true_eq] at blank
              rcases blank with ((rfl | rfl) | rfl) | rfl <;> simp [shapeOf] at shape
        simp [skipBlanks, solid]
      · intro close
        cases close
        simp [shapeOf] at shape

theorem ends_dumpItems (style : Style) (items : List Json) (rest : List Char) :
    Ends (dumpItems style items ++ rest) := by
  cases items <;> simp [Ends, dumpItems]

theorem ends_dumpMembers (style : Style) (members : List (String × Json)) (rest : List Char) :
    Ends (dumpMembers style members ++ rest) := by
  rcases members with _ | ⟨⟨key, value⟩, members⟩ <;> simp [Ends, dumpMembers]

theorem skipBlanks_of_solid {c : Char} {cs : List Char} (solid : isBlank c = false) :
    skipBlanks (c :: cs) = c :: cs := by
  simp [skipBlanks, solid]

theorem quote_length (style : Style) (s : String) :
    s.toList.length < (quote style s).length := by
  have each : ∀ cs : List Char, cs.length ≤ (cs.flatMap (escapeChar style)).length := by
    intro cs
    induction cs with
    | nil => simp
    | cons c cs ih =>
        have one : 1 ≤ (escapeChar style c).length := by
          unfold escapeChar escapeCode
          repeat' split
          all_goals simp
        simp only [List.flatMap_cons, List.length_append, List.length_cons]
        omega
  have := each s.toList
  simp only [quote, List.length_cons, List.length_append]
  omega

section Shapes

variable {fuel : Nat} {cs : List Char}

theorem readValue_number (shape : shapeOf cs = some .number) :
    readValue (fuel + 1) cs = readNumber cs := by
  simp only [readValue, shape]

theorem readValue_string (shape : shapeOf cs = some .string) :
    readValue (fuel + 1) cs =
      (readString fuel cs.tail).map fun p => (.str (String.ofList p.1), p.2) := by
  simp only [readValue, shape]

/-- An array with a first item. -/
theorem readValue_array (shape : shapeOf cs = some .array) (solid : skipBlanks cs.tail = cs.tail)
    (full : cs.tail.head? ≠ some ']') :
    readValue (fuel + 1) cs = do
      let (item, rest) ← readValue fuel cs.tail
      let (items, rest) ← readItems fuel rest
      return (.arr (item :: items), rest) := by
  rw [readValue]
  simp only [shape, solid, if_neg full]

/-- An object with a first member. -/
theorem readValue_object (shape : shapeOf cs = some .object) (solid : skipBlanks cs.tail = cs.tail)
    (full : cs.tail.head? ≠ some '}') :
    readValue (fuel + 1) cs = do
      let (member, rest) ← readMember fuel cs.tail
      let (members, rest) ← readMembers fuel rest
      return (ofMembers (member :: members), rest) := by
  rw [readValue]
  simp only [shape, solid, if_neg full]

end Shapes

mutual

/-- A printed value is read back, together with the text that follows it. -/
theorem readValue_dump (style : Style) (v : Json) (canonical : Canonical v) (fuel : Nat)
    (rest : List Char) (ends : Ends rest) (enough : (dump style v).length ≤ fuel) :
    readValue (fuel + 1) (dump style v ++ rest) = some (v, rest) := by
  have shape := shapeOf_dump style v rest
  match v with
  | .null => simp [readValue, shapeOf, dump, afterWord]
  | .bool true => simp [readValue, shapeOf, dump, afterWord]
  | .bool false => simp [readValue, shapeOf, dump, afterWord]
  | .int n =>
      rw [readValue_number shape, dump]
      exact readNumber_int n ends
  | .float x =>
      rw [readValue_number shape, dump]
      exact readNumber_float (by simpa only [Canonical] using canonical) ends
  | .str s =>
      have length := quote_length style s
      rw [dump] at enough
      have read := readString_quote style s fuel rest (by omega)
      rw [readValue_string shape, dump, show (quote style s ++ rest).tail =
        (quote style s).tail ++ rest from rfl, read, Option.map_some, String.ofList_toList]
  | .arr [] => simp [readValue, shapeOf, dump, skipBlanks, isBlank]
  | .arr (item :: items) =>
      obtain ⟨canonicalItem, canonicalItems⟩ : Canonical item ∧ CanonicalItems items := by
        simpa only [Canonical, CanonicalItems] using canonical
      obtain ⟨solid, full⟩ := dump_head style item (dumpItems style items ++ rest)
      have tail : (dump style (.arr (item :: items)) ++ rest).tail =
          dump style item ++ (dumpItems style items ++ rest) := by
        simp only [dump, List.cons_append, List.tail_cons, List.append_assoc]
      simp only [dump, List.length_cons, List.length_append] at enough
      obtain ⟨fuel, rfl⟩ : ∃ k, fuel = k + 1 := ⟨fuel - 1, by omega⟩
      rw [readValue_array shape (by rw [tail]; exact solid) (by rw [tail]; exact full), tail,
        readValue_dump style item canonicalItem fuel _ (ends_dumpItems style items rest) (by omega)]
      simp only [Option.bind_eq_bind, Option.bind_some]
      rw [readItems_dump style items canonicalItems fuel rest (by omega)]
      rfl
  | .obj [] => simp [readValue, shapeOf, dump, skipBlanks, isBlank]
  | .obj ((key, value) :: members) =>
      obtain ⟨ordered, canonicalValue, canonicalMembers⟩ :
          (((key, value) :: members).map Prod.fst).Pairwise (· < ·) ∧ Canonical value ∧
            CanonicalMembers members := by
        simpa only [Canonical, CanonicalMembers] using canonical
      have tail : (dump style (.obj ((key, value) :: members)) ++ rest).tail =
          quote style key ++ ':' :: (dump style value ++ (dumpMembers style members ++ rest)) := by
        simp only [dump, List.cons_append, List.tail_cons, List.append_assoc]
      simp only [dump, List.length_cons, List.length_append] at enough
      obtain ⟨fuel, rfl⟩ : ∃ k, fuel = k + 1 := ⟨fuel - 1, by omega⟩
      rw [readValue_object shape (by rw [tail]; exact skipBlanks_of_solid rfl)
          (by rw [tail, quote]; simp), tail,
        readMember_dump style key value canonicalValue fuel _ (ends_dumpMembers style members rest)
          (by simp only [List.length_append, List.length_cons]; omega)]
      simp only [Option.bind_eq_bind, Option.bind_some]
      rw [readMembers_dump style members canonicalMembers fuel rest (by omega)]
      simp only [Option.bind_some, Option.pure_def, ofMembers_of_ordered ordered]
termination_by sizeOf v

theorem readItems_dump (style : Style) (items : List Json) (canonical : CanonicalItems items)
    (fuel : Nat) (rest : List Char) (enough : (dumpItems style items).length ≤ fuel) :
    readItems (fuel + 1) (dumpItems style items ++ rest) = some (items, rest) := by
  match items with
  | [] => simp [readItems, dumpItems, skipBlanks, isBlank]
  | item :: items =>
      obtain ⟨canonicalItem, canonicalItems⟩ : Canonical item ∧ CanonicalItems items := by
        simpa only [CanonicalItems] using canonical
      obtain ⟨solid, -⟩ := dump_head style item (dumpItems style items ++ rest)
      simp only [dumpItems, List.length_cons, List.length_append] at enough
      obtain ⟨fuel, rfl⟩ : ∃ k, fuel = k + 1 := ⟨fuel - 1, by omega⟩
      rw [readItems, dumpItems, List.cons_append, List.append_assoc,
        skipBlanks_of_solid (show isBlank ',' = false from rfl)]
      simp only [List.head?_cons, Option.some.injEq, Char.reduceEq, if_false, if_true,
        List.tail_cons, solid]
      rw [readValue_dump style item canonicalItem fuel _ (ends_dumpItems style items rest) (by omega)]
      simp only [Option.bind_eq_bind, Option.bind_some]
      rw [readItems_dump style items canonicalItems fuel rest (by omega)]
      rfl
termination_by sizeOf items

theorem readMember_dump (style : Style) (key : String) (value : Json) (canonical : Canonical value)
    (fuel : Nat) (rest : List Char) (ends : Ends rest)
    (enough : (quote style key ++ ':' :: dump style value).length ≤ fuel) :
    readMember (fuel + 1) (quote style key ++ ':' :: (dump style value ++ rest)) =
      some ((key, value), rest) := by
  have length := quote_length style key
  obtain ⟨solid, -⟩ := dump_head style value rest
  simp only [List.length_append, List.length_cons] at enough
  obtain ⟨fuel, rfl⟩ : ∃ k, fuel = k + 1 := ⟨fuel - 1, by omega⟩
  have read := readString_quote style key (fuel + 1) (':' :: (dump style value ++ rest)) (by omega)
  have head : (quote style key ++ ':' :: (dump style value ++ rest)).head? = some '"' := rfl
  have tail : (quote style key ++ ':' :: (dump style value ++ rest)).tail =
      (quote style key).tail ++ ':' :: (dump style value ++ rest) := rfl
  rw [readMember, if_pos head, tail, read]
  simp only [Option.bind_eq_bind, Option.bind_some,
    skipBlanks_of_solid (show isBlank ':' = false from rfl), List.head?_cons, if_true,
    List.tail_cons, solid]
  rw [readValue_dump style value canonical fuel rest ends (by omega)]
  simp only [Option.bind_some, Option.pure_def, String.ofList_toList]
termination_by sizeOf (key, value)

theorem readMembers_dump (style : Style) (members : List (String × Json))
    (canonical : CanonicalMembers members) (fuel : Nat) (rest : List Char)
    (enough : (dumpMembers style members).length ≤ fuel) :
    readMembers (fuel + 1) (dumpMembers style members ++ rest) = some (members, rest) := by
  match members with
  | [] => simp [readMembers, dumpMembers, skipBlanks, isBlank]
  | (key, value) :: members =>
      obtain ⟨canonicalValue, canonicalMembers⟩ : Canonical value ∧ CanonicalMembers members := by
        simpa only [CanonicalMembers] using canonical
      simp only [dumpMembers, List.length_cons, List.length_append] at enough
      obtain ⟨fuel, rfl⟩ : ∃ k, fuel = k + 1 := ⟨fuel - 1, by omega⟩
      rw [readMembers, dumpMembers, List.cons_append, List.append_assoc, List.cons_append,
        List.append_assoc, skipBlanks_of_solid (show isBlank ',' = false from rfl)]
      have solid : skipBlanks (quote style key ++ ':' :: (dump style value ++
          (dumpMembers style members ++ rest))) = quote style key ++ ':' :: (dump style value ++
          (dumpMembers style members ++ rest)) := skipBlanks_of_solid rfl
      simp only [List.head?_cons, Option.some.injEq, Char.reduceEq, if_false, if_true,
        List.tail_cons, solid]
      rw [readMember_dump style key value canonicalValue fuel _
        (ends_dumpMembers style members rest)
        (by simp only [List.length_append, List.length_cons]; omega)]
      simp only [Option.bind_eq_bind, Option.bind_some]
      rw [readMembers_dump style members canonicalMembers fuel rest (by omega)]
      rfl
termination_by sizeOf members

end

/-- Reading takes back what was printed. -/
theorem loads_dumps (style : Style) {v : Json} (canonical : Canonical v) :
    loads (dumps style v) = some v := by
  have nothing : Ends [] := by simp [Ends]
  have read := readValue_dump style v canonical (dump style v).length [] nothing (Nat.le_refl _)
  obtain ⟨solid, -⟩ := dump_head style v []
  rw [List.append_nil] at read solid
  simp only [loads, dumps, String.toList_ofList]
  rw [solid, read]
  simp [skipBlanks]

/-! ## What is read is canonical -/

theorem canonicalMembers_iff {members : List (String × Json)} :
    CanonicalMembers members ↔ ∀ m ∈ members, Canonical m.2 := by
  induction members with
  | nil => simp [CanonicalMembers]
  | cons m members ih =>
      obtain ⟨key, value⟩ := m
      simp [CanonicalMembers, ih]

theorem canonicalItems_iff {items : List Json} :
    CanonicalItems items ↔ ∀ item ∈ items, Canonical item := by
  induction items with
  | nil => simp [CanonicalItems]
  | cons item items ih => simp [CanonicalItems, ih]

/-- A member of a canonical document is canonical. -/
theorem canonical_get? {v value : Json} {key : String} (canonical : v.Canonical)
    (found : v.get? key = some value) : value.Canonical := by
  cases v with
  | obj members =>
      have all := canonicalMembers_iff.1 (by simpa only [Canonical] using canonical.2)
      replace found : members.lookup key = some value := found
      clear canonical
      induction members with
      | nil => cases found
      | cons m members ih =>
          rw [List.lookup_cons] at found
          split at found
          · cases found
            exact all _ List.mem_cons_self
          · exact ih (fun m mem => all m (List.mem_cons_of_mem _ mem)) found
  | _ => cases found

theorem mem_setMember {members : List (String × Json)} {m m' : String × Json}
    (mem : m' ∈ setMember members m) : m' = m ∨ m' ∈ members := by
  induction members with
  | nil => exact .inl (by simpa [setMember] using mem)
  | cons first members ih =>
      obtain ⟨key, value⟩ := first
      simp only [setMember] at mem
      split at mem
      · rcases List.mem_cons.1 mem with same | mem
        · exact .inl same
        · exact .inr mem
      split at mem
      · rcases List.mem_cons.1 mem with same | mem
        · exact .inl same
        · exact .inr (List.mem_cons_of_mem _ mem)
      · rcases List.mem_cons.1 mem with same | mem
        · exact .inr (same ▸ List.mem_cons_self)
        · exact (ih mem).imp_right (List.mem_cons_of_mem _)

theorem setMember_ordered {members : List (String × Json)} (m : String × Json)
    (ordered : (members.map Prod.fst).Pairwise (· < ·)) :
    ((setMember members m).map Prod.fst).Pairwise (· < ·) := by
  induction members with
  | nil => simp [setMember]
  | cons first members ih =>
      obtain ⟨key, value⟩ := first
      simp only [List.map_cons, List.pairwise_cons, List.mem_map, forall_exists_index, and_imp,
        forall_apply_eq_imp_iff₂] at ordered
      obtain ⟨larger, ordered⟩ := ordered
      simp only [setMember]
      split
      · rename_i less
        simp only [List.map_cons, List.pairwise_cons, List.mem_cons, List.mem_map,
          forall_eq_or_imp, forall_exists_index, and_imp, forall_apply_eq_imp_iff₂]
        exact ⟨⟨less, fun a mem => String.lt_trans less (larger a mem)⟩, larger, ordered⟩
      split
      · rename_i same
        simp only [List.map_cons, List.pairwise_cons, List.mem_map, forall_exists_index, and_imp,
          forall_apply_eq_imp_iff₂, same]
        exact ⟨larger, ordered⟩
      · rename_i notLess notSame
        have less : key < m.1 :=
          (lt_trichotomy m.1 key).resolve_left notLess |>.resolve_left notSame
        simp only [List.map_cons, List.pairwise_cons, List.mem_map, forall_exists_index, and_imp,
          forall_apply_eq_imp_iff₂]
        refine ⟨fun a mem => ?_, ih ordered⟩
        rcases mem_setMember mem with rfl | mem
        · exact less
        · exact larger a mem

theorem ofMembers_canonical {members : List (String × Json)}
    (values : ∀ m ∈ members, Canonical m.2) : Canonical (ofMembers members) := by
  suffices ∀ made : List (String × Json), (made.map Prod.fst).Pairwise (· < ·) →
      (∀ m ∈ made, Canonical m.2) →
      ((members.foldl setMember made).map Prod.fst).Pairwise (· < ·) ∧
        ∀ m ∈ members.foldl setMember made, Canonical m.2 by
    have result := this [] List.Pairwise.nil (by simp)
    simpa only [ofMembers, Canonical, canonicalMembers_iff] using result
  induction members with
  | nil => exact fun made ordered canonical => ⟨ordered, canonical⟩
  | cons m members ih =>
      intro made ordered canonical
      refine ih (fun m mem => values m (List.mem_cons_of_mem _ mem)) _
        (setMember_ordered m ordered) ?_
      intro m' mem
      rcases mem_setMember mem with rfl | mem
      · exact values _ List.mem_cons_self
      · exact canonical _ mem

theorem readUnsigned_canonical {negative : Bool} {cs rest : List Char} {v : Json}
    (read : readUnsigned negative cs = some (v, rest)) : Canonical v := by
  simp only [readUnsigned, Option.bind_eq_bind, Option.bind_eq_some_iff] at read
  obtain ⟨whole, -, read⟩ := read
  split at read
  · cases read
    trivial
  · simp only [Option.bind_eq_some_iff] at read
    obtain ⟨spelled, -, x, nearest, read⟩ := read
    cases read
    simpa only [Canonical] using Decimal.nearest_nearest nearest

theorem readNumber_canonical {cs rest : List Char} {v : Json}
    (read : readNumber cs = some (v, rest)) : Canonical v := by
  unfold readNumber at read
  split at read
  · exact readUnsigned_canonical read
  · exact readUnsigned_canonical read

/-- The induction is on the fuel, over the four readers at once. -/
theorem read_canonical (fuel : Nat) :
    (∀ cs v rest, readValue fuel cs = some (v, rest) → Canonical v) ∧
      (∀ cs vs rest, readItems fuel cs = some (vs, rest) → ∀ v ∈ vs, Canonical v) ∧
      (∀ cs m rest, readMember fuel cs = some (m, rest) → Canonical m.2) ∧
      ∀ cs ms rest, readMembers fuel cs = some (ms, rest) → ∀ m ∈ ms, Canonical m.2 := by
  induction fuel with
  | zero => simp [readValue, readItems, readMember, readMembers]
  | succ fuel ih =>
      obtain ⟨values, items, member, members⟩ := ih
      refine ⟨?_, ?_, ?_, ?_⟩
      · intro cs v rest read
        rw [readValue] at read
        split at read
        · cases read
        · simp only [Option.map_eq_some_iff] at read
          obtain ⟨_, _, eq⟩ := read
          cases eq
          trivial
        · simp only [Option.map_eq_some_iff] at read
          obtain ⟨_, _, eq⟩ := read
          cases eq
          trivial
        · simp only [Option.map_eq_some_iff] at read
          obtain ⟨_, _, eq⟩ := read
          cases eq
          trivial
        · exact readNumber_canonical read
        · simp only [Option.map_eq_some_iff] at read
          obtain ⟨_, _, eq⟩ := read
          cases eq
          trivial
        · dsimp only at read
          split at read
          · cases read
            trivial
          · simp only [Option.bind_eq_bind, Option.bind_eq_some_iff] at read
            obtain ⟨⟨item, rest₁⟩, first, ⟨others, rest₂⟩, later, eq⟩ := read
            cases eq
            simp only [Canonical, canonicalItems_iff, List.mem_cons, forall_eq_or_imp]
            exact ⟨values _ _ _ first, items _ _ _ later⟩
        · dsimp only at read
          split at read
          · cases read
            simp [Canonical, CanonicalMembers]
          · simp only [Option.bind_eq_bind, Option.bind_eq_some_iff] at read
            obtain ⟨⟨m, rest₁⟩, first, ⟨others, rest₂⟩, later, eq⟩ := read
            cases eq
            refine ofMembers_canonical ?_
            simp only [List.mem_cons, forall_eq_or_imp]
            exact ⟨member _ _ _ first, members _ _ _ later⟩
      · intro cs vs rest read
        rw [readItems] at read
        dsimp only at read
        split at read
        · cases read
          simp
        split at read
        · simp only [Option.bind_eq_bind, Option.bind_eq_some_iff] at read
          obtain ⟨⟨item, rest₁⟩, first, ⟨others, rest₂⟩, later, eq⟩ := read
          cases eq
          simp only [List.mem_cons, forall_eq_or_imp]
          exact ⟨values _ _ _ first, items _ _ _ later⟩
        · cases read
      · intro cs m rest read
        rw [readMember] at read
        split at read
        · simp only [Option.bind_eq_bind, Option.bind_eq_some_iff] at read
          obtain ⟨⟨key, rest₁⟩, -, read⟩ := read
          dsimp only at read
          split at read
          · simp only [Option.bind_eq_some_iff] at read
            obtain ⟨⟨value, rest₂⟩, first, eq⟩ := read
            cases eq
            exact values _ _ _ first
          · cases read
        · cases read
      · intro cs ms rest read
        rw [readMembers] at read
        dsimp only at read
        split at read
        · cases read
          simp
        split at read
        · simp only [Option.bind_eq_bind, Option.bind_eq_some_iff] at read
          obtain ⟨⟨m, rest₁⟩, first, ⟨others, rest₂⟩, later, eq⟩ := read
          cases eq
          simp only [List.mem_cons, forall_eq_or_imp]
          exact ⟨member _ _ _ first, members _ _ _ later⟩
        · cases read

/-- A document that was read is canonical. -/
theorem loads_canonical {text : String} {v : Json} (read : loads text = some v) : Canonical v := by
  simp only [loads, Option.bind_eq_bind, Option.bind_eq_some_iff] at read
  obtain ⟨⟨value, rest⟩, first, read⟩ := read
  dsimp only at read
  split at read
  · cases read
    exact (read_canonical _).1 _ _ _ first
  · cases read

end Json

end Enfold.Theory
