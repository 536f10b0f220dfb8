/-
# Theory.JsonScan -- reading JSON text from a peer

`JsonRead` reads documents that the modelled code has written itself.  Text from a peer is
read here as the runtime reads it, with everything that can happen on the way: texts may hold
unpaired halves of a surrogate pair, a numeral may lie beyond the largest float, objects list
their members as they stand, and a failure is told by its kind (`ScanError`).  The two hooks of
the strict decoder are built in: a constant that is no number and a repeated key are refused.

`scan_dump` says that scanning takes back what `Json.dump` printed.  The tokens are those of
`JsonRead` (`scanString_of_read`, `scanNumber_int`, `scanNumber_float`), so the proof only
follows the containers.
-/
import Enfold.Theory.Checked
import Enfold.Theory.JsonRead

namespace Enfold.Theory

set_option autoImplicit false

/-! ## Texts of the runtime -/

/-- A code point: a character, or an unpaired half of a surrogate pair. -/
inductive CodePoint where
  | char (c : Char)
  | half (n : Fin 2048)
  deriving DecidableEq

/-- A text of the runtime, which may hold unpaired surrogates. -/
abbrev PyText := List CodePoint

namespace PyText

def ofString (s : String) : PyText := s.toList.map .char

/-- `text.encode("utf-8")` succeeds exactly on texts without surrogates. -/
def characters : PyText → Option (List Char)
  | [] => some []
  | .char c :: rest => (characters rest).map (c :: ·)
  | .half _ :: _ => none

def toString? (text : PyText) : Option String := text.characters.map String.ofList

theorem characters_eq_some {text : PyText} {cs : List Char} :
    text.characters = some cs ↔ text = cs.map .char := by
  induction text generalizing cs with
  | nil => cases cs <;> simp [characters]
  | cons c text ih =>
      cases c with
      | half n => cases cs <;> simp [characters]
      | char c =>
          cases cs with
          | nil => simp [characters]
          | cons d cs => simp [characters, ih, and_comm]

theorem toString?_eq_some {text : PyText} {s : String} :
    text.toString? = some s ↔ text = ofString s := by
  simp only [toString?, Option.map_eq_some_iff, characters_eq_some, ofString]
  constructor
  · rintro ⟨cs, rfl, rfl⟩
    rw [String.toList_ofList]
  · rintro rfl
    exact ⟨s.toList, rfl, String.ofList_toList⟩

@[simp] theorem toString?_ofString (s : String) : (ofString s).toString? = some s :=
  toString?_eq_some.2 rfl

theorem ofString_injective {s t : String} (same : ofString s = ofString t) : s = t := by
  have read := toString?_ofString s
  rw [same, toString?_ofString] at read
  exact (Option.some.inj read).symm

end PyText

/-! ## Values -/

/-- A finite float, by the numeral that prints it. -/
abbrev Float64 := {x : Decimal // x.nearest = some x}

/-- A decoded value.  A float that is not finite has no numeral. -/
inductive PyValue where
  | null
  | bool (b : Bool)
  | int (n : Int)
  | float (x : Option Float64)
  | str (text : PyText)
  | arr (items : List PyValue)
  | obj (members : List (PyText × PyValue))

namespace PyValue

/-- `dict.get(key)`. -/
def get? (key : String) : PyValue → Option PyValue
  | .obj members => members.lookup (PyText.ofString key)
  | _ => none

mutual

/-- The levels of items and members below a value. -/
def height : PyValue → Nat
  | .arr items => heightItems items
  | .obj members => heightMembers members
  | _ => 0

def heightItems : List PyValue → Nat
  | [] => 0
  | item :: items => max (height item + 1) (heightItems items)

def heightMembers : List (PyText × PyValue) → Nat
  | [] => 0
  | (_, value) :: members => max (height value + 1) (heightMembers members)

end

mutual

/-- No object repeats a key. -/
def Distinct : PyValue → Prop
  | .arr items => DistinctItems items
  | .obj members => (members.map Prod.fst).Nodup ∧ DistinctMembers members
  | _ => True

def DistinctItems : List PyValue → Prop
  | [] => True
  | item :: items => Distinct item ∧ DistinctItems items

def DistinctMembers : List (PyText × PyValue) → Prop
  | [] => True
  | (_, value) :: members => Distinct value ∧ DistinctMembers members

end

mutual

/-- The document that is printed for a value: `none` when a text cannot be encoded, a float is
not finite, or an integer has too many digits. -/
def toJson? : PyValue → Option Json
  | .null => some .null
  | .bool b => some (.bool b)
  | .int n => if (Nat.toDigits 10 n.natAbs).length ≤ maxIntDigits then some (.int n) else none
  | .float x => x.map fun x => .float x.1
  | .str text => text.toString?.map .str
  | .arr items => (toItems? items).map .arr
  | .obj members => (toMembers? members).map .obj

def toItems? : List PyValue → Option (List Json)
  | [] => some []
  | item :: items => do return (← toJson? item) :: (← toItems? items)

def toMembers? : List (PyText × PyValue) → Option (List (String × Json))
  | [] => some []
  | (key, value) :: members => do
      return (← key.toString?, ← toJson? value) :: (← toMembers? members)

end

end PyValue

/-! ## Scanning -/

/-- Why a text is not read. -/
inductive ScanError where
  /-- `JSONDecodeError`. -/
  | malformed
  /-- `RecursionError`. -/
  | nesting
  /-- The hook refuses `NaN` and the infinities. -/
  | constant
  /-- The hook refuses a repeated key. -/
  | duplicateKey
  /-- `ValueError` of an integer with too many digits. -/
  | longInteger
  deriving DecidableEq

namespace Json

/-- The code point of an escape; an unpaired half stands for itself. -/
def scanEscape : List Char → Option (CodePoint × List Char)
  | [] => none
  | c :: rest =>
      if c = 'u' then do
        let (code, rest) ← readHex rest
        if half : 55296 ≤ code ∧ code < 57344 then
          match if code < 56320 then readLowHalf code rest else none with
          | some (pair, rest) => return (.char pair, rest)
          | none => return (.half ⟨code - 55296, by omega⟩, rest)
        else return (.char (Char.ofNat code), rest)
      else (simpleEscape? c).map fun e => (.char e, rest)

/-- The text up to the closing quote, and what follows it. -/
def scanString : Nat → List Char → Option (PyText × List Char)
  | 0, _ => none
  | _ + 1, [] => none
  | fuel + 1, c :: rest =>
      if c = '"' then some ([], rest)
      else if c = '\\' then do
        let (e, rest) ← scanEscape rest
        let (text, rest) ← scanString fuel rest
        return (e :: text, rest)
      else if c.toNat < 32 then none
      else do
        let (text, rest) ← scanString fuel rest
        return (.char c :: text, rest)

/-- The float of a numeral, which is not finite when the numeral is too large. -/
def floatOfNumeral (n : Decimal.Numeral) : Option Float64 :=
  match read : (Decimal.ofNumeral n).bind Decimal.nearest with
  | some x => some ⟨x, by
      obtain ⟨spelled, -, nearest⟩ := Option.bind_eq_some_iff.1 read
      exact Decimal.nearest_nearest nearest⟩
  | none => none

/-- A number without its sign. -/
def scanUnsigned (negative : Bool) (cs : List Char) : Except ScanError (PyValue × List Char) :=
  match readWhole cs with
  | none => .error .malformed
  | some (whole, rest) =>
      let (fraction, rest) := readFraction rest
      let (exponent, rest) := readExponentPart rest
      if fraction = [] ∧ exponent = none then
        if whole.length ≤ maxIntDigits then
          let magnitude : Int := (Nat.ofDigitChars 10 whole 0 : Nat)
          .ok (.int (if negative then -magnitude else magnitude), rest)
        else .error .longInteger
      else .ok (.float (floatOfNumeral ⟨negative, whole, fraction, exponent⟩), rest)

def scanNumber : List Char → Except ScanError (PyValue × List Char)
  | '-' :: rest => scanUnsigned true rest
  | cs => scanUnsigned false cs

/-- The constants that are no JSON. -/
def constantAt (cs : List Char) : Bool :=
  ["NaN", "Infinity", "-Infinity"].any fun word => word.toList.isPrefixOf cs

/-- A token that is read or malformed. -/
def token {α : Type} : Option α → Except ScanError α
  | some a => .ok a
  | none => .error .malformed

/-- The room inside one more container. -/
def opened : Nat → Except ScanError Nat
  | 0 => .error .nesting
  | room + 1 => .ok room

/-- The object of the members of a text; a repeated key is refused. -/
def uniqueObject (members : List (PyText × PyValue)) : Except ScanError PyValue :=
  if (members.map Prod.fst).Nodup then .ok (.obj members) else .error .duplicateKey

mutual

/-- One value at the start of the text, and the text after it; `room` is the number of
containers that may still be opened.  Every call takes a character off the text, which is what
the fuel counts. -/
def scanValue : Nat → Nat → List Char → Except ScanError (PyValue × List Char)
  | 0, _, _ => .error .malformed
  | fuel + 1, room, cs =>
      if constantAt cs then .error .constant
      else
        match shapeOf cs with
        | none => .error .malformed
        | some .null => (token (afterWord ['n', 'u', 'l', 'l'] cs)).map fun rest => (.null, rest)
        | some .yes =>
            (token (afterWord ['t', 'r', 'u', 'e'] cs)).map fun rest => (.bool true, rest)
        | some .no =>
            (token (afterWord ['f', 'a', 'l', 's', 'e'] cs)).map fun rest => (.bool false, rest)
        | some .number => scanNumber cs
        | some .string => (token (scanString fuel cs.tail)).map fun p => (.str p.1, p.2)
        | some .array => do
            let room ← opened room
            let rest := skipBlanks cs.tail
            if rest.head? = some ']' then return (.arr [], rest.tail)
            else do
              let (item, rest) ← scanValue fuel room rest
              let (items, rest) ← scanItems fuel room rest
              return (.arr (item :: items), rest)
        | some .object => do
            let room ← opened room
            let rest := skipBlanks cs.tail
            if rest.head? = some '}' then return (.obj [], rest.tail)
            else do
              let (member, rest) ← scanMember fuel room rest
              let (members, rest) ← scanMembers fuel room rest
              return (← uniqueObject (member :: members), rest)

/-- The items after the first, up to the closing bracket. -/
def scanItems : Nat → Nat → List Char → Except ScanError (List PyValue × List Char)
  | 0, _, _ => .error .malformed
  | fuel + 1, room, cs =>
      let rest := skipBlanks cs
      if rest.head? = some ']' then .ok ([], rest.tail)
      else if rest.head? = some ',' then do
        let (item, rest) ← scanValue fuel room (skipBlanks rest.tail)
        let (items, rest) ← scanItems fuel room rest
        return (item :: items, rest)
      else .error .malformed

/-- A key and its value. -/
def scanMember : Nat → Nat → List Char → Except ScanError ((PyText × PyValue) × List Char)
  | 0, _, _ => .error .malformed
  | fuel + 1, room, cs =>
      if cs.head? = some '"' then do
        let (key, rest) ← token (scanString fuel cs.tail)
        let rest := skipBlanks rest
        if rest.head? = some ':' then do
          let (value, rest) ← scanValue fuel room (skipBlanks rest.tail)
          return ((key, value), rest)
        else .error .malformed
      else .error .malformed

/-- The members after the first, up to the closing brace. -/
def scanMembers : Nat → Nat → List Char → Except ScanError (List (PyText × PyValue) × List Char)
  | 0, _, _ => .error .malformed
  | fuel + 1, room, cs =>
      let rest := skipBlanks cs
      if rest.head? = some '}' then .ok ([], rest.tail)
      else if rest.head? = some ',' then do
        let (member, rest) ← scanMember fuel room (skipBlanks rest.tail)
        let (members, rest) ← scanMembers fuel room rest
        return (member :: members, rest)
      else .error .malformed

end

/-- `json.loads` with the strict hooks: one value with blanks around it. -/
def scan (room : Nat) (text : List Char) : Except ScanError PyValue := do
  let (value, rest) ← scanValue (text.length + 1) room (skipBlanks text)
  if skipBlanks rest = [] then return value else .error .malformed

/-! ## Tokens -/

theorem scanEscape_of_read {cs rest : List Char} {c : Char}
    (read : readEscape cs = some (c, rest)) : scanEscape cs = some (.char c, rest) := by
  cases cs with
  | nil => cases read
  | cons d cs =>
      rw [readEscape] at read
      rw [scanEscape]
      by_cases unicode : d = 'u'
      · rw [if_pos unicode] at read ⊢
        obtain ⟨⟨code, after⟩, hex, read⟩ := Option.bind_eq_some_iff.1 read
        rw [hex]
        simp only [Option.bind_eq_bind, Option.bind_some]
        dsimp only at read
        by_cases high : 55296 ≤ code ∧ code < 56320
        · rw [if_pos high] at read
          rw [dif_pos (by omega), if_pos high.2, read]
          rfl
        · rw [if_neg high] at read
          by_cases low : 56320 ≤ code ∧ code < 57344
          · rw [if_pos low] at read
            cases read
          · rw [if_neg low] at read
            rw [dif_neg (by omega)]
            cases read
            rfl
      · rw [if_neg unicode] at read ⊢
        obtain ⟨e, simple, same⟩ := Option.map_eq_some_iff.1 read
        cases same
        rw [simple]
        rfl

/-- A string of characters is scanned as it is read. -/
theorem scanString_of_read {fuel : Nat} {cs rest text : List Char}
    (read : readString fuel cs = some (text, rest)) :
    scanString fuel cs = some (text.map .char, rest) := by
  induction fuel generalizing cs text rest with
  | zero => cases read
  | succ fuel ih =>
      cases cs with
      | nil => cases read
      | cons c cs =>
          rw [readString] at read
          rw [scanString]
          by_cases close : c = '"'
          · rw [if_pos close] at read ⊢
            cases read
            rfl
          rw [if_neg close] at read ⊢
          by_cases escape : c = '\\'
          · rw [if_pos escape] at read ⊢
            obtain ⟨⟨e, after⟩, escaped, read⟩ := Option.bind_eq_some_iff.1 read
            obtain ⟨⟨more, last⟩, tail, read⟩ := Option.bind_eq_some_iff.1 read
            cases read
            rw [scanEscape_of_read escaped]
            simp only [Option.bind_eq_bind, Option.bind_some, ih tail]
            rfl
          rw [if_neg escape] at read ⊢
          by_cases control : c.toNat < 32
          · rw [if_pos control] at read
            cases read
          · rw [if_neg control] at read ⊢
            obtain ⟨⟨more, last⟩, tail, read⟩ := Option.bind_eq_some_iff.1 read
            cases read
            simp only [Option.bind_eq_bind, ih tail, Option.bind_some]
            rfl

theorem floatOfNumeral_of_nearest {n : Decimal.Numeral} {x : Decimal}
    (printed : x.nearest = some x) (read : (Decimal.ofNumeral n).bind Decimal.nearest = some x) :
    floatOfNumeral n = some ⟨x, printed⟩ := by
  unfold floatOfNumeral
  split
  · rename_i y found
    simp only [read, Option.some.injEq] at found
    subst found
    rfl
  · rename_i missing
    rw [read] at missing
    cases missing

/-- A float is scanned as it is read. -/
theorem scanUnsigned_of_float {negative : Bool} {cs rest : List Char} {x : Decimal}
    (printed : x.nearest = some x)
    (read : readUnsigned negative cs = some (.float x, rest)) :
    scanUnsigned negative cs = .ok (.float (some ⟨x, printed⟩), rest) := by
  unfold readUnsigned at read
  obtain ⟨⟨whole, after⟩, found, read⟩ := Option.bind_eq_some_iff.1 read
  unfold scanUnsigned
  rw [found]
  dsimp only at read ⊢
  split at read
  · cases read
  · rename_i marked
    rw [if_neg marked]
    obtain ⟨spelled, numeral, read⟩ := Option.bind_eq_some_iff.1 read
    obtain ⟨y, nearest, read⟩ := Option.bind_eq_some_iff.1 read
    cases read
    rw [floatOfNumeral_of_nearest printed (by rw [numeral, Option.bind_some, nearest])]

/-- An integer with few digits is scanned as it is read. -/
theorem scanUnsigned_of_int {negative : Bool} {cs rest whole after : List Char} {n : Int}
    (found : readWhole cs = some (whole, after)) (few : whole.length ≤ maxIntDigits)
    (read : readUnsigned negative cs = some (.int n, rest)) :
    scanUnsigned negative cs = .ok (.int n, rest) := by
  unfold readUnsigned at read
  unfold scanUnsigned
  rw [found] at read ⊢
  simp only [Option.bind_eq_bind, Option.bind_some] at read
  dsimp only
  split at read
  · rename_i plain
    rw [if_pos plain, if_pos few]
    cases read
    rfl
  · obtain ⟨spelled, numeral, read⟩ := Option.bind_eq_some_iff.1 read
    obtain ⟨y, nearest, read⟩ := Option.bind_eq_some_iff.1 read
    cases read

theorem unsigned_of_digit {c : Char} {cs : List Char} (digit : c.isDigit = true) :
    readNumber (c :: cs) = readUnsigned false (c :: cs) ∧
      scanNumber (c :: cs) = scanUnsigned false (c :: cs) := by
  have notMinus : c ≠ '-' := by
    rintro rfl
    cases digit
  constructor
  · unfold readNumber
    split
    · rename_i eq
      exact absurd (List.cons.inj eq).1 notMinus
    · rfl
  · unfold scanNumber
    split
    · rename_i eq
      exact absurd (List.cons.inj eq).1 notMinus
    · rfl

theorem scanNumber_int {n : Int} {rest : List Char} (ends : Ends rest)
    (few : (Nat.toDigits 10 n.natAbs).length ≤ maxIntDigits) :
    scanNumber (intText n ++ rest) = .ok (.int n, rest) := by
  have read := readNumber_int n ends
  have whole := readWhole_append (toDigits_wholePart n.natAbs) ends.noDigit
  unfold intText at read ⊢
  split at read
  · rename_i negative
    rw [if_pos negative]
    exact scanUnsigned_of_int whole few read
  · rename_i positive
    rw [if_neg positive]
    obtain ⟨c, cs, shape, digit⟩ := toDigits_head n.natAbs
    rw [shape, List.cons_append] at read whole ⊢
    rw [(unsigned_of_digit digit).1] at read
    rw [(unsigned_of_digit digit).2]
    exact scanUnsigned_of_int whole (shape ▸ few) read

/-- The text of a float is a sign, if any, and a digit. -/
theorem float_text_head (x : Decimal) :
    ∃ c cs, c.isDigit = true ∧ (x.text = c :: cs ∨ x.text = '-' :: c :: cs) := by
  obtain ⟨nonempty, whole, -⟩ := x.numeral_digits
  obtain ⟨c, cs, shape⟩ := List.exists_cons_of_ne_nil nonempty
  have digit := whole c (by simp [shape])
  unfold Decimal.text Decimal.Numeral.text
  split
  · exact ⟨c, _, digit, .inr (by rw [shape]; rfl)⟩
  · exact ⟨c, _, digit, .inl (by rw [shape]; rfl)⟩

theorem scanNumber_float {x : Decimal} (printed : x.nearest = some x) {rest : List Char}
    (ends : Ends rest) :
    scanNumber (x.text ++ rest) = .ok (.float (some ⟨x, printed⟩), rest) := by
  have read := readNumber_float printed ends
  obtain ⟨c, cs, digit, shape | shape⟩ := float_text_head x
  · rw [shape, List.cons_append] at read ⊢
    rw [(unsigned_of_digit digit).1] at read
    rw [(unsigned_of_digit digit).2]
    exact scanUnsigned_of_float printed read
  · rw [shape, List.cons_append] at read ⊢
    exact scanUnsigned_of_float printed read

/-! ## Scanning what was printed -/

/-- A text that starts like a printed value is no constant. -/
theorem constantAt_of_head {c : Char} {cs : List Char} (notNan : c ≠ 'N') (notInfinity : c ≠ 'I')
    (signed : c = '-' → ∃ d ds, cs = d :: ds ∧ d.isDigit = true) : constantAt (c :: cs) = false := by
  have minus : ['-', 'I', 'n', 'f', 'i', 'n', 'i', 't', 'y'].isPrefixOf (c :: cs) = false := by
    by_cases sign : c = '-'
    · obtain ⟨d, ds, rfl, digit⟩ := signed sign
      have notLetter : 'I' ≠ d := by
        rintro rfl
        cases digit
      simp [List.isPrefixOf, notLetter]
    · simp [List.isPrefixOf, Ne.symm sign]
  have words : constantAt (c :: cs) = (['N', 'a', 'N'].isPrefixOf (c :: cs) ||
      (['I', 'n', 'f', 'i', 'n', 'i', 't', 'y'].isPrefixOf (c :: cs) ||
        (['-', 'I', 'n', 'f', 'i', 'n', 'i', 't', 'y'].isPrefixOf (c :: cs) || false))) := rfl
  rw [words, minus]
  simp [List.isPrefixOf, Ne.symm notNan, Ne.symm notInfinity]

theorem constantAt_dump (v : Json) (rest : List Char) :
    constantAt (dump .unicode v ++ rest) = false := by
  have letter : ∀ {c : Char} (cs : List Char), c ≠ 'N' ∧ c ≠ 'I' ∧ c ≠ '-' →
      constantAt (c :: cs) = false :=
    fun cs differs => constantAt_of_head differs.1 differs.2.1 fun minus => absurd minus differs.2.2
  have digitHead : ∀ {c : Char} (cs : List Char), c.isDigit = true → constantAt (c :: cs) = false := by
    intro c cs digit
    refine constantAt_of_head ?_ ?_ ?_
    all_goals rintro rfl
    all_goals cases digit
  have signHead : ∀ {c : Char} (cs : List Char), c.isDigit = true →
      constantAt ('-' :: c :: cs) = false :=
    fun cs digit => constantAt_of_head (by decide) (by decide) fun _ => ⟨_, cs, rfl, digit⟩
  match v with
  | .null => exact letter _ (by decide)
  | .bool true => exact letter _ (by decide)
  | .bool false => exact letter _ (by decide)
  | .int n =>
      obtain ⟨c, cs, shape, digit⟩ := toDigits_head n.natAbs
      simp only [dump, intText, shape]
      split
      · exact signHead _ digit
      · exact digitHead _ digit
  | .float x =>
      obtain ⟨c, cs, digit, shape | shape⟩ := float_text_head x
      · simp only [dump, shape]
        exact digitHead _ digit
      · simp only [dump, shape]
        exact signHead _ digit
  | .str s => exact letter _ (by decide)
  | .arr [] => exact letter _ (by decide)
  | .arr (item :: items) =>
      rw [dump]
      exact letter _ (by decide)
  | .obj [] => exact letter _ (by decide)
  | .obj ((key, value) :: members) =>
      rw [dump]
      exact letter _ (by decide)

theorem scanString_quote (s : String) (fuel : Nat) (rest : List Char)
    (enough : s.toList.length < fuel) :
    scanString fuel ((quote .unicode s).tail ++ rest) = some (PyText.ofString s, rest) :=
  scanString_of_read (readString_quote .unicode s fuel rest enough)

section Shapes

variable {fuel room : Nat} {cs : List Char} (plain : constantAt cs = false)

include plain

theorem scanValue_number (shape : shapeOf cs = some .number) :
    scanValue (fuel + 1) room cs = scanNumber cs := by
  rw [scanValue, if_neg (by simp [plain]), shape]

theorem scanValue_string (shape : shapeOf cs = some .string) :
    scanValue (fuel + 1) room cs =
      (token (scanString fuel cs.tail)).map fun p => (.str p.1, p.2) := by
  rw [scanValue, if_neg (by simp [plain]), shape]

/-- An array with a first item. -/
theorem scanValue_array (shape : shapeOf cs = some .array) (solid : skipBlanks cs.tail = cs.tail)
    (full : cs.tail.head? ≠ some ']') :
    scanValue (fuel + 1) (room + 1) cs = do
      let (item, rest) ← scanValue fuel room cs.tail
      let (items, rest) ← scanItems fuel room rest
      return (.arr (item :: items), rest) := by
  rw [scanValue, if_neg (by simp [plain]), shape]
  dsimp only
  rw [opened, ok_bind, solid, if_neg full]

/-- An object with a first member. -/
theorem scanValue_object (shape : shapeOf cs = some .object) (solid : skipBlanks cs.tail = cs.tail)
    (full : cs.tail.head? ≠ some '}') :
    scanValue (fuel + 1) (room + 1) cs = do
      let (member, rest) ← scanMember fuel room cs.tail
      let (members, rest) ← scanMembers fuel room rest
      return (← uniqueObject (member :: members), rest) := by
  rw [scanValue, if_neg (by simp [plain]), shape]
  dsimp only
  rw [opened, ok_bind, solid, if_neg full]

end Shapes

theorem scanValue_scalar {fuel room : Nat} {rest : List Char} {v : Json} {w : PyValue}
    (simple : v = .null ∧ w = .null ∨ ∃ b, v = .bool b ∧ w = .bool b) :
    scanValue (fuel + 1) room (dump .unicode v ++ rest) = .ok (w, rest) := by
  have plain := constantAt_dump v rest
  have shape := shapeOf_dump .unicode v rest
  rw [scanValue, if_neg (by simp [plain]), shape]
  rcases simple with ⟨rfl, rfl⟩ | ⟨b, rfl, rfl⟩
  · simp [Json.shape, dump, afterWord, token, Except.map]
  · cases b <;> simp [Json.shape, dump, afterWord, token, Except.map]

theorem scanValue_empty {fuel room : Nat} {rest : List Char} :
    scanValue (fuel + 1) (room + 1) (dump .unicode (.arr []) ++ rest) = .ok (.arr [], rest) ∧
      scanValue (fuel + 1) (room + 1) (dump .unicode (.obj []) ++ rest) = .ok (.obj [], rest) := by
  constructor
  · rw [scanValue, if_neg (by simp [constantAt_dump]), shapeOf_dump]
    simp [Json.shape, dump, opened, skipBlanks, isBlank]
  · rw [scanValue, if_neg (by simp [constantAt_dump]), shapeOf_dump]
    simp [Json.shape, dump, opened, skipBlanks, isBlank]

section Containers

variable {fuel room : Nat} {rest : List Char} {key : PyText} {value item : PyValue} {name : String}
  {doc : Json}

/-- An array is scanned when its first item and the others are. -/
theorem scanValue_items {items : List PyValue} {docs : List Json}
    (first : scanValue fuel room (dump .unicode doc ++ (dumpItems .unicode docs ++ rest)) =
      .ok (item, dumpItems .unicode docs ++ rest))
    (others : scanItems fuel room (dumpItems .unicode docs ++ rest) = .ok (items, rest)) :
    scanValue (fuel + 1) (room + 1) (dump .unicode (.arr (doc :: docs)) ++ rest) =
      .ok (.arr (item :: items), rest) := by
  obtain ⟨solid, full⟩ := dump_head .unicode doc (dumpItems .unicode docs ++ rest)
  have tail : (dump .unicode (.arr (doc :: docs)) ++ rest).tail =
      dump .unicode doc ++ (dumpItems .unicode docs ++ rest) := by
    simp only [dump, List.cons_append, List.tail_cons, List.append_assoc]
  rw [scanValue_array (constantAt_dump _ rest) (shapeOf_dump .unicode _ rest)
    (by rw [tail]; exact solid) (by rw [tail]; exact full), tail, first, ok_bind]
  dsimp only
  rw [others, ok_bind]
  rfl

theorem scanItems_cons {items : List PyValue} {docs : List Json}
    (first : scanValue fuel room (dump .unicode doc ++ (dumpItems .unicode docs ++ rest)) =
      .ok (item, dumpItems .unicode docs ++ rest))
    (others : scanItems fuel room (dumpItems .unicode docs ++ rest) = .ok (items, rest)) :
    scanItems (fuel + 1) room (dumpItems .unicode (doc :: docs) ++ rest) =
      .ok (item :: items, rest) := by
  obtain ⟨solid, -⟩ := dump_head .unicode doc (dumpItems .unicode docs ++ rest)
  rw [scanItems, dumpItems, List.cons_append, List.append_assoc,
    skipBlanks_of_solid (show isBlank ',' = false from rfl)]
  simp only [List.head?_cons, Option.some.injEq, Char.reduceEq, if_false, if_true,
    List.tail_cons, solid]
  rw [first, ok_bind]
  dsimp only
  rw [others, ok_bind]
  rfl

/-- A member is scanned when its key fits and its value is. -/
theorem scanMember_pair (named : key.toString? = some name) (enough : name.toList.length < fuel)
    (scanned : scanValue fuel room (dump .unicode doc ++ rest) = .ok (value, rest)) :
    scanMember (fuel + 1) room (quote .unicode name ++ ':' :: (dump .unicode doc ++ rest)) =
      .ok ((key, value), rest) := by
  obtain ⟨solid, -⟩ := dump_head .unicode doc rest
  have read := scanString_quote name fuel (':' :: (dump .unicode doc ++ rest)) enough
  have head : (quote .unicode name ++ ':' :: (dump .unicode doc ++ rest)).head? = some '"' := rfl
  have tail : (quote .unicode name ++ ':' :: (dump .unicode doc ++ rest)).tail =
      (quote .unicode name).tail ++ ':' :: (dump .unicode doc ++ rest) := rfl
  rw [scanMember, if_pos head, tail, read, token, ok_bind]
  simp only [skipBlanks_of_solid (show isBlank ':' = false from rfl), List.head?_cons, if_true,
    List.tail_cons, solid]
  rw [scanned, ok_bind, PyText.toString?_eq_some.1 named]
  rfl

/-- An object is scanned when its first member and the others are and no key is repeated. -/
theorem scanValue_members {members : List (PyText × PyValue)} {docs : List (String × Json)}
    (unique : (((key, value) :: members).map Prod.fst).Nodup)
    (first : scanMember fuel room (quote .unicode name ++ ':' :: (dump .unicode doc ++
        (dumpMembers .unicode docs ++ rest))) =
      .ok ((key, value), dumpMembers .unicode docs ++ rest))
    (others : scanMembers fuel room (dumpMembers .unicode docs ++ rest) = .ok (members, rest)) :
    scanValue (fuel + 1) (room + 1) (dump .unicode (.obj ((name, doc) :: docs)) ++ rest) =
      .ok (.obj ((key, value) :: members), rest) := by
  have tail : (dump .unicode (.obj ((name, doc) :: docs)) ++ rest).tail =
      quote .unicode name ++ ':' :: (dump .unicode doc ++ (dumpMembers .unicode docs ++ rest)) := by
    simp only [dump, List.cons_append, List.tail_cons, List.append_assoc]
  rw [scanValue_object (constantAt_dump _ rest) (shapeOf_dump .unicode _ rest)
    (by rw [tail]; exact skipBlanks_of_solid rfl) (by rw [tail, quote]; simp), tail, first, ok_bind]
  dsimp only
  rw [others, ok_bind]
  dsimp only
  rw [uniqueObject, if_pos unique]
  rfl

theorem scanMembers_cons {members : List (PyText × PyValue)} {docs : List (String × Json)}
    (first : scanMember fuel room (quote .unicode name ++ ':' :: (dump .unicode doc ++
        (dumpMembers .unicode docs ++ rest))) =
      .ok ((key, value), dumpMembers .unicode docs ++ rest))
    (others : scanMembers fuel room (dumpMembers .unicode docs ++ rest) = .ok (members, rest)) :
    scanMembers (fuel + 1) room (dumpMembers .unicode ((name, doc) :: docs) ++ rest) =
      .ok ((key, value) :: members, rest) := by
  rw [scanMembers, dumpMembers, List.cons_append, List.append_assoc, List.cons_append,
    List.append_assoc, skipBlanks_of_solid (show isBlank ',' = false from rfl)]
  have solid : ∀ text : List Char, skipBlanks (quote .unicode name ++ text) =
      quote .unicode name ++ text := fun text => skipBlanks_of_solid rfl
  simp only [List.head?_cons, Option.some.injEq, Char.reduceEq, if_false, if_true,
    List.tail_cons, solid]
  rw [first, ok_bind]
  dsimp only
  rw [others, ok_bind]
  rfl

end Containers

open PyValue in
mutual

/-- A printed value is scanned back, together with the text that follows it. -/
theorem scanValue_dump (w : PyValue) {v : Json} (printed : w.toJson? = some v)
    (distinct : w.Distinct) (fuel room : Nat) (rest : List Char) (ends : Ends rest)
    (enough : (dump .unicode v).length ≤ fuel) (fits : w.height < room) :
    scanValue (fuel + 1) room (dump .unicode v ++ rest) = .ok (w, rest) := by
  match w with
  | .null =>
      cases printed
      exact scanValue_scalar (.inl ⟨rfl, rfl⟩)
  | .bool b =>
      cases printed
      exact scanValue_scalar (.inr ⟨b, rfl, rfl⟩)
  | .int n =>
      simp only [toJson?] at printed
      split at printed
      · rename_i few
        cases printed
        rw [scanValue_number (constantAt_dump _ rest) (shapeOf_dump .unicode _ rest), dump]
        exact scanNumber_int ends few
      · cases printed
  | .float none => cases printed
  | .float (some x) =>
      cases printed
      rw [scanValue_number (constantAt_dump _ rest) (shapeOf_dump .unicode _ rest), dump]
      exact scanNumber_float x.2 ends
  | .str text =>
      obtain ⟨s, named, same⟩ := Option.map_eq_some_iff.1 printed
      cases same
      have length := quote_length .unicode s
      rw [dump] at enough
      have read := scanString_quote s fuel rest (by omega)
      rw [scanValue_string (constantAt_dump _ rest) (shapeOf_dump .unicode _ rest), dump,
        show (quote .unicode s ++ rest).tail = (quote .unicode s).tail ++ rest from rfl, read,
        PyText.toString?_eq_some.1 named]
      rfl
  | .arr [] =>
      cases printed
      obtain ⟨room, rfl⟩ : ∃ k, room = k + 1 := ⟨room - 1, by omega⟩
      exact scanValue_empty.1
  | .arr (item :: items) =>
      obtain ⟨docs, made, same⟩ := Option.map_eq_some_iff.1 printed
      cases same
      obtain ⟨doc, first, made⟩ := Option.bind_eq_some_iff.1 made
      obtain ⟨docs', others, made⟩ := Option.bind_eq_some_iff.1 made
      cases made
      simp only [Distinct, DistinctItems] at distinct
      simp only [dump, List.length_cons, List.length_append] at enough
      simp only [height, heightItems] at fits
      obtain ⟨fuel, rfl⟩ : ∃ k, fuel = k + 1 := ⟨fuel - 1, by omega⟩
      obtain ⟨room, rfl⟩ : ∃ k, room = k + 1 := ⟨room - 1, by omega⟩
      exact scanValue_items
        (scanValue_dump item first distinct.1 fuel room _ (ends_dumpItems .unicode docs' rest)
          (by omega) (by omega))
        (scanItems_dump items others distinct.2 fuel room rest (by omega) (by omega))
  | .obj [] =>
      cases printed
      obtain ⟨room, rfl⟩ : ∃ k, room = k + 1 := ⟨room - 1, by omega⟩
      exact scanValue_empty.2
  | .obj ((key, value) :: members) =>
      obtain ⟨docs, made, same⟩ := Option.map_eq_some_iff.1 printed
      cases same
      obtain ⟨name, named, made⟩ := Option.bind_eq_some_iff.1 made
      obtain ⟨doc, first, made⟩ := Option.bind_eq_some_iff.1 made
      obtain ⟨docs', others, made⟩ := Option.bind_eq_some_iff.1 made
      cases made
      simp only [Distinct, DistinctMembers] at distinct
      simp only [dump, List.length_cons, List.length_append] at enough
      simp only [height, heightMembers] at fits
      obtain ⟨fuel, rfl⟩ : ∃ k, fuel = k + 1 := ⟨fuel - 1, by omega⟩
      obtain ⟨room, rfl⟩ : ∃ k, room = k + 1 := ⟨room - 1, by omega⟩
      exact scanValue_members distinct.1
        (scanMember_dump key value named first distinct.2.1 fuel room _
          (ends_dumpMembers .unicode docs' rest) (by omega) (by omega))
        (scanMembers_dump members others distinct.2.2 fuel room rest (by omega) (by omega))
termination_by sizeOf w

theorem scanItems_dump (items : List PyValue) {docs : List Json} (printed : toItems? items = some docs)
    (distinct : DistinctItems items) (fuel room : Nat) (rest : List Char)
    (enough : (dumpItems .unicode docs).length ≤ fuel) (fits : heightItems items ≤ room) :
    scanItems (fuel + 1) room (dumpItems .unicode docs ++ rest) = .ok (items, rest) := by
  match items with
  | [] =>
      cases printed
      simp [scanItems, dumpItems, skipBlanks, isBlank]
  | item :: items =>
      obtain ⟨doc, first, made⟩ := Option.bind_eq_some_iff.1 printed
      obtain ⟨docs', others, made⟩ := Option.bind_eq_some_iff.1 made
      cases made
      simp only [DistinctItems] at distinct
      simp only [dumpItems, List.length_cons, List.length_append] at enough
      simp only [heightItems] at fits
      obtain ⟨fuel, rfl⟩ : ∃ k, fuel = k + 1 := ⟨fuel - 1, by omega⟩
      exact scanItems_cons
        (scanValue_dump item first distinct.1 fuel room _ (ends_dumpItems .unicode docs' rest)
          (by omega) (by omega))
        (scanItems_dump items others distinct.2 fuel room rest (by omega) (by omega))
termination_by sizeOf items

theorem scanMember_dump (key : PyText) (value : PyValue) {name : String} {doc : Json}
    (named : key.toString? = some name) (printed : value.toJson? = some doc)
    (distinct : value.Distinct) (fuel room : Nat) (rest : List Char) (ends : Ends rest)
    (enough : (quote .unicode name).length + (dump .unicode doc).length < fuel)
    (fits : value.height < room) :
    scanMember (fuel + 1) room (quote .unicode name ++ ':' :: (dump .unicode doc ++ rest)) =
      .ok ((key, value), rest) := by
  have length := quote_length .unicode name
  obtain ⟨fuel, rfl⟩ : ∃ k, fuel = k + 1 := ⟨fuel - 1, by omega⟩
  exact scanMember_pair named (by omega)
    (scanValue_dump value printed distinct fuel room rest ends (by omega) fits)
termination_by sizeOf (key, value)

theorem scanMembers_dump (members : List (PyText × PyValue)) {docs : List (String × Json)}
    (printed : toMembers? members = some docs) (distinct : DistinctMembers members)
    (fuel room : Nat) (rest : List Char) (enough : (dumpMembers .unicode docs).length ≤ fuel)
    (fits : heightMembers members ≤ room) :
    scanMembers (fuel + 1) room (dumpMembers .unicode docs ++ rest) = .ok (members, rest) := by
  match members with
  | [] =>
      cases printed
      simp [scanMembers, dumpMembers, skipBlanks, isBlank]
  | (key, value) :: members =>
      obtain ⟨name, named, made⟩ := Option.bind_eq_some_iff.1 printed
      obtain ⟨doc, first, made⟩ := Option.bind_eq_some_iff.1 made
      obtain ⟨docs', others, made⟩ := Option.bind_eq_some_iff.1 made
      cases made
      simp only [DistinctMembers] at distinct
      simp only [dumpMembers, List.length_cons, List.length_append] at enough
      simp only [heightMembers] at fits
      obtain ⟨fuel, rfl⟩ : ∃ k, fuel = k + 1 := ⟨fuel - 1, by omega⟩
      exact scanMembers_cons
        (scanMember_dump key value named first distinct.1 fuel room _
          (ends_dumpMembers .unicode docs' rest) (by omega) (by omega))
        (scanMembers_dump members others distinct.2 fuel room rest (by omega) (by omega))
termination_by sizeOf members

end

/-- Scanning takes back what was printed. -/
theorem scan_dump {w : PyValue} {v : Json} {room : Nat} (printed : w.toJson? = some v)
    (distinct : w.Distinct) (fits : w.height < room) : scan room (dump .unicode v) = .ok w := by
  have nothing : Ends [] := by simp [Ends]
  have read := scanValue_dump w printed distinct (dump .unicode v).length room [] nothing
    (Nat.le_refl _) fits
  obtain ⟨solid, -⟩ := dump_head .unicode v []
  rw [List.append_nil] at read solid
  rw [scan, solid, read, ok_bind]
  rfl

/-! ## A printed document is one line -/

/-- No control character. -/
def Printable (cs : List Char) : Prop := ∀ c ∈ cs, 32 ≤ c.toNat

theorem printable_append {cs ds : List Char} : Printable (cs ++ ds) ↔ Printable cs ∧ Printable ds := by
  simp [Printable, or_imp, forall_and]

theorem printable_cons {c : Char} {cs : List Char} :
    Printable (c :: cs) ↔ 32 ≤ c.toNat ∧ Printable cs := by
  simp [Printable]

theorem printable_of_number {cs : List Char} (number : ∀ c ∈ cs, numberChar c = true) :
    Printable cs := by
  intro c mem
  have kind := number c mem
  simp only [numberChar, Bool.or_eq_true, decide_eq_true_eq, Char.isDigit, Bool.and_eq_true,
    ge_iff_le, UInt32.le_iff_toNat_le] at kind
  have code : c.val.toNat = c.toNat := rfl
  have zero : ('0' : Char).val.toNat = 48 := by decide
  rcases kind with (((digit | rfl) | rfl) | rfl) | rfl
  · omega
  all_goals decide

theorem printable_hex4 (n : Nat) : Printable (hex4 n) := by
  have digit : ∀ k < 16, 32 ≤ (Nat.digitChar k).toNat := by decide
  intro c mem
  simp only [hex4, List.mem_cons, List.not_mem_nil, or_false] at mem
  rcases mem with rfl | rfl | rfl | rfl <;> exact digit _ (Nat.mod_lt _ (by decide))

theorem printable_escapeChar (c : Char) : Printable (escapeChar .unicode c) := by
  unfold escapeChar
  split
  · simp [Printable]
  split
  · simp [Printable]
  split
  · simp [Printable]
  split
  · simp [Printable]
  split
  · simp [Printable]
  split
  · simp [Printable]
  split
  · simp [Printable]
  split
  · rename_i low
    rw [escapeCode, if_pos (by omega), printable_cons, printable_cons]
    exact ⟨by decide, by decide, printable_hex4 _⟩
  · rename_i high
    simp only [printable_cons]
    exact ⟨by omega, by simp [Printable]⟩

theorem printable_quote (s : String) : Printable (quote .unicode s) := by
  rw [quote, printable_cons, printable_append]
  refine ⟨by decide, ?_, by simp [Printable]⟩
  intro c mem
  obtain ⟨d, -, here⟩ := List.mem_flatMap.1 mem
  exact printable_escapeChar d c here

mutual

theorem printable_dump (v : Json) : Printable (dump .unicode v) := by
  match v with
  | .null => simp [dump, Printable]
  | .bool true => simp [dump, Printable]
  | .bool false => simp [dump, Printable]
  | .int n =>
      rw [dump]
      exact printable_of_number (intText_numberChar n)
  | .float x =>
      rw [dump]
      exact printable_of_number (float_numberChar x)
  | .str s =>
      rw [dump]
      exact printable_quote s
  | .arr [] => simp [dump, Printable]
  | .arr (item :: items) =>
      rw [dump, printable_cons, printable_append]
      exact ⟨by decide, printable_dump item, printable_dumpItems items⟩
  | .obj [] => simp [dump, Printable]
  | .obj ((key, value) :: members) =>
      rw [dump, printable_cons, printable_append, printable_cons, printable_append]
      exact ⟨by decide, printable_quote key, by decide, printable_dump value,
        printable_dumpMembers members⟩
termination_by sizeOf v

theorem printable_dumpItems (items : List Json) : Printable (dumpItems .unicode items) := by
  match items with
  | [] => simp [dumpItems, Printable]
  | item :: items =>
      rw [dumpItems, printable_cons, printable_append]
      exact ⟨by decide, printable_dump item, printable_dumpItems items⟩
termination_by sizeOf items

theorem printable_dumpMembers (members : List (String × Json)) :
    Printable (dumpMembers .unicode members) := by
  match members with
  | [] => simp [dumpMembers, Printable]
  | (key, value) :: members =>
      rw [dumpMembers, printable_cons, printable_append, printable_cons, printable_append]
      exact ⟨by decide, printable_quote key, by decide, printable_dump value,
        printable_dumpMembers members⟩
termination_by sizeOf members

end

end Json

end Enfold.Theory
