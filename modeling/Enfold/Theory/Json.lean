/-
# Theory.Json -- JSON documents and their canonical text

A document is a tree.  An object is the list of its members in increasing key
order: the canonical form a dictionary has when it is dumped with sorted keys.

`dump` prints a document in the compact form, with every character beyond ASCII
either kept or escaped (`Style`).  The text determines the document, in both
styles (`dumps_injective`); the argument is unique readability (`dump_unique`): the
first character gives the shape, and each part is recovered together with the text
that follows it.

`strings` lists the keys and string values of a document, which is what a reader
finds after decoding the text.
-/
import Enfold.Theory.Decimal
import Enfold.Theory.Text

namespace Enfold.Theory

set_option autoImplicit false

inductive Json where
  | null
  | bool (b : Bool)
  | int (n : Int)
  | float (x : Decimal)
  | str (s : String)
  | arr (items : List Json)
  | obj (members : List (String × Json))

namespace Json

/-- Whether characters beyond ASCII are escaped. -/
inductive Style where
  | ascii
  | unicode

/-- An optional text: `None` is `null`. -/
def ofText : Option String → Json
  | none => .null
  | some text => .str text

/-! ## Strings -/

def hex4 (n : Nat) : List Char :=
  [Nat.digitChar (n / 4096 % 16), Nat.digitChar (n / 256 % 16), Nat.digitChar (n / 16 % 16),
    Nat.digitChar (n % 16)]

/-- An escape of one code point; beyond the basic plane it is a surrogate pair. -/
def escapeCode (n : Nat) : List Char :=
  if n < 65536 then '\\' :: 'u' :: hex4 n
  else
    '\\' :: 'u' :: (hex4 (55296 + (n - 65536) / 1024) ++
      '\\' :: 'u' :: hex4 (56320 + (n - 65536) % 1024))

def escapeChar (style : Style) (c : Char) : List Char :=
  if c = '"' then ['\\', '"']
  else if c = '\\' then ['\\', '\\']
  else if c = '\n' then ['\\', 'n']
  else if c = '\r' then ['\\', 'r']
  else if c = '\t' then ['\\', 't']
  else if c.toNat = 8 then ['\\', 'b']
  else if c.toNat = 12 then ['\\', 'f']
  else if c.toNat < 32 then escapeCode c.toNat
  else
    match style with
    | .unicode => [c]
    | .ascii => if c.toNat < 127 then [c] else escapeCode c.toNat

/-- A quoted string. -/
def quote (style : Style) (s : String) : List Char :=
  '"' :: (s.toList.flatMap (escapeChar style) ++ ['"'])

/-! ## Documents -/

def intText (n : Int) : List Char :=
  if n < 0 then '-' :: Nat.toDigits 10 n.natAbs else Nat.toDigits 10 n.natAbs

mutual

/-- The compact text of a document. -/
def dump (style : Style) : Json → List Char
  | .null => ['n', 'u', 'l', 'l']
  | .bool true => ['t', 'r', 'u', 'e']
  | .bool false => ['f', 'a', 'l', 's', 'e']
  | .int n => intText n
  | .float x => x.text
  | .str s => quote style s
  | .arr [] => ['[', ']']
  | .arr (item :: items) => '[' :: (dump style item ++ dumpItems style items)
  | .obj [] => ['{', '}']
  | .obj ((key, value) :: members) =>
      '{' :: (quote style key ++ ':' :: (dump style value ++ dumpMembers style members))

def dumpItems (style : Style) : List Json → List Char
  | [] => [']']
  | item :: items => ',' :: (dump style item ++ dumpItems style items)

def dumpMembers (style : Style) : List (String × Json) → List Char
  | [] => ['}']
  | (key, value) :: members =>
      ',' :: (quote style key ++ ':' :: (dump style value ++ dumpMembers style members))

end

/-- `json.dumps(value, sort_keys=True, separators=(",", ":"))`. -/
def dumps (style : Style) (value : Json) : String := String.ofList (dump style value)

mutual

/-- The keys and string values of a document. -/
def strings : Json → List String
  | .str s => [s]
  | .arr items => itemStrings items
  | .obj members => memberStrings members
  | _ => []

def itemStrings : List Json → List String
  | [] => []
  | item :: items => strings item ++ itemStrings items

def memberStrings : List (String × Json) → List String
  | [] => []
  | (key, value) :: members => key :: (strings value ++ memberStrings members)

end

/-- `dict.get(key)`. -/
def get? (key : String) : Json → Option Json
  | .obj members => members.lookup key
  | _ => none

def IsObject (document : Json) : Prop := ∃ members, document = .obj members

/-! ## Unique readability of strings -/

def hexValue (c : Char) : Nat :=
  if c.isDigit then c.toNat - 48 else c.toNat - 87

def readHex4 (a b c d : Char) : Nat :=
  hexValue a * 4096 + hexValue b * 256 + hexValue c * 16 + hexValue d

/-- The low half of a surrogate pair, at the head of the text. -/
def lowHalf : List Char → Nat
  | _ :: _ :: a :: b :: c :: d :: _ => readHex4 a b c d
  | _ => 0

/-- The string up to the closing quote, and the text after the quote. -/
def unquote : List Char → Option (List Char × List Char)
  | '"' :: rest => some ([], rest)
  | '\\' :: 'u' :: a :: b :: c :: d :: rest =>
      if 55296 ≤ readHex4 a b c d ∧ readHex4 a b c d < 56320 then
        (unquote (rest.drop 6)).map fun p =>
          (Char.ofNat (65536 + (readHex4 a b c d - 55296) * 1024 + (lowHalf rest - 56320)) :: p.1,
            p.2)
      else (unquote rest).map fun p => (Char.ofNat (readHex4 a b c d) :: p.1, p.2)
  | '\\' :: 'n' :: rest => (unquote rest).map fun p => ('\n' :: p.1, p.2)
  | '\\' :: 'r' :: rest => (unquote rest).map fun p => ('\r' :: p.1, p.2)
  | '\\' :: 't' :: rest => (unquote rest).map fun p => ('\t' :: p.1, p.2)
  | '\\' :: 'b' :: rest => (unquote rest).map fun p => (Char.ofNat 8 :: p.1, p.2)
  | '\\' :: 'f' :: rest => (unquote rest).map fun p => (Char.ofNat 12 :: p.1, p.2)
  | '\\' :: c :: rest => (unquote rest).map fun p => (c :: p.1, p.2)
  | c :: rest => (unquote rest).map fun p => (c :: p.1, p.2)
  | [] => none
  termination_by text => text.length
  decreasing_by all_goals simp; try omega

theorem hexValue_digitChar : ∀ d < 16, hexValue (Nat.digitChar d) = d := by decide

theorem readHex4_hex4 {n : Nat} (small : n < 65536) :
    readHex4 (Nat.digitChar (n / 4096 % 16)) (Nat.digitChar (n / 256 % 16))
      (Nat.digitChar (n / 16 % 16)) (Nat.digitChar (n % 16)) = n := by
  unfold readHex4
  rw [hexValue_digitChar _ (by omega), hexValue_digitChar _ (by omega),
    hexValue_digitChar _ (by omega), hexValue_digitChar _ (by omega)]
  omega

theorem unquote_escapeCode (c : Char) (rest : List Char) :
    unquote (escapeCode c.toNat ++ rest) = (unquote rest).map fun p => (c :: p.1, p.2) := by
  have valid := c.valid
  simp only [UInt32.isValidChar, Nat.isValidChar] at valid
  have whole : Char.ofNat c.toNat = c := Char.ofNat_toNat c
  have code : c.val.toNat = c.toNat := rfl
  unfold escapeCode
  split
  · rename_i small
    simp only [hex4, List.cons_append, List.nil_append]
    rw [unquote, readHex4_hex4 small, if_neg (by omega), whole]
  · rename_i large
    simp only [hex4, List.cons_append, List.nil_append]
    rw [unquote, readHex4_hex4 (by omega), if_pos (by omega), lowHalf, readHex4_hex4 (by omega)]
    have : 65536 + (55296 + (c.toNat - 65536) / 1024 - 55296) * 1024 +
        (56320 + (c.toNat - 65536) % 1024 - 56320) = c.toNat := by omega
    rw [this, whole]
    rfl

theorem unquote_escapeChar (style : Style) (c : Char) (rest : List Char) :
    unquote (escapeChar style c ++ rest) = (unquote rest).map fun p => (c :: p.1, p.2) := by
  have byCode : ∀ n, c.toNat = n → c = Char.ofNat n := by
    rintro n rfl
    exact (Char.ofNat_toNat c).symm
  unfold escapeChar
  split
  · subst_vars; simp [unquote]
  split
  · subst_vars; simp [unquote]
  split
  · subst_vars; simp [unquote]
  split
  · subst_vars; simp [unquote]
  split
  · subst_vars; simp [unquote]
  split
  · rename_i code; simp [unquote, byCode 8 code]
  split
  · rename_i code; simp [unquote, byCode 12 code]
  split
  · exact unquote_escapeCode c rest
  · rename_i notQuote notSlash _ _ _ _ _ _
    have plain : unquote (c :: rest) = (unquote rest).map fun p => (c :: p.1, p.2) := by
      rw [unquote.eq_def]
      split <;> simp_all
    cases style with
    | unicode => exact plain
    | ascii =>
        simp only
        split
        · exact plain
        · exact unquote_escapeCode c rest

theorem unquote_quote (style : Style) (s : String) (rest : List Char) :
    unquote ((quote style s).tail ++ rest) = some (s.toList, rest) := by
  simp only [quote, List.tail_cons, List.append_assoc]
  induction s.toList with
  | nil => simp [unquote]
  | cons c cs ih =>
      rw [List.flatMap_cons, List.append_assoc, unquote_escapeChar, ih]
      rfl

theorem quote_unique {style : Style} {s s' : String} {rest rest' : List Char}
    (same : quote style s ++ rest = quote style s' ++ rest') : s = s' ∧ rest = rest' := by
  have tails : (quote style s).tail ++ rest = (quote style s').tail ++ rest' := by
    simpa [quote] using same
  have read := congrArg unquote tails
  rw [unquote_quote, unquote_quote] at read
  simp only [Option.some.injEq, Prod.mk.injEq, String.toList_inj] at read
  exact read

/-! ## Unique readability of documents -/

def numberChar (c : Char) : Bool :=
  c.isDigit || c = '-' || c = '+' || c = '.' || c = 'e'

/-- The text after a value does not continue a number. -/
def Closed (rest : List Char) : Prop := ∀ c, rest.head? = some c → numberChar c = false

theorem number_unique {cs cs' rest rest' : List Char} (all : ∀ c ∈ cs, numberChar c = true)
    (all' : ∀ c ∈ cs', numberChar c = true) (closed : Closed rest) (closed' : Closed rest')
    (same : cs ++ rest = cs' ++ rest') : cs = cs' ∧ rest = rest' := by
  have stop : ∀ {rest : List Char}, Closed rest → rest.takeWhile numberChar = [] := by
    intro rest closed
    cases rest with
    | nil => rfl
    | cons c cs => simp [closed c rfl]
  have taken := congrArg (List.takeWhile numberChar) same
  rw [List.takeWhile_append_of_pos all, List.takeWhile_append_of_pos all', stop closed,
    stop closed', List.append_nil, List.append_nil] at taken
  subst taken
  exact ⟨rfl, List.append_cancel_left same⟩

theorem numberChar_of_isDigit {c : Char} (digit : c.isDigit = true) : numberChar c = true := by
  simp [numberChar, digit]

theorem toDigits_isDigit {n : Nat} {c : Char} (mem : c ∈ Nat.toDigits 10 n) : c.isDigit = true :=
  Nat.isDigit_of_mem_toDigits (by decide) (by decide) mem

theorem intText_numberChar (n : Int) : ∀ c ∈ intText n, numberChar c = true := by
  intro c mem
  unfold intText at mem
  split at mem
  · rcases List.mem_cons.1 mem with rfl | mem
    · rfl
    · exact numberChar_of_isDigit (toDigits_isDigit mem)
  · exact numberChar_of_isDigit (toDigits_isDigit mem)

theorem intText_plain (n : Int) : '.' ∉ intText n ∧ 'e' ∉ intText n := by
  have plain : ∀ c ∈ intText n, c.isDigit = true ∨ c = '-' := by
    intro c mem
    unfold intText at mem
    split at mem
    · rcases List.mem_cons.1 mem with rfl | mem
      · exact .inr rfl
      · exact .inl (toDigits_isDigit mem)
    · exact .inl (toDigits_isDigit mem)
  constructor
  · intro mem
    simpa using plain _ mem
  · intro mem
    simpa using plain _ mem

theorem toDigits_injective {m n : Nat} (same : Nat.toDigits 10 m = Nat.toDigits 10 n) : m = n := by
  have read := congrArg (fun ds => Nat.ofDigitChars 10 ds 0) same
  simpa [Nat.ofDigitChars_toDigits] using read

theorem toDigits_head (n : Nat) : ∃ c cs, Nat.toDigits 10 n = c :: cs ∧ c.isDigit = true := by
  obtain ⟨c, cs, eq⟩ := List.exists_cons_of_ne_nil (Nat.toDigits_ne_nil (b := 10) (n := n))
  exact ⟨c, cs, eq, toDigits_isDigit (by rw [eq]; simp)⟩

theorem intText_injective {m n : Int} (same : intText m = intText n) : m = n := by
  have noSign : ∀ {k : Nat} {cs : List Char}, Nat.toDigits 10 k ≠ '-' :: cs := by
    intro k cs eq
    have : ('-' : Char).isDigit = true := toDigits_isDigit (n := k) (by rw [eq]; simp)
    exact absurd this (by decide)
  unfold intText at same
  split at same <;> split at same
  · have := toDigits_injective (List.cons.inj same).2
    omega
  · exact absurd same.symm noSign
  · exact absurd same noSign
  · have := toDigits_injective same
    omega

theorem float_numberChar (x : Decimal) : ∀ c ∈ x.text, numberChar c = true := by
  obtain ⟨-, whole, fraction⟩ := x.numeral_digits
  have exponent : ∀ e, ∀ c ∈ Decimal.exponentText e, numberChar c = true := by
    intro e c mem
    have digits : ∀ c ∈ (if e.natAbs < 10 then '0' :: Nat.toDigits 10 e.natAbs
        else Nat.toDigits 10 e.natAbs), numberChar c = true := by
      intro c mem
      split at mem
      · rcases List.mem_cons.1 mem with rfl | mem
        · rfl
        · exact numberChar_of_isDigit (toDigits_isDigit mem)
      · exact numberChar_of_isDigit (toDigits_isDigit mem)
    unfold Decimal.exponentText at mem
    rcases List.mem_cons.1 mem with rfl | mem
    · rfl
    rcases List.mem_cons.1 mem with rfl | mem
    · split <;> rfl
    · exact digits c mem
  intro c mem
  simp only [Decimal.text, Decimal.Numeral.text, List.mem_append] at mem
  rcases mem with mem | mem | mem | mem
  · split at mem
    · rw [List.mem_singleton.1 mem]
      rfl
    · simp at mem
  · exact numberChar_of_isDigit (whole c mem)
  · split at mem
    · simp at mem
    · rcases List.mem_cons.1 mem with rfl | mem
      · rfl
      · exact numberChar_of_isDigit (fraction c mem)
  · cases eq : x.numeral.exponent with
    | none => simp [eq] at mem
    | some e => exact exponent e c (by simpa [eq] using mem)

/-- A float prints with a point or an exponent. -/
theorem float_marked (x : Decimal) : '.' ∈ x.text ∨ 'e' ∈ x.text := by
  have marked : x.numeral.fraction ≠ [] ∨ x.numeral.exponent.isSome := by
    unfold Decimal.numeral
    split
    · simp
    · split
      · split
        · simp
        · split
          · simp
          · rename_i wide
            refine .inl ?_
            simp only [ne_eq, List.drop_eq_nil_iff]
            omega
      · simp
  simp only [Decimal.text, Decimal.Numeral.text, List.mem_append]
  rcases marked with marked | marked
  · simp [marked]
  · obtain ⟨e, eq⟩ := Option.isSome_iff_exists.1 marked
    simp [eq, Decimal.exponentText]

theorem int_ne_float {n : Int} {x : Decimal} : intText n ≠ x.text := by
  intro same
  obtain ⟨point, exponent⟩ := intText_plain n
  rw [same] at point exponent
  exact (float_marked x).elim point exponent

/-- What the first character of a value tells. -/
inductive Shape where
  | null | yes | no | number | string | array | object

def shape : Json → Shape
  | .null => .null
  | .bool true => .yes
  | .bool false => .no
  | .int _ | .float _ => .number
  | .str _ => .string
  | .arr _ => .array
  | .obj _ => .object

def shapeOf : List Char → Option Shape
  | 'n' :: _ => some .null
  | 't' :: _ => some .yes
  | 'f' :: _ => some .no
  | '"' :: _ => some .string
  | '[' :: _ => some .array
  | '{' :: _ => some .object
  | c :: _ => if c.isDigit || c = '-' then some .number else none
  | [] => none

theorem shapeOf_number {c : Char} {cs : List Char} (number : c.isDigit = true ∨ c = '-') :
    shapeOf (c :: cs) = some .number := by
  unfold shapeOf
  split
  case h_7 eq =>
    obtain ⟨rfl, rfl⟩ := List.cons.inj eq
    rcases number with digit | rfl
    · simp [digit]
    · rfl
  all_goals simp_all

theorem shapeOf_dump (style : Style) (v : Json) (rest : List Char) :
    shapeOf (dump style v ++ rest) = some v.shape := by
  cases v with
  | null => simp [dump, shapeOf, shape]
  | bool b => cases b <;> simp [dump, shapeOf, shape]
  | int n =>
      obtain ⟨c, cs, eq, digit⟩ := toDigits_head n.natAbs
      simp only [dump, intText, shape]
      split
      · exact shapeOf_number (.inr rfl)
      · rw [eq]
        exact shapeOf_number (.inl digit)
  | float x =>
      obtain ⟨nonempty, whole, -⟩ := x.numeral_digits
      obtain ⟨c, cs, eq⟩ := List.exists_cons_of_ne_nil nonempty
      simp only [dump, Decimal.text, Decimal.Numeral.text, shape]
      split
      · exact shapeOf_number (.inr rfl)
      · rw [eq]
        exact shapeOf_number (.inl (whole c (by simp [eq])))
  | str s => simp [dump, quote, shapeOf, shape]
  | arr items => cases items <;> simp [dump, shapeOf, shape]
  | obj members => rcases members with _ | ⟨⟨key, value⟩, members⟩ <;> simp [dump, shapeOf, shape]

theorem closed_dumpItems (style : Style) (items : List Json) (rest : List Char) :
    Closed (dumpItems style items ++ rest) := by
  cases items <;> simp [Closed, dumpItems, numberChar]

theorem closed_dumpMembers (style : Style) (members : List (String × Json)) (rest : List Char) :
    Closed (dumpMembers style members ++ rest) := by
  rcases members with _ | ⟨⟨key, value⟩, members⟩ <;> simp [Closed, dumpMembers, numberChar]

mutual

/-- A value is recovered from its text together with what follows it. -/
theorem dump_unique (style : Style) (v v' : Json) (rest rest' : List Char) (closed : Closed rest)
    (closed' : Closed rest') (same : dump style v ++ rest = dump style v' ++ rest') :
    v = v' ∧ rest = rest' := by
  have shapes : v.shape = v'.shape := by
    have := congrArg shapeOf same
    simpa [shapeOf_dump] using this
  match v, v', shapes with
  | .null, .null, _ => simpa [dump] using same
  | .bool true, .bool true, _ => simpa [dump] using same
  | .bool false, .bool false, _ => simpa [dump] using same
  | .int m, .int n, _ =>
      obtain ⟨texts, rests⟩ := number_unique (intText_numberChar m) (intText_numberChar n) closed
        closed' same
      exact ⟨congrArg Json.int (intText_injective texts), rests⟩
  | .int m, .float x, _ =>
      exact absurd (number_unique (intText_numberChar m) (float_numberChar x) closed closed'
        same).1 int_ne_float
  | .float x, .int n, _ =>
      exact absurd (number_unique (float_numberChar x) (intText_numberChar n) closed closed'
        same).1.symm int_ne_float
  | .float x, .float y, _ =>
      obtain ⟨texts, rests⟩ := number_unique (float_numberChar x) (float_numberChar y) closed
        closed' same
      exact ⟨congrArg Json.float (Decimal.text_injective texts), rests⟩
  | .str s, .str s', _ =>
      obtain ⟨strings, rests⟩ := quote_unique same
      exact ⟨congrArg Json.str strings, rests⟩
  | .arr [], .arr [], _ => simpa [dump] using same
  | .arr [], .arr (item :: items), _ =>
      simp only [dump, List.cons_append, List.nil_append, List.cons.injEq, true_and,
        List.append_assoc] at same
      have := congrArg shapeOf same
      rw [shapeOf_dump] at this
      simp [shapeOf] at this
  | .arr (item :: items), .arr [], _ =>
      simp only [dump, List.cons_append, List.nil_append, List.cons.injEq, true_and,
        List.append_assoc] at same
      have := congrArg shapeOf same
      rw [shapeOf_dump] at this
      simp [shapeOf] at this
  | .arr (item :: items), .arr (item' :: items'), _ =>
      simp only [dump, List.cons_append, List.cons.injEq, true_and, List.append_assoc] at same
      obtain ⟨heads, tails⟩ := dump_unique style item item' _ _ (closed_dumpItems _ _ _)
        (closed_dumpItems _ _ _) same
      obtain ⟨others, rests⟩ := dumpItems_unique style items items' _ _ tails
      exact ⟨by rw [heads, others], rests⟩
  | .obj [], .obj [], _ => simpa [dump] using same
  | .obj [], .obj ((key, value) :: members), _ => simp [dump, quote] at same
  | .obj ((key, value) :: members), .obj [], _ => simp [dump, quote] at same
  | .obj ((key, value) :: members), .obj ((key', value') :: members'), _ =>
      simp only [dump, List.cons_append, List.cons.injEq, true_and, List.append_assoc] at same
      obtain ⟨keys, afterKeys⟩ := quote_unique same
      obtain ⟨values, tails⟩ := dump_unique style value value' _ _ (closed_dumpMembers _ _ _)
        (closed_dumpMembers _ _ _) (List.cons.inj afterKeys).2
      obtain ⟨others, rests⟩ := dumpMembers_unique style members members' _ _ tails
      exact ⟨by rw [keys, values, others], rests⟩
termination_by sizeOf v

theorem dumpItems_unique (style : Style) (items items' : List Json) (rest rest' : List Char)
    (same : dumpItems style items ++ rest = dumpItems style items' ++ rest') :
    items = items' ∧ rest = rest' := by
  match items, items' with
  | [], [] => simpa [dumpItems] using same
  | [], item :: items => simp [dumpItems] at same
  | item :: items, [] => simp [dumpItems] at same
  | item :: items, item' :: items' =>
      simp only [dumpItems, List.cons_append, List.cons.injEq, true_and, List.append_assoc] at same
      obtain ⟨heads, tails⟩ := dump_unique style item item' _ _ (closed_dumpItems _ _ _)
        (closed_dumpItems _ _ _) same
      obtain ⟨others, rests⟩ := dumpItems_unique style items items' _ _ tails
      exact ⟨by rw [heads, others], rests⟩
termination_by sizeOf items

theorem dumpMembers_unique (style : Style) (members members' : List (String × Json))
    (rest rest' : List Char)
    (same : dumpMembers style members ++ rest = dumpMembers style members' ++ rest') :
    members = members' ∧ rest = rest' := by
  match members, members' with
  | [], [] => simpa [dumpMembers] using same
  | [], (key, value) :: members => simp [dumpMembers] at same
  | (key, value) :: members, [] => simp [dumpMembers] at same
  | (key, value) :: members, (key', value') :: members' =>
      simp only [dumpMembers, List.cons_append, List.cons.injEq, true_and, List.append_assoc] at same
      obtain ⟨keys, afterKeys⟩ := quote_unique same
      obtain ⟨values, tails⟩ := dump_unique style value value' _ _ (closed_dumpMembers _ _ _)
        (closed_dumpMembers _ _ _) (List.cons.inj afterKeys).2
      obtain ⟨others, rests⟩ := dumpMembers_unique style members members' _ _ tails
      exact ⟨by rw [keys, values, others], rests⟩
termination_by sizeOf members

end

/-- The text of a document determines it. -/
theorem dumps_injective (style : Style) : Function.Injective (dumps style) := by
  intro v v' same
  have texts : dump style v = dump style v' := by
    have := congrArg String.toList same
    simpa [dumps] using this
  have nothing : Closed [] := by simp [Closed]
  exact (dump_unique style v v' [] [] nothing nothing (by simp [texts])).1

end Json

end Enfold.Theory
