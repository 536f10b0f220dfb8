/-
# Theory.IsoTime -- reading ISO 8601 timestamps

`fromIsoformat` is the runtime's `datetime.fromisoformat`, read character by character
as its parser does: calendar and week dates with or without dashes, any one separator
character, a time of one to three components with an optional fraction, and an optional
zone.  A timestamp is a number of microseconds on the clock it names together with that
clock's offset from UTC (absent for a naive timestamp).

Reading past the end yields the terminating zero character.
-/
import Enfold.Theory.Regex
import Mathlib.Algebra.Ring.Nat

namespace Enfold.Theory.IsoTime

set_option autoImplicit false

def terminator : Char := Char.ofNat 0

def charAt (text : List Char) (i : Nat) : Char := text.getD i terminator

/-- The value of the `n` digits at position `i`. -/
def digitsAt (text : List Char) (i n : Nat) : Option Nat :=
  (List.range n).foldlM
    (fun value k =>
      let c := charAt text (i + k)
      if isAsciiDigit c then some (10 * value + (c.toNat - 48)) else none) 0

/-! ## Dates -/

def isLeap (year : Nat) : Bool := year % 4 = 0 && (year % 100 ≠ 0 || year % 400 = 0)

def daysInMonth (year month : Nat) : Nat :=
  if month = 2 then if isLeap year then 29 else 28
  else if month = 4 ∨ month = 6 ∨ month = 9 ∨ month = 11 then 30
  else 31

/-- The day number of a date; 1 January of year 1 is day 1. -/
def ordinal (year month day : Nat) : Nat :=
  (year - 1) * 365 + (year - 1) / 4 - (year - 1) / 100 + (year - 1) / 400 +
    ((List.range (month - 1)).map fun k => daysInMonth year (k + 1)).sum + day

/-- The day number of the Monday that starts week 1 of a year. -/
def isoweekMonday (year : Nat) : Int :=
  let first : Int := ordinal year 1 1
  let weekday := (first + 6) % 7
  if 3 < weekday then first - weekday + 7 else first - weekday

def weekDate (year week day : Nat) : Option Int :=
  let first := ordinal year 1 1 % 7
  let lastWeek := week = 53 ∧ (first = 4 ∨ first = 3 ∧ isLeap year)
  if 1 ≤ year ∧ (0 < week ∧ week < 53 ∨ lastWeek) ∧ 0 < day ∧ day < 8 then
    some (isoweekMonday year + (week - 1 : Nat) * 7 + (day - 1 : Nat))
  else none

def calendarDate (year month day : Nat) : Option Int :=
  if 1 ≤ year ∧ 1 ≤ month ∧ month ≤ 12 ∧ 1 ≤ day ∧ day ≤ daysInMonth year month then
    some (ordinal year month day)
  else none

/-- Where the date part ends. -/
def findSeparator (text : List Char) : Option Nat :=
  if text.length = 7 then some 7
  else if charAt text 4 = '-' then
    if charAt text 5 = 'W' then
      if 8 < text.length ∧ charAt text 8 = '-' then
        if text.length = 9 then none
        else if 10 < text.length ∧ isAsciiDigit (charAt text 10) then some 8
        else some 10
      else some 8
    else some 10
  else if charAt text 4 = 'W' then
    let stop := 7 + ((text.drop 7).takeWhile isAsciiDigit).length
    if stop < 9 then some stop else if stop % 2 = 0 then some 7 else some 8
  else some 8

/-- The day number of the date in the first `stop` characters. -/
def readDate (text : List Char) (stop : Nat) : Option Int := do
  let year ← digitsAt text 0 4
  let dashed := charAt text 4 = '-'
  let p := if dashed then 5 else 4
  if charAt text p = 'W' then
    let week ← digitsAt text (p + 1) 2
    if p + 3 < stop then
      if dashed then
        if charAt text (p + 3) = '-' then weekDate year week (← digitsAt text (p + 4) 1) else none
      else weekDate year week (← digitsAt text (p + 3) 1)
    else weekDate year week 1
  else
    let month ← digitsAt text p 2
    if dashed then
      if charAt text (p + 2) = '-' then calendarDate year month (← digitsAt text (p + 3) 2) else none
    else calendarDate year month (← digitsAt text (p + 2) 2)

/-! ## Times -/

/-- What follows the components of a time. -/
inductive After where
  /-- A fraction starts at the position. -/
  | fraction (p : Nat)
  /-- Nothing; `more` tells that a character was left over. -/
  | nothing (more : Bool)

/-- Up to `n` two-digit components of a time that ends at `stop`. -/
def components (text : List Char) (stop : Nat) :
    Option Bool → Nat → Nat → Option (List Nat × After)
  | _, 0, p => some ([], .fraction p)
  | separated, n + 1, p => do
      let value ← digitsAt text p 2
      let mark := charAt text (p + 2)
      let separated := separated.getD (mark = ':')
      if stop ≤ p + 3 then some ([value], .nothing (mark ≠ terminator))
      else if separated ∧ mark = ':' then
        let (values, after) ← components text stop (some separated) n (p + 3)
        some (value :: values, after)
      else if mark = '.' ∨ mark = ',' then some ([value], .fraction (p + 3))
      else if separated then none
      else
        let (values, after) ← components text stop (some separated) n (p + 2)
        some (value :: values, after)

structure Clock where
  hour : Nat
  minute : Nat
  second : Nat
  microsecond : Nat
  more : Bool

/-- `HH[:?MM[:?SS[{.,}fff[fff]]]]`, up to `stop`; digits past the sixth are skipped. -/
def readClock (text : List Char) (p stop : Nat) : Option Clock := do
  let (values, after) ← components text stop none 3 p
  let hour := values.getD 0 0
  let minute := values.getD 1 0
  let second := values.getD 2 0
  match after with
  | .nothing more => some ⟨hour, minute, second, 0, more⟩
  | .fraction p =>
      let count := min 6 (stop - p)
      let value ← digitsAt text p count
      let rest := (text.drop (p + count)).dropWhile isAsciiDigit
      some ⟨hour, minute, second, value * 10 ^ (6 - count),
        rest.head?.any (· ≠ terminator)⟩

def Clock.microseconds (c : Clock) : Int :=
  (c.hour * 3600 + c.minute * 60 + c.second) * 1000000 + c.microsecond

/-- One day, in microseconds. -/
def day : Int := 86400000000

/-- A time of day and its offset, both in microseconds. -/
def readTime (text : List Char) (p : Nat) : Option (Int × Option Int) := do
  let zone := p + ((text.drop p).takeWhile fun c => !(c == '+' || c == '-' || c == 'Z')).length
  let clock ← readClock text p zone
  let offset ←
    if zone = text.length then if clock.more then none else some none
    else if charAt text zone = 'Z' then
      if charAt text (zone + 1) = terminator then some (some 0) else none
    else
      let shift ← readClock text (zone + 1) text.length
      let sign : Int := if charAt text zone = '-' then -1 else 1
      let seconds := shift.hour * 3600 + shift.minute * 60 + shift.second
      if shift.more then none
      else if seconds = 0 then some (some 0)
      else if shift.microseconds < day then some (some (sign * shift.microseconds))
      else none
  if clock.hour < 24 ∧ clock.minute < 60 ∧ clock.second < 60 then
    some (clock.microseconds, offset)
  else none

/-! ## Timestamps -/

structure Timestamp where
  /-- Microseconds on the timestamp's own clock, counted from day 0. -/
  clock : Int
  offset : Option Int

/-- `datetime.fromisoformat`; `none` is a raised `ValueError`. -/
def fromIsoformat (text : List Char) : Option Timestamp :=
  if text.length < 7 then none
  else do
    let stop ← findSeparator text
    let date ← readDate text stop
    if stop < text.length then
      let (time, offset) ← readTime text (stop + 1)
      some ⟨date * day + time, offset⟩
    else some ⟨date * day, none⟩

/-- The instant on the UTC clock, a naive timestamp counting as UTC; `none` when it
leaves the years 1 to 9999. -/
def Timestamp.utc (t : Timestamp) : Option Int :=
  let instant := t.clock - t.offset.getD 0
  if day ≤ instant ∧ instant < 3652060 * day then some instant else none

end Enfold.Theory.IsoTime
