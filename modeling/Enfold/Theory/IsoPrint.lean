/-
# Theory.IsoPrint -- printing instants

`isoText` is what the runtime prints for an instant on the UTC clock with microseconds.  Every
field has a fixed width, so the texts are in the order of the fields (`fixedWidth_lt`), and the
fields are in the order of the instants: the day number of a date grows with the date
(`ordinal_lt`), and `civil` finds the date of a day number (`civil_spec`).  Together, earlier
instants have smaller texts (`isoText_lt`).
-/
import Enfold.Theory.IsoTime
import Mathlib.Data.String.Basic

namespace Enfold.Theory.IsoTime

set_option autoImplicit false

/-! ## Dates of day numbers -/

/-- The days before a year. -/
def yearStart (year : Nat) : Nat :=
  (year - 1) * 365 + (year - 1) / 4 - (year - 1) / 100 + (year - 1) / 400

def yearOf (n : Nat) : Nat :=
  let n400 := (n - 1) / 146097
  let r400 := (n - 1) % 146097
  let n100 := r400 / 36524
  let r100 := r400 % 36524
  let n4 := r100 / 1461
  let n1 := r100 % 1461 / 365
  let year := n400 * 400 + 1 + n100 * 100 + n4 * 4 + n1
  if n1 = 4 ∨ n100 = 4 then year - 1 else year

/-- The month and the day of the month, from a month on. -/
def monthDay (year : Nat) : Nat → Nat → Nat → Nat × Nat
  | 0, month, n => (month, n + 1)
  | fuel + 1, month, n =>
      if n < daysInMonth year month then (month, n + 1)
      else monthDay year fuel (month + 1) (n - daysInMonth year month)

/-- The date of a day number. -/
def civil (n : Nat) : Nat × Nat × Nat :=
  let year := yearOf n
  (year, monthDay year 11 1 (n - yearStart year - 1))

/-- The days before the year that `a` cycles of four centuries, `b` centuries, `c` leap cycles and
`d` years precede. -/
theorem yearStart_parts {a b c d : Nat} (centuries : b ≤ 3) (cycles : c ≤ 24) (years : d ≤ 3) :
    yearStart (a * 400 + b * 100 + c * 4 + d + 1) = a * 146097 + b * 36524 + c * 1461 + d * 365 := by
  unfold yearStart
  have fourth : (a * 400 + b * 100 + c * 4 + d + 1 - 1) / 4 = a * 100 + b * 25 + c := by omega
  have hundredth : (a * 400 + b * 100 + c * 4 + d + 1 - 1) / 100 = a * 4 + b := by omega
  have last : (a * 400 + b * 100 + c * 4 + d + 1 - 1) / 400 = a := by omega
  rw [fourth, hundredth, last]
  omega

theorem isLeap_iff (year : Nat) :
    isLeap year = true ↔ year % 4 = 0 ∧ (year % 100 ≠ 0 ∨ year % 400 = 0) := by
  simp [isLeap]

def yearLength (year : Nat) : Nat := if isLeap year then 366 else 365

theorem yearStart_succ {year : Nat} (positive : 0 < year) :
    yearStart (year + 1) = yearStart year + yearLength year := by
  unfold yearStart yearLength
  have step : ∀ k, 0 < k → (year + 1 - 1) / k = (year - 1) / k + if year % k = 0 then 1 else 0 := by
    intro k large
    have split : (year - 1 + 1) / k = (year - 1) / k + if k ∣ year - 1 + 1 then 1 else 0 :=
      Nat.succ_div
    rw [Nat.sub_add_cancel positive] at split
    rw [Nat.add_sub_cancel, split]
    simp only [Nat.dvd_iff_mod_eq_zero]
  rw [step 4 (by decide), step 100 (by decide), step 400 (by decide)]
  by_cases leap : isLeap year = true
  · obtain ⟨fourth, other⟩ := (isLeap_iff year).1 leap
    rw [if_pos leap, if_pos fourth]
    by_cases century : year % 100 = 0
    · rw [if_pos century, if_pos (other.resolve_left (not_not.2 century))]
      omega
    · rw [if_neg century, if_neg (by omega)]
      omega
  · rw [if_neg leap]
    rw [isLeap_iff] at leap
    by_cases fourth : year % 4 = 0
    · rw [if_pos fourth, if_pos (by omega), if_neg (by omega)]
      omega
    · rw [if_neg fourth, if_neg (by omega), if_neg (by omega)]
      omega

theorem yearStart_mono {year year' : Nat} (positive : 0 < year) (earlier : year < year') :
    yearStart year + yearLength year ≤ yearStart year' := by
  induction year', earlier using Nat.le_induction with
  | base => exact (yearStart_succ positive).ge
  | succ later le ih =>
      rw [yearStart_succ (by omega)]
      omega

theorem yearOf_spec {n : Nat} (positive : 0 < n) :
    0 < yearOf n ∧ yearStart (yearOf n) < n ∧ n ≤ yearStart (yearOf n + 1) := by
  unfold yearOf
  dsimp only
  generalize four : (n - 1) / 146097 = a
  generalize r4 : (n - 1) % 146097 = r
  generalize b1 : r / 36524 = b
  generalize r1 : r % 36524 = u
  generalize c1 : u / 1461 = c
  generalize r0 : u % 1461 = v
  generalize d1 : v / 365 = d
  have whole : n = a * 146097 + b * 36524 + c * 1461 + v + 1 := by omega
  have small : b ≤ 4 ∧ c ≤ 24 ∧ d ≤ 4 ∧ (b = 4 → u = 0) ∧ (d = 4 → c ≤ 23 ∧ v = 1460) := by omega
  obtain ⟨centuries, cycles, years, lastCentury, lastYear⟩ := small
  split
  · rename_i special
    by_cases century : b = 4
    · have none := lastCentury century
      have year : a * 400 + 1 + b * 100 + c * 4 + d - 1 = a * 400 + 3 * 100 + 24 * 4 + 3 + 1 := by omega
      have start := @yearStart_parts a 3 24 3 (by decide) (by decide) (by decide)
      have next := @yearStart_parts (a + 1) 0 0 0 (by decide) (by decide) (by decide)
      have shape : (a + 1) * 400 + 0 * 100 + 0 * 4 + 0 + 1 = a * 400 + 3 * 100 + 24 * 4 + 3 + 1 + 1 := by
        omega
      rw [shape] at next
      rw [year, start, next]
      omega
    · obtain ⟨before, value⟩ := lastYear (by omega)
      have year : a * 400 + 1 + b * 100 + c * 4 + d - 1 = a * 400 + b * 100 + c * 4 + 3 + 1 := by omega
      have start := @yearStart_parts a b c 3 (by omega) (by omega) (by decide)
      have next := @yearStart_parts a b (c + 1) 0 (by omega) (by omega) (by decide)
      have shape : a * 400 + b * 100 + (c + 1) * 4 + 0 + 1 = a * 400 + b * 100 + c * 4 + 3 + 1 + 1 := by
        omega
      rw [shape] at next
      rw [year, start, next]
      omega
  · rename_i plain
    have year : a * 400 + 1 + b * 100 + c * 4 + d = a * 400 + b * 100 + c * 4 + d + 1 := by omega
    have start := @yearStart_parts a b c d (by omega) (by omega) (by omega)
    have next := @yearStart_succ (a * 400 + b * 100 + c * 4 + d + 1) (Nat.succ_pos _)
    have length : 365 ≤ yearLength (a * 400 + b * 100 + c * 4 + d + 1) := by
      unfold yearLength
      split
      · decide
      · decide
    rw [year, next, start]
    omega

/-- The days of a year before a month. -/
def monthStart (year month : Nat) : Nat :=
  ((List.range (month - 1)).map fun k => daysInMonth year (k + 1)).sum

theorem ordinal_eq (year month day : Nat) :
    ordinal year month day = yearStart year + monthStart year month + day := rfl

theorem monthStart_succ {year month : Nat} (positive : 0 < month) :
    monthStart year (month + 1) = monthStart year month + daysInMonth year month := by
  obtain ⟨before, rfl⟩ := Nat.exists_eq_succ_of_ne_zero (Nat.ne_of_gt positive)
  unfold monthStart
  rw [Nat.add_sub_cancel, Nat.succ_sub_one, Nat.succ_eq_add_one, List.range_succ, List.map_append,
    List.sum_append, List.map_singleton, List.sum_singleton]

theorem monthStart_end (year : Nat) : monthStart year 13 = yearLength year := by
  unfold monthStart yearLength
  cases leap : isLeap year <;> simp [List.range_succ, daysInMonth, leap]

theorem monthStart_mono {year month month' : Nat} (positive : 0 < month) (earlier : month < month') :
    monthStart year month + daysInMonth year month ≤ monthStart year month' := by
  induction month', earlier using Nat.le_induction with
  | base => exact (monthStart_succ positive).ge
  | succ later le ih =>
      rw [monthStart_succ (by omega)]
      omega

/-- A date of the calendar. -/
def Valid (year month day : Nat) : Prop :=
  0 < year ∧ 0 < month ∧ month ≤ 12 ∧ 0 < day ∧ day ≤ daysInMonth year month

theorem monthDay_spec {year fuel month n : Nat} (positive : 0 < month) (enough : month + fuel = 12)
    (within : monthStart year month + n < yearLength year) :
    (0 < (monthDay year fuel month n).1 ∧ (monthDay year fuel month n).1 ≤ 12) ∧
      (0 < (monthDay year fuel month n).2 ∧
        (monthDay year fuel month n).2 ≤ daysInMonth year (monthDay year fuel month n).1) ∧
      monthStart year (monthDay year fuel month n).1 + (monthDay year fuel month n).2 =
        monthStart year month + n + 1 := by
  induction fuel generalizing month n with
  | zero =>
      have last : month = 12 := enough
      subst last
      have whole := @monthStart_succ year 12 (by decide)
      rw [monthStart_end] at whole
      refine ⟨⟨Nat.succ_pos 11, Nat.le_refl 12⟩, ⟨Nat.succ_pos n, ?_⟩, rfl⟩
      show n + 1 ≤ daysInMonth year 12
      omega
  | succ fuel ih =>
      rw [monthDay]
      split
      · rename_i here
        exact ⟨⟨positive, by omega⟩, ⟨Nat.succ_pos n, here⟩, rfl⟩
      · rename_i later
        have next := @monthStart_succ year month positive
        have spec := @ih (month + 1) (n - daysInMonth year month) (Nat.succ_pos month) (by omega)
          (by omega)
        generalize monthDay year fuel (month + 1) (n - daysInMonth year month) = result at spec ⊢
        obtain ⟨m, d⟩ := result
        obtain ⟨inYear, inMonth, same⟩ := spec
        exact ⟨inYear, inMonth, by omega⟩

/-- `civil` finds the date of a day number. -/
theorem civil_spec {n : Nat} (positive : 0 < n) :
    Valid (civil n).1 (civil n).2.1 (civil n).2.2 ∧
      ordinal (civil n).1 (civil n).2.1 (civil n).2.2 = n := by
  obtain ⟨first, after, within⟩ := yearOf_spec positive
  rw [yearStart_succ first] at within
  have start : monthStart (yearOf n) 1 = 0 := rfl
  have spec := @monthDay_spec (yearOf n) 11 1 (n - yearStart (yearOf n) - 1) (by decide) rfl
    (by omega)
  unfold civil
  dsimp only
  generalize monthDay (yearOf n) 11 1 (n - yearStart (yearOf n) - 1) = result at spec ⊢
  obtain ⟨m, d⟩ := result
  obtain ⟨⟨low, high⟩, ⟨least, most⟩, same⟩ := spec
  refine ⟨⟨first, low, high, least, most⟩, ?_⟩
  rw [ordinal_eq]
  dsimp only at same ⊢
  omega

/-- Later dates have larger day numbers. -/
theorem ordinal_lt {year month day year' month' day' : Nat} (valid : Valid year month day)
    (valid' : Valid year' month' day')
    (earlier : year < year' ∨ year = year' ∧ (month < month' ∨ month = month' ∧ day < day')) :
    ordinal year month day < ordinal year' month' day' := by
  obtain ⟨positive, low, high, -, most⟩ := valid
  obtain ⟨-, low', -, least, -⟩ := valid'
  rw [ordinal_eq, ordinal_eq]
  rcases earlier with earlier | ⟨rfl, earlier | ⟨rfl, earlier⟩⟩
  · have before := yearStart_mono positive earlier
    have within := @monthStart_mono year month 13 low (by omega)
    rw [monthStart_end] at within
    omega
  · have before := @monthStart_mono year month month' low earlier
    omega
  · omega

/-- Later day numbers have later dates. -/
theorem civil_lt {n n' : Nat} (positive : 0 < n) (earlier : n < n') :
    (civil n).1 < (civil n').1 ∨ (civil n).1 = (civil n').1 ∧
      ((civil n).2.1 < (civil n').2.1 ∨
        (civil n).2.1 = (civil n').2.1 ∧ (civil n).2.2 < (civil n').2.2) := by
  obtain ⟨valid, number⟩ := civil_spec positive
  obtain ⟨valid', number'⟩ := civil_spec (Nat.lt_trans positive earlier)
  by_contra notEarlier
  have reversed : (civil n').1 < (civil n).1 ∨ (civil n').1 = (civil n).1 ∧
      ((civil n').2.1 < (civil n).2.1 ∨
        (civil n').2.1 = (civil n).2.1 ∧ (civil n').2.2 < (civil n).2.2) ∨
      civil n = civil n' := by
    simp only [Prod.ext_iff]
    omega
  rcases reversed with later | same | same
  · exact absurd (ordinal_lt valid' valid (.inl later)) (by omega)
  · exact absurd (ordinal_lt valid' valid (.inr same)) (by omega)
  · rw [same] at number
    omega

/-! ## Fields of a fixed width -/

/-- The last `w` decimal digits. -/
def fixedWidth : Nat → Nat → List Char
  | 0, _ => []
  | w + 1, n => fixedWidth w (n / 10) ++ [Nat.digitChar (n % 10)]

theorem length_fixedWidth (w n : Nat) : (fixedWidth w n).length = w := by
  induction w generalizing n with
  | zero => rfl
  | succ w ih => rw [fixedWidth, List.length_append, ih, List.length_singleton]

/-- The first of two fields decides when it differs. -/
theorem append_lt_of_lt {xs ys : List Char} (s t : List Char) (same : xs.length = ys.length)
    (less : xs < ys) : xs ++ s < ys ++ t := by
  induction xs generalizing ys with
  | nil =>
      cases ys with
      | nil => exact absurd less (List.lt_irrefl [])
      | cons y ys => cases same
  | cons x xs ih =>
      cases ys with
      | nil => cases same
      | cons y ys =>
          rw [List.cons_append, List.cons_append, List.cons_lt_cons_iff]
          rcases List.cons_lt_cons_iff.1 less with first | ⟨first, less⟩
          · exact .inl first
          · exact .inr ⟨first, ih (Nat.succ.inj same) less⟩

theorem digitChar_lt : ∀ a < 10, ∀ b < 10, a < b → Nat.digitChar a < Nat.digitChar b := by decide

theorem fixedWidth_lt {w m n : Nat} (less : m < n) (fits : n < 10 ^ w) :
    fixedWidth w m < fixedWidth w n := by
  induction w generalizing m n with
  | zero => omega
  | succ w ih =>
      rw [fixedWidth, fixedWidth]
      rw [Nat.pow_succ] at fits
      rcases Nat.lt_or_ge (m / 10) (n / 10) with less' | ge
      · exact append_lt_of_lt _ _ (by rw [length_fixedWidth, length_fixedWidth])
          (ih less' (by omega))
      · have same : m / 10 = n / 10 := by omega
        rw [same]
        refine List.append_left_lt (List.cons_lt_cons_iff.2 (.inl ?_))
        exact digitChar_lt _ (by omega) _ (by omega) (by omega)

/-- A field, a separator and the fields that follow. -/
def fieldThen (w n : Nat) (separator : Char) (rest : List Char) : List Char :=
  fixedWidth w n ++ separator :: rest

theorem fieldThen_lt {w m n : Nat} {separator : Char} {s t : List Char} (fits : n < 10 ^ w)
    (earlier : m < n ∨ m = n ∧ s < t) : fieldThen w m separator s < fieldThen w n separator t := by
  rcases earlier with less | ⟨rfl, less⟩
  · exact append_lt_of_lt _ _ (by rw [length_fixedWidth, length_fixedWidth])
      (fixedWidth_lt less fits)
  · exact List.append_left_lt (List.cons_lt_cons_iff.2 (.inr ⟨rfl, less⟩))

/-! ## Texts of instants -/

/-- A time of day in microseconds, with the zone of UTC. -/
def clockText (time : Nat) : List Char :=
  fieldThen 2 (time / 3600000000) ':' (fieldThen 2 (time / 60000000 % 60) ':'
    (fieldThen 2 (time / 1000000 % 60) '.' (fieldThen 6 (time % 1000000) '+' "00:00".toList)))

def dateText (date : Nat × Nat × Nat) (rest : List Char) : List Char :=
  fieldThen 4 date.1 '-' (fieldThen 2 date.2.1 '-' (fieldThen 2 date.2.2 'T' rest))

/-- `isoformat(timespec="microseconds")` on the UTC clock. -/
def isoText (instant : Int) : String :=
  String.ofList (dateText (civil (instant / day).toNat) (clockText (instant % day).toNat))

theorem clockText_lt {time time' : Nat} (less : time < time') (within : time' < 86400000000) :
    clockText time < clockText time' := by
  unfold clockText
  have hours : time' / 3600000000 < 10 ^ 2 := by omega
  have minutes : time' / 60000000 % 60 < 10 ^ 2 := by omega
  have seconds : time' / 1000000 % 60 < 10 ^ 2 := by omega
  have micros : time' % 1000000 < 10 ^ 6 := by omega
  rcases Nat.lt_or_ge (time / 3600000000) (time' / 3600000000) with hour | hour
  · exact fieldThen_lt hours (.inl hour)
  refine fieldThen_lt hours (.inr ⟨by omega, ?_⟩)
  rcases Nat.lt_or_ge (time / 60000000 % 60) (time' / 60000000 % 60) with minute | minute
  · exact fieldThen_lt minutes (.inl minute)
  refine fieldThen_lt minutes (.inr ⟨by omega, ?_⟩)
  rcases Nat.lt_or_ge (time / 1000000 % 60) (time' / 1000000 % 60) with second | second
  · exact fieldThen_lt seconds (.inl second)
  refine fieldThen_lt seconds (.inr ⟨by omega, ?_⟩)
  exact fieldThen_lt micros (.inl (by omega))

theorem dateText_lt {date date' : Nat × Nat × Nat} {rest rest' : List Char}
    (valid : Valid date'.1 date'.2.1 date'.2.2) (fourDigits : date'.1 < 10000)
    (earlier : (date.1 < date'.1 ∨ date.1 = date'.1 ∧
      (date.2.1 < date'.2.1 ∨ date.2.1 = date'.2.1 ∧ date.2.2 < date'.2.2)) ∨
      date = date' ∧ rest < rest') :
    dateText date rest < dateText date' rest' := by
  obtain ⟨-, -, months, -, days⟩ := valid
  have shortMonth : daysInMonth date'.1 date'.2.1 ≤ 31 := by
    unfold daysInMonth
    split
    · split <;> decide
    · split <;> decide
  unfold dateText
  refine fieldThen_lt fourDigits ?_
  rcases earlier with (year | ⟨year, month | ⟨month, day⟩⟩) | ⟨rfl, less⟩
  · exact .inl year
  · exact .inr ⟨year, fieldThen_lt (by omega) (.inl month)⟩
  · exact .inr ⟨year, fieldThen_lt (by omega) (.inr ⟨month, fieldThen_lt (by omega) (.inl day)⟩)⟩
  · exact .inr ⟨rfl, fieldThen_lt (by omega) (.inr ⟨rfl, fieldThen_lt (by omega)
      (.inr ⟨rfl, less⟩)⟩)⟩

/-- The instants that have a text. -/
def InYears (instant : Int) : Prop := day ≤ instant ∧ instant < 3652060 * day

instance (instant : Int) : Decidable (InYears instant) := inferInstanceAs (Decidable (_ ∧ _))

theorem civil_year_lt {n : Nat} (positive : 0 < n) (last : n < 3652060) : (civil n).1 < 10000 := by
  by_contra large
  have first := (yearOf_spec positive).2.1
  have year : 9999 < yearOf n := by
    have same : (civil n).1 = yearOf n := rfl
    omega
  have start := yearStart_mono (by decide : 0 < 9999) year
  have value : yearStart 9999 + yearLength 9999 = 3652059 := by decide
  omega

/-- Earlier instants have smaller texts. -/
theorem isoText_lt {instant instant' : Int} (valid : InYears instant) (valid' : InYears instant')
    (earlier : instant < instant') : isoText instant < isoText instant' := by
  obtain ⟨low, -⟩ := valid
  obtain ⟨-, high⟩ := valid'
  rw [isoText, isoText, String.lt_iff_toList_lt, String.toList_ofList, String.toList_ofList]
  unfold day at *
  have positive : 0 < (instant / 86400000000).toNat := by omega
  have positive' : 0 < (instant' / 86400000000).toNat := by omega
  refine dateText_lt (civil_spec positive').1 (civil_year_lt positive' (by omega)) ?_
  rcases Nat.lt_or_ge (instant / 86400000000).toNat (instant' / 86400000000).toNat with days | days
  · exact .inl (civil_lt positive days)
  · have same : (instant / 86400000000).toNat = (instant' / 86400000000).toNat := by omega
    rw [same]
    exact .inr ⟨rfl, clockText_lt (by omega) (by omega)⟩

end Enfold.Theory.IsoTime
