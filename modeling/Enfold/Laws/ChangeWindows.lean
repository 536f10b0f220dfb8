/-
# Laws.ChangeWindows -- adjacent windows of changes meet

Where no limit cuts the list, the changes of a window are its events in the order of the chronicle.
An instant between the bounds cuts that list in two, and a part that is cut off takes no more room
than the whole (`fits_of_append`), so the parts are complete as well (`windows_partition`).
-/
import Enfold.Laws.EventLists

namespace Enfold.Laws

open Enfold.Theory Enfold.Model

set_option autoImplicit false

section Bounded

variable {α : Type} {toJson : α → Json}

/-- The items are few and short enough to be listed all. -/
def Fits (toJson : α → Json) (items : List α) (limit : Nat) : Prop :=
  items.length ≤ limit ∧
    2 + cost (fun item => jsonChars (toJson item)) 0 items ≤ itemsCharBudget

theorem bounded_complete_iff {items : List α} {limit : Nat} :
    (bounded toJson items limit).2 = false ↔ Fits toJson items limit := by
  rw [bounded, fill_complete_iff (by decide) (Nat.zero_le _), Nat.zero_add]
  rfl

theorem bounded_complete {items : List α} {limit : Nat} (fits : Fits toJson items limit) :
    bounded toJson items limit = (items, false) := by
  have whole := bounded_complete_iff.2 fits
  exact Prod.ext (fill_complete whole) whole

theorem fits_of_append {front back : List α} {limit : Nat} (fits : Fits toJson (front ++ back) limit) :
    Fits toJson front limit ∧ Fits toJson back limit := by
  obtain ⟨few, short⟩ := fits
  rw [List.length_append] at few
  rw [cost_append, Nat.zero_add] at short
  have moved := @cost_mono α (fun item => jsonChars (toJson item)) 0 front.length (Nat.zero_le _) back
  exact ⟨⟨by omega, by omega⟩, by omega, by omega⟩

end Bounded

section Windows

variable {J : Type} [LinearOrder J] {julianday : String → Option J} {columns : FactColumns} {s : Store}
  {scope scopes : List String} {limit : Int} {cap : Nat} {a b c x y : String}

/-- What `changes` answers for a window. -/
def windowChanges (julianday : String → Option J) (columns : FactColumns) (s : Store)
    (scopes : List String) (window : String × String) (cap : Nat) : Changes :=
  let rows := eventRows julianday s scopes (some window)
  let shown := bounded (EventRow.toJson columns) rows.1 cap
  ⟨shown.1, rows.2 || shown.2⟩

theorem changes_eq_ok {result : Changes} :
    changes julianday columns s a b scope limit = .ok result ↔
      ∃ x y scopes cap, timestampText a "since" = .ok x ∧ timestampText b "until" = .ok y ∧ x < y ∧
        projectionScopes scope = .ok scopes ∧ projectionLimit limit = .ok cap ∧
        result = windowChanges julianday columns s scopes (x, y) cap := by
  constructor
  · intro done
    obtain ⟨x, since, done⟩ := bind_eq_ok.1 done
    obtain ⟨y, until', done⟩ := bind_eq_ok.1 done
    obtain ⟨less, done⟩ := require_bind_eq_ok.1 done
    obtain ⟨scopes, listed, done⟩ := bind_eq_ok.1 done
    obtain ⟨cap, limited, done⟩ := bind_eq_ok.1 done
    exact ⟨x, y, scopes, cap, since, until', less, listed, limited, (pure_eq_ok.1 done).symm⟩
  · rintro ⟨x, y, scopes, cap, since, until', less, listed, limited, rfl⟩
    rw [changes, since, ok_bind, until', ok_bind, require_of less, ok_bind, listed, ok_bind, limited]
    rfl

/-- Nothing cuts the list when the scan and the limits leave room. -/
theorem windowChanges_complete_iff {window : String × String} :
    (windowChanges julianday columns s scopes window cap).truncated = false ↔
      (windowEvents julianday s scopes (some window)).length < projectionScanLimit ∧
        Fits (EventRow.toJson columns) (windowEvents julianday s scopes (some window)) cap := by
  unfold windowChanges
  dsimp only
  rw [eventRows_eq, Bool.or_eq_false_iff, decide_eq_false_iff_not, Nat.not_le]
  refine and_congr_right fun unscanned => ?_
  rw [Nat.sub_eq_zero_of_le (Nat.le_of_lt unscanned), List.drop_zero, bounded_complete_iff]

theorem windowChanges_complete {window : String × String}
    (complete : (windowChanges julianday columns s scopes window cap).truncated = false) :
    (windowChanges julianday columns s scopes window cap).changes =
      windowEvents julianday s scopes (some window) := by
  obtain ⟨unscanned, fits⟩ := windowChanges_complete_iff.1 complete
  unfold windowChanges
  dsimp only
  rw [eventRows_eq, Nat.sub_eq_zero_of_le (Nat.le_of_lt unscanned), List.drop_zero,
    bounded_complete fits]

/-! ## Adjacent windows -/

/-- The days of instants are in their order. -/
def MonotoneDays (julianday : String → Option J) : Prop :=
  ∀ i j, IsoTime.InYears i → IsoTime.InYears j → i ≤ j →
    ∃ d e, julianday (IsoTime.isoText i) = some d ∧ julianday (IsoTime.isoText j) = some e ∧ d ≤ e

/-- The timestamp is read as this instant. -/
def ReadsAs (value : String) (instant : Int) : Prop :=
  ∀ name, timestampInstant value name = .ok instant

theorem inYears_of_utc {t : IsoTime.Timestamp} {i : Int} (read : t.utc = some i) :
    IsoTime.InYears i := by
  unfold IsoTime.Timestamp.utc at read
  dsimp only at read
  split at read
  · rename_i inside
    cases read
    exact inside
  · cases read

theorem readsAs_of {value : String} {i : Int} (filled : strip value ≠ "")
    (read : (IsoTime.fromIsoformat (replaceZulu (strip value))).bind IsoTime.Timestamp.utc = some i) :
    ReadsAs value i := by
  intro name
  obtain ⟨t, parsed, utc⟩ := Option.bind_eq_some_iff.1 read
  rw [timestampInstant, require_of filled, ok_bind, parsed]
  dsimp only
  rw [utc]
  rfl

theorem ReadsAs.inYears {value : String} {i : Int} (reads : ReadsAs value i) : IsoTime.InYears i := by
  obtain ⟨-, read⟩ := require_bind_eq_ok.1 (reads "")
  cases parsed : IsoTime.fromIsoformat (replaceZulu (strip value)) with
  | none =>
      rw [parsed] at read
      cases read
  | some t =>
      rw [parsed] at read
      dsimp only at read
      cases utc : t.utc with
      | none =>
          rw [utc] at read
          cases read
      | some instant =>
          rw [utc] at read
          cases pure_eq_ok.1 read
          exact inYears_of_utc utc

theorem ReadsAs.text {value : String} {i : Int} (reads : ReadsAs value i) (name : String) :
    timestampText value name = .ok (IsoTime.isoText i) := by
  rw [timestampText, reads name]
  rfl

/-- The event is before a day, or on none. -/
def Early (julianday : String → Option J) (e : J) (event : EventRow) : Bool :=
  match julianday event.changedAt with
  | none => true
  | some day => day < e

theorem early_downward {e : J} {a b : EventRow} (le : a.key julianday ≤ b.key julianday)
    (early : Early julianday e b = true) : Early julianday e a = true := by
  have days : @LE.le (WithBot J) _ (julianday a.changedAt) (julianday b.changedAt) :=
    Prod.Lex.monotone_fst _ _ le
  unfold Early at early ⊢
  cases dayA : julianday a.changedAt with
  | none => rfl
  | some day =>
      rw [dayA] at days
      cases dayB : julianday b.changedAt with
      | none =>
          rw [dayB] at days
          exact absurd days (WithBot.not_coe_le_bot day)
      | some day' =>
          rw [dayB] at days early
          have order : day ≤ day' := WithBot.coe_le_coe.1 days
          exact decide_eq_true (lt_of_le_of_lt order (of_decide_eq_true early))

/-- The events of a window before and after an instant inside it. -/
theorem windowEvents_split {x y z : String} {d e f : J} (first : julianday x = some d)
    (middle : julianday y = some e) (last : julianday z = some f) (before : d ≤ e) (after : e ≤ f) :
    windowEvents julianday s scopes (some (x, y)) ++ windowEvents julianday s scopes (some (y, z)) =
      windowEvents julianday s scopes (some (x, z)) := by
  have left : windowEvents julianday s scopes (some (x, y)) =
      (windowEvents julianday s scopes (some (x, z))).filter (Early julianday e) := by
    unfold windowEvents
    rw [List.filter_filter]
    refine List.filter_congr fun event _ => ?_
    simp only [windowed, inWindow, first, middle, last, Early]
    cases julianday event.changedAt with
    | none => rfl
    | some day =>
        rw [Bool.eq_iff_iff]
        simp only [Bool.and_eq_true, decide_eq_true_eq]
        exact ⟨fun ⟨low, high⟩ => ⟨high, low, lt_of_lt_of_le high after⟩,
          fun ⟨high, low, _⟩ => ⟨low, high⟩⟩
  have right : windowEvents julianday s scopes (some (y, z)) =
      (windowEvents julianday s scopes (some (x, z))).filter fun event =>
        !Early julianday e event := by
    unfold windowEvents
    rw [List.filter_filter]
    refine List.filter_congr fun event _ => ?_
    simp only [windowed, inWindow, first, middle, last, Early]
    cases julianday event.changedAt with
    | none => rfl
    | some day =>
        rw [Bool.eq_iff_iff]
        simp only [Bool.and_eq_true, Bool.not_eq_true', decide_eq_false_iff_not, not_lt,
          decide_eq_true_eq]
        exact ⟨fun ⟨low, high⟩ => ⟨low, le_trans before low, high⟩, fun ⟨low, _, high⟩ => ⟨low, high⟩⟩
  rw [left, right]
  refine filter_append_filter ?_ fun a b le => early_downward le
  exact (ascending_pairwise _).sublist List.filter_sublist

/-- A complete window is the one before an instant followed by the one after it, and both are
complete. -/
theorem windows_partition (monotone : MonotoneDays julianday) {i j k : Int} (readsA : ReadsAs a i)
    (readsB : ReadsAs b j) (readsC : ReadsAs c k) (earlier : i < j) (later : j < k)
    {whole : Changes} (done : changes julianday columns s a c scope limit = .ok whole)
    (complete : whole.truncated = false) :
    ∃ first second, changes julianday columns s a b scope limit = .ok first ∧
      changes julianday columns s b c scope limit = .ok second ∧
      first.truncated = false ∧ second.truncated = false ∧
      first.changes ++ second.changes = whole.changes := by
  obtain ⟨x, z, scopes, cap, since, until', -, listed, limited, rfl⟩ := changes_eq_ok.1 done
  cases (readsA.text "since").symm.trans since
  cases (readsC.text "until").symm.trans until'
  have yearsA := readsA.inYears
  have yearsB := readsB.inYears
  have yearsC := readsC.inYears
  obtain ⟨d, e, first, middle, before⟩ := monotone i j yearsA yearsB (Int.le_of_lt earlier)
  obtain ⟨e', f, middle', last, after⟩ := monotone j k yearsB yearsC (Int.le_of_lt later)
  cases middle.symm.trans middle'
  have split := @windowEvents_split J _ julianday s scopes _ _ _ d e f first middle last before after
  obtain ⟨unscanned, fits⟩ := windowChanges_complete_iff.1 complete
  rw [windowChanges_complete complete]
  rw [← split] at unscanned fits ⊢
  rw [List.length_append] at unscanned
  obtain ⟨fitsFirst, fitsSecond⟩ := fits_of_append fits
  have completeFirst := windowChanges_complete_iff.2
    ⟨Nat.lt_of_le_of_lt (Nat.le_add_right _ _) unscanned, fitsFirst⟩
  have completeSecond := windowChanges_complete_iff.2
    ⟨Nat.lt_of_le_of_lt (Nat.le_add_left _ _) unscanned, fitsSecond⟩
  refine ⟨_, _, changes_eq_ok.2 ⟨_, _, scopes, cap, readsA.text "since", readsB.text "until",
    IsoTime.isoText_lt yearsA yearsB earlier, listed, limited, rfl⟩,
    changes_eq_ok.2 ⟨_, _, scopes, cap, readsB.text "since", readsC.text "until",
      IsoTime.isoText_lt yearsB yearsC later, listed, limited, rfl⟩, completeFirst, completeSecond, ?_⟩
  rw [windowChanges_complete completeFirst, windowChanges_complete completeSecond]

end Windows

/-! ## A sample window -/

def datedFact (factId : Nat) (createdAt : String) : FactRow where
  factId := factId
  content := "the door opens"
  category := "general"
  tags := "door"
  trustScore := .half
  createdAt := createdAt
  validFrom := none
  invalidAt := none
  supersededBy := none
  memoryKind := none
  subjectKey := none
  predicateKey := none
  objectValue := none
  sourceAuthority := none
  scope := "work"
  sensitivity := "normal"
  correctionStatus := none
  conflictGroup := none

/-- Facts of two days. -/
def datedStore : Store :=
  { Store.empty with
    facts :=
      { table := ⟨[datedFact 1 "2026-01-01T12:00:00.000000+00:00",
          datedFact 2 "2026-01-02T12:00:00.000000+00:00"], by decide⟩
        sequence := 2
        positive := (by decide : ∀ r ∈ [datedFact 1 "2026-01-01T12:00:00.000000+00:00",
          datedFact 2 "2026-01-02T12:00:00.000000+00:00"], 0 < r.factId)
        bounded := (by decide : ∀ r ∈ [datedFact 1 "2026-01-01T12:00:00.000000+00:00",
          datedFact 2 "2026-01-02T12:00:00.000000+00:00"], r.factId ≤ 2)
        slots := by decide
        links := by decide } }

def noColumns : FactColumns := ⟨fun _ => .null, fun _ => .null, fun _ => .null⟩

/-- Of texts in one format, the day is in the order of the text. -/
theorem monotoneDays_some : MonotoneDays (some : String → Option String) := by
  intro i j yearsI yearsJ le
  refine ⟨_, _, rfl, rfl, ?_⟩
  rcases Int.lt_or_eq_of_le le with less | rfl
  · exact le_of_lt (IsoTime.isoText_lt yearsI yearsJ less)
  · exact le_refl _

theorem sample_windows_partition :
    ∃ first second whole,
      changes some noColumns datedStore "2026-01-01" "2026-01-03" ["work"] 100 = .ok whole ∧
      whole.changes.length = 2 ∧
      changes some noColumns datedStore "2026-01-01" "2026-01-02T00:00:00Z" ["work"] 100 = .ok first ∧
      changes some noColumns datedStore "2026-01-02T00:00:00Z" "2026-01-03" ["work"] 100 =
        .ok second ∧
      first.changes ++ second.changes = whole.changes := by
  have evaluated : (changes some noColumns datedStore "2026-01-01" "2026-01-03" ["work"] 100).map
      (fun result => (result.changes.length, result.truncated)) = .ok (2, false) := by decide +kernel
  obtain ⟨whole, done, shape⟩ := map_eq_ok.1 evaluated
  obtain ⟨two, complete⟩ := Prod.mk.inj shape
  have readsA : ReadsAs "2026-01-01" 63902908800000000 :=
    readsAs_of (by decide +kernel) (by decide +kernel)
  have readsB : ReadsAs "2026-01-02T00:00:00Z" 63902995200000000 :=
    readsAs_of (by decide +kernel) (by decide +kernel)
  have readsC : ReadsAs "2026-01-03" 63903081600000000 :=
    readsAs_of (by decide +kernel) (by decide +kernel)
  obtain ⟨first, second, before, after, -, -, joined⟩ := windows_partition monotoneDays_some readsA
    readsB readsC (by decide) (by decide) done complete
  exact ⟨first, second, whole, done, two, before, after, joined⟩

end Enfold.Laws
