/-
# Laws.TypedAbstention -- what the typed fields of a proposal can raise

`normalizeTypedFields` is to return typed fields or to abstain.  It raises in three cases and no
other (`abstains_iff`): the kind is a list or an object, which a set membership test cannot hash;
the kind is known and the confidence is an integer beyond the largest float; all fields are in order
and the timestamp leaves the calendar in UTC.  What it returns is normalized and survives being
printed and read.
-/
import Enfold.Laws.ExtractionStages

namespace Enfold.Laws

open Enfold.Theory Enfold.Model

set_option autoImplicit false

/-- The typed fields are handled: nothing is raised, and what is returned passes the check of a
snapshot and is read back as it was printed. -/
def Abstains (value : Json) (content : String) : Prop :=
  ∃ result, normalizeTypedFields value content = .ok result ∧ ∀ typed ∈ result,
    isNormalizedTypedFields typed.toJson = .ok true ∧
      ∀ style, Json.loads (Json.dumps style typed.toJson) = some typed.toJson

/-- A nonempty object of typed fields. -/
def Proposed (value : Json) : Prop :=
  ∃ members, value = .obj members ∧ members ≠ [] ∧ ∀ m ∈ members, m.1 ∈ typedFieldNames

/-- The inputs on which something is raised. -/
def RaisesOn (value : Json) (content : String) : Prop :=
  Proposed value ∧ (PartsRaise value ∨ OutOfCalendar value ∧ strip content ≠ "")

/-- A candidate sees its content without the blanks around it. -/
theorem make_strip (content subject predicate : String) (object time : Option String)
    (authority : Decimal) (kind scope : String) :
    StateCandidate.make (strip content) subject predicate object authority time kind scope =
      StateCandidate.make content subject predicate object authority time kind scope := by
  have same : required (strip content) "content" = required content "content" := by
    simp only [required, strip_strip]
  rw [StateCandidate.make, StateCandidate.make, same]

theorem normalizeTypedFields_strip (value : Json) (content : String) :
    normalizeTypedFields value (strip content) = normalizeTypedFields value content := by
  have keys : ∀ parts, typedKeys value parts (strip content) = typedKeys value parts content := by
    intro parts
    simp only [typedKeys, make_strip]
  simp only [normalizeTypedFields, keys]

/-- Without content the keys are refused as malformed. -/
theorem typedKeys_blank {value : Json} {parts : TypedParts} {content : String}
    (blank : strip content = "") : ∃ e, typedKeys value parts content = .error e ∧
      e.kind = .valueError := by
  have refused : ∀ subject predicate, StateCandidate.make content subject predicate parts.objectValue
      .half parts.validFrom "state" "private" =
        .error (valueError "content must not be empty") := by
    intro subject predicate
    rw [StateCandidate.make, required, dif_pos blank]
    rfl
  unfold typedKeys
  cases subject : normalizeSubjectKey (field "subject" value) with
  | error e => exact ⟨e, rfl, normalizeKey_eq_error subject⟩
  | ok s =>
      rw [ok_bind]
      cases predicate : normalizePredicateKey (field "predicate" value) with
      | error e => exact ⟨e, rfl, normalizeKey_eq_error predicate⟩
      | ok p =>
          rw [ok_bind, refused]
          exact ⟨_, rfl, rfl⟩

theorem abstains_of_ok {value : Json} {content : String} {result : Option TypedFields}
    (printed : ConfidencePrinted value) (made : normalizeTypedFields value content = .ok result) :
    Abstains value content := by
  refine ⟨result, made, fun typed returned => ?_⟩
  cases returned
  have normalized := normalizeTypedFields_normalized printed made
  exact ⟨isNormalizedTypedFields_toJson normalized,
    fun style => Json.loads_dumps style (toJson_canonical normalized)⟩

theorem not_abstains_of_error {value : Json} {content : String} {failure : Failure}
    (raised : normalizeTypedFields value content = .error failure) : ¬ Abstains value content := by
  rintro ⟨result, made, -⟩
  rw [raised] at made
  cases made

/-- The typed fields of a proposal are handled exactly when their kind has a hash, their confidence
is no integer beyond the largest float, and their timestamp stays in the calendar.  Without content
nothing past the first checks raises. -/
theorem abstains_iff (value : Json) (content : String) (printed : ConfidencePrinted value) :
    Abstains value content ↔ ¬ RaisesOn value content := by
  by_cases proposed : Proposed value
  · obtain ⟨members, rfl, filled, known⟩ := proposed
    have proceed : ¬ (members = [] ∨ ∃ m ∈ members, m.1 ∉ typedFieldNames) := by
      rintro (empty | ⟨m, mem, unknown⟩)
      · exact filled empty
      · exact unknown (known m mem)
    by_cases raises : PartsRaise (.obj members)
    · refine iff_of_false ?_ (not_not.2 ⟨⟨members, rfl, filled, known⟩, .inl raises⟩)
      rintro ⟨result, made, -⟩
      unfold normalizeTypedFields at made
      dsimp only at made
      rw [if_neg proceed] at made
      obtain ⟨parts, read, -⟩ := bind_eq_ok.1 made
      exact (typedParts_settled_iff _).1 ⟨parts, read⟩ raises
    · obtain ⟨parts, read⟩ := (typedParts_settled_iff (.obj members)).2 raises
      by_cases blank : strip content = ""
      · refine iff_of_true ?_ ?_
        · suffices made : normalizeTypedFields (.obj members) content = .ok none from
            abstains_of_ok printed made
          unfold normalizeTypedFields
          dsimp only
          rw [if_neg proceed, read, ok_bind]
          cases parts with
          | none => rfl
          | some parts =>
              obtain ⟨e, refused, malformed⟩ := @typedKeys_blank (.obj members) parts content blank
              dsimp only
              rw [refused]
              dsimp only
              rw [if_pos (.inl malformed)]
              rfl
        · rintro ⟨-, early | ⟨-, filled'⟩⟩
          · exact raises early
          · exact filled' blank
      · rcases normalizeTypedFields_accepted (required_strip blank) known ⟨parts, read⟩ with
          ⟨⟨typed, made⟩, inside⟩ | ⟨raised, outside⟩
        · rw [normalizeTypedFields_strip] at made
          refine iff_of_true (abstains_of_ok printed made) ?_
          rintro ⟨-, early | ⟨outside, -⟩⟩
          · exact raises early
          · exact inside outside
        · rw [normalizeTypedFields_strip] at raised
          exact iff_of_false (not_abstains_of_error raised)
            (not_not.2 ⟨⟨members, rfl, filled, known⟩, .inr ⟨outside, blank⟩⟩)
  · refine iff_of_true ?_ fun raises => proposed raises.1
    suffices made : normalizeTypedFields value content = .ok none from abstains_of_ok printed made
    unfold normalizeTypedFields
    split
    · rename_i members
      rw [if_pos]
      by_contra proceed
      obtain ⟨filled, known⟩ := not_or.1 proceed
      refine proposed ⟨members, rfl, filled, fun m mem => ?_⟩
      by_contra unknown
      exact known ⟨m, mem, unknown⟩
    · rfl

/-- The typed fields of a complete proposal are handled, so they are none of the three cases. -/
theorem sample_abstains : ¬ RaisesOn sampleProposal.state "The door is red." := by
  have printed := confidencePrinted_of_canonical sampleProposal.stateValid
  have made : ((normalizeTypedFields sampleProposal.state "The door is red.").map
      fun result => result.map TypedFields.objectValue) = .ok (some (some "red")) := by
    decide +kernel
  obtain ⟨result, made, -⟩ := map_eq_ok.1 made
  exact (abstains_iff _ _ printed).1 (abstains_of_ok printed made)

/-- A list as the kind, an integer of four hundred digits as the confidence, and a timestamp before
the year 1 in UTC: each raises where the fields are to be left out. -/
theorem malformed_fields_raise :
    ¬ Abstains (.obj [("kind", .arr [])]) "The door is red." ∧
      ¬ Abstains (.obj [("confidence", .int (10 ^ 400)), ("kind", .str "state")])
        "The door is red." ∧
      ¬ Abstains (.obj [("confidence", .float sampleConfidence), ("kind", .str "state"),
        ("predicate", .str "color"), ("subject", .str "door"),
        ("valid_from", .str "0001-01-01T00:00:00+23:59"), ("value", .str "red")])
        "The door is red." := by
  have raises : ∀ {value : Json} {content : String},
      (normalizeTypedFields value content).toBool = false → ¬ Abstains value content := by
    intro value content raised
    cases made : normalizeTypedFields value content with
    | error failure => exact not_abstains_of_error made
    | ok result =>
        rw [made] at raised
        cases raised
  exact ⟨raises (by decide +kernel), raises (by decide +kernel), raises (by decide +kernel)⟩

end Enfold.Laws
