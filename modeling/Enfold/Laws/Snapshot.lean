/-
# Laws.Snapshot -- the two stages of a snapshot

`makeSnapshot` normalizes the proposals of a model and prints them; `prepareSnapshot` reads
the text back and checks every proposal once more.  The checks are written twice in the
source, and this module compares them.

Normalizing is idempotent: the keys of a slot (`normalizeKey_again`), and with them the
typed fields (`normalizeTypedFields_again`), so the second check of the typed fields passes.
The document is canonical, so reading takes back what was printed (`readSnapshot_made`).
What is left is one field: the first stage accepts an empty excerpt and the second does not
(`readProposal_item`).  `snapshot_stages_agree_iff` draws the exact line.
-/
import Enfold.Model.Extraction
import Enfold.Model.Runs
import Mathlib.Data.Fintype.Basic

namespace Enfold.Laws

open Enfold.Theory Enfold.Model

set_option autoImplicit false

/-! ## Slot keys -/

/-- Nothing is replaced in a text without separators. -/
theorem underscored_of_none {separator : Char → Bool} {cs : List Char}
    (none : ∀ c ∈ cs, separator c = false) (inside : Bool) :
    underscored separator inside cs = cs := by
  induction cs generalizing inside with
  | nil => rfl
  | cons c cs ih =>
      have here := none c List.mem_cons_self
      rw [underscored, if_neg (by simp [here]), ih fun c mem => none c (List.mem_cons_of_mem _ mem)]

/-- What is left has no separators. -/
theorem underscored_clean {separator : Char → Bool} (underscore : separator '_' = false)
    (inside : Bool) (cs : List Char) : ∀ c ∈ underscored separator inside cs, separator c = false := by
  induction cs generalizing inside with
  | nil => simp [underscored]
  | cons c cs ih =>
      intro d mem
      rw [underscored] at mem
      split at mem
      · split at mem
        · exact ih true d mem
        · rcases List.mem_cons.1 mem with rfl | mem
          · exact underscore
          · exact ih true d mem
      · rename_i kept
        rcases List.mem_cons.1 mem with rfl | mem
        · simpa using kept
        · exact ih false d mem

/-- A normalized key matches its pattern and has no separators. -/
theorem normalizeKey_eq_ok {pattern : Regex} {separator : Char → Bool} {name key : String}
    {value : Json} (underscore : separator '_' = false)
    (normalized : normalizeKey pattern separator name value = .ok key) :
    pattern.fullmatch key ∧ ∀ c ∈ key.toList, separator c = false := by
  match value, normalized with
  | .str text, normalized =>
      unfold normalizeKey at normalized
      dsimp only at normalized
      generalize made : String.ofList (underscored separator false
        (casefold (strip text)).toList) = result at normalized
      by_cases matched : pattern.fullmatch result
      · rw [if_pos matched] at normalized
        obtain rfl := Except.ok.inj normalized
        refine ⟨matched, ?_⟩
        rw [← made, String.toList_ofList]
        exact underscored_clean underscore false _
      · rw [if_neg matched] at normalized
        cases normalized

section Keys

variable {separator : Char → Bool} {extra : List Char} {bound : Nat} {name key : String}
  {value : Json}

/-- The pattern of a key: a start character, then more of them and the extra ones. -/
def keyPattern (extra : List Char) (bound : Nat) : Regex :=
  .sequence [.one keyStart, .many (fun c => keyStart c || extra.contains c) 0 (some bound)]

theorem plain_of_keyStart {c : Char} (start : keyStart c = true) : PlainChar c := by
  simp only [keyStart, isAsciiLower, isAsciiDigit, Bool.or_eq_true, Bool.and_eq_true,
    decide_eq_true_eq, Char.le_def, UInt32.le_iff_toNat_le] at start
  have code : c.val.toNat = c.toNat := rfl
  have bounds : ('a' : Char).val.toNat = 97 ∧ ('z' : Char).val.toNat = 122 ∧
      ('0' : Char).val.toNat = 48 ∧ ('9' : Char).val.toNat = 57 := by decide
  unfold PlainChar
  omega

/-- The characters of a matching key are plain when the extra ones are. -/
theorem plain_of_key (plain : ∀ c ∈ extra, PlainChar c)
    (matched : (keyPattern extra bound).fullmatch key) : ∀ c ∈ key.toList, PlainChar c := by
  have within : (keyPattern extra bound).Within PlainChar := by
    refine ⟨fun c start => plain_of_keyStart start, fun c more => ?_⟩
    rcases Bool.or_eq_true_iff.1 more with start | more
    · exact plain_of_keyStart start
    · exact plain c (List.contains_iff_mem.1 more)
  exact Regex.mem_of_fullmatch within matched

/-- A normalized key has no white space in it. -/
theorem normalizeKey_required (underscore : separator '_' = false)
    (blank : ∀ c, isSpace c = true → separator c = true)
    (normalized : normalizeKey (keyPattern extra bound) separator name value = .ok key) :
    Required key := by
  obtain ⟨matched, clean⟩ := normalizeKey_eq_ok underscore normalized
  constructor
  · refine strip_of_solid fun c mem => ?_
    by_contra space
    have separates := blank c (by simpa using space)
    rw [clean c mem] at separates
    cases separates
  · rintro rfl
    cases matched

/-- A normalized key is normalized to itself. -/
theorem normalizeKey_again (underscore : separator '_' = false)
    (blank : ∀ c, isSpace c = true → separator c = true) (plain : ∀ c ∈ extra, PlainChar c)
    (normalized : normalizeKey (keyPattern extra bound) separator name value = .ok key) :
    normalizeKey (keyPattern extra bound) separator name (.str key) = .ok key := by
  obtain ⟨matched, clean⟩ := normalizeKey_eq_ok underscore normalized
  have stripped := (normalizeKey_required underscore blank normalized).1
  unfold normalizeKey
  dsimp only
  rw [stripped, casefold_of_plain (plain_of_key plain matched), underscored_of_none clean,
    String.ofList_toList, if_pos matched]

end Keys

theorem normalizeSubjectKey_again {value : Json} {key : String}
    (normalized : normalizeSubjectKey value = .ok key) :
    Required key ∧ normalizeSubjectKey (.str key) = .ok key := by
  have shape : normalizeKey (keyPattern ['.', '_', ':', '/', '-'] 127) isSpace "subject_key" value =
      .ok key := normalized
  exact ⟨normalizeKey_required (by decide) (fun _ space => space) shape,
    normalizeKey_again (by decide) (fun _ space => space) (by decide) shape⟩

theorem normalizePredicateKey_again {value : Json} {key : String}
    (normalized : normalizePredicateKey value = .ok key) :
    Required key ∧ normalizePredicateKey (.str key) = .ok key := by
  have shape : normalizeKey (keyPattern ['.', '_', '-'] 63) (fun c => isSpace c || c == '-')
      "predicate_key" value = .ok key := normalized
  exact ⟨normalizeKey_required (by decide) (fun _ space => by simp [space]) shape,
    normalizeKey_again (by decide) (fun _ space => by simp [space]) (by decide) shape⟩

/-! ## Typed fields -/

/-- What normalized typed fields satisfy. -/
structure Normalized (typed : TypedFields) : Prop where
  confident : minTypedConfidence.value ≤ typed.confidence.value ∧ typed.confidence.value ≤ 1
  printed : typed.confidence.nearest = some typed.confidence
  object : typedObject typed.negation (Json.ofText typed.objectValue) = some typed.objectValue
  timestamp : typedTimestamp (Json.ofText typed.validFrom) = some typed.validFrom
  stripped : typed.validFrom.map strip = typed.validFrom
  parses : Parses typed.validFrom
  subject : Required typed.subjectKey ∧
    normalizeSubjectKey (.str typed.subjectKey) = .ok typed.subjectKey
  predicate : Required typed.predicateKey ∧
    normalizePredicateKey (.str typed.predicateKey) = .ok typed.predicateKey

theorem nonblank_eq_some {value : Json} {text : String} :
    nonblank value = some text ↔ value = .str text ∧ strip text ≠ "" := by
  cases value <;> simp only [nonblank, reduceCtorEq, false_and, Json.str.injEq]
  split
  · rename_i blank
    simp only [false_iff, not_and, not_not, reduceCtorEq]
    rintro rfl
    exact blank
  · rename_i filled
    simp only [Option.some.injEq, iff_self_and]
    rintro rfl
    exact filled

theorem typedObject_again {negation : Bool} {value : Json} {object : Option String}
    (read : typedObject negation value = some object) :
    typedObject negation (Json.ofText object) = some object := by
  cases negation with
  | true =>
      cases value <;> simp [typedObject] at read
      subst read
      rfl
  | false =>
      simp only [typedObject, Bool.false_eq_true, if_false, Option.map_eq_some_iff,
        nonblank_eq_some] at read
      obtain ⟨text, ⟨-, filled⟩, rfl⟩ := read
      simp [typedObject, Json.ofText, nonblank, filled]

theorem typedTimestamp_again {value : Json} {time : Option String}
    (read : typedTimestamp value = some time) :
    typedTimestamp (Json.ofText (time.map strip)) = some (time.map strip) := by
  have cases : time = none ∨ ∃ text, time = some text ∧ strip text ≠ "" := by
    cases value with
    | null => exact .inl (by simpa [typedTimestamp] using read.symm)
    | str text =>
        simp only [typedTimestamp, Option.map_eq_some_iff, nonblank_eq_some] at read
        obtain ⟨text, ⟨-, filled⟩, rfl⟩ := read
        exact .inr ⟨text, rfl, filled⟩
    | _ => simp [typedTimestamp, nonblank] at read
  rcases cases with rfl | ⟨text, rfl, filled⟩
  · rfl
  · simp [typedTimestamp, Json.ofText, nonblank, filled]

/-- A timestamp is read without the blanks around it. -/
theorem parses_strip {time : Option String} (parses : Parses time) : Parses (time.map strip) := by
  cases time with
  | none => exact parses
  | some text =>
      obtain ⟨instant, parsed⟩ := parses
      refine ⟨instant, ?_⟩
      simp only [parseTimestamp, Option.map_some, strip_strip] at parsed ⊢
      by_cases blank : strip text = ""
      · rw [if_pos blank] at parsed ⊢
        exact parsed
      · rw [if_neg blank] at parsed ⊢
        split at parsed
        · cases parsed
        · exact parsed

/-- A confidence that can count is given by the numeral that prints it. -/
def ConfidencePrinted (value : Json) : Prop :=
  ∀ x, field "confidence" value = .float x →
    minTypedConfidence.value ≤ x.value ∧ x.value ≤ 1 → x.nearest = some x

theorem confidencePrinted_of_canonical {value : Json} (canonical : value.Canonical) :
    ConfidencePrinted value := by
  intro x given _
  have float := canonical_field canonical "confidence"
  rw [given] at float
  simpa only [Json.Canonical] using float

/-- A confidence is a float, printed by its own numeral. -/
theorem typedConfidence_eq_some {value : Json} {x : Decimal}
    (printed : ∀ x, value = .float x →
      minTypedConfidence.value ≤ x.value ∧ x.value ≤ 1 → x.nearest = some x)
    (read : typedConfidence value = .ok (some x)) :
    (minTypedConfidence.value ≤ x.value ∧ x.value ≤ 1) ∧ x.nearest = some x := by
  obtain ⟨confidence, float, read⟩ := bind_eq_ok.1 read
  have kept := pure_eq_ok.1 read
  simp only [Option.filter_eq_some_iff, decide_eq_true_eq] at kept
  obtain ⟨rfl, bounds⟩ := kept
  refine ⟨bounds, ?_⟩
  cases value with
  | int n =>
      simp only [floatOf] at float
      split at float
      · rename_i y made
        cases float
        simp only [floatOfInt, Option.bind_eq_some_iff] at made
        obtain ⟨spelled, -, nearest⟩ := made
        exact Decimal.nearest_nearest nearest
      · cases float
  | float y =>
      cases float
      exact printed _ rfl bounds
  | _ => cases float

/-- What the first checks of the typed fields leave. -/
theorem typedParts_eq_some {value : Json} {parts : TypedParts} (printed : ConfidencePrinted value)
    (read : typedParts value = .ok (some parts)) :
    ((minTypedConfidence.value ≤ parts.confidence.value ∧ parts.confidence.value ≤ 1) ∧
        parts.confidence.nearest = some parts.confidence) ∧
      (∃ object, typedObject parts.negation object = some parts.objectValue) ∧
        ∃ time, typedTimestamp time = some parts.validFrom := by
  unfold typedParts at read
  obtain ⟨kind, -, read⟩ := bind_eq_ok.1 read
  cases kind with
  | none => cases read
  | some kind =>
      obtain ⟨confidence, confident, read⟩ := bind_eq_ok.1 read
      cases confidence with
      | none => cases read
      | some confidence =>
          dsimp only at read
          split at read
          · cases read
          split at read
          · cases read
          split at read
          · cases read
          split at read
          · rename_i object time
            cases pure_eq_ok.1 read
            exact ⟨typedConfidence_eq_some printed confident, ⟨_, object⟩,
              ⟨_, time⟩⟩
          · cases read

/-- A candidate that exists has a readable timestamp. -/
theorem stateCandidate_parses {content subject predicate kind scope : String}
    {object time : Option String} {authority : Decimal} {candidate : StateCandidate}
    (made : StateCandidate.make content subject predicate object authority time kind scope =
      .ok candidate) : Parses time := by
  obtain ⟨⟨_, _⟩, -, made⟩ := bind_eq_ok.1 made
  obtain ⟨⟨_, _⟩, -, made⟩ := bind_eq_ok.1 made
  obtain ⟨⟨_, _⟩, -, made⟩ := bind_eq_ok.1 made
  obtain ⟨⟨_, _⟩, -, made⟩ := bind_eq_ok.1 made
  obtain ⟨⟨_, _⟩, -, made⟩ := bind_eq_ok.1 made
  obtain ⟨⟨_⟩, -, made⟩ := bind_eq_ok.1 made
  dsimp only at made
  unfold StateCandidate.withValidFrom at made
  split at made
  · rename_i instant parsed
    exact ⟨instant, parsed⟩
  · cases made

theorem typedKeys_eq_ok {value : Json} {parts : TypedParts} {content subject predicate : String}
    (keys : typedKeys value parts content = .ok (subject, predicate)) :
    normalizeSubjectKey (field "subject" value) = .ok subject ∧
      normalizePredicateKey (field "predicate" value) = .ok predicate ∧ Parses parts.validFrom := by
  obtain ⟨subject', here, keys⟩ := bind_eq_ok.1 keys
  obtain ⟨predicate', there, keys⟩ := bind_eq_ok.1 keys
  obtain ⟨candidate, made, keys⟩ := bind_eq_ok.1 keys
  cases pure_eq_ok.1 keys
  exact ⟨here, there, stateCandidate_parses made⟩

/-- The typed fields that come out are normalized. -/
theorem normalizeTypedFields_normalized {value : Json} {content : String} {typed : TypedFields}
    (confidence : ConfidencePrinted value)
    (made : normalizeTypedFields value content = .ok (some typed)) : Normalized typed := by
  unfold normalizeTypedFields at made
  split at made
  · split at made
    · cases made
    obtain ⟨parts, read, made⟩ := bind_eq_ok.1 made
    cases parts with
    | none => cases made
    | some parts =>
        dsimp only at made
        split at made
        · rename_i subject predicate keys
          cases pure_eq_ok.1 made
          obtain ⟨⟨confident, printed⟩, ⟨_, object⟩, ⟨_, time⟩⟩ := typedParts_eq_some confidence read
          obtain ⟨subjectKey, predicateKey, parses⟩ := typedKeys_eq_ok keys
          exact
            { confident, printed
              object := typedObject_again object
              timestamp := typedTimestamp_again time
              stripped := by cases parts.validFrom <;> simp
              parses := parses_strip parses
              subject := normalizeSubjectKey_again subjectKey
              predicate := normalizePredicateKey_again predicateKey }
        · split at made <;> cases made
  · cases made

theorem withValidFrom_of (candidate : StateCandidate) {time : Option String} (parses : Parses time) :
    ∃ dated, candidate.withValidFrom time = .ok dated := by
  obtain ⟨instant, parsed⟩ := parses
  unfold StateCandidate.withValidFrom
  split
  · exact ⟨_, rfl⟩
  · rename_i failed
    rw [parsed] at failed
    cases failed

/-- A candidate with mandatory texts and a readable timestamp is accepted. -/
theorem stateCandidate_of {content subject predicate : String} (object : Option String)
    {time : Option String} (contentValid : Required content) (subjectValid : Required subject)
    (predicateValid : Required predicate) (parses : Parses time) :
    ∃ candidate, StateCandidate.make content subject predicate object .half time "state" "private" =
      .ok candidate := by
  have state : Required "state" := by decide +kernel
  have scope : Required "private" := by decide +kernel
  have unit : InUnit Decimal.half := by decide +kernel
  simp only [StateCandidate.make, required_of contentValid, required_of scope,
    required_of subjectValid, required_of predicateValid, required_of state, checked_of unit, ok_bind]
  exact withValidFrom_of _ parses

theorem kind_read_text (kind : TypedKind) : TypedKind.read (.str kind.text) = .ok (some kind) := by
  cases kind <;> rfl

/-- The typed fields as a model would state them. -/
def TypedFields.stated (typed : TypedFields) : Json :=
  .obj
    [("confidence", .float typed.confidence), ("kind", .str typed.kind.text),
      ("negation", .bool typed.negation), ("predicate", .str typed.predicateKey),
      ("subject", .str typed.subjectKey), ("valid_from", Json.ofText typed.validFrom),
      ("value", Json.ofText typed.objectValue)]

/-- A value that is no list and no object equals itself. -/
def IsScalar : Json → Prop
  | .arr _ | .obj _ => False
  | _ => True

theorem sameScalar_self {v : Json} (scalar : IsScalar v) : sameScalar v v = true := by
  cases v <;> simp_all [IsScalar, sameScalar, numeric?]

theorem scalar_ofText (text : Option String) : IsScalar (Json.ofText text) := by
  cases text <;> trivial

section Again

variable {typed : TypedFields} (normalized : Normalized typed)

include normalized

theorem typedParts_stated :
    typedParts (TypedFields.stated typed) =
      .ok (some ⟨typed.confidence, typed.kind, typed.negation, typed.objectValue,
        typed.validFrom⟩) := by
  have confidence : typedConfidence (.float typed.confidence) = .ok (some typed.confidence) := by
    simp only [typedConfidence, floatOf, ok_bind]
    rw [Option.filter_some, if_pos (by simpa using normalized.confident)]
    rfl
  have kind : field "kind" (TypedFields.stated typed) = .str typed.kind.text := rfl
  have given : field "confidence" (TypedFields.stated typed) = .float typed.confidence := rfl
  have negation : typedNegation (TypedFields.stated typed) = some typed.negation := rfl
  have object : ((TypedFields.stated typed).get? "object").getD
      (field "value" (TypedFields.stated typed)) = Json.ofText typed.objectValue := rfl
  have time : ((TypedFields.stated typed).get? "valid_from").getD
      (field "occurred_at" (TypedFields.stated typed)) = Json.ofText typed.validFrom := rfl
  have noObject : hasField "object" (TypedFields.stated typed) = false := rfl
  have noTime : hasField "occurred_at" (TypedFields.stated typed) = false := rfl
  simp only [typedParts, kind, given, kind_read_text, confidence, ok_bind, negation, noObject, noTime,
    object, time, normalized.object, normalized.timestamp, Bool.false_eq_true, false_and, if_false]
  rfl

theorem typedKeys_stated {parts : TypedParts} (time : parts.validFrom = typed.validFrom)
    {content : String} (contentValid : Required content) :
    typedKeys (TypedFields.stated typed) parts content =
      .ok (typed.subjectKey, typed.predicateKey) := by
  have subject : field "subject" (TypedFields.stated typed) = .str typed.subjectKey := rfl
  have predicate : field "predicate" (TypedFields.stated typed) = .str typed.predicateKey := rfl
  obtain ⟨candidate, made⟩ := stateCandidate_of parts.objectValue contentValid normalized.subject.1
    normalized.predicate.1 (time ▸ normalized.parses)
  simp only [typedKeys, subject, predicate, normalized.subject.2, normalized.predicate.2, ok_bind, made]
  rfl

/-- Normalizing normalized fields gives them back. -/
theorem normalizeTypedFields_again {content : String} (contentValid : Required content) :
    normalizeTypedFields (TypedFields.stated typed) content = .ok (some typed) := by
  unfold normalizeTypedFields
  rw [show TypedFields.stated typed = .obj _ from rfl]
  dsimp only
  rw [if_neg (by simp [typedFieldNames])]
  rw [show Json.obj _ = TypedFields.stated typed from rfl, typedParts_stated normalized, ok_bind]
  dsimp only
  rw [typedKeys_stated normalized rfl contentValid]
  dsimp only
  rw [normalized.stripped]
  rfl

/-- Normalized fields pass the second check. -/
theorem isNormalizedTypedFields_toJson :
    isNormalizedTypedFields typed.toJson = .ok true := by
  have again := normalizeTypedFields_again normalized
    (show Required "snapshot validation" by decide +kernel)
  have all : ∀ m ∈ [("confidence", Json.float typed.confidence), ("kind", Json.str typed.kind.text),
      ("negation", .bool typed.negation), ("object_value", Json.ofText typed.objectValue),
      ("predicate_key", .str typed.predicateKey), ("subject_key", .str typed.subjectKey),
      ("valid_from", Json.ofText typed.validFrom)],
      sameScalar (field m.1 typed.toJson) m.2 = true := by
    intro m mem
    have same : field m.1 typed.toJson = m.2 ∧ IsScalar m.2 := by
      simp only [List.mem_cons, List.not_mem_nil, or_false] at mem
      rcases mem with rfl | rfl | rfl | rfl | rfl | rfl | rfl <;> refine ⟨rfl, ?_⟩ <;>
        first | trivial | exact scalar_ofText _
    rw [same.1]
    exact sameScalar_self same.2
  unfold isNormalizedTypedFields
  rw [show typed.toJson = .obj _ from rfl]
  dsimp only
  rw [if_pos (by rfl)]
  exact bind_eq_ok.2 ⟨some typed, again, by
    dsimp only
    rw [List.all_eq_true.2 all]
    rfl⟩

end Again

/-! ## One proposal through both stages -/

/-- The item of a proposal: its texts stripped, its other fields as they are. -/
structure ItemOf (proposal : ExtractedMemory) (item : SnapshotItem) : Prop where
  content : ∃ text, proposal.content = .str text ∧ item.content = strip text
  category : ∃ text, proposal.category = .str text ∧ item.category = strip text
  tags : proposal.tags = .str item.tags
  excerpt : proposal.evidenceExcerpt = Json.ofText item.evidenceExcerpt
  sensitivity : proposal.sensitivity = .str item.sensitivity
  typed : normalizeTypedFields proposal.state item.content = .ok item.typed

theorem proposalText_eq_ok {value : Json} {text : {text : String // Required text}}
    (read : proposalText value = .ok text) : ∃ given, value = .str given ∧ text.val = strip given := by
  unfold proposalText at read
  split at read
  · rename_i given
    split at read
    · cases read
    · cases read
      exact ⟨given, rfl, rfl⟩
  · cases read

theorem proposalSensitivity_eq_ok {value : Json}
    {text : {text : String // text ∈ permittedSensitivities}}
    (read : proposalSensitivity value = .ok text) : value = .str text.val := by
  unfold proposalSensitivity at read
  split at read
  · split at read
    · cases read
      rfl
    · cases read
  all_goals cases read

theorem proposalTags_eq_ok {value : Json} {tags : String} (read : proposalTags value = .ok tags) :
    value = .str tags := by
  cases value with
  | str text =>
      cases read
      rfl
  | _ => cases read

theorem proposalExcerpt_eq_ok {value : Json} {excerpt : Option String}
    (read : proposalExcerpt value = .ok excerpt) : value = Json.ofText excerpt := by
  cases value with
  | null =>
      cases read
      rfl
  | str text =>
      cases read
      rfl
  | _ => cases read

theorem snapshotItem_eq_ok {envelope : ExtractionEnvelope} {proposal : ExtractedMemory}
    {item : SnapshotItem} (made : snapshotItem envelope proposal = .ok item) :
    ItemOf proposal item := by
  obtain ⟨⟨content, _⟩, contentRead, made⟩ := bind_eq_ok.1 made
  obtain ⟨_, -, made⟩ := bind_eq_ok.1 made
  obtain ⟨⟨sensitivity, _⟩, sensitivityRead, made⟩ := bind_eq_ok.1 made
  obtain ⟨⟨category, _⟩, categoryRead, made⟩ := bind_eq_ok.1 made
  obtain ⟨tags, tagsRead, made⟩ := bind_eq_ok.1 made
  obtain ⟨excerpt, excerptRead, made⟩ := bind_eq_ok.1 made
  obtain ⟨typed, typedRead, made⟩ := bind_eq_ok.1 made
  cases pure_eq_ok.1 made
  exact
    { content := proposalText_eq_ok contentRead
      category := proposalText_eq_ok categoryRead
      tags := proposalTags_eq_ok tagsRead
      excerpt := proposalExcerpt_eq_ok excerptRead
      sensitivity := proposalSensitivity_eq_ok sensitivityRead
      typed := typedRead }

theorem ItemOf.normalized {proposal : ExtractedMemory} {item : SnapshotItem}
    (of : ItemOf proposal item) : ∀ typed ∈ item.typed, Normalized typed := by
  intro typed mem
  exact normalizeTypedFields_normalized (confidencePrinted_of_canonical proposal.stateValid)
    (of.typed.trans (congrArg _ mem))

/-- An item as it is read back. -/
def SnapshotItem.proposal (item : SnapshotItem) : SnapshotProposal where
  category := item.category
  content := item.content
  evidenceExcerpt := item.evidenceExcerpt
  sensitivity := item.sensitivity
  tags := item.tags
  typed := item.typed.map TypedFields.toJson

theorem nonempty_of {text : String} (filled : text ≠ "") : nonempty (.str text) = .ok text := by
  simp [nonempty, filled]

theorem readTyped_item {typed : Option TypedFields} (normalized : ∀ t ∈ typed, Normalized t) :
    readTyped ((typed.map TypedFields.toJson).getD .null) =
      .ok (typed.map TypedFields.toJson) := by
  cases typed with
  | none => rfl
  | some typed =>
      have passes := isNormalizedTypedFields_toJson (normalized typed rfl)
      simp only [Option.map_some, Option.getD_some]
      unfold readTyped
      rw [show typed.toJson = .obj _ from rfl]
      dsimp only
      rw [show Json.obj _ = typed.toJson from rfl, passes, ok_bind]
      rfl

/-- An item is read back unless its excerpt is empty. -/
theorem readProposal_item {item : SnapshotItem} (normalized : ∀ t ∈ item.typed, Normalized t) :
    readProposal item.toJson =
      if item.evidenceExcerpt = some "" then invalidSnapshot else .ok (SnapshotItem.proposal item) := by
  have content : field "content" item.toJson = .str item.content := rfl
  have category : field "category" item.toJson = .str item.category := rfl
  have tags : field "tags" item.toJson = .str item.tags := rfl
  have excerpt : field "evidence_excerpt" item.toJson = Json.ofText item.evidenceExcerpt := rfl
  have sensitivity : field "sensitivity" item.toJson = .str item.sensitivity := rfl
  have typed : field "typed" item.toJson = (item.typed.map TypedFields.toJson).getD .null := by
    unfold SnapshotItem.toJson
    cases item.typed <;> rfl
  unfold readProposal
  rw [show item.toJson = .obj _ from rfl]
  dsimp only
  rw [show Json.obj _ = item.toJson from rfl]
  rw [require_of (by
    cases item.typed <;> simp [baseFieldNames])]
  rw [ok_bind, content, nonempty_of item.contentValid.2, ok_bind, category,
    nonempty_of item.categoryValid.2, ok_bind, tags, excerpt, sensitivity, typed,
    readTyped_item normalized]
  have permitted : snapshotSensitivity (.str item.sensitivity) = .ok item.sensitivity :=
    if_pos item.sensitivityValid
  have read : snapshotExcerpt (Json.ofText item.evidenceExcerpt) =
      if item.evidenceExcerpt = some "" then invalidSnapshot else .ok item.evidenceExcerpt := by
    cases item.evidenceExcerpt with
    | none => rfl
    | some text =>
        by_cases empty : text = ""
        · subst empty
          rfl
        · simp [snapshotExcerpt, Json.ofText, nonempty, empty, Except.map]
  rw [read, permitted]
  by_cases empty : item.evidenceExcerpt = some ""
  · rw [if_pos empty, if_pos empty]
    rfl
  · rw [if_neg empty, if_neg empty]
    rfl

/-! ## The document -/

/-- The names of the members are in order. -/
theorem names_ordered :
    ["confidence", "kind", "negation", "object_value", "predicate_key", "subject_key",
        "valid_from"].Pairwise (· < ·) ∧
      ["category", "content", "evidence_excerpt", "sensitivity", "tags", "typed"].Pairwise (· < ·) ∧
      ["extractor_identity", "proposals", "version"].Pairwise (· < ·) := by
  decide +kernel

theorem toJson_canonical {typed : TypedFields} (normalized : Normalized typed) :
    typed.toJson.Canonical := by
  refine ⟨names_ordered.1, ?_⟩
  simp [Json.CanonicalMembers, Json.Canonical, Json.canonical_ofText, normalized.printed]

theorem item_canonical {item : SnapshotItem} (normalized : ∀ t ∈ item.typed, Normalized t) :
    item.toJson.Canonical := by
  unfold SnapshotItem.toJson
  cases typed : item.typed with
  | none =>
      refine ⟨List.Pairwise.sublist (List.sublist_append_left _ ["typed"]) names_ordered.2.1, ?_⟩
      simp [Json.CanonicalMembers, Json.Canonical, Json.canonical_ofText]
  | some t =>
      refine ⟨names_ordered.2.1, ?_⟩
      simp [Json.CanonicalMembers, Json.Canonical, Json.canonical_ofText,
        toJson_canonical (normalized t typed)]

theorem snapshotDocument_canonical (identity : String) {items : List SnapshotItem}
    (normalized : ∀ item ∈ items, ∀ t ∈ item.typed, Normalized t) :
    (snapshotDocument identity items).Canonical := by
  refine ⟨names_ordered.2.2, ?_⟩
  have all : Json.CanonicalItems (items.map SnapshotItem.toJson) := by
    rw [Json.canonicalItems_iff]
    intro v mem
    obtain ⟨item, here, rfl⟩ := List.mem_map.1 mem
    exact item_canonical (normalized item here)
  simp [Json.CanonicalMembers, Json.Canonical, all]

/-- A printed snapshot is read back. -/
theorem readSnapshot_made (host : Host) (processor : ExtractionProcessor) {items : List SnapshotItem}
    (normalized : ∀ item ∈ items, ∀ t ∈ item.typed, Normalized t)
    (few : items.length ≤ maxExtractedMemories) :
    readSnapshot host (Json.dumps .unicode (snapshotDocument processor.identity items))
        (host.sha256 (Json.dumps .unicode (snapshotDocument processor.identity items))) =
      .ok (processor.identity, items.map SnapshotItem.toJson) := by
  have read := Json.loads_dumps .unicode (snapshotDocument_canonical processor.identity normalized)
  have identity : field "extractor_identity" (snapshotDocument processor.identity items) =
      .str processor.identity := rfl
  have proposals : field "proposals" (snapshotDocument processor.identity items) =
      .arr (items.map SnapshotItem.toJson) := rfl
  have version : sameScalar (field "version" (snapshotDocument processor.identity items))
      (.int 1) = true := rfl
  unfold readSnapshot
  rw [require_of rfl, ok_bind, read]
  dsimp only
  rw [show snapshotDocument processor.identity items = .obj _ from rfl]
  dsimp only
  rw [show Json.obj _ = snapshotDocument processor.identity items from rfl,
    require_of ⟨rfl, version⟩, ok_bind, identity, proposals]
  dsimp only
  rw [require_of processor.identityValid, ok_bind, require_of (by simpa using few)]
  rfl

/-! ## The write of a proposal -/

theorem solid_of_alnum {c : Char} (alnum : isAsciiAlnum c = true) : isSpace c = false := by
  simp only [isAsciiAlnum, isAsciiUpper, isAsciiLower, isAsciiDigit, Bool.or_eq_true,
    Bool.and_eq_true, decide_eq_true_eq, Char.le_def, UInt32.le_iff_toNat_le] at alnum
  have code : c.val.toNat = c.toNat := rfl
  have bounds : ('A' : Char).val.toNat = 65 ∧ ('Z' : Char).val.toNat = 90 ∧
      ('a' : Char).val.toNat = 97 ∧ ('z' : Char).val.toNat = 122 ∧
      ('0' : Char).val.toNat = 48 ∧ ('9' : Char).val.toNat = 57 := by decide
  simp only [isSpace, inRanges, List.any_cons, List.any_nil, Bool.or_false, Bool.or_eq_false_iff,
    Bool.and_eq_false_iff, decide_eq_false_iff_not]
  omega

/-- A supported scope is a mandatory text. -/
theorem scope_required {scope : String}
    (valid : scope ∈ baseScopes ∨ projectScope.fullmatch scope) : Required scope := by
  rcases valid with base | project
  · revert scope
    decide +kernel
  · have within : projectScope.Within fun c => isSpace c = false := by
      have literal : ∀ c ∈ "project:".toList, isSpace c = false := by decide
      refine ⟨?_, fun c => solid_of_alnum, fun c more => ?_⟩
      · simp [Regex.literal, Regex.sequence, Regex.Within]
        decide
      · simp only [Bool.or_eq_true, beq_iff_eq] at more
        rcases more with ((alnum | rfl) | rfl) | rfl
        · exact solid_of_alnum alnum
        all_goals rfl
    refine ⟨strip_of_solid (Regex.mem_of_fullmatch within project), ?_⟩
    rintro rfl
    cases project

theorem toDigits_getLast (n : Nat) :
    ∀ c, (Nat.toDigits 10 n).getLast? = some c → isSpace c = false := by
  intro c last
  have digit : c.isDigit = true := Json.toDigits_isDigit (List.mem_of_getLast? last)
  refine solid_of_alnum ?_
  simp only [Char.isDigit, Bool.and_eq_true, decide_eq_true_eq] at digit
  simp only [isAsciiAlnum, isAsciiDigit, Bool.or_eq_true, Bool.and_eq_true, decide_eq_true_eq,
    Char.le_def]
  exact .inr digit

/-- A key starts with a letter and ends with a digit. -/
theorem extractionKey_required (digest hash : String) (index : Nat) :
    Required (extractionKey digest hash index) := by
  have nonempty : Nat.toDigits 10 index ≠ [] := Nat.toDigits_ne_nil
  constructor
  · refine strip_of_ends ?_ ?_
    · intro c head
      have first : (extractionKey digest hash index).toList.head? = some 'e' := by
        simp [extractionKey]
      rw [first] at head
      cases head
      rfl
    · intro c last
      have ends : (extractionKey digest hash index).toList.getLast? =
          (Nat.toDigits 10 index).getLast? := by
        obtain ⟨d, digit⟩ := Option.ne_none_iff_exists'.1
          (mt List.getLast?_eq_none_iff.1 nonempty)
        rw [extractionKey, String.toList_append, String.toList_ofList, List.getLast?_append, digit]
        rfl
      exact toDigits_getLast index c (ends ▸ last)
  · intro empty
    have := congrArg String.toList empty
    simp [extractionKey] at this

theorem sensitivity_required {text : String} (permitted : text ∈ permittedSensitivities) :
    Required text := by
  revert text
  decide +kernel

section Request

variable (identity hash : String) (envelope : ExtractionEnvelope) (row : RowIdentity) (index : Nat)
  (item : SnapshotItem)

/-- The write request of an item. -/
def itemRequest : WriteRequest where
  idempotencyKey := extractionKey row.digest hash index
  content := item.content
  sourceType := "automatic_extraction"
  category := item.category
  tags := item.tags
  trustScore := .half
  sourceAuthority := .half
  sourceUri := none
  observationContent := some envelope.transcript
  assertedBy := some identity
  performedBy := none
  observedAt := none
  scope := envelope.scope
  sensitivity := item.sensitivity
  correctionStatus := none
  evidenceExcerpt := item.evidenceExcerpt
  relation := "derived_from"
  metadataJson := extractionMetadata identity hash envelope row (item.typed.map TypedFields.toJson)
  supersedeFactId := none
  operation := "add_fact"
  keyValid := extractionKey_required row.digest hash index
  contentValid := item.contentValid
  sourceTypeValid := by decide +kernel
  categoryValid := item.categoryValid
  scopeValid := scope_required envelope.scopeValid
  sensitivityValid := sensitivity_required item.sensitivityValid
  relationValid := by decide +kernel
  operationValid := by decide +kernel
  trustUnit := half_inUnit
  authorityUnit := half_inUnit
  supersedePositive := none_positive
  metadataObject := ⟨_, rfl⟩

theorem proposalRequest_item :
    proposalRequest identity hash envelope row index (SnapshotItem.proposal item) =
      .ok (itemRequest identity hash envelope row index item) := by
  have source : Required "automatic_extraction" := by decide +kernel
  have relation : Required "derived_from" := by decide +kernel
  have operation : Required "add_fact" := by decide +kernel
  simp only [proposalRequest, SnapshotItem.proposal, WriteRequest.make,
    required_of (extractionKey_required row.digest hash index), required_of item.contentValid,
    required_of source, required_of item.categoryValid, required_of (scope_required envelope.scopeValid),
    required_of (sensitivity_required item.sensitivityValid), required_of relation,
    required_of operation, checked_of half_inUnit, checked_of none_positive,
    ok_bind]
  rfl

/-- The screen of the second stage refuses the item. -/
def ScreenRefuses : Prop :=
  (defaultCredentialScreen (itemRequest identity hash envelope row index item) []).isSome

instance : Decidable (ScreenRefuses identity hash envelope row index item) :=
  inferInstanceAs (Decidable (_ = true))

/-- The parameters of the write of an item. -/
def itemParams : Json :=
  writeParams (itemRequest identity hash envelope row index item)
    (item.typed.map TypedFields.toJson)

/-- The second stage on an item: an empty excerpt is malformed, then the screen decides. -/
def prepareItem : Processing Json :=
  if item.evidenceExcerpt = some "" then invalidSnapshot
  else if ScreenRefuses identity hash envelope row index item then
    .error (.permanent "proposal_credential_rejected")
  else .ok (itemParams identity hash envelope row index item)

theorem prepareProposal_item (normalized : ∀ t ∈ item.typed, Normalized t) :
    prepareProposal identity hash envelope row index item.toJson =
      prepareItem identity hash envelope row index item := by
  unfold prepareProposal prepareItem
  rw [readProposal_item normalized]
  by_cases empty : item.evidenceExcerpt = some ""
  · rw [if_pos empty, if_pos empty]
    rfl
  rw [if_neg empty, if_neg empty, ok_bind, proposalRequest_item]
  dsimp only
  by_cases refused : ScreenRefuses identity hash envelope row index item
  · have some : ¬ (defaultCredentialScreen (itemRequest identity hash envelope row index item)
        []).isNone := by
      simpa [ScreenRefuses, Option.isSome_iff_ne_none] using refused
    rw [if_pos refused, require, if_neg some]
    rfl
  · have none : (defaultCredentialScreen (itemRequest identity hash envelope row index item)
        []).isNone := by
      simpa [ScreenRefuses, Option.isSome_iff_ne_none] using refused
    rw [if_neg refused, require_of none]
    rfl

variable {identity hash envelope row index item}

theorem prepareItem_eq_ok {params : Json} :
    prepareItem identity hash envelope row index item = .ok params ↔
      item.evidenceExcerpt ≠ some "" ∧ ¬ ScreenRefuses identity hash envelope row index item ∧
        params = itemParams identity hash envelope row index item := by
  unfold prepareItem
  by_cases empty : item.evidenceExcerpt = some ""
  · simp [empty, invalidSnapshot]
  by_cases refused : ScreenRefuses identity hash envelope row index item
  · simp [empty, refused]
  · simp [empty, refused, eq_comm]

theorem prepareItem_eq_error {e : Failure}
    (failed : prepareItem identity hash envelope row index item = .error e) :
    item.evidenceExcerpt = some "" ∧ e = .permanent "invalid_snapshot" ∨
      ScreenRefuses identity hash envelope row index item ∧
        e = .permanent "proposal_credential_rejected" := by
  unfold prepareItem at failed
  split at failed
  · rename_i empty
    cases failed
    exact .inl ⟨empty, rfl⟩
  split at failed
  · rename_i refused
    cases failed
    exact .inr ⟨refused, rfl⟩
  · cases failed

end Request

/-! ## The whole snapshot -/

theorem zipIdx_mapM_congr {α β ε : Type} {xs : List α} {f g : α × Nat → Except ε β} (start : Nat)
    (same : ∀ x ∈ xs, ∀ i, f (x, i) = g (x, i)) :
    (xs.zipIdx start).mapM f = (xs.zipIdx start).mapM g := by
  induction xs generalizing start with
  | nil => rfl
  | cons x xs ih =>
      rw [List.zipIdx_cons, List.mapM_cons, List.mapM_cons, same x List.mem_cons_self,
        ih (start + 1) fun x mem => same x (List.mem_cons_of_mem _ mem)]

/-- What the first stage makes of its proposals. -/
theorem snapshotItems_eq_ok {proposals : List ExtractedMemory} {envelope : ExtractionEnvelope}
    {items : List SnapshotItem} (made : snapshotItems proposals envelope = .ok items) :
    proposals.length ≤ maxExtractedMemories ∧
      List.Forall₂ (fun proposal item => snapshotItem envelope proposal = .ok item) proposals
        items := by
  obtain ⟨few, made⟩ := require_bind_eq_ok.1 made
  exact ⟨few, mapM_eq_ok.1 made⟩

theorem items_normalized {proposals : List ExtractedMemory} {envelope : ExtractionEnvelope}
    {items : List SnapshotItem}
    (made : List.Forall₂ (fun proposal item => snapshotItem envelope proposal = .ok item) proposals
      items) : ∀ item ∈ items, ∀ t ∈ item.typed, Normalized t := by
  intro item mem
  obtain ⟨i, here, rfl⟩ := List.getElem_of_mem mem
  have there : i < proposals.length := made.length_eq ▸ here
  exact (snapshotItem_eq_ok (made.get there here)).normalized

/-- The second stage on what the first stage made. -/
theorem prepareSnapshot_made {host : Host} {processor : ExtractionProcessor}
    {proposals : List ExtractedMemory} {envelope : ExtractionEnvelope} {text hash : String}
    (made : makeSnapshot host processor proposals envelope = .ok (text, hash)) :
    ∃ items,
      List.Forall₂ (fun proposal item => snapshotItem envelope proposal = .ok item) proposals items ∧
        ∀ row, prepareSnapshot host text hash envelope row =
          items.zipIdx.mapM fun p =>
            prepareItem processor.identity hash envelope row p.2 p.1 := by
  obtain ⟨items, checked, made⟩ := bind_eq_ok.1 made
  obtain ⟨few, each⟩ := snapshotItems_eq_ok checked
  have normalized := items_normalized each
  have read := readSnapshot_made host processor normalized (each.length_eq ▸ few)
  dsimp only at made
  generalize Json.dumps .unicode (snapshotDocument processor.identity items) = printed at made read
  cases pure_eq_ok.1 made
  refine ⟨items, each, fun row => ?_⟩
  unfold prepareSnapshot
  rw [read, ok_bind]
  dsimp only
  rw [List.zipIdx_map, List.mapM_map]
  refine zipIdx_mapM_congr 0 ?_
  intro item mem i
  simp only [Function.comp_apply, Prod.map_apply, id_eq]
  exact prepareProposal_item processor.identity (host.sha256 text) envelope row i item
    (normalized item mem)

/-! ## Agreement of the stages -/

/-- The parameters of a write carry the proposal. -/
structure CarriesProposal (proposal : ExtractedMemory) (params : Json) : Prop where
  content : ∃ text, proposal.content = .str text ∧ field "content" params = .str (strip text)
  category : ∃ text, proposal.category = .str text ∧ field "category" params = .str (strip text)
  tags : field "tags" params = proposal.tags
  excerpt : field "evidence_excerpt" params = proposal.evidenceExcerpt
  sensitivity : field "sensitivity" params = proposal.sensitivity
  /-- There are state parameters exactly when the normalized typed fields are of that kind. -/
  state : hasField "state" params ↔ ∃ text, proposal.content = .str text ∧
    ∃ typed, normalizeTypedFields proposal.state (strip text) = .ok (some typed) ∧
      typed.kind = .state

/-- The screen of the second stage refuses the proposal. -/
def Refused (processor : ExtractionProcessor) (hash : String) (envelope : ExtractionEnvelope)
    (row : RowIdentity) (index : Nat) (proposal : ExtractedMemory) : Prop :=
  ∃ item, snapshotItem envelope proposal = .ok item ∧
    ScreenRefuses processor.identity hash envelope row index item

theorem blank_iff {envelope : ExtractionEnvelope} {proposal : ExtractedMemory} {item : SnapshotItem}
    (checked : snapshotItem envelope proposal = .ok item) :
    proposal.evidenceExcerpt = .str "" ↔ item.evidenceExcerpt = some "" := by
  rw [(snapshotItem_eq_ok checked).excerpt]
  cases item.evidenceExcerpt <;> simp [Json.ofText]

theorem refused_iff {processor : ExtractionProcessor} {hash : String}
    {envelope : ExtractionEnvelope} {row : RowIdentity} {index : Nat} {proposal : ExtractedMemory}
    {item : SnapshotItem} (checked : snapshotItem envelope proposal = .ok item) :
    Refused processor hash envelope row index proposal ↔
      ScreenRefuses processor.identity hash envelope row index item := by
  constructor
  · rintro ⟨item', checked', refuses⟩
    rw [checked] at checked'
    cases checked'
    exact refuses
  · exact fun refuses => ⟨item, checked, refuses⟩

/-- The second stage accepts what the first one made, and returns one write for each
proposal unless the screen refuses one. -/
structure StagesAgree (host : Host) (processor : ExtractionProcessor)
    (proposals : List ExtractedMemory) (envelope : ExtractionEnvelope) (row : RowIdentity)
    (text hash : String) : Prop where
  accepts : ∀ code ∈ ["invalid_snapshot", "snapshot_hash_mismatch", "proposal_limit"],
    prepareSnapshot host text hash envelope row ≠ .error (.permanent code)
  returns : (∀ (i : Nat) proposal, proposals[i]? = some proposal →
      ¬ Refused processor hash envelope row i proposal) →
    ∃ params, prepareSnapshot host text hash envelope row = .ok params ∧
      List.Forall₂ CarriesProposal proposals params

theorem isState_toJson (typed : TypedFields) :
    isState typed.toJson = true ↔ typed.kind = .state := by
  have kind : field "kind" typed.toJson = .str typed.kind.text := rfl
  rw [isState, kind]
  cases typed.kind <;> simp [sameScalar, TypedKind.text]

/-- The write of an item carries its proposal. -/
theorem carries_itemParams {proposal : ExtractedMemory} {item : SnapshotItem}
    (of : ItemOf proposal item) (identity hash : String) (envelope : ExtractionEnvelope)
    (row : RowIdentity) (index : Nat) :
    CarriesProposal proposal (itemParams identity hash envelope row index item) := by
  obtain ⟨text, given, stripped⟩ := of.content
  obtain ⟨name, named, trimmed⟩ := of.category
  have content : field "content" (itemParams identity hash envelope row index item) =
      .str item.content := rfl
  have category : field "category" (itemParams identity hash envelope row index item) =
      .str item.category := rfl
  have tags : field "tags" (itemParams identity hash envelope row index item) = .str item.tags := by
    unfold itemParams writeParams stateParams
    cases item.typed with
    | none => rfl
    | some typed =>
        simp only [Option.map_some]
        split <;> rfl
  refine
    { content := ⟨text, given, by rw [content, stripped]⟩
      category := ⟨name, named, by rw [category, trimmed]⟩
      tags := tags.trans of.tags.symm
      excerpt := of.excerpt.symm
      sensitivity := of.sensitivity.symm
      state := ?_ }
  have typed := of.typed
  rw [stripped] at typed
  have present : hasField "state" (itemParams identity hash envelope row index item) = true ↔
      ∃ t, item.typed = some t ∧ t.kind = .state := by
    unfold itemParams writeParams stateParams
    cases item.typed with
    | none =>
        simp only [Option.map_none, reduceCtorEq, false_and, exists_false, iff_false]
        exact Bool.false_ne_true
    | some t =>
        simp only [Option.map_some, Option.some.injEq, exists_eq_left']
        by_cases state : isState t.toJson = true
        · rw [if_pos state]
          exact ⟨fun _ => (isState_toJson t).1 state, fun _ => rfl⟩
        · rw [if_neg state]
          exact ⟨fun some => absurd some Bool.false_ne_true,
            fun kind => absurd ((isState_toJson t).2 kind) state⟩
  rw [present]
  constructor
  · rintro ⟨t, some, kind⟩
    exact ⟨text, given, t, some ▸ typed, kind⟩
  · rintro ⟨text', given', t, normalized, kind⟩
    rw [given] at given'
    cases given'
    rw [typed] at normalized
    exact ⟨t, Except.ok.inj normalized, kind⟩

section Agreement

variable {host : Host} {processor : ExtractionProcessor} {proposals : List ExtractedMemory}
  {envelope : ExtractionEnvelope} {text hash : String}

theorem getElem?_zipIdx_eq_some {α : Type} {xs : List α} {i : Nat} {p : α × Nat} :
    xs.zipIdx[i]? = some p ↔ xs[i]? = some p.1 ∧ p.2 = i := by
  rw [List.getElem?_zipIdx, Option.map_eq_some_iff]
  constructor
  · rintro ⟨x, here, rfl⟩
    exact ⟨here, by simp⟩
  · rintro ⟨here, index⟩
    exact ⟨p.1, here, by simp [← index]⟩

/-- The two stages agree on a batch exactly when every proposal with an empty excerpt stands
after one that the screen refuses: until then the second stage does not look at it, and at the first
such excerpt it fails. -/
theorem snapshot_stages_agree_iff
    (made : makeSnapshot host processor proposals envelope = .ok (text, hash)) (row : RowIdentity) :
    StagesAgree host processor proposals envelope row text hash ↔
      ∀ (i : Nat) proposal, proposals[i]? = some proposal → proposal.evidenceExcerpt = .str "" →
        ∃ j < i, ∃ earlier, proposals[j]? = some earlier ∧
          Refused processor hash envelope row j earlier := by
  obtain ⟨items, each, prepared⟩ := prepareSnapshot_made made
  specialize prepared row
  constructor
  · intro agree i proposal here empty
    by_contra unrefused
    push Not at unrefused
    have exists_blank : ∃ k, k ≤ i ∧ ∃ q, proposals[k]? = some q ∧ q.evidenceExcerpt = .str "" :=
      ⟨i, Nat.le_refl i, proposal, here, empty⟩
    classical
    obtain ⟨below, q, there, blank⟩ := Nat.find_spec exists_blank
    obtain ⟨item, at_item, checked⟩ := forall₂_getElem? each there
    refine agree.accepts "invalid_snapshot" (by simp) ?_
    rw [prepared, mapM_eq_error]
    refine ⟨Nat.find exists_blank, (item, Nat.find exists_blank), getElem?_zipIdx_eq_some.2 ⟨at_item, rfl⟩, ?_, ?_⟩
    · rw [prepareItem, if_pos ((blank_iff checked).1 blank)]
      rfl
    · intro j less p at_j
      obtain ⟨at_j, index⟩ := getElem?_zipIdx_eq_some.1 at_j
      obtain ⟨earlier, at_earlier, made⟩ := forall₂_getElem? each.flip at_j
      refine ⟨_, prepareItem_eq_ok.2 ⟨?_, ?_, rfl⟩⟩
      · intro blank
        exact Nat.find_min exists_blank less ⟨by omega, earlier, at_earlier, (blank_iff made).2 blank⟩
      · rw [index]
        exact fun refuses => unrefused j (by omega) earlier at_earlier
          ((refused_iff made).2 refuses)
  · intro guarded
    constructor
    · intro code listed failed
      rw [prepared, mapM_eq_error] at failed
      obtain ⟨i, p, at_i, failed, before⟩ := failed
      obtain ⟨at_i, index⟩ := getElem?_zipIdx_eq_some.1 at_i
      obtain ⟨proposal, here, made⟩ := forall₂_getElem? each.flip at_i
      rcases prepareItem_eq_error failed with ⟨blank, -⟩ | ⟨-, rejected⟩
      · obtain ⟨j, less, earlier, at_earlier, refused⟩ :=
          guarded i proposal here ((blank_iff made).2 blank)
        obtain ⟨item, at_item, checked⟩ := forall₂_getElem? each at_earlier
        obtain ⟨params, done⟩ := before j less (item, j) (getElem?_zipIdx_eq_some.2 ⟨at_item, rfl⟩)
        exact (prepareItem_eq_ok.1 done).2.1 ((refused_iff checked).1 refused)
      · cases rejected
        simp at listed
    · intro passed
      have done : ∀ p ∈ items.zipIdx, prepareItem processor.identity hash envelope row p.2 p.1 =
          .ok (itemParams processor.identity hash envelope row p.2 p.1) := by
        intro p mem
        obtain ⟨i, at_i⟩ := List.mem_iff_getElem?.1 mem
        obtain ⟨at_i, index⟩ := getElem?_zipIdx_eq_some.1 at_i
        obtain ⟨proposal, here, made⟩ := forall₂_getElem? each.flip at_i
        refine prepareItem_eq_ok.2 ⟨fun blank => ?_, fun refuses => ?_, rfl⟩
        · obtain ⟨j, less, earlier, at_earlier, refused⟩ :=
            guarded i proposal here ((blank_iff made).2 blank)
          exact passed j earlier at_earlier refused
        · rw [index] at refuses
          exact passed i proposal here ((refused_iff made).2 refuses)
      refine ⟨items.zipIdx.map fun p => itemParams processor.identity hash envelope row p.2 p.1,
        ?_, ?_⟩
      · rw [prepared, mapM_eq_ok, List.forall₂_map_right_iff, List.forall₂_same]
        exact done
      · refine forall₂_of_getElem? (by simp [each.length_eq]) ?_
        intro i proposal params here at_i
        obtain ⟨item, at_item, checked⟩ := forall₂_getElem? each here
        simp only [List.getElem?_map, List.getElem?_zipIdx, at_item, Option.map_some,
          Option.some.injEq] at at_i
        rw [← at_i]
        exact carries_itemParams (snapshotItem_eq_ok checked) _ _ _ _ _

end Agreement

/-! ## Sample batches -/

def sampleProcessor : ExtractionProcessor where
  identity := "model/prompt"
  workerId := "worker"
  maxAttempts := 3
  identityValid := by decide +kernel
  attemptsPositive := by decide

def sampleEnvelope : ExtractionEnvelope where
  transcript := "We painted the door red."
  source := "chat"
  scope := "work"
  context := ⟨"agent-a", "cli", "agent", "session", none, none, none, none, none, ["work"]⟩
  transcriptValid := by decide +kernel
  sourceValid := by decide +kernel
  scopeValid := .inl (by decide)
  scopeGranted := by decide
  scopeStorable := by decide

/-- `0.95`. -/
def sampleConfidence : Decimal :=
  ⟨false, ['9', '5'], 0, by decide, by decide, by decide, by decide⟩

theorem sampleConfidence_printed : sampleConfidence.nearest = some sampleConfidence := by
  decide +kernel

/-- A typed proposal with its evidence. -/
def sampleProposal : ExtractedMemory where
  content := .str " The door is red. "
  evidenceExcerpt := .str "the door red"
  state := .obj
    [("confidence", .float sampleConfidence), ("kind", .str "state"), ("predicate", .str "Color"),
      ("subject", .str "the door"), ("value", .str "red")]
  stateValid := by
    refine ⟨by decide +kernel, ?_⟩
    simp [Json.CanonicalMembers, Json.Canonical, sampleConfidence_printed]

/-- A proposal whose excerpt is the empty text. -/
def blankProposal : ExtractedMemory where
  content := .str "The door is red."
  evidenceExcerpt := .str ""

theorem makeSnapshot_of (host : Host) (processor : ExtractionProcessor)
    {proposals : List ExtractedMemory} {envelope : ExtractionEnvelope}
    (accepted : (snapshotItems proposals envelope).toBool = true) :
    ∃ text hash, makeSnapshot host processor proposals envelope = .ok (text, hash) := by
  unfold makeSnapshot
  cases made : snapshotItems proposals envelope with
  | error e =>
      rw [made] at accepted
      cases accepted
  | ok items => exact ⟨_, _, rfl⟩

theorem sample_stages_agree :
    ∃ text hash,
      makeSnapshot Sample.host sampleProcessor [sampleProposal] sampleEnvelope = .ok (text, hash) ∧
        StagesAgree Sample.host sampleProcessor [sampleProposal] sampleEnvelope ⟨1, "digest"⟩ text
          hash := by
  obtain ⟨text, hash, made⟩ := makeSnapshot_of Sample.host sampleProcessor
    (show (snapshotItems [sampleProposal] sampleEnvelope).toBool = true by decide +kernel)
  refine ⟨text, hash, made, (snapshot_stages_agree_iff made ⟨1, "digest"⟩).2 ?_⟩
  intro i proposal here empty
  cases i with
  | zero =>
      cases here
      simp [sampleProposal] at empty
  | succ i => cases here

/-- An empty excerpt passes the first stage and makes the snapshot malformed for the second. -/
theorem blank_excerpt_divides_stages :
    ∃ text hash,
      makeSnapshot Sample.host sampleProcessor [blankProposal] sampleEnvelope = .ok (text, hash) ∧
        prepareSnapshot Sample.host text hash sampleEnvelope ⟨1, "digest"⟩ =
          .error (.permanent "invalid_snapshot") ∧
        ¬ StagesAgree Sample.host sampleProcessor [blankProposal] sampleEnvelope ⟨1, "digest"⟩ text
          hash := by
  obtain ⟨text, hash, made⟩ := makeSnapshot_of Sample.host sampleProcessor
    (show (snapshotItems [blankProposal] sampleEnvelope).toBool = true by decide +kernel)
  obtain ⟨items, each, prepared⟩ := prepareSnapshot_made made
  obtain ⟨item, rest, checked, nothing, rfl⟩ := List.forall₂_cons_left_iff.1 each
  cases nothing
  have empty : item.evidenceExcerpt = some "" := by
    have excerpt := (snapshotItem_eq_ok checked).excerpt
    cases given : item.evidenceExcerpt <;> simp_all [blankProposal, Json.ofText]
  have failed : prepareSnapshot Sample.host text hash sampleEnvelope ⟨1, "digest"⟩ =
      .error (.permanent "invalid_snapshot") := by
    rw [prepared, mapM_eq_error]
    refine ⟨0, (item, 0), rfl, ?_, by simp⟩
    rw [prepareItem, if_pos empty]
    rfl
  exact ⟨text, hash, made, failed, fun agree => agree.accepts "invalid_snapshot" (by simp) failed⟩

end Enfold.Laws
