/-
# Laws.ExtractionStages -- from a model's reply to the writes

A proposal passes four stages in three processes: the child checks the model's reply, the
host reads what the child printed, the processor normalizes the proposals into a snapshot,
and the snapshot is prepared for writing.  This module follows an accepted reply through all
of them.

The host takes every proposal of the child (`parseResponse_childOutput`).  The first stage of
the snapshot can only fail on the typed fields, and there only with an exception that is not
caught: a timestamp whose conversion to UTC leaves the calendar
(`normalizeTypedFields_accepted`).  Otherwise nothing but the credential screen stands between
the reply and its writes, and every excerpt written occurs in the transcript.
-/
import Enfold.Laws.Snapshot
import Enfold.Model.HostExtractor

namespace Enfold.Laws

open Enfold.Theory Enfold.Model

set_option autoImplicit false

/-! ## What the typed fields can raise -/

/-- The timestamp is well formed and its instant in UTC is not in the years 1 to 9999. -/
def LeavesCalendar (time : Option String) : Prop :=
  ∃ text, time = some text ∧ ∃ stamp, strip text ≠ "" ∧
    IsoTime.fromIsoformat (expandZulu (strip text)) = some stamp ∧ stamp.utc = none

theorem parseTimestamp_eq_error {time : Option String} {e : Raised}
    (failed : parseTimestamp time = .error e) :
    e.kind = .valueError ∨ e = overflowError "date value out of range" ∧ LeavesCalendar time := by
  cases time with
  | none => cases failed
  | some text =>
      unfold parseTimestamp at failed
      dsimp only at failed
      split at failed
      · cases failed
      rename_i filled
      split at failed
      · cases failed
        exact .inl rfl
      rename_i stamp read
      split at failed
      · rename_i outside
        cases failed
        exact .inr ⟨rfl, text, rfl, stamp, filled, read, outside⟩
      · cases failed

theorem parseTimestamp_of_leaves {time : Option String} (leaves : LeavesCalendar time) :
    parseTimestamp time = .error (overflowError "date value out of range") := by
  obtain ⟨text, rfl, stamp, filled, read, outside⟩ := leaves
  simp only [parseTimestamp, if_neg filled, read, outside]
  rfl

theorem normalizeKey_eq_error {pattern : Regex} {separator : Char → Bool} {name : String}
    {value : Json} {e : Raised} (failed : normalizeKey pattern separator name value = .error e) :
    e.kind = .valueError := by
  unfold normalizeKey at failed
  split at failed
  · dsimp only at failed
    split at failed
    · cases failed
    · cases failed
      rfl
  · cases failed
    rfl

theorem withValidFrom_eq_error {candidate : StateCandidate} {time : Option String} {e : Raised}
    (failed : candidate.withValidFrom time = .error e) : parseTimestamp time = .error e := by
  unfold StateCandidate.withValidFrom at failed
  split at failed
  · cases failed
  · rename_i parsed
    cases failed
    exact parsed

/-- With mandatory texts, a candidate is refused for its timestamp only. -/
theorem stateCandidate_eq_error {content subject predicate : String} {object time : Option String}
    (contentValid : Required content) (subjectValid : Required subject)
    (predicateValid : Required predicate) {e : Raised}
    (failed : StateCandidate.make content subject predicate object .half time "state" "private" =
      .error e) : parseTimestamp time = .error e := by
  obtain ⟨state, scope⟩ : Required "state" ∧ Required "private" := by decide
  simp only [StateCandidate.make, required_of contentValid, required_of scope,
    required_of subjectValid, required_of predicateValid, required_of state,
    checked_of half_inUnit, ok_bind] at failed
  exact withValidFrom_eq_error failed

/-- The typed fields are complete and their timestamp leaves the calendar. -/
def OutOfCalendar (state : Json) : Prop :=
  ∃ parts subject predicate, typedParts state = .ok (some parts) ∧
    normalizeSubjectKey (field "subject" state) = .ok subject ∧
    normalizePredicateKey (field "predicate" state) = .ok predicate ∧
    LeavesCalendar parts.validFrom

section Keys

variable {value : Json} {parts : TypedParts} {content : String} (contentValid : Required content)

include contentValid

theorem typedKeys_eq_error {e : Raised} (failed : typedKeys value parts content = .error e) :
    e.kind = .valueError ∨ e = overflowError "date value out of range" ∧
      ∃ subject predicate, normalizeSubjectKey (field "subject" value) = .ok subject ∧
        normalizePredicateKey (field "predicate" value) = .ok predicate ∧
        LeavesCalendar parts.validFrom := by
  unfold typedKeys at failed
  cases subject : normalizeSubjectKey (field "subject" value) with
  | error e' =>
      rw [subject] at failed
      cases failed
      exact .inl (normalizeKey_eq_error subject)
  | ok s =>
      rw [subject, ok_bind] at failed
      cases predicate : normalizePredicateKey (field "predicate" value) with
      | error e' =>
          rw [predicate] at failed
          cases failed
          exact .inl (normalizeKey_eq_error predicate)
      | ok p =>
          rw [predicate, ok_bind] at failed
          cases made : StateCandidate.make content s p parts.objectValue .half parts.validFrom "state"
              "private" with
          | ok candidate =>
              rw [made] at failed
              cases failed
          | error e' =>
              rw [made] at failed
              cases failed
              have parsed := stateCandidate_eq_error contentValid
                (normalizeSubjectKey_again subject).1 (normalizePredicateKey_again predicate).1 made
              rcases parseTimestamp_eq_error parsed with value | ⟨overflow, leaves⟩
              · exact .inl value
              · exact .inr ⟨overflow, s, p, rfl, rfl, leaves⟩

theorem typedKeys_of_leaves {subject predicate : String}
    (subjectKey : normalizeSubjectKey (field "subject" value) = .ok subject)
    (predicateKey : normalizePredicateKey (field "predicate" value) = .ok predicate)
    (leaves : LeavesCalendar parts.validFrom) :
    typedKeys value parts content = .error (overflowError "date value out of range") := by
  unfold typedKeys
  rw [subjectKey, ok_bind, predicateKey, ok_bind]
  cases made : StateCandidate.make content subject predicate parts.objectValue .half parts.validFrom
      "state" "private" with
  | error e =>
      have parsed := stateCandidate_eq_error contentValid (normalizeSubjectKey_again subjectKey).1
        (normalizePredicateKey_again predicateKey).1 made
      rw [parseTimestamp_of_leaves leaves] at parsed
      cases parsed
      rfl
  | ok candidate =>
      obtain ⟨instant, parsed⟩ := stateCandidate_parses made
      rw [parseTimestamp_of_leaves leaves] at parsed
      cases parsed

/-- The typed fields raise exactly when they are complete and leave the calendar, provided
their first checks do not raise. -/
theorem normalizeTypedFields_accepted {members : List (String × Json)}
    (known : ∀ m ∈ members, m.1 ∈ typedFieldNames)
    (settled : ∃ parts, typedParts (.obj members) = .ok parts) :
    (∃ typed, normalizeTypedFields (.obj members) content = .ok typed) ∧
        ¬ OutOfCalendar (.obj members) ∨
      normalizeTypedFields (.obj members) content =
          .error (.raised (overflowError "date value out of range")) ∧
        OutOfCalendar (.obj members) := by
  by_cases blank : members = []
  · subst blank
    refine .inl ⟨⟨none, rfl⟩, ?_⟩
    rintro ⟨parts, _, _, read, -⟩
    cases read
  have proceed : ¬ (members = [] ∨ ∃ m ∈ members, m.1 ∉ typedFieldNames) := by
    rintro (empty | ⟨m, mem, unknown⟩)
    · exact blank empty
    · exact unknown (known m mem)
  obtain ⟨parts, read⟩ := settled
  unfold normalizeTypedFields
  dsimp only
  rw [if_neg proceed, read, ok_bind]
  cases parts with
  | none =>
      refine .inl ⟨⟨none, rfl⟩, ?_⟩
      rintro ⟨parts, _, _, read', -⟩
      rw [read] at read'
      cases read'
  | some parts =>
      dsimp only
      cases keys : typedKeys (.obj members) parts content with
      | ok found =>
          refine .inl ⟨⟨_, rfl⟩, ?_⟩
          rintro ⟨parts', subject, predicate, read', subjectKey, predicateKey, leaves⟩
          rw [read] at read'
          cases read'
          rw [typedKeys_of_leaves contentValid subjectKey predicateKey leaves] at keys
          cases keys
      | error e =>
          dsimp only
          rcases typedKeys_eq_error contentValid keys with value | ⟨rfl, s, p, subject, predicate, leaves⟩
          · refine .inl ⟨⟨none, by rw [if_pos (.inl value)]; rfl⟩, ?_⟩
            rintro ⟨parts', subject, predicate, read', subjectKey, predicateKey, leaves⟩
            rw [read] at read'
            cases read'
            rw [typedKeys_of_leaves contentValid subjectKey predicateKey leaves] at keys
            cases keys
            cases value
          · refine .inr ⟨rfl, parts, s, p, read, subject, predicate, leaves⟩

end Keys

/-- A list or an object, which has no hash. -/
def NoHash : Json → Prop
  | .arr _ | .obj _ => True
  | _ => False

/-- The kind has no hash, or is known and stands beside an integer beyond the largest float. -/
def PartsRaise (value : Json) : Prop :=
  NoHash (field "kind" value) ∨
    (∃ kind : TypedKind, field "kind" value = .str kind.text) ∧
      ∃ n, field "confidence" value = .int n ∧ floatOfInt n = none

theorem kind_read_eq_error {value : Json} :
    (∃ e, TypedKind.read value = .error e) ↔ NoHash value := by
  cases value <;> simp [TypedKind.read, NoHash]

theorem kind_read_eq_some {value : Json} :
    (∃ kind, TypedKind.read value = .ok (some kind)) ↔ ∃ kind : TypedKind, value = .str kind.text := by
  constructor
  · rintro ⟨kind, read⟩
    cases value with
    | str text =>
        have found := Except.ok.inj read
        have same := List.find?_some found
        exact ⟨kind, by rw [of_decide_eq_true same]⟩
    | _ => cases read
  · rintro ⟨kind, rfl⟩
    exact ⟨kind, kind_read_text kind⟩

theorem typedConfidence_eq_error {value : Json} :
    (∃ e, typedConfidence value = .error e) ↔ ∃ n, value = .int n ∧ floatOfInt n = none := by
  cases value with
  | int n =>
      cases made : floatOfInt n <;> simp [typedConfidence, floatOf, made, bind, Except.bind, pure,
        Except.pure]
  | _ => simp [typedConfidence, floatOf, bind, Except.bind, pure, Except.pure]

/-- The first checks of the typed fields raise for the kind or for the confidence only. -/
theorem typedParts_settled_iff (value : Json) :
    (∃ parts, typedParts value = .ok parts) ↔ ¬ PartsRaise value := by
  unfold typedParts PartsRaise
  rw [← kind_read_eq_error, ← kind_read_eq_some, ← typedConfidence_eq_error]
  cases kind : TypedKind.read (field "kind" value) with
  | error e => simp [bind, Except.bind]
  | ok found =>
      rw [ok_bind]
      cases found with
      | none => simp [pure, Except.pure]
      | some kind =>
          dsimp only
          cases confidence : typedConfidence (field "confidence" value) with
          | error e => simp [bind, Except.bind]
          | ok found =>
              refine iff_of_true ?_ (by simp)
              rw [ok_bind]
              cases found with
              | none => exact ⟨none, rfl⟩
              | some confidence =>
                  dsimp only
                  cases typedNegation value with
                  | none => exact ⟨none, rfl⟩
                  | some negation =>
                      dsimp only
                      split
                      · exact ⟨none, rfl⟩
                      split
                      · exact ⟨none, rfl⟩
                      split
                      · exact ⟨_, rfl⟩
                      · exact ⟨none, rfl⟩

/-- The first checks of the typed fields do not raise on what the child accepts. -/
theorem typedParts_settled {typed : List (String × Json)} (accepted : TypedAccepted typed) :
    ∃ parts, typedParts (.obj typed) = .ok parts := by
  obtain ⟨texts, -, confident⟩ := accepted
  rw [typedParts_settled_iff]
  rintro (unhashed | ⟨-, n, given, huge⟩)
  · unfold field at unhashed
    cases found : (Json.obj typed).get? "kind" with
    | none =>
        rw [found] at unhashed
        exact unhashed
    | some v =>
        rw [found, Option.getD_some] at unhashed
        obtain ⟨before, after, rfl, -⟩ := List.lookup_eq_some_iff.1 found
        have text := texts ("kind", v) (by simp) (by simp [typedTextFields])
        cases v with
        | str text => exact unhashed
        | _ => cases text
  · rw [given] at confident
    simp only [confidenceAccepted, floatOf, huge] at confident
    cases confident

/-! ## The child and the host -/

/-- The member names of what the child prints are in order. -/
theorem child_names_ordered :
    ["category", "content", "evidence_excerpt", "sensitivity", "state", "tags"].Pairwise (· < ·) ∧
      ["category", "content", "evidence_excerpt", "sensitivity", "tags"].Pairwise (· < ·) ∧
      ["proposals", "version"].Pairwise (· < ·) ∧
      ["category", "confidence", "content", "evidence_excerpt", "kind", "predicate",
        "sensitivity", "subject", "tags", "valid_from", "value"].Pairwise (· < ·) := by
  decide +kernel

/-- What the child has checked of a proposal that it keeps. -/
structure ChildItem (transcript : String) where
  category : String
  content : String
  excerpt : String
  sensitivity : String
  tags : String
  typed : List (String × Json)
  categoryValid : Required category
  contentValid : Required content
  excerptFilled : excerpt ≠ ""
  grounded : occursIn excerpt transcript
  permitted : sensitivity ∈ permittedSensitivities
  known : ∀ m ∈ typed, m.1 ∈ typedFieldNames
  accepted : TypedAccepted typed
  canonical : (Json.obj typed).Canonical

def ChildItem.toJson {transcript : String} (kept : ChildItem transcript) : Json :=
  childItem kept.category kept.content kept.excerpt kept.sensitivity kept.tags kept.typed

theorem strippedField_eq_some {key text : String} {proposal : Json}
    (read : strippedField key proposal = some text) : strip text = text := by
  unfold strippedField at read
  split at read
  · cases read
    exact strip_strip _
  · cases read

/-- The typed fields of a proposal. -/
def typedMembers : Json → List (String × Json)
  | .obj members => members.filter fun m => m.1 ∈ typedFieldNames
  | _ => []

theorem validateProposal_eq_some {transcript : String} {proposal item : Json}
    (canonical : proposal.Canonical) (kept : validateProposal transcript proposal = some item) :
    ∃ child : ChildItem transcript, item = child.toJson ∧ child.typed = typedMembers proposal := by
  cases proposal with
  | obj members =>
      simp only [validateProposal, Option.bind_eq_bind, Option.bind_eq_some_iff,
        Option.guard_eq_some', Option.pure_def, Option.some.injEq] at kept
      obtain ⟨_, -, content, contentRead, category, categoryRead, tags, -, excerpt, -,
        sensitivity, -, _, ⟨contentFilled, -, categoryFilled, -, -, excerptFilled, -, grounded,
        permitted⟩, _, accepted, shape⟩ := kept
      refine ⟨
        { category, content, excerpt, sensitivity, tags
          typed := members.filter fun m => m.1 ∈ typedFieldNames
          categoryValid := ⟨strippedField_eq_some categoryRead, categoryFilled⟩
          contentValid := ⟨strippedField_eq_some contentRead, contentFilled⟩
          excerptFilled, grounded, permitted, accepted
          known := by simp
          canonical := ?_ }, shape.symm, rfl⟩
      simp only [Json.Canonical, Json.canonicalMembers_iff] at canonical ⊢
      refine ⟨canonical.1.sublist (List.filter_sublist.map _), fun m mem => ?_⟩
      exact canonical.2 m (List.mem_of_mem_filter mem)
  | _ => cases kept

/-- The host takes a proposal over as it is. -/
structure MemoryOf (item : Json) (memory : ExtractedMemory) : Prop where
  content : memory.content = field "content" item
  category : memory.category = field "category" item
  tags : memory.tags = field "tags" item
  excerpt : memory.evidenceExcerpt = field "evidence_excerpt" item
  sensitivity : memory.sensitivity = field "sensitivity" item
  state : memory.state = field "state" item
  scope : memory.scope = .null

namespace ChildItem

variable {transcript : String} (kept : ChildItem transcript)

theorem field_state :
    field "state" kept.toJson = if kept.typed = [] then .null else .obj kept.typed := by
  rw [toJson, childItem]
  split <;> rfl

theorem field_tags : kept.toJson.get? "tags" = some (.str kept.tags) := by
  rw [toJson, childItem]
  split <;> rfl

theorem hasNoField {key : String} (absent : key ∉ ["category", "content", "evidence_excerpt",
    "sensitivity", "state", "tags"]) : kept.toJson.get? key = none := by
  simp only [List.mem_cons, List.not_mem_nil, or_false, not_or] at absent
  obtain ⟨notCategory, notContent, notExcerpt, notSensitivity, notState, notTags⟩ := absent
  rw [toJson, childItem]
  split <;> simp [Json.get?, List.lookup_cons, notCategory, notContent, notExcerpt, notSensitivity,
    notState, notTags, beq_false_of_ne]

theorem toJson_canonical : kept.toJson.Canonical := by
  obtain ⟨names, fewer, -⟩ := child_names_ordered
  have typed := kept.canonical
  rw [toJson, childItem]
  split
  · refine ⟨fewer, ?_⟩
    simp [Json.CanonicalMembers, Json.Canonical]
  · refine ⟨names, ?_⟩
    simp only [List.cons_append, List.nil_append, Json.CanonicalMembers, and_true]
    exact ⟨trivial, trivial, trivial, trivial, typed, trivial⟩

theorem host_accepts : HostAccepts kept.toJson := by
  refine ⟨rfl, ?_, rfl, ?_, ?_⟩
  · rw [toJson, childItem]
    split <;> simp [memberNames, proposalFields]
  · rw [hasField, kept.hasNoField (by decide)]
    exact fun none => absurd none Bool.false_ne_true
  · rw [kept.field_state]
    split
    · exact .inl rfl
    · exact .inr rfl

theorem memoryOf (valid : kept.toJson.Canonical) :
    MemoryOf kept.toJson (extractedMemory kept.toJson valid) where
  content := rfl
  category := rfl
  tags := by simp [extractedMemory, field, kept.field_tags]
  excerpt := rfl
  sensitivity := rfl
  state := rfl
  scope := by
    simp only [extractedMemory, field]
    rw [kept.hasNoField (by decide)]
    rfl

end ChildItem

theorem parseProposals_kept {transcript : String} (kept : List (ChildItem transcript))
    (valid : Json.CanonicalItems (kept.map ChildItem.toJson)) :
    ∃ memories, parseProposals (kept.map ChildItem.toJson) valid = .ok memories ∧
      List.Forall₂ (fun child => MemoryOf child.toJson) kept memories := by
  induction kept with
  | nil => exact ⟨[], rfl, .nil⟩
  | cons child kept ih =>
      obtain ⟨memories, parsed, each⟩ := ih valid.2
      refine ⟨extractedMemory child.toJson valid.1 :: memories, ?_,
        .cons (child.memoryOf valid.1) each⟩
      show (require (HostAccepts child.toJson) _ >>= fun _ =>
        parseProposals (kept.map ChildItem.toJson) valid.2 >>= fun others =>
          pure (extractedMemory child.toJson valid.1 :: others)) = _
      rw [require_of child.host_accepts, ok_bind, parsed]
      rfl

/-- The host reads every proposal of the child. -/
theorem parseResponse_childOutput {transcript : String} (kept : List (ChildItem transcript)) :
    ∃ memories, parseResponse (childOutput (kept.map ChildItem.toJson)) = .ok memories ∧
      List.Forall₂ (fun child => MemoryOf child.toJson) kept memories := by
  have items : Json.CanonicalItems (kept.map ChildItem.toJson) := by
    rw [Json.canonicalItems_iff]
    intro v mem
    obtain ⟨child, -, rfl⟩ := List.mem_map.1 mem
    exact child.toJson_canonical
  obtain ⟨-, -, names, -⟩ := child_names_ordered
  have canonical : (Json.obj [("proposals", .arr (kept.map ChildItem.toJson)),
      ("version", .int 1)]).Canonical := ⟨names, items, trivial, trivial⟩
  have read := Json.loads_dumps .unicode canonical
  obtain ⟨memories, parsed, each⟩ := parseProposals_kept kept items
  refine ⟨memories, ?_, each⟩
  unfold parseResponse
  split
  · rename_i failed
    rw [childOutput, read] at failed
    cases failed
  · rename_i document here
    rw [childOutput, read] at here
    cases here
    exact parsed

/-! ## The snapshot of what the child kept -/

theorem proposalText_of {text : String} (valid : Required text) :
    proposalText (.str text) = .ok ⟨text, valid⟩ := by
  simp [proposalText, valid.1, valid.2]

theorem outOfCalendar_state {transcript : String} (child : ChildItem transcript) :
    OutOfCalendar (field "state" child.toJson) ↔ OutOfCalendar (.obj child.typed) := by
  rw [child.field_state]
  split
  · rename_i none
    rw [none]
    constructor <;> rintro ⟨parts, _, _, read, -⟩ <;> cases read
  · rfl

theorem normalizeTypedFields_child {transcript : String} (child : ChildItem transcript) :
    (∃ typed, normalizeTypedFields (field "state" child.toJson) child.content = .ok typed) ∧
        ¬ OutOfCalendar (field "state" child.toJson) ∨
      normalizeTypedFields (field "state" child.toJson) child.content =
          .error (.raised (overflowError "date value out of range")) ∧
        OutOfCalendar (field "state" child.toJson) := by
  rw [outOfCalendar_state, child.field_state]
  have cases := normalizeTypedFields_accepted child.contentValid child.known
    (typedParts_settled child.accepted)
  split
  · rename_i none
    rw [none] at cases ⊢
    rcases cases with ⟨-, inside⟩ | ⟨-, outside⟩
    · exact .inl ⟨⟨_, rfl⟩, inside⟩
    · obtain ⟨parts, _, _, read, -⟩ := outside
      cases read
  · exact cases

/-- A proposal of the child becomes an item with its excerpt, unless its typed fields leave
the calendar. -/
theorem snapshotItem_child {transcript : String} {child : ChildItem transcript}
    {memory : ExtractedMemory} (of : MemoryOf child.toJson memory) (envelope : ExtractionEnvelope) :
    (∃ item, snapshotItem envelope memory = .ok item ∧ item.evidenceExcerpt = some child.excerpt) ∧
        ¬ OutOfCalendar (field "state" child.toJson) ∨
      snapshotItem envelope memory =
          .error (.raised (overflowError "date value out of range")) ∧
        OutOfCalendar (field "state" child.toJson) := by
  have content : memory.content = .str child.content := of.content
  have category : memory.category = .str child.category := of.category
  have excerpt : memory.evidenceExcerpt = .str child.excerpt := of.excerpt
  have sensitivity : memory.sensitivity = .str child.sensitivity := of.sensitivity
  have tags : memory.tags = .str child.tags := by simp [of.tags, field, child.field_tags]
  have permitted : proposalSensitivity (.str child.sensitivity) =
      .ok ⟨child.sensitivity, child.permitted⟩ := dif_pos child.permitted
  have scope : checkProposalScope envelope .null = .ok () := rfl
  unfold snapshotItem
  simp only [content, proposalText_of child.contentValid, ok_bind, of.scope, scope, sensitivity,
    permitted, category, proposalText_of child.categoryValid, tags, excerpt, of.state, proposalTags,
    proposalExcerpt]
  rcases normalizeTypedFields_child child with ⟨⟨typed, made⟩, inside⟩ | ⟨raised, outside⟩
  · rw [made]
    exact .inl ⟨⟨_, rfl, rfl⟩, inside⟩
  · rw [raised]
    exact .inr ⟨rfl, outside⟩

/-- The later stages take over what the child kept: one memory for each proposal, a snapshot,
and writes whose excerpts occur in the transcript; only the screen may refuse. -/
def StagesAccept (host : Host) (processor : ExtractionProcessor) (envelope : ExtractionEnvelope)
    (row : RowIdentity) (items : List Json) : Prop :=
  ∃ memories, parseResponse (childOutput items) = .ok memories ∧
    List.Forall₂ MemoryOf items memories ∧
    ∃ text hash, makeSnapshot host processor memories envelope = .ok (text, hash) ∧
      (∀ e, prepareSnapshot host text hash envelope row = .error e →
        e = .permanent "proposal_credential_rejected") ∧
      ∀ params, prepareSnapshot host text hash envelope row = .ok params →
        ∀ write ∈ params, ∃ excerpt, field "evidence_excerpt" write = .str excerpt ∧
          excerpt ≠ "" ∧ occursIn excerpt envelope.transcript

theorem optionMapM_eq_some {α β : Type} {f : α → Option β} {xs : List α} {ys : List β}
    (done : xs.mapM f = some ys) : List.Forall₂ (fun x y => f x = some y) xs ys := by
  induction xs generalizing ys with
  | nil =>
      cases done
      exact .nil
  | cons x xs ih =>
      simp only [List.mapM_cons, Option.bind_eq_bind, Option.bind_eq_some_iff] at done
      obtain ⟨y, here, rest, others, eq⟩ := done
      cases eq
      exact .cons here (ih others)

/-- What the child keeps of a reply. -/
theorem validateProposals_eq_some {body transcript : String} {items : List Json}
    (kept : validateProposals body transcript = some items) :
    items.length ≤ maxExtractedMemories ∧
      ∃ children : List (ChildItem transcript), items = children.map ChildItem.toJson := by
  simp only [validateProposals, Option.bind_eq_bind, Option.bind_eq_some_iff,
    Option.guard_eq_some'] at kept
  obtain ⟨content, -, proposals, read, _, few, kept⟩ := kept
  have each := optionMapM_eq_some kept
  have canonical : ∀ proposal ∈ proposals, proposal.Canonical := by
    unfold contentProposals at read
    split at read
    · rename_i given
      cases read
      have whole := Json.loads_canonical given
      simp only [Json.Canonical, Json.CanonicalMembers, and_true] at whole
      exact Json.canonicalItems_iff.1 whole.2
    · cases read
  refine ⟨each.length_eq ▸ few, ?_⟩
  clear few kept read
  induction each with
  | nil => exact ⟨[], rfl⟩
  | cons first _ ih =>
      obtain ⟨child, rfl, -⟩ := validateProposal_eq_some (canonical _ List.mem_cons_self) first
      obtain ⟨children, rfl⟩ := ih fun p mem => canonical p (List.mem_cons_of_mem _ mem)
      exact ⟨child :: children, rfl⟩

section Accepted

variable {host : Host} {processor : ExtractionProcessor} {envelope : ExtractionEnvelope}

/-- The snapshot of what the child kept, when no typed fields leave the calendar. -/
theorem snapshotItems_children {children : List (ChildItem envelope.transcript)}
    {memories : List ExtractedMemory}
    (each : List.Forall₂ (fun child => MemoryOf child.toJson) children memories)
    (few : memories.length ≤ maxExtractedMemories)
    (inside : ∀ child ∈ children, ¬ OutOfCalendar (field "state" child.toJson)) :
    ∃ items, snapshotItems memories envelope = .ok items ∧
      List.Forall₂ (fun child item => item.evidenceExcerpt = some child.excerpt) children items := by
  unfold snapshotItems
  rw [require_of few, ok_bind]
  clear few
  induction each with
  | nil => exact ⟨[], rfl, .nil⟩
  | cons first _ ih =>
      obtain ⟨items, made, excerpts⟩ := ih fun child mem => inside child (List.mem_cons_of_mem _ mem)
      rcases snapshotItem_child first envelope with ⟨⟨item, checked, excerpt⟩, -⟩ | ⟨-, outside⟩
      · refine ⟨item :: items, ?_, .cons excerpt excerpts⟩
        rw [List.mapM_cons, checked, ok_bind, made]
        rfl
      · exact absurd outside (inside _ List.mem_cons_self)

/-- An item that leaves the calendar stops the snapshot. -/
theorem snapshotItems_outside {children : List (ChildItem envelope.transcript)}
    {memories : List ExtractedMemory}
    (each : List.Forall₂ (fun child => MemoryOf child.toJson) children memories)
    {items : List SnapshotItem} (made : snapshotItems memories envelope = .ok items) :
    ∀ child ∈ children, ¬ OutOfCalendar (field "state" child.toJson) := by
  intro child mem outside
  obtain ⟨i, here⟩ := List.mem_iff_getElem?.1 mem
  obtain ⟨memory, there, of⟩ := forall₂_getElem? each here
  obtain ⟨item, -, checked⟩ := forall₂_getElem? (snapshotItems_eq_ok made).2 there
  rcases snapshotItem_child of envelope with ⟨-, inside⟩ | ⟨raised, -⟩
  · exact inside outside
  · rw [checked] at raised
    cases raised

/-- The stages after the child accept its output exactly when no proposal has complete typed
fields with a timestamp outside the calendar. -/
theorem extraction_stages_accept_iff {body : String} {items : List Json}
    (kept : validateProposals body envelope.transcript = some items) (row : RowIdentity) :
    StagesAccept host processor envelope row items ↔
      ∀ item ∈ items, ¬ OutOfCalendar (field "state" item) := by
  obtain ⟨few, children, rfl⟩ := validateProposals_eq_some kept
  obtain ⟨memories, parsed, each⟩ := parseResponse_childOutput children
  simp only [List.mem_map, forall_exists_index, and_imp, forall_apply_eq_imp_iff₂]
  constructor
  · rintro ⟨memories', parsed', -, text, hash, made, -⟩
    rw [parsed] at parsed'
    cases parsed'
    obtain ⟨items, checked, -⟩ := bind_eq_ok.1 made
    exact snapshotItems_outside each checked
  · intro inside
    have length : memories.length ≤ maxExtractedMemories := by
      rw [← each.length_eq]
      simpa using few
    obtain ⟨items, checked, excerpts⟩ := snapshotItems_children each length inside
    have made : ∃ text hash, makeSnapshot host processor memories envelope = .ok (text, hash) :=
      makeSnapshot_of host processor (by rw [checked]; rfl)
    obtain ⟨text, hash, made⟩ := made
    obtain ⟨items', each', prepared⟩ := prepareSnapshot_made made
    have same : items = items' := by
      have again := mapM_eq_ok.2 (snapshotItems_eq_ok checked).2
      rw [mapM_eq_ok.2 each'] at again
      exact (Except.ok.inj again).symm
    subst same
    refine ⟨memories, parsed, ?_, text, hash, made, ?_, ?_⟩
    · rw [List.forall₂_map_left_iff]
      exact each
    · intro e failed
      rw [prepared, mapM_eq_error] at failed
      obtain ⟨i, p, at_i, failed, -⟩ := failed
      obtain ⟨at_i, -⟩ := getElem?_zipIdx_eq_some.1 at_i
      obtain ⟨child, -, excerpt⟩ := forall₂_getElem? excerpts.flip at_i
      rcases prepareItem_eq_error failed with ⟨blank, -⟩ | ⟨-, rejected⟩
      · rw [excerpt] at blank
        exact absurd (Option.some.inj blank) child.excerptFilled
      · exact rejected
    · intro params done write mem
      rw [prepared, mapM_eq_ok] at done
      obtain ⟨i, here⟩ := List.mem_iff_getElem?.1 mem
      obtain ⟨p, at_i, made⟩ := forall₂_getElem? done.flip here
      obtain ⟨at_i, -⟩ := getElem?_zipIdx_eq_some.1 at_i
      obtain ⟨child, -, excerpt⟩ := forall₂_getElem? excerpts.flip at_i
      obtain ⟨-, -, rfl⟩ := prepareItem_eq_ok.1 made
      refine ⟨child.excerpt, ?_, child.excerptFilled, child.grounded⟩
      show Json.ofText p.1.evidenceExcerpt = _
      rw [excerpt]
      rfl

end Accepted

/-! ## Sample replies -/

/-- The body of a reply with the given proposals. -/
def reply (proposals : List Json) : String :=
  Json.dumps .ascii (.obj [("message", .obj [("content",
    .str (Json.dumps .unicode (.obj [("proposals", .arr proposals)])))])])

theorem validateProposals_reply {proposals : List Json} (canonical : Json.CanonicalItems proposals)
    (few : proposals.length ≤ maxExtractedMemories) (transcript : String) :
    validateProposals (reply proposals) transcript =
      proposals.mapM (validateProposal transcript) := by
  have document : (Json.obj [("proposals", .arr proposals)]).Canonical :=
    ⟨by simp, canonical, trivial⟩
  have body : (Json.obj [("message", .obj [("content",
      .str (Json.dumps .unicode (.obj [("proposals", .arr proposals)])))])]).Canonical :=
    ⟨by simp, ⟨by simp, trivial, trivial⟩, trivial⟩
  have content : messageContent (reply proposals) =
      some (Json.dumps .unicode (.obj [("proposals", .arr proposals)])) := by
    rw [messageContent, reply, Json.loads_dumps .ascii body]
    rfl
  have read : contentProposals (Json.dumps .unicode (.obj [("proposals", .arr proposals)])) =
      some proposals := by
    rw [contentProposals, Json.loads_dumps .unicode document]
    rfl
  simp only [validateProposals, content, read, Option.bind_eq_bind, Option.bind_some, guard, few,
    if_true]
  rfl

/-- A complete typed proposal with the given timestamp. -/
def datedProposal (time : String) : Json :=
  .obj
    [("category", .str "general"), ("confidence", .float sampleConfidence),
      ("content", .str "The door is red."), ("evidence_excerpt", .str "the door red"),
      ("kind", .str "state"), ("predicate", .str "color"), ("sensitivity", .str "normal"),
      ("subject", .str "door"), ("tags", .str ""), ("valid_from", .str time), ("value", .str "red")]

theorem datedProposal_canonical (time : String) : (datedProposal time).Canonical := by
  refine ⟨child_names_ordered.2.2.2, ?_⟩
  simp [Json.CanonicalMembers, Json.Canonical, sampleConfidence_printed]

theorem validateProposals_dated {time : String}
    (kept : (validateProposal sampleEnvelope.transcript (datedProposal time)).isSome = true) :
    ∃ child : ChildItem sampleEnvelope.transcript,
      validateProposals (reply [datedProposal time]) sampleEnvelope.transcript =
          some [child.toJson] ∧
        child.typed = typedMembers (datedProposal time) := by
  obtain ⟨item, made⟩ := Option.isSome_iff_exists.1 kept
  obtain ⟨child, rfl, typed⟩ := validateProposal_eq_some (datedProposal_canonical time) made
  refine ⟨child, ?_, typed⟩
  have canonical : Json.CanonicalItems [datedProposal time] :=
    Json.canonicalItems_iff.2 (by simpa using datedProposal_canonical time)
  rw [validateProposals_reply canonical (by simp [maxExtractedMemories])]
  simp [made]

/-- A reply with a date of our era passes all stages. -/
theorem sample_stages_accept :
    ∃ items, validateProposals (reply [datedProposal "2026-01-01"]) sampleEnvelope.transcript =
        some items ∧ items ≠ [] ∧
      StagesAccept Sample.host sampleProcessor sampleEnvelope ⟨1, "digest"⟩ items := by
  obtain ⟨child, kept, typed⟩ := validateProposals_dated
    (show (validateProposal sampleEnvelope.transcript (datedProposal "2026-01-01")).isSome = true by
      decide +kernel)
  refine ⟨[child.toJson], kept, by simp, (extraction_stages_accept_iff kept ⟨1, "digest"⟩).2 ?_⟩
  intro item mem
  cases List.mem_singleton.1 mem
  rw [outOfCalendar_state, typed]
  rintro ⟨parts, _, _, read, -, -, leaves⟩
  have same : typedParts (.obj (typedMembers (datedProposal "2026-01-01"))) =
      .ok (some ⟨sampleConfidence, .state, false, some "red", some "2026-01-01"⟩) := by
    decide +kernel
  rw [same] at read
  cases read
  have parsed := parseTimestamp_of_leaves leaves
  cases parsed

/-- On the first day of year one, east of Greenwich, the conversion to UTC overflows in the
snapshot, and nothing catches it. -/
theorem early_date_stops_snapshot :
    ∃ items memories,
      validateProposals (reply [datedProposal "0001-01-01T00:00:00+01:00"])
          sampleEnvelope.transcript = some items ∧
        parseResponse (childOutput items) = .ok memories ∧
        makeSnapshot Sample.host sampleProcessor memories sampleEnvelope =
          .error (.raised (overflowError "date value out of range")) ∧
        ¬ StagesAccept Sample.host sampleProcessor sampleEnvelope ⟨1, "digest"⟩ items := by
  obtain ⟨child, kept, typed⟩ := validateProposals_dated
    (show (validateProposal sampleEnvelope.transcript
      (datedProposal "0001-01-01T00:00:00+01:00")).isSome = true by decide +kernel)
  obtain ⟨memories, parsed, each⟩ := parseResponse_childOutput [child]
  obtain ⟨memory, rest, of, nothing, rfl⟩ := List.forall₂_cons_left_iff.1 each
  cases nothing
  have outside : OutOfCalendar (field "state" child.toJson) := by
    rw [outOfCalendar_state, typed]
    refine ⟨⟨sampleConfidence, .state, false, some "red", some "0001-01-01T00:00:00+01:00"⟩, "door",
      "color", by decide +kernel, by decide +kernel, by decide +kernel, _, rfl, ?_⟩
    exact ⟨_, by decide +kernel, rfl, by decide +kernel⟩
  have raised : makeSnapshot Sample.host sampleProcessor [memory] sampleEnvelope =
      .error (.raised (overflowError "date value out of range")) := by
    rcases snapshotItem_child of sampleEnvelope with ⟨-, inside⟩ | ⟨raised, -⟩
    · exact absurd outside inside
    · have few : [memory].length ≤ maxExtractedMemories := by simp [maxExtractedMemories]
      rw [makeSnapshot, snapshotItems, require_of few, ok_bind, List.mapM_cons, raised]
      rfl
  refine ⟨[child.toJson], [memory], kept, parsed, raised, ?_⟩
  rintro ⟨memories', parsed', -, text, hash, made, -⟩
  rw [show [child.toJson] = [child].map ChildItem.toJson from rfl, parsed] at parsed'
  cases parsed'
  rw [raised] at made
  cases made

end Enfold.Laws
