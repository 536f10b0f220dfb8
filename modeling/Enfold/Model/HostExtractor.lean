/-
# Model.HostExtractor -- the model child and the host that reads it
(`ollama_extractor_child.py`, `host_extractor.py`)

A child process asks a local model for proposals.  `validateProposals` reads the model's
reply, whose message is itself a JSON text, and checks every proposal against the transcript;
`transform` prints what is left as one canonical document.  The host reads that document with
`parseResponse` and hands the proposals to the processor.

An error of the child has no detail: a refused reply is `none`.
-/
import Enfold.Model.Extraction

namespace Enfold.Model

open Enfold.Theory

set_option autoImplicit false

/-! ## The child -/

def maxContentChars : Nat := 16000

def maxEvidenceChars : Nat := 2000

def maxTagsChars : Nat := 2000

def maxCategoryChars : Nat := 64

/-- The five texts of a proposal. -/
def expectedFields : List String :=
  ["content", "category", "tags", "evidence_excerpt", "sensitivity"]

/-- The text of the model's message in the body of its reply. -/
def messageContent (body : String) : Option String := do
  match (← Json.loads body).get? "message" with
  | some message =>
      match message.get? "content" with
      | some (.str content) => some content
      | _ => none
  | none => none

/-- A member that is a text, stripped. -/
def strippedField (key : String) (proposal : Json) : Option String :=
  match proposal.get? key with
  | some (.str text) => some (strip text)
  | _ => none

/-- Typed fields that are texts when they are there. -/
def typedTextFields : List String :=
  ["kind", "subject", "predicate", "object", "value", "occurred_at", "valid_from"]

def isText : Json → Bool
  | .str _ => true
  | _ => false

def isBool : Json → Bool
  | .bool _ => true
  | _ => false

/-- The confidence is absent, null, or a number between zero and one. -/
def confidenceAccepted (confidence : Json) : Bool :=
  match confidence with
  | .null => true
  | confidence =>
      match floatOf confidence with
      | .ok (some x) => decide (0 ≤ x.value ∧ x.value ≤ 1)
      | _ => false

/-- The types of the typed fields. -/
def TypedAccepted (typed : List (String × Json)) : Prop :=
  (∀ m ∈ typed, m.1 ∈ typedTextFields → isText m.2) ∧
    (∀ m ∈ typed, m.1 = "negation" → isBool m.2) ∧
      confidenceAccepted (field "confidence" (.obj typed))

instance (typed : List (String × Json)) : Decidable (TypedAccepted typed) :=
  inferInstanceAs (Decidable (_ ∧ _ ∧ _))

/-- What the child keeps of a proposal, in key order; `state` holds the typed fields, if
there are any. -/
def childItem (category content excerpt sensitivity tags : String)
    (typed : List (String × Json)) : Json :=
  .obj <|
    [("category", .str category), ("content", .str content), ("evidence_excerpt", .str excerpt),
      ("sensitivity", .str sensitivity)] ++
    (if typed = [] then [] else [("state", .obj typed)]) ++ [("tags", .str tags)]

/-- One proposal of `_validate_proposals`: the excerpt has to occur in the transcript. -/
def validateProposal (transcript : String) (proposal : Json) : Option Json :=
  match proposal with
  | .obj members => do
      guard ((∀ name ∈ expectedFields, name ∈ members.map Prod.fst) ∧
        ∀ m ∈ members, m.1 ∈ expectedFields ∨ m.1 ∈ typedFieldNames)
      let content ← strippedField "content" proposal
      let category ← strippedField "category" proposal
      let tags ← strippedField "tags" proposal
      let excerpt ← strippedField "evidence_excerpt" proposal
      let sensitivity ← strippedField "sensitivity" proposal
      guard (content ≠ "" ∧ content.length ≤ maxContentChars ∧ category ≠ "" ∧
        category.length ≤ maxCategoryChars ∧ tags.length ≤ maxTagsChars ∧ excerpt ≠ "" ∧
        excerpt.length ≤ maxEvidenceChars ∧ occursIn excerpt transcript ∧
        sensitivity ∈ permittedSensitivities)
      let typed := members.filter fun m => m.1 ∈ typedFieldNames
      guard (TypedAccepted typed)
      return childItem category content excerpt sensitivity tags typed
  | _ => none

/-- The proposals in the text of the model's message. -/
def contentProposals (content : String) : Option (List Json) :=
  match Json.loads content with
  | some (.obj [("proposals", .arr proposals)]) => some proposals
  | _ => none

/-- `_validate_proposals`: the checked proposals of a reply. -/
def validateProposals (body transcript : String) : Option (List Json) := do
  let content ← messageContent body
  let proposals ← contentProposals content
  guard (proposals.length ≤ maxExtractedMemories)
  proposals.mapM (validateProposal transcript)

/-- What `transform` prints. -/
def childOutput (proposals : List Json) : String :=
  Json.dumps .unicode (.obj [("proposals", .arr proposals), ("version", .int 1)])

/-! ## The host -/

def proposalFields : List String :=
  ["content", "category", "tags", "trust_score", "source_authority", "evidence_excerpt", "scope",
    "sensitivity", "state", "metadata"]

def isNull : Json → Bool
  | .null => true
  | _ => false

/-- The checks of the host on a proposal. -/
def HostAccepts (value : Json) : Prop :=
  isObject value ∧ (∀ name ∈ memberNames value, name ∈ proposalFields) ∧
    isText (field "content" value) ∧
    (hasField "metadata" value → isObject (field "metadata" value)) ∧
    (isNull (field "state" value) ∨ isObject (field "state" value))

instance (value : Json) : Decidable (HostAccepts value) :=
  inferInstanceAs (Decidable (_ ∧ _ ∧ _ ∧ (_ → _) ∧ (_ ∨ _)))

/-- `ExtractedMemory(**value)`: an absent member has its default. -/
def extractedMemory (value : Json) (valid : value.Canonical) : ExtractedMemory where
  content := field "content" value
  category := (value.get? "category").getD (.str "general")
  tags := (value.get? "tags").getD (.str "")
  evidenceExcerpt := field "evidence_excerpt" value
  scope := field "scope" value
  sensitivity := (value.get? "sensitivity").getD (.str "normal")
  state := field "state" value
  stateValid := canonical_field valid "state"

/-- The proposals of a response, in order. -/
def parseProposals : (values : List Json) → Json.CanonicalItems values →
    Processing (List ExtractedMemory)
  | [], _ => .ok []
  | value :: values, valid => do
      require (HostAccepts value) (.extractor (some "adapter_invalid_output"))
      let others ← parseProposals values valid.2
      return extractedMemory value valid.1 :: others

/-- A response is an object of the proposals and the version. -/
def parseDocument (document : Json) (valid : document.Canonical) :
    Processing (List ExtractedMemory) :=
  match document, valid with
  | .obj [("proposals", .arr values), ("version", version)], valid =>
      if sameScalar version (.int 1) then parseProposals values valid.2.1
      else .error (.extractor (some "adapter_invalid_output"))
  | _, _ => .error (.extractor (some "adapter_invalid_output"))

/-- `_parse_response`. -/
def parseResponse (stdout : String) : Processing (List ExtractedMemory) :=
  match read : Json.loads stdout with
  | none => .error (.extractor (some "adapter_invalid_output"))
  | some document => parseDocument document (Json.loads_canonical read)

end Enfold.Model
