/-
# Model.Policy -- server-side privacy and write policy (`policy.py`)

Clients ask for scopes and the server grants them: `authorizeContext` narrows a
connection to the granted scopes.  `evaluateWrite` is the deterministic decision taken
before a write: it raises on an unsupported vocabulary word, and otherwise rejects,
sends to review, or lets the write pass.

The built-in credential screen is ten patterns searched in the concatenation of every
text of the request; screens configured by the server supplement it.
-/
import Enfold.Model.Provenance
import Enfold.Theory.Regex

namespace Enfold.Model

open Enfold.Theory

set_option autoImplicit false

/-! ## Vocabulary -/

def baseScopes : List String := ["private", "work", "public", "sensitive", "secret"]

def sensitivities : List String := ["normal", "sensitive", "secret"]

def provenanceRelations : List String :=
  ["supports", "contradicts", "verifies", "corrects", "derived_from"]

def correctionStatuses : List String := ["unreviewed", "human_corrected", "human_confirmed"]

/-- `^project:[A-Za-z0-9][A-Za-z0-9._-]{0,127}$`. -/
def projectScope : Regex :=
  .sequence [.literal "project:", .one isAsciiAlnum,
    .many (fun c => isAsciiAlnum c || c == '.' || c == '_' || c == '-') 0 (some 127)]

def validateScope (value : String) : Py String :=
  if value ∈ baseScopes ∨ projectScope.fullmatch value then .ok value
  else .error (valueError ("unsupported memory scope: '" ++ value ++ "'"))

def validateSensitivity (value : String) : Py String :=
  if value ∈ sensitivities then .ok value
  else .error (valueError ("unsupported memory sensitivity: '" ++ value ++ "'"))

def validateRelation (value : String) : Py String :=
  if value ∈ provenanceRelations then .ok value
  else .error (valueError ("unsupported provenance relation: '" ++ value ++ "'"))

def validateCorrectionStatus (value : Option String) : Py (Option String) :=
  match value with
  | none => .ok none
  | some status =>
      if status ∈ correctionStatuses then .ok (some status)
      else .error (valueError ("unsupported correction status: '" ++ status ++ "'"))

/-! ## Decisions -/

/-- A decision that stops a write before it touches a fact. -/
structure PolicyDecision where
  outcome : Outcome
  reason : String
  factless : outcome = .rejected ∨ outcome = .needsReview
  stated : strip reason ≠ ""

def reject (reason : String) (stated : strip reason ≠ "" := by decide) : PolicyDecision :=
  ⟨.rejected, reason, .inl rfl, stated⟩

def review (reason : String) (stated : strip reason ≠ "" := by decide) : PolicyDecision :=
  ⟨.needsReview, reason, .inr rfl, stated⟩

/-! ## The credential screen -/

/-- `_CREDENTIAL_SHAPES`. -/
def credentialShapes : List Regex :=
  let keyChar := fun c => isAsciiAlnum c || c == '_' || c == '-'
  let quoteMark := fun c => c == '\'' || c == '"'
  let joiner := Regex.optional (.one fun c => c == '_' || c == ' ' || c == '-')
  [ .sequence [.literal "-----BEGIN ",
      .optional (.oneOf [.literal "RSA ", .literal "EC ", .literal "OPENSSH "]),
      .literal "PRIVATE KEY-----"],
    .sequence [.boundary, .literal "AKIA",
      .many (fun c => isAsciiDigit c || isAsciiUpper c) 16 (some 16), .boundary],
    .sequence [.boundary,
      .oneOf [.literal "ghp", .literal "github_pat",
        .sequence [.literal "sk-", .many keyChar 8 (some 8)]],
      .many keyChar 12 none, .boundary],
    .sequence [.boundary,
      .oneOf [
        .sequence [.literalIgnoringCase "api", joiner, .literalIgnoringCase "key"],
        .sequence [.literalIgnoringCase "client", joiner, .literalIgnoringCase "secret"],
        .literalIgnoringCase "password", .literalIgnoringCase "token"],
      .boundary, .optional (.one quoteMark), .spaces 0, .one (fun c => c == ':' || c == '='),
      .spaces 0, .optional (.one quoteMark), .many (fun c => !isSpace c && !quoteMark c) 8 none],
    .sequence [.boundary, .literalIgnoringCase "authorization", .spaces 0, .literal ":", .spaces 0,
      .literalIgnoringCase "bearer", .spaces 1,
      .many (fun c => isAsciiAlnum c || ['.', '_', '~', '+', '/', '=', '-'].contains c ||
        ['i', 's', 'k'].any (sameIgnoringCase · c)) 8 none],
    .sequence [.boundary, .literal "AIza", .many keyChar 30 none, .boundary],
    .sequence [.boundary, .literal "xox",
      .one (fun c => ['b', 'a', 'p', 'r', 's'].contains c), .literal "-",
      .many (fun c => isAsciiAlnum c || c == '-') 10 none, .boundary],
    .sequence [.boundary, .literal "eyJ", .many keyChar 8 none, .literal ".",
      .many keyChar 8 none, .literal ".", .many keyChar 8 none, .boundary],
    .sequence [.boundary,
      .oneOf [
        .sequence [.literalIgnoringCase "postgres", .optional (.literalIgnoringCase "ql")],
        .literalIgnoringCase "mysql",
        .sequence [.literalIgnoringCase "mongodb", .optional (.literalIgnoringCase "+srv")]],
      .literal "://", .many (fun c => !isSpace c && c != ':' && c != '/') 1 none, .literal ":",
      .many (fun c => !isSpace c && c != '/' && c != '@') 1 none, .literal "@"],
    .sequence [.boundary,
      .oneOf [.literalIgnoringCase "accountkey", .literalIgnoringCase "sharedaccesssignature",
        .literalIgnoringCase "aws_secret_access_key"],
      .spaces 0, .literal "=", .spaces 0, .many (fun c => !isSpace c && c != ';') 8 none] ]

/-- The text the screen searches: the nonempty parts, one a line. -/
def screenedText (request : WriteRequest) (extraText : List String) : String :=
  "\n".intercalate
    (([request.content, request.observationContent.getD "", request.evidenceExcerpt.getD "",
      request.sourceUri.getD "", request.assertedBy.getD "", request.category, request.tags,
      Json.dumps .ascii request.metadataJson] ++ extraText).filter (· ≠ ""))

def defaultCredentialScreen (request : WriteRequest) (extraText : List String) :
    Option PolicyDecision :=
  if credentialShapes.any fun pattern => pattern.search (screenedText request extraText) then
    some (reject "credential-shaped content")
  else none

/-! ## The policy -/

structure MemoryPolicy where
  /-- The scopes granted to each client. -/
  grants : List (String × List String)
  screens : List (WriteRequest → Py (Option PolicyDecision))
  correctionAuthorities : List String
  conflictResolutionAuthorities : List String

namespace MemoryPolicy

/-- The constructor: client ids are stripped and mandatory, granted scopes are supported,
distinct and not empty. -/
def make (clientScopeGrants : List (String × List String))
    (screens : List (WriteRequest → Py (Option PolicyDecision)))
    (correctionAuthorities conflictResolutionAuthorities : List String) : Py MemoryPolicy := do
  let grants ← clientScopeGrants.foldlM
    (fun grants (clientId, scopes) => do
      let key := strip clientId
      require (key ≠ "") (valueError "client grant id must not be empty")
      let validated := (← scopes.mapM validateScope).reverse.dedup.reverse
      require (validated ≠ []) (valueError "client scope grant must not be empty")
      return (key, validated) :: grants.filter fun grant => grant.1 ≠ key)
    []
  return { grants, screens, correctionAuthorities, conflictResolutionAuthorities }

/-- Narrow a connection to the scopes its client is granted. -/
def authorizeContext (policy : MemoryPolicy) (context : ConnectionContext) :
    Py ConnectionContext := do
  match policy.grants.lookup context.clientId with
  | none =>
      throw ⟨.unknownMemoryClient,
        "memory client '" ++ context.clientId ++ "' has no server-side scope grant"⟩
  | some grants =>
      let requested ← context.accessScopes.mapM validateScope
      let effective := requested.filter (· ∈ grants)
      let ⟨nonempty⟩ ← checked (effective ≠ [])
        ⟨.permissionError, "requested scopes do not intersect server-side grants"⟩
      return { context with accessScopes := effective, scopesNonempty := nonempty }

def canAssertCorrection (policy : MemoryPolicy) (clientId : String) : Bool :=
  policy.correctionAuthorities.contains clientId

def canResolveConflicts (policy : MemoryPolicy) (clientId : String) : Bool :=
  policy.conflictResolutionAuthorities.contains clientId

end MemoryPolicy

def humanStatuses : List String := ["human_corrected", "human_confirmed"]

/-- The request claims to be a human correction. -/
def ClaimsCorrection (request : WriteRequest) : Prop :=
  request.sourceType = "human_correction" ∨ request.relation = "corrects" ∨
    ∃ status ∈ request.correctionStatus, status ∈ humanStatuses

instance (request : WriteRequest) : Decidable (ClaimsCorrection request) :=
  inferInstanceAs (Decidable (_ ∨ _ ∨ _))

/-- The screens in order; the first decision stands. -/
def runScreens (request : WriteRequest) :
    List (WriteRequest → Py (Option PolicyDecision)) → Py (Option PolicyDecision)
  | [] => .ok none
  | screen :: screens => do
      match ← screen request with
      | some decision => return some decision
      | none => runScreens request screens

def MemoryPolicy.evaluateWrite (policy : MemoryPolicy) (request : WriteRequest)
    (clientId : Option String) (sensitiveFields : List String) : Py (Option PolicyDecision) := do
  let _ ← validateScope request.scope
  let _ ← validateSensitivity request.sensitivity
  let _ ← validateRelation request.relation
  let _ ← validateCorrectionStatus request.correctionStatus
  if request.scope = "secret" ∨ request.sensitivity = "secret" then
    return some (reject "secret durable writes are disabled")
  else if ClaimsCorrection request ∧ ¬ clientId.any policy.canAssertCorrection then
    return some (review "client is not authorized to assert human correction")
  else
    match defaultCredentialScreen request sensitiveFields with
    | some decision => return some decision
    | none => runScreens request policy.screens

end Enfold.Model
