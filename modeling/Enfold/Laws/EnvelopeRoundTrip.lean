/-
# Laws.EnvelopeRoundTrip -- what is enqueued is decoded again

The writer of an envelope checks an effective context, the reader a wire context.  Both agree on
everything that an authorized client can send: its identities are tokens already
(`ClientContext.Valid`), narrowing the scopes keeps them distinct tokens
(`authorized_wire`), and a valid context is read back as it is (`fromDict_provenance`).
-/
import Enfold.Model.Envelope
import Enfold.Model.Runs

namespace Enfold.Laws

open Enfold.Theory Enfold.Model

set_option autoImplicit false

/-! ## Tokens -/

/-- The text is a token, stripped. -/
def IsToken (text : String) : Prop := Required text ∧ protocolToken.fullmatch text = true

theorem tokenText_eq_some {given text : String} (read : tokenText (.str given) = some text) :
    IsToken text := by
  rw [tokenText] at read
  split at read
  · rename_i valid
    cases read
    exact ⟨required_strip valid.1, valid.2⟩
  · cases read

theorem tokenText_of {text : String} (token : IsToken text) : tokenText (.str text) = some text := by
  obtain ⟨⟨stripped, filled⟩, shape⟩ := token
  rw [tokenText, stripped, if_pos ⟨filled, shape⟩]

/-- Absent, or stripped and not empty. -/
def IsOptional (value : Option String) : Prop := ∀ text ∈ value, Required text

theorem optionalText_eq_some {given value : Option String}
    (read : optionalText (Json.ofText given) = some value) : IsOptional value := by
  intro text present
  cases given with
  | none =>
      cases read
      cases present
  | some given =>
      rw [Json.ofText, optionalText] at read
      split at read
      · rename_i filled
        cases read
        cases present
        exact required_strip filled
      · cases read

theorem optionalText_of {value : Option String} (optional : IsOptional value) :
    optionalText (Json.ofText value) = some value := by
  cases value with
  | none => rfl
  | some text =>
      obtain ⟨stripped, filled⟩ := optional text rfl
      rw [Json.ofText, optionalText, stripped, if_pos filled]

theorem mapM_tokenText_of {texts : List String} (tokens : ∀ text ∈ texts, IsToken text) :
    (texts.map Json.str).mapM tokenText = some texts := by
  induction texts with
  | nil => rfl
  | cons text texts ih =>
      have rest := ih fun other mem => tokens other (List.mem_cons_of_mem _ mem)
      rw [List.map_cons, List.mapM_cons, tokenText_of (tokens text List.mem_cons_self), rest]
      rfl

theorem tokenTuple_of {texts : List String} (filled : texts ≠ []) (distinct : texts.Nodup)
    (tokens : ∀ text ∈ texts, IsToken text) :
    tokenTuple (.arr (texts.map .str)) = some texts := by
  rw [tokenTuple, mapM_tokenText_of tokens]
  simp [filled, distinct]

theorem mapM_tokenText_eq_some {texts tokens : List String}
    (read : (texts.map Json.str).mapM tokenText = some tokens) : ∀ text ∈ tokens, IsToken text := by
  induction texts generalizing tokens with
  | nil =>
      cases read
      simp
  | cons text texts ih =>
      rw [List.map_cons, List.mapM_cons] at read
      obtain ⟨token, first, read⟩ := Option.bind_eq_some_iff.1 read
      obtain ⟨rest, later, read⟩ := Option.bind_eq_some_iff.1 read
      cases read
      intro other mem
      rcases List.mem_cons.1 mem with rfl | mem
      · exact tokenText_eq_some first
      · exact ih later other mem

theorem tokenTuple_eq_some {texts scopes : List String}
    (read : tokenTuple (.arr (texts.map .str)) = some scopes) :
    scopes ≠ [] ∧ scopes.Nodup ∧ ∀ scope ∈ scopes, IsToken scope := by
  obtain ⟨tokens, mapped, read⟩ := Option.bind_eq_some_iff.1 read
  split at read
  · rename_i valid
    cases read
    exact ⟨valid.1, valid.2, mapM_tokenText_eq_some mapped⟩
  · cases read

/-! ## Contexts -/

/-- What the constructor of a wire context establishes. -/
structure ClientContext.Valid (context : ClientContext) : Prop where
  clientId : IsToken context.clientId
  surface : IsToken context.surface
  agentId : IsToken context.agentId
  sessionId : IsToken context.sessionId
  parentAgentId : IsOptional context.parentAgentId
  projectRoot : IsOptional context.projectRoot
  repository : IsOptional context.repository
  branch : IsOptional context.branch
  commitSha : IsOptional context.commitSha
  scopesFilled : context.accessScopes ≠ []
  scopesDistinct : context.accessScopes.Nodup
  scopes : ∀ scope ∈ context.accessScopes, IsToken scope

theorem ClientContext.make_valid {clientId surface agentId sessionId : String}
    {parentAgentId projectRoot repository branch commitSha : Option String}
    {accessScopes : List String} {context : ClientContext}
    (made : ClientContext.make clientId surface agentId sessionId parentAgentId projectRoot
      repository branch commitSha accessScopes = some context) : ClientContext.Valid context := by
  obtain ⟨clientId, client, made⟩ := Option.bind_eq_some_iff.1 made
  obtain ⟨surface, surfaced, made⟩ := Option.bind_eq_some_iff.1 made
  obtain ⟨agentId, agent, made⟩ := Option.bind_eq_some_iff.1 made
  obtain ⟨sessionId, session, made⟩ := Option.bind_eq_some_iff.1 made
  obtain ⟨parentAgentId, parent, made⟩ := Option.bind_eq_some_iff.1 made
  obtain ⟨projectRoot, root, made⟩ := Option.bind_eq_some_iff.1 made
  obtain ⟨repository, repo, made⟩ := Option.bind_eq_some_iff.1 made
  obtain ⟨branch, branched, made⟩ := Option.bind_eq_some_iff.1 made
  obtain ⟨commitSha, commit, made⟩ := Option.bind_eq_some_iff.1 made
  obtain ⟨accessScopes, scopes, made⟩ := Option.bind_eq_some_iff.1 made
  obtain ⟨filled, distinct, tokens⟩ := tokenTuple_eq_some scopes
  cases made
  exact {
    clientId := tokenText_eq_some client
    surface := tokenText_eq_some surfaced
    agentId := tokenText_eq_some agent
    sessionId := tokenText_eq_some session
    parentAgentId := optionalText_eq_some parent
    projectRoot := optionalText_eq_some root
    repository := optionalText_eq_some repo
    branch := optionalText_eq_some branched
    commitSha := optionalText_eq_some commit
    scopesFilled := filled
    scopesDistinct := distinct
    scopes := tokens }

/-- A valid context is what the constructor makes of its fields. -/
theorem ClientContext.make_of {context : ClientContext} (valid : ClientContext.Valid context) :
    ClientContext.make context.clientId context.surface context.agentId context.sessionId
      context.parentAgentId context.projectRoot context.repository context.branch
      context.commitSha context.accessScopes = some context := by
  rw [ClientContext.make, tokenText_of valid.clientId, tokenText_of valid.surface,
    tokenText_of valid.agentId, tokenText_of valid.sessionId, optionalText_of valid.parentAgentId,
    optionalText_of valid.projectRoot, optionalText_of valid.repository,
    optionalText_of valid.branch, optionalText_of valid.commitSha,
    tokenTuple_of valid.scopesFilled valid.scopesDistinct valid.scopes]
  rfl

theorem mem_sortedSet {values : List String} {value : String} :
    value ∈ sortedSet values ↔ value ∈ values := by
  rw [sortedSet, List.mem_insertionSort, List.mem_dedup]

theorem nodup_sortedSet (values : List String) : (sortedSet values).Nodup :=
  (List.perm_insertionSort _ _).nodup_iff.2 (List.nodup_dedup values)

/-- Validated texts pass validation unchanged. -/
theorem mapM_required_of {values : List String} (name : String)
    (valid : ∀ value ∈ values, Required value) :
    ∃ texts, values.mapM (required · name) = .ok texts ∧ texts.map Subtype.val = values := by
  induction values with
  | nil => exact ⟨[], rfl, rfl⟩
  | cons value values ih =>
      obtain ⟨texts, rest, same⟩ := ih fun other mem => valid other (List.mem_cons_of_mem _ mem)
      refine ⟨⟨value, valid value List.mem_cons_self⟩ :: texts, ?_, by rw [List.map_cons, same]⟩
      rw [List.mapM_cons, required_of (valid value List.mem_cons_self), ok_bind, rest, ok_bind]
      rfl

/-- Scopes that pass the policy are supported, and none changes. -/
theorem mapM_validateScope {scopes validated : List String}
    (checked : scopes.mapM validateScope = .ok validated) :
    validated = scopes ∧ ∀ scope ∈ scopes, scope ∈ baseScopes ∨ projectScope.fullmatch scope := by
  induction scopes generalizing validated with
  | nil =>
      cases checked
      exact ⟨rfl, by simp⟩
  | cons scope scopes ih =>
      rw [List.mapM_cons] at checked
      obtain ⟨first, valid, checked⟩ := bind_eq_ok.1 checked
      obtain ⟨rest, later, checked⟩ := bind_eq_ok.1 checked
      cases pure_eq_ok.1 checked
      obtain ⟨rfl, supported⟩ := ih later
      rw [validateScope] at valid
      split at valid
      · rename_i supports
        cases valid
        refine ⟨rfl, fun other mem => ?_⟩
        rcases List.mem_cons.1 mem with rfl | mem
        · exact supports
        · exact supported other mem
      · cases valid

/-- The context of a valid client has its fields, and its scopes in order. -/
theorem protocolContext_of {client : ClientContext} (valid : ClientContext.Valid client)
    {context : ConnectionContext} (made : protocolContext client = .ok context) :
    context.wire = { client with accessScopes := sortedSet client.accessScopes } := by
  obtain ⟨scopes, required, same⟩ := mapM_required_of "access_scope"
    fun scope mem => (valid.scopes scope mem).1
  obtain ⟨⟨clientId, _⟩, client, made⟩ := bind_eq_ok.1 made
  cases (required_of valid.clientId.1).symm.trans client
  obtain ⟨⟨surface, _⟩, surfaced, made⟩ := bind_eq_ok.1 made
  cases (required_of valid.surface.1).symm.trans surfaced
  obtain ⟨⟨agentId, _⟩, agent, made⟩ := bind_eq_ok.1 made
  cases (required_of valid.agentId.1).symm.trans agent
  obtain ⟨⟨sessionId, _⟩, session, made⟩ := bind_eq_ok.1 made
  cases (required_of valid.sessionId.1).symm.trans session
  obtain ⟨capabilities, -, made⟩ := bind_eq_ok.1 made
  obtain ⟨read, found, made⟩ := bind_eq_ok.1 made
  cases required.symm.trans found
  obtain ⟨⟨nonempty⟩, -, made⟩ := bind_eq_ok.1 made
  cases pure_eq_ok.1 made
  dsimp only [ConnectionContext.wire]
  rw [same]

/-- The policy keeps scopes that it supports, and changes nothing else. -/
theorem authorizeContext_narrows {policy : MemoryPolicy} {context effective : ConnectionContext}
    (granted : policy.authorizeContext context = .ok effective) :
    effective.wire = { context.wire with accessScopes := effective.accessScopes } ∧
      effective.accessScopes ≠ [] ∧ effective.accessScopes.Sublist context.accessScopes ∧
      ∀ scope ∈ effective.accessScopes, scope ∈ baseScopes ∨ projectScope.fullmatch scope := by
  rw [MemoryPolicy.authorizeContext] at granted
  split at granted
  · cases granted
  · obtain ⟨requested, validated, granted⟩ := bind_eq_ok.1 granted
    obtain ⟨rfl, supported⟩ := mapM_validateScope validated
    obtain ⟨⟨nonempty⟩, -, granted⟩ := bind_eq_ok.1 granted
    cases pure_eq_ok.1 granted
    exact ⟨rfl, nonempty, List.filter_sublist, fun scope mem =>
      supported scope (List.mem_filter.1 mem).1⟩

/-- The wire context of an authorized client is valid, and its scopes are supported. -/
theorem authorized_wire {policy : MemoryPolicy} {client : ClientContext}
    {effective : ConnectionContext} (valid : ClientContext.Valid client)
    (authorized : protocolContext client >>= policy.authorizeContext = .ok effective) :
    ClientContext.Valid effective.wire ∧
      ∀ scope ∈ effective.accessScopes, scope ∈ baseScopes ∨ projectScope.fullmatch scope := by
  obtain ⟨context, made, granted⟩ := bind_eq_ok.1 authorized
  have whole := protocolContext_of valid made
  obtain ⟨narrowed, filled, kept, supported⟩ := authorizeContext_narrows granted
  have scopes : context.accessScopes = sortedSet client.accessScopes :=
    congrArg ClientContext.accessScopes whole
  rw [scopes] at kept
  rw [whole] at narrowed
  refine ⟨?_, supported⟩
  rw [narrowed]
  exact { valid with
    scopesFilled := filled
    scopesDistinct := kept.nodup (nodup_sortedSet _)
    scopes := fun scope mem => valid.scopes scope (mem_sortedSet.1 (kept.subset mem)) }

/-! ## Reading the envelope -/

/-- The provenance of an envelope, as a document. -/
def provenance (context : ClientContext) : Json :=
  .obj
    [("access_scopes", .arr (context.accessScopes.map Json.str)),
      ("agent_id", .str context.agentId), ("branch", Json.ofText context.branch),
      ("client_id", .str context.clientId), ("commit_sha", Json.ofText context.commitSha),
      ("parent_agent_id", Json.ofText context.parentAgentId),
      ("project_root", Json.ofText context.projectRoot),
      ("repository", Json.ofText context.repository), ("session_id", .str context.sessionId),
      ("surface", .str context.surface)]

/-- A valid context is read back as it is. -/
theorem fromDict_provenance {context : ClientContext} (valid : ClientContext.Valid context) :
    ClientContext.fromDict (provenance context) = some context := by
  have names : (∀ name ∈ contextRequired, name ∈ memberNames (provenance context)) ∧
      ∀ name ∈ memberNames (provenance context),
        name ∈ contextRequired ∨ name ∈ contextOptional := by
    have listed : memberNames (provenance context) =
        ["access_scopes", "agent_id", "branch", "client_id", "commit_sha", "parent_agent_id",
          "project_root", "repository", "session_id", "surface"] := rfl
    rw [listed]
    decide
  have scopes : tokenTuple (field "access_scopes" (provenance context)) =
      some context.accessScopes :=
    tokenTuple_of valid.scopesFilled valid.scopesDistinct valid.scopes
  have clientId : tokenText (field "client_id" (provenance context)) = some context.clientId :=
    tokenText_of valid.clientId
  have surface : tokenText (field "surface" (provenance context)) = some context.surface :=
    tokenText_of valid.surface
  have agentId : tokenText (field "agent_id" (provenance context)) = some context.agentId :=
    tokenText_of valid.agentId
  have sessionId : tokenText (field "session_id" (provenance context)) = some context.sessionId :=
    tokenText_of valid.sessionId
  have parentAgentId : optionalText (field "parent_agent_id" (provenance context)) = some context.parentAgentId :=
    optionalText_of valid.parentAgentId
  have projectRoot : optionalText (field "project_root" (provenance context)) = some context.projectRoot :=
    optionalText_of valid.projectRoot
  have repository : optionalText (field "repository" (provenance context)) = some context.repository :=
    optionalText_of valid.repository
  have branch : optionalText (field "branch" (provenance context)) = some context.branch :=
    optionalText_of valid.branch
  have commitSha : optionalText (field "commit_sha" (provenance context)) = some context.commitSha :=
    optionalText_of valid.commitSha
  rw [ClientContext.fromDict, guard, if_pos names]
  simp only [Option.pure_def, Option.bind_eq_bind, Option.bind_some, scopes, clientId, surface,
    agentId, sessionId, parentAgentId, projectRoot, repository, branch, commitSha]

theorem canonical_texts (texts : List String) : (Json.arr (texts.map Json.str)).Canonical := by
  simp [Json.Canonical, Json.canonicalItems_iff]

theorem canonical_provenance (context : ClientContext) : (provenance context).Canonical := by
  have ordered : (["access_scopes", "agent_id", "branch", "client_id", "commit_sha",
      "parent_agent_id", "project_root", "repository", "session_id", "surface"] : List String).Pairwise
        (· < ·) := by decide +kernel
  refine ⟨ordered, canonical_texts context.accessScopes, ?_⟩
  simp only [Json.CanonicalMembers, Json.canonical_ofText, Json.Canonical, and_self]

theorem canonical_envelope (context : ConnectionContext) (transcript source scope : String)
    (metadata : JsonObject) :
    (extractionEnvelope context transcript source scope metadata.members).Canonical := by
  have ordered : (["metadata", "provenance", "scope", "source", "transcript", "version"] :
      List String).Pairwise (· < ·) := by decide +kernel
  refine ⟨ordered, metadata.canonical, canonical_provenance context.wire, ?_⟩
  simp only [Json.CanonicalMembers, Json.Canonical, and_self]

/-- The reader accepts an envelope of a valid context, and gives back its parts. -/
theorem readEnvelope_written {context : ConnectionContext} {transcript source scope : String}
    {metadata : List (String × Json)} (valid : ClientContext.Valid context.wire)
    (transcriptValid : Required transcript) (sourceValid : Required source)
    (supported : scope ∈ baseScopes ∨ projectScope.fullmatch scope)
    (granted : scope ∈ context.accessScopes) (storable : scope ≠ "secret") :
    readEnvelope (extractionEnvelope context transcript source scope metadata) =
      some ⟨transcript, source, scope, context.wire, transcriptValid, sourceValid, supported,
        granted, storable⟩ := by
  have objects : isObject (provenance context.wire) = true ∧
      isObject (.obj metadata) = true := ⟨rfl, rfl⟩
  have accepted : (scope ∈ baseScopes ∨ projectScope.fullmatch scope) ∧
      scope ∈ context.wire.accessScopes ∧ scope ≠ "secret" ∧ transcript ≠ "" ∧ source ≠ "" :=
    ⟨supported, granted, storable, transcriptValid.2, sourceValid.2⟩
  generalize document : extractionEnvelope context transcript source scope metadata = payload
  have version : isObject payload = true ∧ sameScalar (field "version" payload) (.int 1) = true := by
    rw [← document]
    exact ⟨rfl, rfl⟩
  have origin : payload.get? "provenance" = some (provenance context.wire) := by rw [← document]; rfl
  have extra : payload.get? "metadata" = some (.obj metadata) := by rw [← document]; rfl
  have place : envelopeScope payload = some scope := by rw [← document]; rfl
  have said : payload.get? "transcript" = some (.str transcript) := by rw [← document]; rfl
  have from' : payload.get? "source" = some (.str source) := by rw [← document]; rfl
  rw [readEnvelope, guard, if_pos version]
  simp only [Option.pure_def, Option.bind_eq_bind, Option.bind_some, origin, extra,
    Option.getD_some, guard, if_pos objects, place, fromDict_provenance valid, said, from',
    scalarText, transcriptValid.1, sourceValid.1]
  rw [dif_pos accepted]

theorem decodePayload_written {context : ConnectionContext} {transcript source scope : String}
    {metadata : JsonObject} (valid : ClientContext.Valid context.wire)
    (transcriptValid : Required transcript) (sourceValid : Required source)
    (supported : scope ∈ baseScopes ∨ projectScope.fullmatch scope)
    (granted : scope ∈ context.accessScopes) (storable : scope ≠ "secret") :
    decodePayload (Json.dumps .unicode
        (extractionEnvelope context transcript source scope metadata.members)) =
      .ok (⟨transcript, source, scope, context.wire, transcriptValid, sourceValid, supported,
        granted, storable⟩, .obj metadata.members) := by
  have loaded := Json.loads_dumps .unicode
    (canonical_envelope context transcript source scope metadata)
  have read := @readEnvelope_written context transcript source scope metadata.members valid
    transcriptValid sourceValid supported granted storable
  rw [decodePayload, loaded]
  dsimp only
  rw [decodeEnvelope, read]
  rfl

/-! ## The row of the answer -/

/-- The row that is answered with records the digest, and a new one holds the payload. -/
theorem enqueued_row {host : Host} {context : ConnectionContext} {transcript source scope : String}
    {metadata : List (String × Json)} {s s' : Store} {result : ExtractionEnqueueResult}
    (accepted : enqueueAfterCommit host context transcript source scope metadata s =
      .ok (s', result)) :
    let payload := extractionEnvelope context (strip transcript) (strip source) (strip scope) metadata
    result.payloadSha256 = host.sha256 (Json.dumps .unicode payload) ∧
      ∃ row ∈ s'.extractQueue, row.id = result.queueId ∧
        row.payloadHash = some result.payloadSha256 ∧
        (row.payload = payload ∨ result.replayed = true ∧ row ∈ s.extractQueue) := by
  intro payload
  obtain ⟨-, accepted⟩ := require_bind_eq_ok.1 accepted
  obtain ⟨-, accepted⟩ := require_bind_eq_ok.1 accepted
  obtain ⟨-, accepted⟩ := require_bind_eq_ok.1 accepted
  dsimp only at accepted
  split at accepted
  · rename_i existing others sorted
    cases pure_eq_ok.1 accepted
    refine ⟨rfl, ?_⟩
    have listed : existing ∈ (s.extractQueue.select fun q =>
        q.payloadHash = some (host.sha256 (Json.dumps .unicode payload)) ∧ q.status ≠ .dead).map
          QueueRow.id := by
      rw [← List.mem_insertionSort (· ≤ ·), sorted]
      exact List.mem_cons_self
    obtain ⟨row, found, rfl⟩ := List.mem_map.1 listed
    obtain ⟨stored, hash, -⟩ := Table.mem_select.1 found
    exact ⟨row, stored, rfl, hash, .inr ⟨rfl, stored⟩⟩
  · obtain ⟨table, inserted, accepted⟩ := bind_eq_ok.1 accepted
    cases pure_eq_ok.1 accepted
    have stored := (Table.mem_of_insert? (insertRow_eq_ok.1 inserted)).2 (.inr rfl)
    exact ⟨rfl, _, stored, rfl, rfl, .inl rfl⟩

/-- The recorded digest of a row is that of its payload. -/
def DigestSound (host : Host) (row : QueueRow) : Prop :=
  row.payloadHash = some (host.sha256 (Json.dumps .unicode row.payload))

/-- The row stands for the payload: it holds it, or another payload with the same digest. -/
def StandsFor (host : Host) (payload : Json) (row : QueueRow) : Prop :=
  row.payload = payload ∨ row.payload ≠ payload ∧
    (DigestSound host row →
      host.sha256 (Json.dumps .unicode row.payload) = host.sha256 (Json.dumps .unicode payload))

/-- What is enqueued for an authorized client is decoded again: the stripped transcript and source,
the scope, the metadata, and the fields of the authorized context.  The row of the answer holds
that payload; only an active row that was there before can hold another one, and then both have
one digest. -/
theorem envelope_returns {host : Host} {policy : MemoryPolicy}
    {clientId surface agentId sessionId : String}
    {parentAgentId projectRoot repository branch commitSha : Option String}
    {accessScopes : List String} {client : ClientContext} {effective : ConnectionContext}
    {transcript source scope : String} {metadata : JsonObject} {s s' : Store}
    {result : ExtractionEnqueueResult}
    (made : ClientContext.make clientId surface agentId sessionId parentAgentId projectRoot
      repository branch commitSha accessScopes = some client)
    (authorized : protocolContext client >>= policy.authorizeContext = .ok effective)
    (storable : strip scope ≠ "secret")
    (accepted : enqueueAfterCommit host effective transcript source scope metadata.members s =
      .ok (s', result)) :
    ∃ payload envelope, decodePayload (Json.dumps .unicode payload) =
        .ok (envelope, .obj metadata.members) ∧
      envelope.transcript = strip transcript ∧ envelope.source = strip source ∧
      envelope.scope = strip scope ∧ envelope.context = effective.wire ∧
      ∃ row ∈ s'.extractQueue, row.id = result.queueId ∧
        (row.payload = payload ∨
          result.replayed = true ∧ row ∈ s.extractQueue ∧ StandsFor host payload row) := by
  obtain ⟨digest, row, stored, identity, recorded, holds⟩ := enqueued_row accepted
  obtain ⟨⟨transcriptFilled, sourceFilled, -⟩, accepted⟩ := require_bind_eq_ok.1 accepted
  obtain ⟨granted, -⟩ := require_bind_eq_ok.1 accepted
  obtain ⟨valid, supported⟩ := authorized_wire (ClientContext.make_valid made) authorized
  have returned := @decodePayload_written effective (strip transcript) (strip source) (strip scope)
    metadata valid (required_strip transcriptFilled) (required_strip sourceFilled)
    (supported _ granted) granted storable
  refine ⟨_, _, returned, rfl, rfl, rfl, rfl, row, stored, identity, ?_⟩
  rcases holds with same | ⟨replayed, before⟩
  · exact .inl same
  · by_cases same : row.payload =
        extractionEnvelope effective (strip transcript) (strip source) (strip scope) metadata.members
    · exact .inl same
    · refine .inr ⟨replayed, before, .inr ⟨same, fun sound => ?_⟩⟩
      rw [DigestSound, recorded, digest] at sound
      exact (Option.some.inj sound).symm

/-! ## A sample transcript -/

def sampleWire : ClientContext where
  clientId := "codex"
  surface := "cli"
  agentId := "a1"
  sessionId := "s1"
  parentAgentId := none
  projectRoot := some "/work"
  repository := none
  branch := none
  commitSha := none
  accessScopes := ["work", "private"]

def sampleGrants : MemoryPolicy := ⟨[("codex", ["private"])], [], [], []⟩

theorem sampleGrants_made : MemoryPolicy.make [("codex", ["private"])] [] [] [] = .ok sampleGrants :=
  rfl

def sampleEffective : ConnectionContext where
  clientId := "codex"
  surface := "cli"
  agentId := "a1"
  sessionId := "s1"
  displayName := none
  parentAgentId := none
  projectRoot := some "/work"
  repository := none
  branch := none
  commitSha := none
  capabilities := []
  accessScopes := ["private"]
  startedAt := none
  clientValid := Sample.codex_required
  surfaceValid := Sample.cli_required
  agentValid := Sample.a1_required
  sessionValid := Sample.s1_required
  scopesNonempty := Sample.private_nonempty

def sampleMetadata : JsonObject :=
  ⟨[("turns", .int 2)], by simp [Json.Canonical, Json.CanonicalMembers]⟩

theorem sampleWire_valid : ClientContext.Valid sampleWire where
  clientId := ⟨by decide +kernel, by decide +kernel⟩
  surface := ⟨by decide +kernel, by decide +kernel⟩
  agentId := ⟨by decide +kernel, by decide +kernel⟩
  sessionId := ⟨by decide +kernel, by decide +kernel⟩
  parentAgentId := fun _ absent => by cases absent
  projectRoot := fun _ present => by
    cases present
    decide +kernel
  repository := fun _ absent => by cases absent
  branch := fun _ absent => by cases absent
  commitSha := fun _ absent => by cases absent
  scopesFilled := by decide
  scopesDistinct := by decide
  scopes := by
    unfold IsToken
    decide +kernel

theorem sample_envelope_returns :
    MemoryPolicy.make [("codex", ["private"])] [] [] [] = .ok sampleGrants ∧
      ∃ s' result payload envelope,
        enqueueAfterCommit Sample.host sampleEffective " hello " "session_end" "private"
            sampleMetadata.members Store.empty = .ok (s', result) ∧
          decodePayload (Json.dumps .unicode payload) =
            .ok (envelope, .obj sampleMetadata.members) ∧
          envelope.transcript = strip " hello " ∧ envelope.context = sampleEffective.wire ∧
          ∃ row ∈ s'.extractQueue, row.id = result.queueId ∧ row.payload = payload := by
  refine ⟨sampleGrants_made, ?_⟩
  have made := ClientContext.make_of sampleWire_valid
  have authorized : protocolContext sampleWire >>= sampleGrants.authorizeContext =
      .ok sampleEffective := rfl
  have returns : (enqueueAfterCommit Sample.host sampleEffective " hello " "session_end" "private"
      sampleMetadata.members Store.empty).toOption.isSome = true := by decide +kernel
  cases accepted : enqueueAfterCommit Sample.host sampleEffective " hello " "session_end" "private"
      sampleMetadata.members Store.empty with
  | error raised =>
      rw [accepted] at returns
      cases returns
  | ok outcome =>
      obtain ⟨payload, envelope, read, transcript, -, -, context, row, stored, identity, holds⟩ :=
        envelope_returns made authorized (by decide +kernel) accepted
      refine ⟨_, _, payload, envelope, rfl, read, transcript, context, row, stored, identity, ?_⟩
      rcases holds with same | ⟨-, before, -⟩
      · exact same
      · exact absurd before (Table.not_mem_empty row)

end Enfold.Laws
