/-
# Laws.CredentialRows -- which caller texts the committed rows can hold

A request that passes the policy has been screened, and only such a request leaves its texts in a
row (`write_adds`, `enqueue_payload`); the log row of any other keeps its key.  The screen passes over
the key, the source type and the observation time of a write and the source of a transcript, and
it sees metadata as they are dumped.  A write that claims a correction its client may not assert is
left for review before the screen.  Where these hold no credential that the screen would miss and
no such claim is made, no row of any run holds one and a request with one is rejected:
`screened_runs`.
-/
import Enfold.Laws.CredentialScreen
import Enfold.Laws.IssuedWrites
import Enfold.Laws.QueueMoves
import Enfold.Laws.RowLaws

namespace Enfold.Laws

open Enfold.Theory Enfold.Model

set_option autoImplicit false

/-! ## Texts of requests and rows -/

/-- The typed texts of a write. -/
def candidateTexts : Option StateCandidate → List String
  | none => []
  | some candidate => [candidate.subjectKey, candidate.predicateKey, candidate.objectValue.getD ""]

/-- What the screen of a write passes over, or sees in another form; the key comes apart. -/
def unsearchedTexts (request : WriteRequest) : List String :=
  [request.sourceType, request.observedAt.getD ""] ++ request.metadataJson.strings

/-- The texts of a write. -/
def writeTexts (request : WriteRequest) (candidate : Option StateCandidate) : List String :=
  [request.content, request.observationContent.getD "", request.evidenceExcerpt.getD "",
    request.sourceUri.getD "", request.assertedBy.getD "", request.category, request.tags] ++
  candidateTexts candidate ++ request.idempotencyKey :: unsearchedTexts request

/-- A text parameter, as the service reads it. -/
def paramTexts : Json → List String
  | .str text => [strip text]
  | _ => []

/-- The texts of a transcript to enqueue. -/
def enqueueTexts (params : Json) : List String :=
  paramTexts (field "transcript" params) ++ paramTexts (field "source" params) ++
    (field "metadata" params).strings

def factCallerTexts (r : FactRow) : List String :=
  [r.content, r.category, r.tags, r.subjectKey.getD "", r.predicateKey.getD "", r.objectValue.getD ""]

def observationCallerTexts (o : ObservationRow) : List String :=
  [o.content, o.sourceType, o.sourceUri.getD "", o.assertedBy.getD "", o.observedAt.getD ""] ++
    o.metadataJson.strings

def provenanceCallerTexts (p : ProvenanceRow) : List String := [p.evidenceExcerpt.getD ""]

/-- The key of a log row, and the slot that its detail names. -/
def logCallerTexts (l : WriteLogRow) : List String :=
  l.idempotencyKey :: ((field "subject_key" (field "state_slot" l.detailJson)).strings ++
    (field "predicate_key" (field "state_slot" l.detailJson)).strings)

def queueCallerTexts (q : QueueRow) : List String :=
  (field "transcript" q.payload).strings ++ (field "source" q.payload).strings ++
    (field "metadata" q.payload).strings

/-- No text of the list has the shape of a credential. -/
def CredentialFree (texts : List String) : Prop := ∀ text ∈ texts, ¬ CredentialText text

instance credentialFree_decidable (texts : List String) : Decidable (CredentialFree texts) :=
  inferInstanceAs (Decidable (∀ text ∈ texts, _))

/-- No row holds a caller's text with the shape of a credential. -/
structure NoCredentials (s : Store) : Prop where
  facts : ∀ r ∈ s.facts, CredentialFree (factCallerTexts r)
  observations : ∀ o ∈ s.observations, CredentialFree (observationCallerTexts o)
  provenance : ∀ p ∈ s.provenance, CredentialFree (provenanceCallerTexts p)
  log : ∀ l ∈ s.writeLog, CredentialFree (logCallerTexts l)
  queue : ∀ q ∈ s.extractQueue, CredentialFree (queueCallerTexts q)

/-! ## What a write adds -/

/-- The policy has passed the write. -/
def Passed (call : WriteCall) : Prop :=
  ∃ context s, policyDecision call.service s context call.request call.candidate = .ok none

/-- The rows that a write can leave, beside facts. -/
structure WriteAdds (host : Host) (call : WriteCall) (s s' : Store) : Prop where
  observations : ∀ o ∈ s'.observations, o ∈ s.observations ∨ Passed call ∧ ∃ context id,
    o = observationRow host context call.request call.tick.recordedAt id
  provenance : ∀ p ∈ s'.provenance, p ∈ s.provenance ∨ Passed call ∧ ∃ factId observationId,
    p = provenanceRow call.request call.tick.recordedAt factId observationId
  log : ∀ l ∈ s'.writeLog, l ∈ s.writeLog ∨ l.idempotencyKey = call.request.idempotencyKey ∧
    ((∃ reason, l.detailJson = .obj [("policy_reason", .str reason)]) ∨
      Passed call ∧ ∃ host near state applied flag,
        l.detailJson = detailOf host call.request near state applied flag ∧
        ∀ d ∈ state, ∃ candidate ∈ call.candidate,
          d.subjectKey = candidate.subjectKey ∧ d.predicateKey = candidate.predicateKey)

theorem mem_of_insertOrIgnore {K R : Type} {key : R → K} [DecidableEq K] {t : Table K R key}
    {r r' : R} (mem : r' ∈ insertOrIgnore t r) : r' ∈ t ∨ r' = r := by
  unfold insertOrIgnore at mem
  cases inserted : t.insert? r with
  | none =>
      rw [inserted] at mem
      exact .inl mem
  | some t' =>
      rw [inserted] at mem
      exact (Table.mem_of_insert? inserted).1 mem

section Adds

variable {host : Host} {call : WriteCall} {context : ConnectionContext} {s s₀ s₁ s' : Store}
  {o : WriteOutcome} {observationId : Nat} {state : Option SlotDecision} {applied : Applied}
  {requestHash : String}

/-- The branches that write, once the policy has passed. -/
theorem finished_adds (passed : Passed call) (registered : Registered s s₀)
    (recorded : recordObservation host s₀ context call.request call.tick.recordedAt =
      .ok (s₁, observationId))
    (observed : Observed s₀ s₁) (frame : FactFrame s₁ applied.store)
    (about : ∀ d ∈ state, ∃ candidate ∈ call.candidate,
      d.subjectKey = candidate.subjectKey ∧ d.predicateKey = candidate.predicateKey)
    (finished : Finished call.tick context call.request requestHash observationId state applied s' o) :
    WriteAdds host call s s' := by
  have before : s₀.observations = s.observations := by rw [registered.frame]
  have after : s'.observations = s₁.observations := by rw [finished.frame, frame]
  have attached : applied.store.provenance = s.provenance := by
    rw [frame, observed, registered.frame]
  have logged : applied.store.writeLog = s.writeLog := by rw [frame, observed, registered.frame]
  refine ⟨fun x mem => ?_, fun p mem => ?_, fun l mem => ?_⟩
  · rw [after] at mem
    rcases recordObservation_eq_ok recorded with ⟨-, ⟨same, -⟩ | inserted⟩
    · rw [same, before] at mem
      exact .inl mem
    · rcases (Table.mem_of_insert? inserted).1 mem with old | rfl
      · exact .inl (before ▸ old)
      · exact .inr ⟨passed, context, observationId, rfl⟩
  · rw [finished.provenance] at mem
    rcases mem_of_insertOrIgnore mem with old | rfl
    · exact .inl (attached ▸ old)
    · exact .inr ⟨passed, _, _, rfl⟩
  · rcases finished.detailed l mem with old | ⟨key, host', near, flag, detail⟩
    · exact .inl (logged ▸ old)
    · exact .inr ⟨key, .inr ⟨passed, host', near, state, applied, flag, detail, about⟩⟩

theorem write_adds (done : call.apply host s = .ok (s', o)) : WriteAdds host call s s' := by
  obtain ⟨context, -, -, -, branches⟩ := write_cases done
  cases branches with
  | replay prior found sameHash answer frame clients =>
      rw [frame]
      exact ⟨fun _ mem => .inl mem, fun _ mem => .inl mem, fun _ mem => .inl mem⟩
  | factless s₀ decision fresh registered decided frame logged answer =>
      have log : s₀.writeLog = s.writeLog := by rw [registered.frame]
      refine ⟨fun x mem => .inl ?_, fun p mem => .inl ?_, fun l mem => ?_⟩
      · rwa [frame, registered.frame] at mem
      · rwa [frame, registered.frame] at mem
      · rcases (Table.mem_of_insert? logged).1 mem with old | rfl
        · exact .inl (log ▸ old)
        · exact .inr ⟨rfl, .inl ⟨_, rfl⟩⟩
  | typed s₀ s₁ observationId effective d applied fresh registered decided recorded observed accepted
      branch finished =>
      obtain ⟨passed, filled, slot, -⟩ := decide_typed decided
      obtain ⟨candidate, given, same, -⟩ := effectiveCandidate_eq_ok filled
      refine finished_adds ⟨context, s₀, passed⟩ registered recorded observed branch.1 ?_ finished
      rintro _ ⟨⟩
      obtain ⟨-, subject, predicate⟩ := decideStateWrite_slot slot
      exact ⟨candidate, given, subject.trans (congrArg Slot.subjectKey same),
        predicate.trans (congrArg Slot.predicateKey same)⟩
  | untyped s₀ s₁ observationId near applied fresh registered decided recorded observed searched
      accepted branch finished =>
      exact finished_adds ⟨context, s₀, (decide_untyped decided).2⟩ registered recorded observed
        branch.1 (by simp) finished

end Adds

/-! ## What the screen sees -/

/-- The key of a write is harmless, the screen sees a credential wherever it passes over one, and
a write with a credential claims no correction that its client may not assert. -/
structure Exposes (call : WriteCall) : Prop where
  key : ¬ CredentialText call.request.idempotencyKey
  shown : (∃ text ∈ unsearchedTexts call.request, CredentialText text) →
    ∃ text ∈ searchedTexts call.request (sensitiveFields call.candidate), CredentialText text
  entitled : (∃ text ∈ writeTexts call.request call.candidate, CredentialText text) →
    ClaimsCorrection call.request →
      call.service.policy.canAssertCorrection call.context.clientId = true

/-- The screen sees a credential wherever it passes over one: in the source, or in the metadata as
they are dumped. -/
def ExposesTranscript (params : Json) : Prop :=
  (∃ text ∈ paramTexts (field "source" params) ++ (field "metadata" params).strings,
      CredentialText text) →
    ∃ text ∈ paramTexts (field "transcript" params) ++ [Json.dumps .ascii (field "metadata" params)],
      CredentialText text

theorem candidateTexts_searched {candidate : Option StateCandidate} {text : String}
    (mem : text ∈ candidateTexts candidate) (shaped : CredentialText text) :
    text ∈ sensitiveFields candidate := by
  cases candidate with
  | none => cases mem
  | some candidate =>
      refine List.mem_filter.2 ⟨mem, ?_⟩
      have filled : text ≠ "" := by
        rintro rfl
        exact empty_harmless shaped
      simpa using filled

/-- An exposed write with a credential anywhere is refused by the screen. -/
theorem exposed_refused {call : WriteCall} (exposes : Exposes call)
    (shaped : ∃ text ∈ writeTexts call.request call.candidate, CredentialText text) :
    (defaultCredentialScreen call.request (sensitiveFields call.candidate)).isSome := by
  obtain ⟨text, mem, shaped⟩ := shaped
  suffices ∃ text ∈ searchedTexts call.request (sensitiveFields call.candidate),
      CredentialText text by
    obtain ⟨text', mem', shaped'⟩ := this
    exact screen_sees mem' shaped'
  unfold writeTexts at mem
  rcases List.mem_append.1 mem with searched | rest
  · refine ⟨text, ?_, shaped⟩
    unfold searchedTexts
    rcases List.mem_append.1 searched with plain | typed
    · exact List.mem_append_left _ (List.mem_append_left [_] plain)
    · exact List.mem_append_right _ (candidateTexts_searched typed shaped)
  · rcases List.mem_cons.1 rest with rfl | passedOver
    · exact absurd shaped exposes.key
    · exact exposes.shown ⟨text, passedOver, shaped⟩

/-- A screened write does not pass the policy. -/
theorem policyDecision_screened {service : MemoryWriteService} {s : Store}
    {context : ConnectionContext} {request : WriteRequest} {candidate : Option StateCandidate}
    {decision : Option PolicyDecision}
    (screened : (defaultCredentialScreen request (sensitiveFields candidate)).isSome)
    (decided : policyDecision service s context request candidate = .ok decision) :
    ∃ d, decision = some d ∧ (d.outcome = .rejected ∨ d.outcome = .needsReview ∧
      ClaimsCorrection request ∧ service.policy.canAssertCorrection context.clientId = false) := by
  obtain ⟨found, evaluated, decided⟩ := bind_eq_ok.1 decided
  have some : ∃ d, found = some d ∧ (d.outcome = .rejected ∨ d.outcome = .needsReview ∧
      ClaimsCorrection request ∧ service.policy.canAssertCorrection context.clientId = false) := by
    unfold MemoryPolicy.evaluateWrite at evaluated
    iterate 4 obtain ⟨_, -, evaluated⟩ := bind_eq_ok.1 evaluated
    split at evaluated
    · cases pure_eq_ok.1 evaluated
      exact ⟨_, rfl, .inl rfl⟩
    split at evaluated
    · rename_i claims
      cases pure_eq_ok.1 evaluated
      exact ⟨_, rfl, .inr ⟨rfl, claims.1, by simpa using claims.2⟩⟩
    · obtain ⟨d, refuses⟩ := Option.isSome_iff_exists.1 screened
      rw [refuses] at evaluated
      cases pure_eq_ok.1 evaluated
      refine ⟨d, rfl, .inl ?_⟩
      unfold defaultCredentialScreen at refuses
      split at refuses
      · cases refuses
        rfl
      · cases refuses
  obtain ⟨d, rfl, outcome⟩ := some
  cases pure_eq_ok.1 decided
  exact ⟨d, rfl, outcome⟩

theorem passed_harmless {call : WriteCall} (exposes : Exposes call) (passed : Passed call) : CredentialFree (writeTexts call.request call.candidate) := by
  intro text mem shaped
  obtain ⟨context, s, decided⟩ := passed
  obtain ⟨d, some, -⟩ :=
    policyDecision_screened (exposed_refused exposes ⟨text, mem, shaped⟩) decided
  cases some

/-! ## Steps -/

theorem CredentialFree.of_shaped {texts texts' : List String} (harmless : CredentialFree texts)
    (within : ∀ text ∈ texts', CredentialText text → text ∈ texts) : CredentialFree texts' :=
  fun text mem shaped => harmless text (within text mem shaped) shaped

section Write

variable {host : Host} {call : WriteCall} {s s' : Store} {o : WriteOutcome}

theorem plainRow_texts (tick : Tick) (request : WriteRequest) (candidate : Option StateCandidate)
    (factId : Nat) : ∀ text ∈ factCallerTexts (plainRow tick request factId), CredentialText text →
      text ∈ writeTexts request candidate := by
  intro text mem shaped
  simp only [factCallerTexts, plainRow, Option.getD_none, List.mem_cons, List.not_mem_nil, or_false,
    or_self] at mem
  rcases mem with rfl | rfl | rfl | rfl
  · simp [writeTexts]
  · simp [writeTexts]
  · simp [writeTexts]
  · exact absurd shaped empty_harmless

theorem stateRow_texts {tick : Tick} {request : WriteRequest} {candidate : Option StateCandidate}
    {effective : StateCandidate}
    (filled : effectiveCandidate tick request candidate = .ok (some effective))
    (group : Option String) (factId : Nat) :
    ∀ text ∈ factCallerTexts (stateRow tick request effective group factId), CredentialText text →
      text ∈ writeTexts request candidate := by
  obtain ⟨original, rfl, slot, -, object, -⟩ := effectiveCandidate_eq_ok filled
  have subject : effective.subjectKey = original.subjectKey := congrArg Slot.subjectKey slot
  have predicate : effective.predicateKey = original.predicateKey := congrArg Slot.predicateKey slot
  intro text mem shaped
  simp only [factCallerTexts, stateRow, plainRow, subject, predicate, object, Option.getD_some,
    List.mem_cons, List.not_mem_nil, or_false] at mem
  rcases mem with rfl | rfl | rfl | rfl | rfl | rfl <;> simp [writeTexts, candidateTexts]

theorem observationRow_texts (host : Host) (context : ConnectionContext) (request : WriteRequest)
    (candidate : Option StateCandidate) (now : String) (id : Nat) :
    ∀ text ∈ observationCallerTexts (observationRow host context request now id), CredentialText text →
      text ∈ writeTexts request candidate := by
  intro text mem _
  have observed : observedText request = request.content ∨
      observedText request = request.observationContent.getD "" := by
    unfold observedText orElse
    cases request.observationContent with
    | none => exact .inl rfl
    | some text =>
        by_cases empty : text = ""
        · exact .inl (by simp [empty])
        · exact .inr (by simp [empty])
  simp only [observationCallerTexts, observationRow, List.cons_append, List.nil_append, List.mem_cons] at mem
  rcases mem with rfl | rfl | rfl | rfl | rfl | inMetadata
  · rcases observed with same | same <;> simp [writeTexts, same]
  · simp [writeTexts, unsearchedTexts]
  · simp [writeTexts]
  · simp [writeTexts]
  · simp [writeTexts, unsearchedTexts]
  · simp [writeTexts, unsearchedTexts, inMetadata]

theorem detail_texts {host : Host} {request : WriteRequest} {near : Option NearDuplicateCandidate}
    {state : Option SlotDecision} {applied : Applied} {flag : Bool} {text : String}
    (mem : text ∈
      (field "subject_key" (field "state_slot" (detailOf host request near state applied flag))).strings ++
      (field "predicate_key" (field "state_slot" (detailOf host request near state applied flag))).strings) :
    ∃ d ∈ state, text = d.subjectKey ∨ text = d.predicateKey := by
  cases state with
  | none =>
      exfalso
      have absent : field "state_slot" (detailOf host request near none applied flag) = .null := by
        unfold detailOf
        cases near <;> cases flag <;> cases request.supersedeFactId <;> rfl
      rw [absent] at mem
      simp [field, Json.get?, Json.strings] at mem
  | some d =>
      have slot : field "state_slot" (detailOf host request near (some d) applied flag) =
          .obj [("predicate_key", .str d.predicateKey), ("scope", .str d.scope),
            ("subject_key", .str d.subjectKey)] := by
        unfold detailOf
        cases near <;> cases applied.conflictId <;> rfl
      rw [slot] at mem
      refine ⟨d, rfl, ?_⟩
      rcases List.mem_append.1 mem with subject | predicate
      · exact .inl (List.mem_singleton.1 subject)
      · exact .inr (List.mem_singleton.1 predicate)

/-- An exposed write adds no row with a credential. -/
theorem write_noCredentials (exposes : Exposes call)
    (done : call.apply host s = .ok (s', o)) (clean : NoCredentials s) : NoCredentials s' := by
  have moves : Moves fun r => CredentialFree (factCallerTexts r) := fun r _ _ _ holds => holds
  have adds := write_adds done
  have harmless : Passed call → CredentialFree (writeTexts call.request call.candidate) :=
    passed_harmless exposes
  refine ⟨?_, fun x mem => ?_, fun p mem => ?_, fun l mem => ?_, ?_⟩
  · refine moves.write done clean.facts ?_ ?_
    · intro context s₀ decided factId
      exact (harmless ⟨context, s₀, decided⟩).of_shaped
        (plainRow_texts call.tick call.request call.candidate factId)
    · intro context s₀ effective decided filled group factId
      exact (harmless ⟨context, s₀, decided⟩).of_shaped (stateRow_texts filled group factId)
  · rcases adds.observations x mem with old | ⟨passed, context, id, rfl⟩
    · exact clean.observations x old
    · exact (harmless passed).of_shaped (observationRow_texts host context call.request _ _ id)
  · rcases adds.provenance p mem with old | ⟨passed, factId, id, rfl⟩
    · exact clean.provenance p old
    · refine (harmless passed).of_shaped fun text mem _ => ?_
      obtain rfl := List.mem_singleton.1 mem
      simp [writeTexts, provenanceRow]
  · rcases adds.log l mem with old | ⟨key, detail⟩
    · exact clean.log l old
    intro text here shaped
    rcases List.mem_cons.1 here with rfl | inDetail
    · exact exposes.key (key ▸ shaped)
    rcases detail with ⟨reason, stated⟩ | ⟨passed, host', near, state, applied, flag, stated, about⟩
    · rw [stated] at inDetail
      simp [field, Json.get?, Json.strings, List.lookup_cons] at inDetail
    · rw [stated] at inDetail
      obtain ⟨d, known, same⟩ := detail_texts inDetail
      obtain ⟨candidate, given, subject, predicate⟩ := about d known
      refine harmless passed text ?_ shaped
      obtain rfl | rfl := same <;> simp [writeTexts, candidateTexts, Option.mem_def.1 given, subject, predicate]
  · rw [(write_queue done).1]
    exact clean.queue

end Write

section Enqueue

variable {host : Host} {context : ConnectionContext} {params : Json} {s s' : Store}
  {answer : EnqueueAnswer}

/-- The screen that the enqueue route runs. -/
theorem screenedRequest_eq_ok {transcript scope : String} {metadata : Json} {request : WriteRequest}
    (made : WriteRequest.make "extraction-screen" transcript "conversation_transcript"
      "general" "" .half .half none none none none none scope "normal" none none "supports"
      (some metadata) none "add_fact" = .ok request) :
    request.content = strip transcript ∧ request.metadataJson = metadata := by
  unfold WriteRequest.make at made
  obtain ⟨⟨_, _⟩, -, made⟩ := bind_eq_ok.1 made
  obtain ⟨⟨content, valid⟩, kept, made⟩ := bind_eq_ok.1 made
  iterate 6 obtain ⟨⟨_, _⟩, -, made⟩ := bind_eq_ok.1 made
  iterate 3 obtain ⟨⟨_⟩, -, made⟩ := bind_eq_ok.1 made
  obtain ⟨⟨document, isObject⟩, same, made⟩ := bind_eq_ok.1 made
  cases pure_eq_ok.1 made
  exact ⟨required_eq_ok kept, (Option.some.inj (canonicalJsonObject_eq_ok same)).symm⟩

/-- The payload of a row that an enqueue appends. -/
theorem enqueue_payload {transcript source scope : String} {metadata : List (String × Json)}
    {result : ExtractionEnqueueResult}
    (done : enqueueAfterCommit host context transcript source scope metadata s = .ok (s', result)) :
    s' = { s with extractQueue := s'.extractQueue, queueSequence := s'.queueSequence } ∧
      ∀ q ∈ s'.extractQueue, q ∈ s.extractQueue ∨
        q.payload = extractionEnvelope context (strip transcript) (strip source) (strip scope)
          metadata := by
  unfold enqueueAfterCommit at done
  dsimp only at done
  iterate 3 obtain ⟨-, done⟩ := require_bind_eq_ok.1 done
  split at done
  · cases pure_eq_ok.1 done
    exact ⟨rfl, fun q mem => .inl mem⟩
  · obtain ⟨queue, inserted, done⟩ := bind_eq_ok.1 done
    cases pure_eq_ok.1 done
    refine ⟨rfl, fun q mem => ?_⟩
    rcases (Table.mem_of_insert? (insertRow_eq_ok.1 inserted)).1 mem with old | rfl
    · exact .inl old
    · exact .inr rfl

/-- A transcript is rejected, or queued after its text and its metadata were screened. -/
theorem enqueueRoute_eq_ok (done : enqueueRoute host context params s = .ok (s', answer)) :
    (s' = s ∧ ∃ reason, answer = .rejected reason) ∨
      (∀ text ∈ paramTexts (field "transcript" params) ++
          [Json.dumps .ascii (field "metadata" params)], ¬ CredentialText text) ∧
        s' = { s with extractQueue := s'.extractQueue, queueSequence := s'.queueSequence } ∧
        ∀ q ∈ s'.extractQueue, q ∈ s.extractQueue ∨ ∀ text ∈ queueCallerTexts q, text ∈ enqueueTexts params := by
  unfold enqueueRoute at done
  obtain ⟨_, -, done⟩ := bind_eq_ok.1 done
  obtain ⟨_, -, done⟩ := bind_eq_ok.1 done
  dsimp only at done
  split at done
  rotate_left
  · cases done
  rw [ok_bind] at done
  obtain ⟨-, done⟩ := require_bind_eq_ok.1 done
  split at done
  · cases pure_eq_ok.1 done
    exact .inl ⟨rfl, _, rfl⟩
  obtain ⟨transcript, readTranscript, done⟩ := bind_eq_ok.1 done
  obtain ⟨source, readSource, done⟩ := bind_eq_ok.1 done
  obtain ⟨metadata, readMetadata, done⟩ := bind_eq_ok.1 done
  obtain ⟨request, made, done⟩ := bind_eq_ok.1 done
  split at done
  · cases pure_eq_ok.1 done
    exact .inl ⟨rfl, _, rfl⟩
  rename_i unrefused
  obtain ⟨⟨s₁, result⟩, queued, done⟩ := bind_eq_ok.1 done
  cases pure_eq_ok.1 done
  right
  obtain ⟨givenTranscript, isTranscript, -, rfl⟩ := textParam_eq_ok readTranscript
  obtain ⟨givenSource, isSource, -, rfl⟩ := textParam_eq_ok readSource
  obtain ⟨content, same⟩ := screenedRequest_eq_ok made
  rw [strip_strip] at content
  obtain ⟨frame, rows⟩ := enqueue_payload queued
  obtain ⟨members, rfl, strings, dumped⟩ : ∃ members, metadata = .obj members ∧
      (Json.obj members).strings = (field "metadata" params).strings ∧
      (CredentialText (Json.dumps .ascii (field "metadata" params)) →
        CredentialText (Json.dumps .ascii (.obj members))) := by
    unfold jsonObject at readMetadata
    split at readMetadata
    · rename_i absent
      cases readMetadata
      refine ⟨[], rfl, by rw [absent]; rfl, fun shaped => ?_⟩
      rw [absent] at shaped
      exact absurd shaped (by decide +kernel)
    · rename_i members given
      cases readMetadata
      exact ⟨members, rfl, by rw [given], by rw [given]; exact id⟩
    · cases readMetadata
  refine ⟨fun text mem shaped => ?_, frame, fun q mem => ?_⟩
  · obtain ⟨text', seen, shaped'⟩ : ∃ text' ∈ searchedTexts request [], CredentialText text' := by
      rcases List.mem_append.1 mem with isText | isDump
      · rw [isTranscript] at isText
        obtain rfl := List.mem_singleton.1 isText
        exact ⟨_, by simp [searchedTexts, content], shaped⟩
      · obtain rfl := List.mem_singleton.1 isDump
        exact ⟨_, by simp [searchedTexts, same], dumped shaped⟩
    have refused := screen_sees seen shaped'
    rw [unrefused] at refused
    cases refused
  · rcases rows q mem with old | payload
    · exact .inl old
    · refine .inr fun text mem => ?_
      have texts : queueCallerTexts q = [strip (strip givenTranscript)] ++ [strip (strip givenSource)] ++
          (Json.obj members).strings := by
        unfold queueCallerTexts
        rw [payload]
        rfl
      rw [texts, strip_strip, strip_strip, strings] at mem
      unfold enqueueTexts
      rw [isTranscript, isSource]
      exact mem

/-- An exposed transcript with a credential anywhere is rejected, or the request raises. -/
theorem enqueue_rejected (exposes : ExposesTranscript params)
    (shaped : ∃ text ∈ enqueueTexts params, CredentialText text)
    (done : enqueueRoute host context params s = .ok (s', answer)) :
    s' = s ∧ ∃ reason, answer = .rejected reason := by
  rcases enqueueRoute_eq_ok done with rejected | ⟨screened, -, -⟩
  · exact rejected
  · exfalso
    obtain ⟨text, mem, shaped⟩ := shaped
    unfold enqueueTexts at mem
    rw [List.append_assoc] at mem
    rcases List.mem_append.1 mem with transcript | rest
    · exact screened text (List.mem_append_left _ transcript) shaped
    · obtain ⟨text', mem', shaped'⟩ := exposes ⟨text, rest, shaped⟩
      exact screened text' mem' shaped'

/-- An exposed transcript adds no row with a credential. -/
theorem enqueue_noCredentials (exposes : ExposesTranscript params)
    (done : enqueueRoute host context params s = .ok (s', answer)) (clean : NoCredentials s) :
    NoCredentials s' := by
  by_cases shaped : ∃ text ∈ enqueueTexts params, CredentialText text
  · rw [(enqueue_rejected exposes shaped done).1]
    exact clean
  · rcases enqueueRoute_eq_ok done with ⟨rfl, -⟩ | ⟨-, frame, rows⟩
    · exact clean
    · refine ⟨?_, ?_, ?_, ?_, fun q mem => ?_⟩
      · rw [frame]
        exact clean.facts
      · rw [frame]
        exact clean.observations
      · rw [frame]
        exact clean.provenance
      · rw [frame]
        exact clean.log
      · rcases rows q mem with old | within
        · exact clean.queue q old
        · exact fun text here holds => shaped ⟨text, within text here, holds⟩

end Enqueue

/-! ## Runs of requests -/

/-- A request that leaves caller texts behind. -/
inductive TextRequest where
  | write (call : WriteCall)
  | enqueue (context : ConnectionContext) (params : Json)

namespace TextRequest

/-- One request in its transaction. -/
def handle (host : Host) : TextRequest → Store → Store
  | .write call, s => commit s (call.apply host s)
  | .enqueue context params, s => commit s (enqueueRoute host context params s)

def texts : TextRequest → List String
  | .write call => writeTexts call.request call.candidate
  | .enqueue _ params => enqueueTexts params

/-- The screen sees a credential wherever it passes over one. -/
def Exposed : TextRequest → Prop
  | .write call => Exposes call
  | .enqueue _ params => ExposesTranscript params

/-- When the request returns, it has been rejected. -/
def Rejected (host : Host) : TextRequest → Store → Prop
  | .write call, s => ∀ s' o, call.apply host s = .ok (s', o) → o.outcome = .rejected
  | .enqueue context params, s => ∀ s' answer, enqueueRoute host context params s = .ok (s', answer) →
      s' = s ∧ ∃ reason, answer = .rejected reason

/-- No other write of the run has the digest of this one. -/
def DigestedApart (host : Host) (requests : List TextRequest) : TextRequest → Prop
  | .write call => ∀ call', .write call' ∈ requests →
      requestSha256 host call'.context call'.request call'.candidate =
        requestSha256 host call.context call.request call.candidate →
      call'.request = call.request ∧ call'.candidate = call.candidate
  | .enqueue _ _ => True

end TextRequest

/-- A log row answers a write of the run with its digest; one with a credential was rejected. -/
def Answers (host : Host) (requests : List TextRequest) (l : WriteLogRow) : Prop :=
  ∃ call, TextRequest.write call ∈ requests ∧
    l.requestSha256 = requestSha256 host call.context call.request call.candidate ∧
    ((∃ text ∈ writeTexts call.request call.candidate, CredentialText text) →
      l.outcome = .rejected)

section Answers

variable {host : Host} {requests : List TextRequest} {call : WriteCall} {s s' : Store}
  {o : WriteOutcome}

/-- The row that a write appends to the log. -/
theorem write_log_rows (done : call.apply host s = .ok (s', o)) :
    ∀ l ∈ s'.writeLog, l ∈ s.writeLog ∨ o.replayed = false ∧ l.outcome = o.outcome ∧
      l.requestSha256 = requestSha256 host call.context call.request call.candidate := by
  obtain ⟨context, authorized, -, -, cases⟩ := write_cases done
  obtain ⟨scopes, nonempty, narrowed⟩ := authorizeContext_eq_ok authorized
  have digest : requestSha256 host context call.request call.candidate =
      requestSha256 host call.context call.request call.candidate :=
    requestSha256_congr (by rw [narrowed]) (by rw [narrowed])
  intro l mem
  cases cases with
  | replay prior found sameHash answer frame clients =>
      rw [frame] at mem
      exact .inl mem
  | factless s₀ decision fresh registered decided frame logged answer =>
      have log : s₀.writeLog = s.writeLog := by rw [registered.frame]
      obtain ⟨-, outcome, -, -, -, replayed, -⟩ := make_eq_ok answer
      rcases (Table.mem_of_insert? logged).1 mem with old | rfl
      · exact .inl (log ▸ old)
      · exact .inr ⟨replayed, outcome.symm, digest⟩
  | typed s₀ s₁ observationId effective d applied fresh registered decided recorded observed
      accepted branch finished =>
      have log : applied.store.writeLog = s.writeLog := by
        rw [branch.1, observed, registered.frame]
      obtain ⟨detail, logged, answer⟩ := finished.logged
      obtain ⟨-, outcome, -, -, -, replayed, -⟩ := make_eq_ok answer
      rcases (Table.mem_of_insert? logged).1 mem with old | rfl
      · exact .inl (log ▸ old)
      · exact .inr ⟨replayed, outcome.symm, digest⟩
  | untyped s₀ s₁ observationId near applied fresh registered decided recorded observed searched
      accepted branch finished =>
      have log : applied.store.writeLog = s.writeLog := by
        rw [branch.1, observed, registered.frame]
      obtain ⟨detail, logged, answer⟩ := finished.logged
      obtain ⟨-, outcome, -, -, -, replayed, -⟩ := make_eq_ok answer
      rcases (Table.mem_of_insert? logged).1 mem with old | rfl
      · exact .inl (log ▸ old)
      · exact .inr ⟨replayed, outcome.symm, digest⟩

/-- A fresh answer to an exposed write with a credential. -/
theorem write_refused (exposes : Exposes call)
    (shaped : ∃ text ∈ writeTexts call.request call.candidate, CredentialText text)
    (done : call.apply host s = .ok (s', o)) (fresh : o.replayed = false) :
    o.outcome = .rejected := by
  have screened := exposed_refused exposes shaped
  obtain ⟨context, authorized, -, -, cases⟩ := write_cases done
  obtain ⟨scopes, nonempty, narrowed⟩ := authorizeContext_eq_ok authorized
  have client : context.clientId = call.context.clientId := by rw [narrowed]
  cases cases with
  | replay prior found sameHash answer frame clients =>
      obtain ⟨-, -, -, -, -, replayed, -⟩ := make_eq_ok answer
      rw [replayed] at fresh
      cases fresh
  | factless s₀ decision fresh registered decided frame logged answer =>
      obtain ⟨-, outcome, -⟩ := make_eq_ok answer
      obtain ⟨decision', policy, decided⟩ := bind_eq_ok.1 decided
      obtain ⟨d, rfl, refused⟩ := policyDecision_screened screened policy
      obtain ⟨effective, -, decided⟩ := bind_eq_ok.1 decided
      cases pure_eq_ok.1 decided
      rw [outcome]
      rcases refused with rejected | ⟨-, claims, unentitled⟩
      · exact rejected
      · rw [client, exposes.entitled shaped claims] at unentitled
        cases unentitled
  | typed s₀ s₁ observationId effective d applied fresh registered decided recorded observed
      accepted branch finished =>
      obtain ⟨d', some, -⟩ := policyDecision_screened screened (decide_typed decided).1
      cases some
  | untyped s₀ s₁ observationId near applied fresh registered decided recorded observed searched
      accepted branch finished =>
      obtain ⟨d', some, -⟩ := policyDecision_screened screened (decide_untyped decided).2
      cases some

/-- An exposed write with a credential is rejected, also when the log answers it. -/
theorem write_rejected (exposes : Exposes call)
    (shaped : ∃ text ∈ writeTexts call.request call.candidate, CredentialText text)
    (apart : (TextRequest.write call).DigestedApart host requests)
    (answers : ∀ l ∈ s.writeLog, Answers host requests l) :
    (TextRequest.write call).Rejected host s := by
  intro s' o done
  by_cases fresh : o.replayed = false
  · exact write_refused exposes shaped done fresh
  obtain ⟨context, authorized, -, -, cases⟩ := write_cases done
  obtain ⟨scopes, nonempty, narrowed⟩ := authorizeContext_eq_ok authorized
  have digested : requestSha256 host context call.request call.candidate =
      requestSha256 host call.context call.request call.candidate :=
    requestSha256_congr (by rw [narrowed]) (by rw [narrowed])
  cases cases with
  | replay prior found sameHash answer frame clients =>
      obtain ⟨mem, -⟩ := Table.get?_eq_some.1 found
      obtain ⟨-, outcome, -⟩ := make_eq_ok answer
      obtain ⟨call', asked, digest, rejected⟩ := answers prior mem
      obtain ⟨request, candidate⟩ :=
        apart call' asked (digest.symm.trans (sameHash.trans digested))
      rw [request, candidate] at rejected
      rw [outcome]
      exact rejected shaped
  | factless s₀ decision _ registered decided frame logged answer =>
      exact absurd (make_eq_ok answer).2.2.2.2.2.1 fresh
  | typed s₀ s₁ observationId effective d applied _ registered decided recorded observed accepted
      branch finished =>
      exact absurd finished.outcome.2.2.2.2.2 fresh
  | untyped s₀ s₁ observationId near applied _ registered decided recorded observed searched
      accepted branch finished =>
      exact absurd finished.outcome.2.2.2.2.2 fresh

theorem write_answers (exposes : Exposes call) (asked : TextRequest.write call ∈ requests)
    (done : call.apply host s = .ok (s', o))
    (answers : ∀ l ∈ s.writeLog, Answers host requests l) :
    ∀ l ∈ s'.writeLog, Answers host requests l := by
  intro l mem
  rcases write_log_rows done l mem with old | ⟨fresh, outcome, digest⟩
  · exact answers l old
  · refine ⟨call, asked, digest, fun shaped => ?_⟩
    rw [outcome]
    exact write_refused exposes shaped done fresh

end Answers

/-- What a run of exposed requests keeps. -/
structure ScreenInvariant (host : Host) (requests : List TextRequest) (s : Store) : Prop where
  rows : NoCredentials s
  answers : ∀ l ∈ s.writeLog, Answers host requests l

theorem screenInvariant_empty (host : Host) (requests : List TextRequest) :
    ScreenInvariant host requests Store.empty := by
  refine ⟨⟨?_, ?_, ?_, ?_, ?_⟩, ?_⟩
  · exact fun r mem => absurd mem (Facts.not_mem_empty r)
  all_goals exact fun x mem => absurd mem (Table.not_mem_empty x)

theorem handle_keeps {host : Host} {requests : List TextRequest} {request : TextRequest} {s : Store}
    (exposed : request.Exposed) (asked : request ∈ requests)
    (holds : ScreenInvariant host requests s) :
    ScreenInvariant host requests (request.handle host s) := by
  cases request with
  | write call =>
      refine commit_induction holds fun s' o done => ?_
      exact ⟨write_noCredentials exposed done holds.rows,
        write_answers exposed asked done holds.answers⟩
  | enqueue context params =>
      refine commit_induction holds fun s' answer done => ?_
      refine ⟨enqueue_noCredentials exposed done holds.rows, ?_⟩
      rcases enqueueRoute_eq_ok done with ⟨rfl, -⟩ | ⟨-, frame, -⟩
      · exact holds.answers
      · rw [frame]
        exact holds.answers

theorem exposed_run {host : Host} {all requests : List TextRequest} {s : Store}
    (exposed : ∀ request ∈ all, request.Exposed) (within : requests ⊆ all)
    (holds : ScreenInvariant host all s) :
    ScreenInvariant host all (run (TextRequest.handle host) requests s) := by
  induction requests generalizing s with
  | nil => exact holds
  | cons request requests ih =>
      have asked : request ∈ all := within List.mem_cons_self
      refine ih (fun later mem => within (List.mem_cons_of_mem _ mem)) ?_
      exact handle_keeps (exposed request asked) asked holds

/-- In a run whose requests are all exposed to the screen, no row holds a caller's text with the
shape of a credential, and every such request with one is rejected, where no other write of the
run has its digest. -/
theorem screened_runs {host : Host} {requests : List TextRequest}
    (exposed : ∀ request ∈ requests, request.Exposed) :
    NoCredentials (run (TextRequest.handle host) requests Store.empty) ∧
      ∀ request : TextRequest, request.Exposed → request.DigestedApart host requests →
        (∃ text ∈ request.texts, CredentialText text) →
          request.Rejected host (run (TextRequest.handle host) requests Store.empty) := by
  have holds := exposed_run exposed (List.Subset.refl requests)
    (screenInvariant_empty host requests)
  refine ⟨holds.rows, fun request exposes apart shaped => ?_⟩
  cases request with
  | write call => exact write_rejected exposes shaped apart holds.answers
  | enqueue context params => exact fun s' answer done => enqueue_rejected exposes shaped done

/-! ## Credentials that the screen passes over -/

namespace CredentialSample

/-- A write that names a credential as its source type. -/
def sourceTypeCall : WriteCall :=
  { sampleWrite "the door opens" with
    request :=
      { (sampleWrite "the door opens").request with
        sourceType := "token=hunter22"
        sourceTypeValid := by decide +kernel } }

/-- The quotation mark is escaped in the dumped metadata, and the pattern ends there. -/
def metadataCall : WriteCall :=
  { sampleWrite "the door opens" with
    request :=
      { (sampleWrite "the door opens").request with
        metadataJson := .obj [("note", .str "token\": hunter22")]
        metadataObject := ⟨_, rfl⟩ } }

/-- Both writes insert a fact, and one of their texts is shaped like a credential. -/
theorem calls_stored : ∀ call ∈ [sourceTypeCall, metadataCall],
    (∃ text ∈ writeTexts call.request call.candidate, CredentialText text) ∧
      (call.apply Sample.host Store.empty).map (fun r => (r.2.outcome,
        r.1.observations.rows.all fun o => CredentialFree (observationCallerTexts o))) = .ok (.inserted, false) := by
  decide +kernel

def plainCall : WriteCall := sampleWrite "the door opens"

def leakedCall : WriteCall := sampleWrite "token=hunter22"

/-- Both show the screen all they hold and claim no correction, and the second one holds a
credential. -/
theorem calls_exposed : (∀ call ∈ [plainCall, leakedCall],
      ¬ CredentialText call.request.idempotencyKey ∧ CredentialFree (unsearchedTexts call.request) ∧
        ¬ ClaimsCorrection call.request) ∧
    CredentialText "token=hunter22" := by
  decide +kernel

theorem exposed_of_mem {call : WriteCall} (mem : call ∈ [plainCall, leakedCall]) :
    (TextRequest.write call).Exposed := by
  obtain ⟨key, harmless, unclaimed⟩ := calls_exposed.1 call mem
  refine ⟨key, fun passedOver => ?_, fun _ claims => absurd claims unclaimed⟩
  obtain ⟨text, here, shaped⟩ := passedOver
  exact absurd shaped (harmless text here)

end CredentialSample

open CredentialSample in
theorem sample_screened_runs :
    NoCredentials (run (TextRequest.handle sampleHost) [.write plainCall] Store.empty) ∧
      (TextRequest.write leakedCall).Rejected sampleHost
        (run (TextRequest.handle sampleHost) [.write plainCall] Store.empty) := by
  have distinct : (sampleDigests.map Prod.snd).Nodup := by decide +kernel
  have unmarked : ∀ entry ∈ sampleDigests, entry.2.toList.head? ≠ some 'u' := by
    simp [sampleDigests]
  have collisionFree : Function.Injective sampleHost.sha256 := by
    dsimp only [sampleHost]
    exact listedHash_injective distinct unmarked
  have holds := @screened_runs sampleHost [.write plainCall] fun request mem => by
      obtain rfl := List.mem_singleton.1 mem
      exact exposed_of_mem List.mem_cons_self
  refine ⟨holds.1, holds.2 (.write leakedCall) (exposed_of_mem (by simp)) ?_ ?_⟩
  · intro call mem same
    exact (requestSha256_injective collisionFree same).2
  · exact ⟨"token=hunter22", List.mem_cons_self, calls_exposed.2⟩

/-- The write stores a credential from a text that the screen has not searched. -/
def Leaks (call : WriteCall) : Prop :=
  (∃ text ∈ (TextRequest.write call).texts, CredentialText text) ∧
    ¬ (TextRequest.write call).Rejected Sample.host Store.empty ∧
    ¬ NoCredentials (run (TextRequest.handle Sample.host) [.write call] Store.empty)

theorem leaks_of_stored {call : WriteCall}
    (shaped : ∃ text ∈ writeTexts call.request call.candidate, CredentialText text)
    (stored : (call.apply Sample.host Store.empty).map (fun r => (r.2.outcome,
      r.1.observations.rows.all fun o => CredentialFree (observationCallerTexts o))) =
        .ok (.inserted, false)) : Leaks call := by
  obtain ⟨⟨s', o⟩, done, same⟩ := map_eq_ok.1 stored
  obtain ⟨outcome, held⟩ := Prod.mk.inj same
  dsimp only at outcome held
  refine ⟨shaped, fun rejected => ?_, fun clean => ?_⟩
  · have refused := rejected s' o done
    rw [outcome] at refused
    cases refused
  · have after : run (TextRequest.handle Sample.host) [.write call] Store.empty = s' := by
      rw [run_cons, run_nil, TextRequest.handle, done]
      rfl
    rw [after] at clean
    obtain ⟨x, mem, unclean⟩ := List.all_eq_false.1 held
    exact unclean (decide_eq_true (clean.observations x mem))

open CredentialSample in
/-- A credential in the source type, and one that its escape hides in the metadata, are stored. -/
theorem unsearched_texts_stored : Leaks sourceTypeCall ∧ Leaks metadataCall := by
  obtain ⟨shaped, stored⟩ := calls_stored sourceTypeCall List.mem_cons_self
  obtain ⟨shaped', stored'⟩ :=
    calls_stored metadataCall (List.mem_cons_of_mem _ List.mem_cons_self)
  exact ⟨leaks_of_stored shaped stored, leaks_of_stored shaped' stored'⟩

end Enfold.Laws
