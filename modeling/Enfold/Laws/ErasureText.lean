/-
# Laws.ErasureText -- which copies of a text an erasure leaves

The text of an erased fact may have copies in six tables, two of which hold it inside
JSON.  The erasure reaches a copy through a provenance link, through the queue row an
observation names, or by finding the text literally in a column.  What it does not reach:

* the observation of a write whose fact lost a near-duplicate merge, which is linked to
  the winner only;
* a payload or a log detail in which the text is escaped;
* the proposals of a queue row, which it never looks at;
* a column it keeps, or a text it writes, in which the erased text happens to occur.

`Forgettable` says that none of this is the case, and it is exactly what an erasure needs
to leave no copy (`erasure_forgets_iff`).
-/
import Enfold.Laws.ErasureFrame

namespace Enfold.Laws

open Enfold.Theory Enfold.Model

set_option autoImplicit false

/-! ## Texts -/

/-- The text occurs in one of the texts. -/
def Mentions (c : String) (texts : List String) : Prop := ∃ t ∈ texts, occursIn c t

instance (c : String) (texts : List String) : Decidable (Mentions c texts) :=
  inferInstanceAs (Decidable (∃ t ∈ texts, _))

@[simp] theorem mentions_append {c : String} {xs ys : List String} :
    Mentions c (xs ++ ys) ↔ Mentions c xs ∨ Mentions c ys := by
  simp [Mentions, or_and_right, exists_or]

theorem mentions_flatMap {R : Type} {c : String} {rows : List R} {f : R → List String} :
    Mentions c (rows.flatMap f) ↔ ∃ r ∈ rows, Mentions c (f r) := by
  simp only [Mentions, List.mem_flatMap]
  constructor
  · rintro ⟨t, ⟨r, mem, listed⟩, occurs⟩
    exact ⟨r, mem, t, listed, occurs⟩
  · rintro ⟨r, mem, t, listed, occurs⟩
    exact ⟨t, ⟨r, mem, listed⟩, occurs⟩

/-- What a reader of a document sees: its text, and the strings decoded from it. -/
def documentTexts (style : Json.Style) (document : Json) : List String :=
  Json.dumps style document :: document.strings

/-- The text columns of a fact. -/
def factTexts (r : FactRow) : List String :=
  [r.content, r.category, r.tags, r.createdAt, r.scope, r.sensitivity] ++
    [r.validFrom, r.invalidAt, r.memoryKind, r.subjectKey, r.predicateKey, r.objectValue,
      r.correctionStatus, r.conflictGroup].reduceOption

def entryTexts (e : FtsRow) : List String := [e.content, e.tags]

def observationTexts (o : ObservationRow) : List String :=
  [o.clientId, o.sessionId, o.sourceType, o.content, o.contentSha256, o.recordedAt, o.scope,
      o.sensitivity] ++
    [o.sourceUri, o.projectRoot, o.repository, o.branch, o.commitSha, o.assertedBy, o.performedBy,
      o.observedAt, o.redactedAt].reduceOption ++
    documentTexts .ascii o.metadataJson

def evidenceTexts (p : ProvenanceRow) : List String :=
  [p.relation, p.createdAt] ++ p.evidenceExcerpt.toList

def payloadTexts (q : QueueRow) : List String := documentTexts .unicode q.payload

def proposalTexts (q : QueueRow) : List String :=
  q.proposalJson.toList.flatMap (documentTexts .unicode)

def detailTexts (l : WriteLogRow) : List String := documentTexts .ascii l.detailJson

/-! ## Copies -/

/-- The write that inserted the fact recorded, or reused, this observation. -/
def RecordedBy (host : Host) (ops : List Op) (factId observationId : Nat) : Prop :=
  ∃ before call after s' o, ops = before ++ .write call :: after ∧
    call.apply host (run (step host) before Store.empty) = .ok (s', o) ∧
    (∀ r ∈ (run (step host) before Store.empty).facts, r.factId ≠ factId) ∧
    (∃ r ∈ s'.facts, r.factId = factId) ∧ o.observationId = some observationId

/-- The fact is linked to the observation. -/
def LinkedTo (s : Store) (factId observationId : Nat) : Prop :=
  ∃ p ∈ s.provenance, p.factId = factId ∧ p.observationId = observationId

/-- No copy of the text is left where the fact brought one. -/
structure Forgotten (c : String) (factId : Nat) (recorded : Nat → Prop) (s : Store) : Prop where
  fact : ∀ r ∈ s.facts, r.factId = factId → ¬ Mentions c (factTexts r)
  entry : ∀ e ∈ s.factsFts, e.rowid = factId → ¬ Mentions c (entryTexts e)
  observations : ∀ o ∈ s.observations,
    LinkedTo s factId o.observationId ∨ recorded o.observationId → ¬ Mentions c (observationTexts o)
  evidence : ∀ p ∈ s.provenance, p.factId = factId → ¬ Mentions c (evidenceTexts p)
  payloads : ∀ q ∈ s.extractQueue, ¬ Mentions c (payloadTexts q)
  proposals : ∀ q ∈ s.extractQueue, ¬ Mentions c (proposalTexts q)
  details : ∀ l ∈ s.writeLog, ¬ Mentions c (detailTexts l)

/-! ## What the erasure reaches -/

/-- What the erasure keeps or writes in place of the text: the other columns of the fact, of
its observations and of its links, and the replacements. -/
def residue (host : Host) (call : EraseCall) (row : FactRow) (s : Store) : List String :=
  let ids := linkedObservations s call.factId
  factTexts (scrubbedRow call.tick call.factId row) ++
    ((s.factsFts.select fun e => e.rowid = call.factId).flatMap fun e =>
      entryTexts (erasedEntry call.factId e)) ++
    ((s.observations.select fun o => o.observationId ∈ ids).flatMap fun o =>
      observationTexts (erasedObservation call.tick ids o)) ++
    ((s.provenance.select fun p => p.factId = call.factId).flatMap fun p =>
      evidenceTexts (erasedEvidence call.factId p)) ++
    ((s.extractQueue.select fun q => q.Erased host (linkedMetadata s ids) row.content).flatMap
      fun q => documentTexts .unicode (erasedPayload q.id)) ++
    ((s.writeLog.select fun l => l.About call.factId ids ∨
      row.content ≠ "" ∧ occursIn row.content l.detailText).flatMap
      fun _ => documentTexts .ascii erasedDetail)

/-- Every copy of the text is within reach of the erasure. -/
structure Forgettable (host : Host) (call : EraseCall) (row : FactRow) (recorded : Nat → Prop)
    (s : Store) : Prop where
  /-- The text does not occur in what is kept or written. -/
  residue : ¬ Mentions row.content (residue host call row s)
  /-- The observation of the inserting write is linked to the fact, or holds no copy. -/
  inserted : ∀ o ∈ s.observations, recorded o.observationId →
    o.observationId ∉ linkedObservations s call.factId → ¬ Mentions row.content (observationTexts o)
  /-- A payload with a copy names the fact's observations, or holds the text unescaped. -/
  payloads : ∀ q ∈ s.extractQueue, Mentions row.content (payloadTexts q) →
    q.Linked host (linkedMetadata s (linkedObservations s call.factId)) ∨
      occursIn row.content q.payloadText
  proposals : ∀ q ∈ s.extractQueue, ¬ Mentions row.content (proposalTexts q)
  /-- A log detail with a copy is about the fact, or holds the text unescaped. -/
  details : ∀ l ∈ s.writeLog, Mentions row.content (detailTexts l) →
    l.About call.factId (linkedObservations s call.factId) ∨ occursIn row.content l.detailText

theorem mem_linkedObservations {s : Store} {factId id : Nat} :
    id ∈ linkedObservations s factId ↔ LinkedTo s factId id := by
  simp only [linkedObservations, List.mem_dedup, List.mem_map, Table.mem_select, LinkedTo]
  constructor
  · rintro ⟨p, ⟨mem, here⟩, same⟩
    exact ⟨p, mem, here, same⟩
  · rintro ⟨p, mem, here, same⟩
    exact ⟨p, ⟨mem, here⟩, same⟩

theorem not_mentions_residue {host : Host} {call : EraseCall} {row : FactRow} {c : String}
    {s : Store} :
    ¬ Mentions c (residue host call row s) ↔
      ¬ Mentions c (factTexts (scrubbedRow call.tick call.factId row)) ∧
      (∀ e ∈ s.factsFts, e.rowid = call.factId →
        ¬ Mentions c (entryTexts (erasedEntry call.factId e))) ∧
      (∀ o ∈ s.observations, o.observationId ∈ linkedObservations s call.factId →
        ¬ Mentions c (observationTexts
          (erasedObservation call.tick (linkedObservations s call.factId) o))) ∧
      (∀ p ∈ s.provenance, p.factId = call.factId →
        ¬ Mentions c (evidenceTexts (erasedEvidence call.factId p))) ∧
      (∀ q ∈ s.extractQueue,
        q.Erased host (linkedMetadata s (linkedObservations s call.factId)) row.content →
        ¬ Mentions c (documentTexts .unicode (erasedPayload q.id))) ∧
      (∀ l ∈ s.writeLog, l.About call.factId (linkedObservations s call.factId) ∨
        row.content ≠ "" ∧ occursIn row.content l.detailText →
        ¬ Mentions c (documentTexts .ascii erasedDetail)) := by
  simp only [residue, mentions_append, mentions_flatMap, Table.mem_select, not_or, not_exists,
    not_and, and_assoc]

/-! ## Rows after the erasure -/

section Effect

variable {host : Host} {call : EraseCall} {s s' : Store} {row : FactRow} {insights : List Nat}

/-- The erased fact is scrubbed and nothing else happens to it. -/
theorem EraseEffect.row_of_fact (effect : EraseEffect host call s s' row insights) {r : FactRow}
    (mem : r ∈ s'.facts) (here : r.factId = call.factId) :
    r = scrubbedRow call.tick call.factId row := by
  obtain ⟨memRow, idRow⟩ := effect.found
  obtain ⟨r₀, mem₀, rfl⟩ := (effect.facts r).1 mem
  rw [erasedRow_factId] at here
  obtain rfl : r₀ = row := Facts.eq_of_id mem₀ memRow (here.trans idRow.symm)
  have uncited : (scrubbedRow call.tick call.factId r₀).factId ∉ insights := by
    intro cited
    rw [scrubbedRow_factId, here] at cited
    obtain ⟨x, -, same, other, -⟩ := effect.insight cited
    exact other same
  have ungrouped : (scrubbedRow call.tick call.factId r₀).conflictGroup = none := by
    rw [scrubbedRow, if_pos here]
  rw [erasedRow, invalidatedRow, if_neg uncited, ungroupedRow]
  split
  · rw [← ungrouped]
  · rfl

theorem EraseEffect.linkedTo (effect : EraseEffect host call s s' row insights) {id : Nat} :
    LinkedTo s' call.factId id ↔ id ∈ linkedObservations s call.factId := by
  rw [mem_linkedObservations]
  have keeps : ∀ p, (erasedEvidence call.factId p).factId = p.factId ∧
      (erasedEvidence call.factId p).observationId = p.observationId := by
    intro p
    unfold erasedEvidence
    split <;> exact ⟨rfl, rfl⟩
  constructor
  · rintro ⟨p', mem', here, same⟩
    obtain ⟨p, mem, rfl⟩ := (effect.provenance p').1 mem'
    exact ⟨p, mem, (keeps p).1 ▸ here, (keeps p).2 ▸ same⟩
  · rintro ⟨p, mem, here, same⟩
    exact ⟨_, effect.provenance.of_mem mem, (keeps p).1.trans here, (keeps p).2.trans same⟩

@[simp] theorem erasedObservation_id (tick : ErasureTick) (ids : List Nat) (o : ObservationRow) :
    (erasedObservation tick ids o).observationId = o.observationId := by
  unfold erasedObservation
  split <;> rfl

theorem erasedQueueRow_payload (metadata : List Json) (original : String) (q : QueueRow) :
    (erasedQueueRow host metadata original q).payload =
      if q.Erased host metadata original then erasedPayload q.id else q.payload := by
  unfold erasedQueueRow
  split <;> rfl

@[simp] theorem erasedQueueRow_proposals (metadata : List Json) (original : String) (q : QueueRow) :
    proposalTexts (erasedQueueRow host metadata original q) = proposalTexts q := by
  unfold erasedQueueRow
  split <;> rfl

theorem erasedLogRow_detailJson (factId : Nat) (ids : List Nat) (original : String)
    (l : WriteLogRow) :
    (erasedLogRow factId ids original l).detailJson =
      if l.About factId ids ∨ original ≠ "" ∧ occursIn original l.detailText then erasedDetail
      else l.detailJson := by
  unfold erasedLogRow
  dsimp only
  by_cases about : l.About factId ids
  · rw [if_pos about, if_pos (Or.inl about)]
    split <;> rfl
  · rw [if_neg about]
    by_cases quotes : original ≠ "" ∧ occursIn original l.detailText
    · rw [if_pos quotes, if_pos (Or.inr quotes)]
    · rw [if_neg quotes, if_neg (not_or.2 ⟨about, quotes⟩)]

/-! ## The erasure forgets -/

/-- The empty text would occur in every kept column. -/
theorem Forgettable.stated {recorded : Nat → Prop} (reach : Forgettable host call row recorded s) :
    row.content ≠ "" := by
  intro empty
  refine reach.residue ⟨(scrubbedRow call.tick call.factId row).content, ?_, ?_⟩
  · simp [Enfold.Laws.residue, factTexts]
  · rw [empty]
    exact List.nil_infix

/-- Where every copy is within reach, none is left. -/
theorem EraseEffect.forgotten (effect : EraseEffect host call s s' row insights)
    {recorded : Nat → Prop} (reach : Forgettable host call row recorded s) :
    Forgotten row.content call.factId recorded s' := by
  obtain ⟨fact, entries, observations, evidence, payloads, details⟩ :=
    not_mentions_residue.1 reach.residue
  refine { fact := ?_, entry := ?_, observations := ?_, evidence := ?_, payloads := ?_,
           proposals := ?_, details := ?_ }
  · intro r mem here
    rw [effect.row_of_fact mem here]
    exact fact
  · intro e' mem here
    obtain ⟨e, memE, rfl⟩ := (effect.index e').1 mem
    refine entries e memE ?_
    unfold erasedEntry at here
    split at here <;> exact here
  · intro o' mem concerned
    obtain ⟨o, memO, rfl⟩ := (effect.observations o').1 mem
    rw [erasedObservation_id, effect.linkedTo] at concerned
    by_cases linked : o.observationId ∈ linkedObservations s call.factId
    · exact observations o memO linked
    · rw [erasedObservation, if_neg linked]
      exact reach.inserted o memO (concerned.resolve_left linked) linked
  · intro p' mem here
    obtain ⟨p, memP, rfl⟩ := (effect.provenance p').1 mem
    refine evidence p memP ?_
    unfold erasedEvidence at here
    split at here <;> exact here
  · intro q' mem
    obtain ⟨q, memQ, rfl⟩ := (effect.queue q').1 mem
    rw [payloadTexts, erasedQueueRow_payload]
    split
    · rename_i erased
      exact payloads q memQ erased
    · rename_i kept
      intro mentioned
      rcases reach.payloads q memQ mentioned with linked | literal
      · exact kept (.inl linked)
      · exact kept (.inr ⟨reach.stated, literal⟩)
  · intro q' mem
    obtain ⟨q, memQ, rfl⟩ := (effect.queue q').1 mem
    rw [erasedQueueRow_proposals]
    exact reach.proposals q memQ
  · intro l' mem
    obtain ⟨l, memL, rfl⟩ := (effect.log l').1 mem
    rw [detailTexts, erasedLogRow_detailJson]
    split
    · rename_i scrubbed
      exact details l memL scrubbed
    · rename_i kept
      intro mentioned
      rcases reach.details l memL mentioned with about | literal
      · exact kept (.inl about)
      · exact kept (.inr ⟨reach.stated, literal⟩)

/-- Where no copy is left, every copy was within reach. -/
theorem EraseEffect.forgettable (effect : EraseEffect host call s s' row insights)
    {recorded : Nat → Prop} (clean : Forgotten row.content call.factId recorded s') :
    Forgettable host call row recorded s := by
  obtain ⟨memRow, idRow⟩ := effect.found
  refine { residue := not_mentions_residue.2 ⟨?_, ?_, ?_, ?_, ?_, ?_⟩, inserted := ?_,
           payloads := ?_, proposals := ?_, details := ?_ }
  · have mem := effect.facts.of_mem memRow
    have gone := clean.fact _ mem (by rw [erasedRow_factId, idRow])
    rwa [effect.row_of_fact mem (by rw [erasedRow_factId, idRow])] at gone
  · intro e mem here
    refine clean.entry _ (effect.index.of_mem mem) ?_
    rw [erasedEntry, if_pos here]
    exact here
  · intro o mem linked
    refine clean.observations _ (effect.observations.of_mem mem) (.inl ?_)
    rw [erasedObservation_id, effect.linkedTo]
    exact linked
  · intro p mem here
    refine clean.evidence _ (effect.provenance.of_mem mem) ?_
    rw [erasedEvidence, if_pos here]
    exact here
  · intro q mem erased
    have gone := clean.payloads _ (effect.queue.of_mem mem)
    rwa [payloadTexts, erasedQueueRow_payload, if_pos erased] at gone
  · intro l mem scrubbed
    have gone := clean.details _ (effect.log.of_mem mem)
    rwa [detailTexts, erasedLogRow_detailJson, if_pos scrubbed] at gone
  · intro o mem inserting unlinked
    have gone := clean.observations _ (effect.observations.of_mem mem)
      (.inr (by rwa [erasedObservation_id]))
    rwa [erasedObservation, if_neg unlinked] at gone
  · intro q mem mentioned
    by_contra missed
    obtain ⟨unlinked, escaped⟩ := not_or.1 missed
    have kept : ¬ q.Erased host (linkedMetadata s (linkedObservations s call.factId)) row.content :=
      not_or.2 ⟨unlinked, fun literal => escaped literal.2⟩
    have gone := clean.payloads _ (effect.queue.of_mem mem)
    rw [payloadTexts, erasedQueueRow_payload, if_neg kept] at gone
    exact gone mentioned
  · intro q mem
    have gone := clean.proposals _ (effect.queue.of_mem mem)
    rwa [erasedQueueRow_proposals] at gone
  · intro l mem mentioned
    by_contra missed
    obtain ⟨apart, escaped⟩ := not_or.1 missed
    have gone := clean.details _ (effect.log.of_mem mem)
    rw [detailTexts, erasedLogRow_detailJson,
      if_neg (not_or.2 ⟨apart, fun literal => escaped literal.2⟩)] at gone
    exact gone mentioned

end Effect

/-- After every run, an erasure that commits leaves no copy of the text exactly when every
copy was within its reach. -/
theorem erasure_forgets_iff (host : Host) (ops : List Op) (call : EraseCall) {s' : Store}
    {report : ErasureReport} {row : FactRow}
    (found : (run (step host) ops Store.empty).facts.get? call.factId = some row)
    (done : call.apply host (run (step host) ops Store.empty) = .ok (s', report)) :
    Forgotten row.content call.factId (RecordedBy host ops call.factId) s' ↔
      Forgettable host call row (RecordedBy host ops call.factId)
        (run (step host) ops Store.empty) := by
  obtain ⟨row', insights, effect⟩ := erase_effect done
  obtain rfl : row' = row := by
    rw [Facts.get?_eq_some.2 effect.found] at found
    exact Option.some.inj found
  exact ⟨effect.forgettable, effect.forgotten⟩

/-! ## Samples -/

/-- One plain fact. -/
def doorOpens : List Op :=
  [.write ⟨Sample.service, Sample.tick "1", Sample.context "agent-a",
    Sample.request "the door opens", none⟩]

/-- Its erasure leaves no copy. -/
theorem sample_erasure_forgets :
    ∃ row s' report,
      (run (step Sample.host) doorOpens Store.empty).facts.get? 1 = some row ∧
      Sample.erasure.apply Sample.host (run (step Sample.host) doorOpens Store.empty) =
        .ok (s', report) ∧
      Forgotten row.content 1 (RecordedBy Sample.host doorOpens 1) s' := by
  have content : ((run (step Sample.host) doorOpens Store.empty).facts.get? 1).map
      FactRow.content = some "the door opens" := by decide +kernel
  have erased : (Sample.erasure.apply Sample.host (run (step Sample.host) doorOpens
      Store.empty)).toOption.isSome = true := by decide +kernel
  have linked : ∀ o ∈ (run (step Sample.host) doorOpens Store.empty).observations.rows,
      o.observationId ∈ linkedObservations (run (step Sample.host) doorOpens Store.empty) 1 := by
    decide +kernel
  have idle : (run (step Sample.host) doorOpens Store.empty).extractQueue.rows.isEmpty = true := by
    decide +kernel
  have details : ∀ l ∈ (run (step Sample.host) doorOpens Store.empty).writeLog.rows,
      l.About 1 (linkedObservations (run (step Sample.host) doorOpens Store.empty) 1) := by
    decide +kernel
  have kept : ∀ row ∈ (run (step Sample.host) doorOpens Store.empty).facts.get? 1,
      ¬ Mentions "the door opens" (residue Sample.host Sample.erasure row
        (run (step Sample.host) doorOpens Store.empty)) := by decide +kernel
  cases found : (run (step Sample.host) doorOpens Store.empty).facts.get? 1 with
  | none =>
      rw [found] at content
      cases content
  | some row =>
      rw [found] at content
      cases done : Sample.erasure.apply Sample.host (run (step Sample.host) doorOpens Store.empty) with
      | error e =>
          rw [done] at erased
          cases erased
      | ok result =>
          obtain ⟨s', report⟩ := result
          have text : row.content = "the door opens" := Option.some.inj content
          have quiet : ∀ q, q ∉ (run (step Sample.host) doorOpens Store.empty).extractQueue := by
            intro q mem
            have : q ∈ (run (step Sample.host) doorOpens Store.empty).extractQueue.rows := mem
            rw [List.isEmpty_iff.1 idle] at this
            cases this
          refine ⟨row, s', report, rfl, rfl,
            (erasure_forgets_iff Sample.host doorOpens Sample.erasure found done).2 ?_⟩
          refine { residue := ?_, inserted := ?_, payloads := ?_, proposals := ?_, details := ?_ }
          · rw [text]
            exact kept row found
          · exact fun o mem _ unlinked => absurd (linked o mem) unlinked
          · exact fun q mem => absurd mem (quiet q)
          · exact fun q mem => absurd mem (quiet q)
          · exact fun l mem _ => .inl (details l mem)

/-- A near duplicate of the plain fact, less trusted than it. -/
def doorOpened : WriteCall :=
  ⟨Sample.service, Sample.tick "2", Sample.context "agent-b",
    { Sample.request "the door opened" with trustScore := .zero, trustUnit := zero_inUnit },
    none⟩

/-- The plain fact and its vector. -/
def embedded : List Op := doorOpens ++ [.storeEmbedding Sample.spec 1 [.one]]

/-- The fact of the near duplicate is erased. -/
def laterErasure : EraseCall := { Sample.erasure with factId := 2 }

/-- The write of the near duplicate, then the erasure of its fact. -/
theorem sample_merge_then_erasure :
    ((doorOpened.apply Sample.host (run (step Sample.host) embedded Store.empty)).toOption.bind
      fun written => (laterErasure.apply Sample.host written.1).toOption.map fun erased =>
        ((written.1.facts.get? 2).map FactRow.content, written.2.observationId,
          erased.1.observations.rows.map fun o => (o.observationId, o.content))) =
      some (some "the door opened", some 2, [(1, "the door opens"), (2, "the door opened")]) := by
  decide +kernel

/-- The near duplicate lost the merge, so its observation is linked to the other fact, and the
erasure of its own fact leaves the observed text. -/
theorem sample_observation_kept :
    ∃ row s' report,
      (run (step Sample.host) (embedded ++ [.write doorOpened]) Store.empty).facts.get? 2 =
        some row ∧
      laterErasure.apply Sample.host
        (run (step Sample.host) (embedded ++ [.write doorOpened]) Store.empty) = .ok (s', report) ∧
      ¬ Forgotten row.content 2
        (RecordedBy Sample.host (embedded ++ [.write doorOpened]) 2) s' := by
  have evaluated := sample_merge_then_erasure
  have single : ∀ r ∈ (run (step Sample.host) embedded Store.empty).facts.table.rows,
      r.factId ≠ 2 := by decide +kernel
  cases written : doorOpened.apply Sample.host (run (step Sample.host) embedded Store.empty) with
  | error e =>
      rw [written] at evaluated
      cases evaluated
  | ok result =>
      obtain ⟨s, o⟩ := result
      have reached : run (step Sample.host) (embedded ++ [.write doorOpened]) Store.empty = s := by
        rw [run_append, run_cons, run_nil, step, written, commit_ok]
      cases erased : laterErasure.apply Sample.host s with
      | error e =>
          simp [written, erased, Except.toOption] at evaluated
      | ok result =>
          obtain ⟨s', report⟩ := result
          simp only [written, erased, Except.toOption, Option.bind_some, Option.map_some,
            Option.some.injEq, Prod.mk.injEq] at evaluated
          obtain ⟨content, observation, observations⟩ := evaluated
          obtain ⟨row, found, text⟩ := Option.map_eq_some_iff.1 content
          refine ⟨row, s', report, by rw [reached, found], by rw [reached, erased], fun clean => ?_⟩
          have listed : (2, "the door opened") ∈
              s'.observations.rows.map fun o => (o.observationId, o.content) := by
            rw [observations]
            simp
          obtain ⟨kept, mem, same⟩ := List.mem_map.1 listed
          obtain ⟨id, copy⟩ := Prod.mk.inj same
          refine clean.observations kept mem (.inr ?_) ?_
          · obtain ⟨memRow, idRow⟩ := Facts.get?_eq_some.1 found
            rw [id]
            exact ⟨embedded, doorOpened, [], s, o, rfl, written, single, ⟨row, memRow, idRow⟩,
              observation⟩
          · refine ⟨kept.content, by simp [observationTexts], ?_⟩
            rw [copy, text]
            exact occursIn_self _

end Enfold.Laws
