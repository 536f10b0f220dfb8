/-
# Laws.EraseEffect -- what an erasure does

`EraseEffect` is the inversion of `eraseFact`, table by table.  On the facts it is three
rewritings in a row: the erased row is scrubbed, the insights that cite it are invalidated,
and the last member of each conflict it leaves is ungrouped.  The clean-up loop is
inverted by induction on the conflicts; membership does not change during it, so what is
left of each conflict can be read off the store before the loop.
-/
import Enfold.Laws.FactSteps
import Enfold.Model.Runs

namespace Enfold.Laws

open Enfold.Theory Enfold.Model

set_option autoImplicit false

/-! ## Rows -/

/-- A row after `scrubFact`. -/
def scrubbedRow (tick : ErasureTick) (factId : Nat) (r : FactRow) : FactRow :=
  if r.factId = factId then
    { r with
      content := placeholder factId
      tags := ""
      invalidAt := r.invalidAt <|> some tick.erasedAt
      conflictGroup := none
      objectValue := none
      subjectKey := none
      predicateKey := none
      memoryKind := some "fact" }
  else r

/-- A row after `invalidateInsights`. -/
def invalidatedRow (insights : List Nat) (erasedAt : String) (r : FactRow) : FactRow :=
  if r.factId ∈ insights then { r with invalidAt := some erasedAt } else r

/-- A row after the clean-up loop. -/
def ungroupedRow (ids : List Nat) (r : FactRow) : FactRow :=
  if r.factId ∈ ids then { r with conflictGroup := none } else r

/-- A row after the whole erasure. -/
def erasedRow (tick : ErasureTick) (factId : Nat) (insights ungrouped : List Nat) (r : FactRow) :
    FactRow :=
  ungroupedRow ungrouped (invalidatedRow insights tick.erasedAt (scrubbedRow tick factId r))

@[simp] theorem scrubbedRow_factId (tick : ErasureTick) (factId : Nat) (r : FactRow) :
    (scrubbedRow tick factId r).factId = r.factId := by
  unfold scrubbedRow
  split <;> rfl

@[simp] theorem invalidatedRow_factId (insights : List Nat) (erasedAt : String) (r : FactRow) :
    (invalidatedRow insights erasedAt r).factId = r.factId := by
  unfold invalidatedRow
  split <;> rfl

@[simp] theorem ungroupedRow_factId (ids : List Nat) (r : FactRow) :
    (ungroupedRow ids r).factId = r.factId := by
  unfold ungroupedRow
  split <;> rfl

@[simp] theorem erasedRow_factId (tick : ErasureTick) (factId : Nat) (insights ungrouped : List Nat)
    (r : FactRow) : (erasedRow tick factId insights ungrouped r).factId = r.factId := by
  simp [erasedRow]

theorem ungroupedRow_append (ids ids' : List Nat) (r : FactRow) :
    ungroupedRow ids' (ungroupedRow ids r) = ungroupedRow (ids ++ ids') r := by
  simp only [ungroupedRow, List.mem_append]
  by_cases first : r.factId ∈ ids
  · simp [first]
  · simp [first]

/-! ## The clean-up loop -/

/-- The clean-up settles the conflict: at most one member is left. -/
def Settles (s : Store) (conflictId : String) : Prop :=
  (remainingMembers s conflictId).length ≤ 1

instance (s : Store) (conflictId : String) : Decidable (Settles s conflictId) :=
  inferInstanceAs (Decidable (_ ≤ _))

/-- The members left in the settled conflicts. -/
def lastMembers (s : Store) (conflictIds : List String) : List Nat :=
  (conflictIds.filter fun conflictId => Settles s conflictId).flatMap (remainingMembers s)

/-- A conflict after the clean-up loop. -/
def cleanedConflict (tick : ErasureTick) (requestedBy : String) (s : Store)
    (conflictIds : List String) (c : ConflictRow) : ConflictRow :=
  if c.conflictId ∈ conflictIds ∧ Settles s c.conflictId ∧ c.Unresolved then
    { c with
      resolvedAt := some tick.erasedAt
      resolutionFactId := (remainingMembers s c.conflictId).head?
      resolvedBy := some requestedBy
      resolutionReason := some "privacy erasure removed a conflict member" }
  else c

@[simp] theorem cleanedConflict_conflictId (tick : ErasureTick) (requestedBy : String) (s : Store)
    (conflictIds : List String) (c : ConflictRow) :
    (cleanedConflict tick requestedBy s conflictIds c).conflictId = c.conflictId := by
  unfold cleanedConflict
  split <;> rfl

section Congr

variable {s s' : Store} (same : s'.conflictMembers = s.conflictMembers)

include same

theorem remainingMembers_congr (conflictId : String) :
    remainingMembers s' conflictId = remainingMembers s conflictId := by
  rw [remainingMembers, remainingMembers, same]

theorem settles_congr (conflictId : String) : Settles s' conflictId ↔ Settles s conflictId := by
  rw [Settles, Settles, remainingMembers_congr same]

theorem lastMembers_congr (conflictIds : List String) :
    lastMembers s' conflictIds = lastMembers s conflictIds := by
  simp only [lastMembers, settles_congr same, funext (remainingMembers_congr same)]

theorem cleanedConflict_congr (tick : ErasureTick) (requestedBy : String)
    (conflictIds : List String) (c : ConflictRow) :
    cleanedConflict tick requestedBy s' conflictIds c =
      cleanedConflict tick requestedBy s conflictIds c := by
  simp only [cleanedConflict, settles_congr same, remainingMembers_congr same]

end Congr

/-- A conflict the first round closed is not open for the others. -/
theorem cleanedConflict_cons {tick : ErasureTick} {requestedBy : String} {s : Store}
    {conflictId : String} {rest : List String} {c : ConflictRow} :
    cleanedConflict tick requestedBy s rest (cleanedConflict tick requestedBy s [conflictId] c) =
      cleanedConflict tick requestedBy s (conflictId :: rest) c := by
  by_cases here : c.conflictId = conflictId ∧ Settles s c.conflictId ∧ c.Unresolved
  · have closed : c.conflictId ∈ [conflictId] ∧ Settles s c.conflictId ∧ c.Unresolved :=
      ⟨by simp [here.1], here.2⟩
    have closed' : c.conflictId ∈ conflictId :: rest ∧ Settles s c.conflictId ∧ c.Unresolved :=
      ⟨by simp [here.1], here.2⟩
    rw [cleanedConflict, cleanedConflict, if_pos closed, cleanedConflict, if_pos closed']
    exact if_neg fun again => by cases again.2.2
  · have passed : ¬ (c.conflictId ∈ [conflictId] ∧ Settles s c.conflictId ∧ c.Unresolved) :=
      fun closed => here ⟨List.mem_singleton.1 closed.1, closed.2⟩
    have same : (c.conflictId ∈ rest ∧ Settles s c.conflictId ∧ c.Unresolved) ↔
        (c.conflictId ∈ conflictId :: rest ∧ Settles s c.conflictId ∧ c.Unresolved) := by
      rw [List.mem_cons]
      constructor
      · exact fun closed => ⟨.inr closed.1, closed.2⟩
      · rintro ⟨same | inRest, closes⟩
        · exact absurd ⟨same, closes⟩ here
        · exact ⟨inRest, closes⟩
    rw [cleanedConflict, cleanedConflict, if_neg passed, cleanedConflict]
    simp only [same]

theorem ungroup_eq_ok {s s' : Store} {winner : Option Nat} (done : ungroup s winner = .ok s') :
    s' = { s with facts := s'.facts } ∧ s'.facts.sequence = s.facts.sequence ∧
      FactMap s.facts s'.facts (ungroupedRow winner.toList) := by
  cases winner with
  | none =>
      cases done
      exact ⟨rfl, rfl, (Table.Maps.refl _).congr fun r _ => by simp [ungroupedRow]⟩
  | some x =>
      obtain ⟨frame, sequence, map⟩ := updateFacts_map done
      exact ⟨frame, sequence, map.congr fun r _ => by simp [ungroupedRow]⟩

theorem cleanConflict_eq_ok {tick : ErasureTick} {requestedBy : String} {s s' : Store}
    {conflictId : String} {settled : Bool}
    (done : cleanConflict tick requestedBy s conflictId = .ok (s', settled)) :
    s' = { s with facts := s'.facts, conflicts := s'.conflicts } ∧
      s'.facts.sequence = s.facts.sequence ∧
      FactMap s.facts s'.facts (ungroupedRow (lastMembers s [conflictId])) ∧
      Table.Maps s.conflicts s'.conflicts (cleanedConflict tick requestedBy s [conflictId]) := by
  unfold cleanConflict at done
  split at done
  · rename_i first second rest left
    have open' : ¬ Settles s conflictId := by simp [Settles, left]
    cases pure_eq_ok.1 done
    refine ⟨rfl, rfl, (Table.Maps.refl _).congr fun r _ => ?_, (Table.Maps.refl _).congr fun c _ => ?_⟩
    · simp [ungroupedRow, lastMembers, open']
    · simp only [cleanedConflict, List.mem_singleton]
      rw [if_neg]
      · rfl
      · rintro ⟨rfl, settles, -⟩
        exact open' settles
  · rename_i short
    have settles : Settles s conflictId := by
      unfold Settles
      match left : remainingMembers s conflictId with
      | [] => simp
      | [_] => simp
      | first :: second :: rest => exact absurd left (short first second rest)
    have head : (remainingMembers s conflictId).head?.toList = remainingMembers s conflictId := by
      unfold Settles at settles
      match left : remainingMembers s conflictId with
      | [] => rfl
      | [_] => rfl
      | _ :: _ :: _ => simp [left] at settles
    obtain ⟨s₁, released, done⟩ := bind_eq_ok.1 done
    cases pure_eq_ok.1 done
    obtain ⟨frame, sequence, map⟩ := ungroup_eq_ok released
    refine ⟨by rw [frame], sequence, map.congr fun r _ => ?_, ?_⟩
    · rw [head]
      simp [lastMembers, settles]
    · rw [show s₁.conflicts = s.conflicts by rw [frame]]
      refine Table.Maps.congr (Table.Maps.of_update (by intro; rfl)) fun c _ => ?_
      unfold cleanedConflict
      by_cases here : c.conflictId = conflictId
      · simp [here, settles]
      · simp [here]

theorem cleanConflicts_eq_ok {tick : ErasureTick} {requestedBy : String} {s s' : Store}
    {conflictIds : List String} {count : Nat}
    (done : cleanConflicts tick requestedBy s conflictIds = .ok (s', count)) :
    s' = { s with facts := s'.facts, conflicts := s'.conflicts } ∧
      s'.facts.sequence = s.facts.sequence ∧
      FactMap s.facts s'.facts (ungroupedRow (lastMembers s conflictIds)) ∧
      Table.Maps s.conflicts s'.conflicts (cleanedConflict tick requestedBy s conflictIds) := by
  induction conflictIds generalizing s count with
  | nil =>
      cases done
      refine ⟨rfl, rfl, (Table.Maps.refl _).congr fun r _ => ?_, (Table.Maps.refl _).congr fun c _ => ?_⟩
      · simp [ungroupedRow, lastMembers]
      · simp [cleanedConflict]
  | cons conflictId rest ih =>
      obtain ⟨⟨s₁, settled⟩, first, done⟩ := bind_eq_ok.1 done
      obtain ⟨⟨s₂, count'⟩, others, done⟩ := bind_eq_ok.1 done
      cases pure_eq_ok.1 done
      obtain ⟨frame₁, sequence₁, facts₁, conflicts₁⟩ := cleanConflict_eq_ok first
      obtain ⟨frame₂, sequence₂, facts₂, conflicts₂⟩ := ih others
      have sameMembers : s₁.conflictMembers = s.conflictMembers := by rw [frame₁]
      refine ⟨by rw [frame₂, frame₁], sequence₂.trans sequence₁,
        (facts₁.trans facts₂).congr fun r _ => ?_, (conflicts₁.trans conflicts₂).congr fun c _ => ?_⟩
      · rw [Function.comp, ungroupedRow_append, lastMembers_congr sameMembers]
        congr 1
        unfold lastMembers
        by_cases settles : Settles s conflictId
        · simp [settles]
        · simp [settles]
      · rw [Function.comp, cleanedConflict_congr sameMembers]
        exact cleanedConflict_cons

/-! ## Rows of the other tables -/

/-- An observation after the erasure of those with these ids. -/
def erasedObservation (tick : ErasureTick) (ids : List Nat) (o : ObservationRow) :
    ObservationRow :=
  if o.observationId ∈ ids then
    { o with
      sourceUri := none
      content := erasedContent
      contentSha256 := "erased:" ++ tick.erasureId.text ++ ":" ++ natText o.observationId
      assertedBy := none
      metadataJson := .obj []
      redactedAt := some tick.erasedAt }
  else o

def erasedEvidence (factId : Nat) (p : ProvenanceRow) : ProvenanceRow :=
  if p.factId = factId then { p with evidenceExcerpt := none } else p

def erasedEntry (factId : Nat) (e : FtsRow) : FtsRow :=
  if e.rowid = factId then { e with content := placeholder factId, tags := "" } else e

def erasedQueueRow (host : Host) (metadata : List Json) (original : String) (q : QueueRow) :
    QueueRow :=
  if q.Erased host metadata original then
    { q with
      payload := erasedPayload q.id
      payloadHash := some (host.sha256 (Json.dumps .ascii (erasedPayload q.id)))
      lastError := none }
  else q

/-- A log row after both scrubs: of the rows about the fact, then of those that quote it. -/
def erasedLogRow (factId : Nat) (observationIds : List Nat) (original : String) (l : WriteLogRow) :
    WriteLogRow :=
  let about := if l.About factId observationIds then { l with detailJson := erasedDetail } else l
  if original ≠ "" ∧ occursIn original about.detailText then { about with detailJson := erasedDetail }
  else about

/-! ## The erasure -/

/-- What an erasure that returned has done; `row` is the fact before it, `insights` are the
facts invalidated with it. -/
structure EraseEffect (host : Host) (call : EraseCall) (s s' : Store) (row : FactRow)
    (insights : List Nat) : Prop where
  found : row ∈ s.facts ∧ row.factId = call.factId
  cited : ∃ scrubbed : Facts, FactMap s.facts scrubbed (scrubbedRow call.tick call.factId) ∧
    citingInsights scrubbed call.factId = .ok insights
  facts : FactMap s.facts s'.facts (erasedRow call.tick call.factId insights
    (lastMembers (leaveConflicts s call.factId) (conflictsOf s call.factId)))
  sequence : s'.facts.sequence = s.facts.sequence
  conflicts : Table.Maps s.conflicts s'.conflicts (cleanedConflict call.tick
    (strip call.requestedBy) (leaveConflicts s call.factId) (conflictsOf s call.factId))
  members : s'.conflictMembers = s.conflictMembers.delete fun m => m.factId = call.factId
  observations : Table.Maps s.observations s'.observations
    (erasedObservation call.tick (linkedObservations s call.factId))
  provenance : Table.Maps s.provenance s'.provenance (erasedEvidence call.factId)
  index : Table.Maps s.factsFts s'.factsFts (erasedEntry call.factId)
  queue : Table.Maps s.extractQueue s'.extractQueue (erasedQueueRow host
    (linkedMetadata s (linkedObservations s call.factId)) row.content)
  log : Table.Maps s.writeLog s'.writeLog
    (erasedLogRow call.factId (linkedObservations s call.factId) row.content)
  frame : s' = { s with
    facts := s'.facts, factsFts := s'.factsFts, observations := s'.observations
    provenance := s'.provenance, writeLog := s'.writeLog, conflicts := s'.conflicts
    conflictMembers := s'.conflictMembers, erasureLog := s'.erasureLog
    embeddingJobs := s'.embeddingJobs, factEmbeddings := s'.factEmbeddings
    extractQueue := s'.extractQueue }

theorem eraseObservations_eq_ok {s s' : Store} {tick : ErasureTick} {ids : List Nat}
    (done : eraseObservations s tick ids = .ok s') :
    s' = { s with observations := s'.observations } ∧
      Table.Maps s.observations s'.observations (erasedObservation tick ids) := by
  obtain ⟨-, done⟩ := require_bind_eq_ok.1 done
  cases pure_eq_ok.1 done
  exact ⟨rfl, Table.Maps.of_update (by intro; rfl)⟩

theorem scrubFact_eq_ok {s s' : Store} {tick : ErasureTick} {factId : Nat}
    (done : scrubFact s tick factId = .ok s') :
    s' = { s with facts := s'.facts, factsFts := s'.factsFts } ∧
      s'.facts.sequence = s.facts.sequence ∧
      FactMap s.facts s'.facts (scrubbedRow tick factId) ∧
      Table.Maps s.factsFts s'.factsFts (erasedEntry factId) := by
  obtain ⟨s₁, updated, done⟩ := bind_eq_ok.1 done
  cases pure_eq_ok.1 done
  obtain ⟨frame, sequence, map⟩ := updateFacts_map updated
  refine ⟨by rw [frame], sequence, map, ?_⟩
  rw [show s₁.factsFts = s.factsFts by rw [frame]]
  exact Table.Maps.of_update (by intro; rfl)

theorem eraseQueue_eq_ok {host : Host} {s s' : Store} {metadata : List Json} {original : String}
    (done : eraseQueue host s metadata original = .ok s') :
    s' = { s with extractQueue := s'.extractQueue } ∧
      Table.Maps s.extractQueue s'.extractQueue (erasedQueueRow host metadata original) := by
  obtain ⟨-, done⟩ := require_bind_eq_ok.1 done
  cases pure_eq_ok.1 done
  exact ⟨rfl, Table.Maps.of_update (by intro; rfl)⟩

theorem eraseLog_maps (s : Store) (factId : Nat) (observationIds : List Nat) (original : String) :
    Table.Maps s.writeLog (eraseLog s factId observationIds original).writeLog
      (erasedLogRow factId observationIds original) :=
  (Table.Maps.of_update (by intro; rfl)).trans (Table.Maps.of_update (by intro; rfl))

/-- The inversion of an erasure. -/
theorem erase_effect {host : Host} {call : EraseCall} {s s' : Store} {report : ErasureReport}
    (done : call.apply host s = .ok (s', report)) :
    ∃ row insights, EraseEffect host call s s' row insights := by
  unfold EraseCall.apply eraseFact at done
  obtain ⟨-, done⟩ := require_bind_eq_ok.1 done
  dsimp only at done
  obtain ⟨-, done⟩ := require_bind_eq_ok.1 done
  split at done
  · cases done
  rename_i row found
  obtain ⟨s₁, observed, done⟩ := bind_eq_ok.1 done
  obtain ⟨s₂, scrubbed, done⟩ := bind_eq_ok.1 done
  obtain ⟨s₃, queued, done⟩ := bind_eq_ok.1 done
  obtain ⟨insights, cited, done⟩ := bind_eq_ok.1 done
  obtain ⟨s₄, invalidated, done⟩ := bind_eq_ok.1 done
  obtain ⟨⟨s₅, count⟩, cleaned, done⟩ := bind_eq_ok.1 done
  obtain ⟨erasures, logged, done⟩ := bind_eq_ok.1 done
  obtain ⟨-, done⟩ := require_bind_eq_ok.1 done
  obtain ⟨-, done⟩ := require_bind_eq_ok.1 done
  cases pure_eq_ok.1 done
  obtain ⟨frame₁, observations⟩ := eraseObservations_eq_ok observed
  obtain ⟨frame₂, sequence₂, facts₂, index⟩ := scrubFact_eq_ok scrubbed
  obtain ⟨frame₃, queue⟩ := eraseQueue_eq_ok queued
  obtain ⟨frame₄, sequence₄, facts₄⟩ := updateFacts_map invalidated
  obtain ⟨frame₅, sequence₅, facts₅, conflicts₅⟩ := cleanConflicts_eq_ok cleaned
  have before₂ : s₂ = { s with
      facts := s₂.facts, factsFts := s₂.factsFts, observations := s₁.observations
      provenance := (eraseEvidence s₁ call.factId).provenance } := by
    rw [frame₂, eraseEvidence, frame₁]
  have before₄ : s₄ = { s with
      facts := s₄.facts, factsFts := s₂.factsFts, observations := s₁.observations
      provenance := (eraseEvidence s₁ call.factId).provenance
      factEmbeddings := s₄.factEmbeddings, embeddingJobs := s₄.embeddingJobs
      extractQueue := s₃.extractQueue } := by
    rw [frame₄, frame₃, settleJobs, deleteEmbeddings, before₂]
  have members₄ : s₄.conflictMembers = s.conflictMembers := by rw [before₄]
  have left : (leaveConflicts s₄ call.factId).conflictMembers =
      (leaveConflicts s call.factId).conflictMembers := by
    rw [leaveConflicts, leaveConflicts, members₄]
  have leftIds : conflictsOf s₄ call.factId = conflictsOf s call.factId := by
    rw [conflictsOf, conflictsOf, members₄]
  rw [leftIds] at facts₅ conflicts₅
  have facts₃ : s₃.facts = s₂.facts := by rw [frame₃]; rfl
  have facts₁ : (eraseEvidence s₁ call.factId).facts = s.facts := by rw [eraseEvidence, frame₁]
  rw [facts₁] at facts₂ sequence₂
  rw [facts₃] at facts₄ sequence₄
  obtain ⟨mem, here⟩ := Facts.get?_eq_some.1 found
  refine ⟨row, insights,
    { found := ⟨mem, here⟩
      cited := ⟨s₂.facts, facts₂, by rw [← facts₃]; exact cited⟩
      facts := ?_
      sequence := ?_
      conflicts := ?_
      members := ?_
      observations := ?_
      provenance := ?_
      index := ?_
      queue := ?_
      log := ?_
      frame := ?_ }⟩
  · refine ((facts₂.trans facts₄).trans facts₅).congr fun r _ => ?_
    rw [lastMembers_congr left]
    rfl
  · exact (sequence₅.trans sequence₄).trans sequence₂
  · have same : (leaveConflicts s₄ call.factId).conflicts = s.conflicts := by
      rw [leaveConflicts, before₄]
    rw [same] at conflicts₅
    exact conflicts₅.congr fun c _ => cleanedConflict_congr left _ _ _ _
  · show s₅.conflictMembers = _
    rw [frame₅]
    exact left
  · show Table.Maps s.observations s₅.observations _
    rw [frame₅, leaveConflicts, before₄]
    exact observations
  · show Table.Maps s.provenance s₅.provenance _
    rw [frame₅, leaveConflicts, before₄, eraseEvidence, frame₁]
    exact Table.Maps.of_update (by intro; rfl)
  · show Table.Maps s.factsFts s₅.factsFts _
    rw [frame₅, leaveConflicts, before₄]
    rw [eraseEvidence, frame₁] at index
    exact index
  · show Table.Maps s.extractQueue s₅.extractQueue _
    rw [frame₅, leaveConflicts, before₄]
    rw [settleJobs, deleteEmbeddings, before₂] at queue
    exact queue
  · have same : s₅.writeLog = s.writeLog := by rw [frame₅, leaveConflicts, before₄]
    have maps := eraseLog_maps s₅ call.factId (linkedObservations s call.factId) row.content
    rw [same] at maps
    exact maps
  · rw [eraseLog, frame₅, leaveConflicts, before₄]

/-- An erasure ends the jobs of its fact and drops its vectors. -/
theorem erase_jobs {host : Host} {call : EraseCall} {s s' : Store} {report : ErasureReport}
    (done : call.apply host s = .ok (s', report)) :
    s'.embeddingJobs = (settleJobs s call.tick call.factId).embeddingJobs ∧
      s'.factEmbeddings = (deleteEmbeddings s call.factId).factEmbeddings := by
  unfold EraseCall.apply eraseFact at done
  obtain ⟨-, done⟩ := require_bind_eq_ok.1 done
  dsimp only at done
  obtain ⟨-, done⟩ := require_bind_eq_ok.1 done
  split at done
  · cases done
  obtain ⟨s₁, observed, done⟩ := bind_eq_ok.1 done
  obtain ⟨s₂, scrubbed, done⟩ := bind_eq_ok.1 done
  obtain ⟨s₃, queued, done⟩ := bind_eq_ok.1 done
  obtain ⟨insights, -, done⟩ := bind_eq_ok.1 done
  obtain ⟨s₄, invalidated, done⟩ := bind_eq_ok.1 done
  obtain ⟨⟨s₅, count⟩, cleaned, done⟩ := bind_eq_ok.1 done
  obtain ⟨erasures, -, done⟩ := bind_eq_ok.1 done
  obtain ⟨-, done⟩ := require_bind_eq_ok.1 done
  obtain ⟨-, done⟩ := require_bind_eq_ok.1 done
  cases pure_eq_ok.1 done
  have frame₁ := (eraseObservations_eq_ok observed).1
  have frame₂ := (scrubFact_eq_ok scrubbed).1
  have frame₃ := (eraseQueue_eq_ok queued).1
  have frame₄ := (updateFacts_map invalidated).1
  have frame₅ := (cleanConflicts_eq_ok cleaned).1
  have jobs₂ : s₂.embeddingJobs = s.embeddingJobs := by
    rw [frame₂, eraseEvidence, frame₁]
  have vectors₂ : s₂.factEmbeddings = s.factEmbeddings := by
    rw [frame₂, eraseEvidence, frame₁]
  constructor
  · calc s₅.embeddingJobs = s₄.embeddingJobs := by rw [frame₅, leaveConflicts]
      _ = s₃.embeddingJobs := by rw [frame₄]
      _ = (settleJobs (deleteEmbeddings s₂ call.factId) call.tick call.factId).embeddingJobs := by
        rw [frame₃]
      _ = (settleJobs s call.tick call.factId).embeddingJobs := by
        rw [settleJobs, settleJobs, deleteEmbeddings, jobs₂]
  · calc s₅.factEmbeddings = s₄.factEmbeddings := by rw [frame₅, leaveConflicts]
      _ = s₃.factEmbeddings := by rw [frame₄]
      _ = (deleteEmbeddings s₂ call.factId).factEmbeddings := by
        rw [frame₃, settleJobs]
      _ = (deleteEmbeddings s call.factId).factEmbeddings := by
        rw [deleteEmbeddings, deleteEmbeddings, vectors₂]

end Enfold.Laws
