/-
# Laws.ScopedWrite -- a write sees one scope

A write to a scope answers alike on two reachable stores that agree on the scope: it raises
the same error, or returns the same outcome, and leaves stores that agree again
(`write_sees_scope`).

Every lookup of the write either names its scope or asks for a fact that an earlier lookup
found in it.  The near-duplicate search is the one exception, because it ranks by the whole
full-text index; it needs a query embedder.
-/
import Enfold.Laws.ScopedBranches
import Enfold.Laws.SlotRuns

namespace Enfold.Laws

open Enfold.Theory Enfold.Model

set_option autoImplicit false

/-! ## Registration and observation -/

section Registration

variable {scope : String} {s t : Store} {context : ConnectionContext} {now : String}

/-- `INSERT … ON CONFLICT DO NOTHING` of the same row. -/
theorem insertOrIgnore_same {K R : Type} {key : R → K} [DecidableEq K] {t u : Table K R key}
    (same : SameRows t u) (r : R) : SameRows (insertOrIgnore t r) (insertOrIgnore u r) := by
  have some? : (t.insert? r).isSome = (u.insert? r).isSome :=
    SameOn.insert?_isSome (by simp only [same.rows])
  unfold insertOrIgnore
  cases inserted : t.insert? r with
  | none =>
      cases inserted' : u.insert? r with
      | none => exact same
      | some b => simp [inserted, inserted'] at some?
  | some a =>
      cases inserted' : u.insert? r with
      | none => simp [inserted, inserted'] at some?
      | some b => exact same.insert? inserted inserted'

theorem Alike.registerClient (alike : Alike scope s t) :
    Both (Alike scope) (registerClient s context now) (registerClient t context now) := by
  have clients := insertOrIgnore_same alike.clients
    ⟨context.clientId, context.surface, context.displayName, now, none⟩
  unfold Model.registerClient
  dsimp only
  rw [clients.get?_eq]
  split
  · exact .error _
  · refine Both.require Iff.rfl fun _ _ => Both.require Iff.rfl fun _ _ => .pure ?_
    exact { alike with clients }

theorem Alike.registerSession (alike : Alike scope s t) :
    Both (Alike scope) (registerSession s context now) (registerSession t context now) := by
  unfold Model.registerSession
  refine Both.require (by rw [alike.clients.get?_eq]) fun _ _ => ?_
  dsimp only
  generalize registered : insertOrIgnore s.sessions _ = u
  generalize registered' : insertOrIgnore t.sessions _ = u'
  have same : SameRows u u' := by
    subst registered registered'
    exact insertOrIgnore_same alike.sessions _
  generalize moved : u.update
    (fun row => row.clientId = context.clientId ∧ row.sessionId = context.sessionId) _ _ = v
  generalize moved' : u'.update
    (fun row => row.clientId = context.clientId ∧ row.sessionId = context.sessionId) _ _ = v'
  have sessions : SameRows v v' := by
    subst moved moved'
    exact same.update (fun _ _ _ => trivial) fun _ _ _ => trivial
  rw [sessions.get?_eq]
  split
  · exact .error _
  · refine Both.require Iff.rfl fun _ _ => .pure ?_
    exact { alike with sessions }

/-- The largest id depends on the rows, not on their order. -/
theorem nextRowId_eq {ids ids' : List Nat} (same : ∀ k, k ∈ ids ↔ k ∈ ids') :
    nextRowId ids = nextRowId ids' := by
  have le : ∀ {ids ids' : List Nat}, (∀ k, k ∈ ids → k ∈ ids') → nextRowId ids ≤ nextRowId ids' := by
    intro ids ids' sub
    induction ids with
    | nil => exact Nat.succ_le_succ (Nat.zero_le _)
    | cons n ids ih =>
        have first := lt_nextRowId (sub n List.mem_cons_self)
        have rest := ih fun k mem => sub k (List.mem_cons_of_mem _ mem)
        unfold nextRowId at first rest ⊢
        simp only [List.foldr_cons]
        omega
  exact le_antisymm (le fun k => (same k).1) (le fun k => (same k).2)

/-- The observation with the digest is the same one in both, when there is one. -/
theorem Alike.recordObservation (alike : Alike scope s t) {host : Host} {request : WriteRequest}
    (digests : DigestsUnique s) :
    Both (fun a b => a.2 = b.2 ∧ Alike scope a.1 b.1)
      (recordObservation host s context request now)
      (recordObservation host t context request now) := by
  unfold Model.recordObservation
  dsimp only
  have perm := SameOn.select_perm (q := fun row : ObservationRow =>
    row.clientId = context.clientId ∧ row.contentSha256 = observationSha256 host context request ∧
      row.sessionId = context.sessionId ∧ row.sourceType = request.sourceType) alike.observations
    (fun _ _ _ => trivial) fun _ _ _ => trivial
  split
  · rename_i o rest found
    have only : rest = [] := by
      refine List.eq_nil_iff_forall_not_mem.2 fun o' mem => ?_
      have distinct : (o :: rest).Nodup := found ▸ s.observations.nodup_select _
      obtain ⟨memO, sameO⟩ := Table.mem_select.1 (found ▸ List.mem_cons_self)
      obtain ⟨memO', sameO'⟩ := Table.mem_select.1 (found ▸ List.mem_cons_of_mem o mem)
      have key : o.digestKey = o'.digestKey := by
        simp only [ObservationRow.digestKey, sameO, sameO']
      exact (List.nodup_cons.1 distinct).1 (digests o memO o' memO' key ▸ mem)
    subst only
    rw [found] at perm
    rw [← List.singleton_perm.1 perm]
    exact .pure ⟨rfl, alike⟩
  · rename_i empty
    rw [empty] at perm
    rw [List.nil_perm.1 perm]
    dsimp only
    refine Both.require (by rw [alike.sessions.get?_eq]) fun _ _ => ?_
    have sameId : nextRowId (t.observations.rows.map ObservationRow.observationId) =
        nextRowId (s.observations.rows.map ObservationRow.observationId) := by
      refine nextRowId_eq fun k => ?_
      simp only [List.mem_map]
      constructor
      · rintro ⟨o, mem, here⟩
        exact ⟨o, alike.observations.rows.2 mem, here⟩
      · rintro ⟨o, mem, here⟩
        exact ⟨o, alike.observations.rows.1 mem, here⟩
    rw [sameId]
    refine (insertRow_both (by simp only [alike.observations.rows])).bind ?_
    rintro a b - - ⟨inserted, inserted'⟩
    exact .pure ⟨rfl, { alike with observations := alike.observations.insert? inserted inserted' }⟩

end Registration

/-! ## The write -/

/-- The references a write relies on. -/
structure Sound (s : Store) : Prop where
  members : MembersKnown s
  digests : DigestsUnique s
  grouped : Grouped s

theorem sound_of_reached {host : Host} {s : Store} (reached : Reached host (fun _ _ => True) s) :
    Sound s where
  members := membersKnown_of_reached reached
  digests := digestsUnique_of_reached reached
  grouped := (lineage_of_reached reached).grouped

section Write

variable {scope : String} {s t : Store} {tick : Tick} {context : ConnectionContext}
  {request : WriteRequest}

/-- A call that reads no fact by id. -/
theorem none_held (s : Store) (scope : String) :
    ∀ k ∈ ([] : List Nat), ∃ r ∈ s.facts, r.factId = k ∧ r.scope = scope := by
  simp

/-- Members are facts, so none has an id beyond the sequence. -/
theorem Alike.paired (alike : Alike scope s t) (members : MembersKnown s)
    (members' : MembersKnown t) {ids : List Nat}
    (held : ∀ k ∈ ids, ∃ r ∈ s.facts, r.factId = k ∧ r.scope = scope) :
    Paired scope s.facts.sequence ids none s t :=
  { alike with
    below := le_refl _
    held
    members := by
      intro m beyond
      constructor
      · intro mem
        obtain ⟨-, r, memR, same⟩ := members m mem
        exact absurd (same ▸ s.facts.bounded r memR) (Nat.not_le.2 beyond)
      · intro mem
        obtain ⟨-, r, memR, same⟩ := members' m mem
        have bounded := t.facts.bounded r memR
        rw [same, ← alike.sequence] at bounded
        exact absurd bounded (Nat.not_le.2 beyond)
    group := fun _ named => nomatch named }

/-- Without an embedder there is no near duplicate. -/
theorem nearDuplicate_unembedded {host : Host} {service : MemoryWriteService}
    (unembedded : service.queryEmbedder = none) (typed : Bool) :
    nearDuplicate host service s request typed = .ok none := by
  unfold nearDuplicate
  split
  · rfl
  · unfold findUntypedNearDuplicate
    rw [unembedded]
    cases service.nearDedup.enabled <;> rfl

/-- The ids a decision refers to belong to current facts of the slot. -/
theorem Decides.listed {rows : List FactRow} {candidate : StateCandidate} {d : SlotDecision}
    (decides : Decides rows candidate d) :
    (d.action = .conflict → d.targetFactId = none →
        ∀ k ∈ d.currentFactIds, k ∈ rows.map FactRow.factId) ∧
      (d.action ≠ .add → ∀ k ∈ d.targetFactId, k ∈ rows.map FactRow.factId) := by
  cases decides with
  | add action vacant =>
      refine ⟨fun conflict => ?_, fun other => absurd action other⟩
      rw [action] at conflict
      cases conflict
  | repeatMember r action target disputed here repeats =>
      refine ⟨fun _ none => ?_, fun _ k named => ?_⟩
      · rw [target] at none
        cases none
      · rw [target] at named
        cases named
        exact List.mem_map_of_mem here
  | join action target disputed ids novel =>
      refine ⟨fun _ _ k mem => ids ▸ mem, fun _ k named => ?_⟩
      rw [target] at named
      cases named
  | dedup r action target only ungrouped repeats =>
      refine ⟨fun conflict => ?_, fun _ k named => ?_⟩
      · rw [action] at conflict
        cases conflict
      · rw [target] at named
        cases named
        simp [only]
  | supersede r action target only ungrouped novel =>
      refine ⟨fun conflict => ?_, fun _ k named => ?_⟩
      · rw [action] at conflict
        cases conflict
      · rw [target] at named
        cases named
        simp [only]
  | dispute r action target ids only ungrouped novel =>
      refine ⟨fun _ _ k mem => ?_, fun _ k named => ?_⟩
      · rw [ids] at mem
        simpa [only] using mem
      · rw [target] at named
        cases named

/-- The branch of the write and what follows it. -/
theorem Alike.persist (alike : Alike scope s t) (sound : Sound s) (sound' : Sound t) {host : Host}
    {service : MemoryWriteService} {requestHash : String}
    {state : Option (StateCandidate × SlotDecision)}
    (unembedded : service.queryEmbedder = none) (here : request.scope = scope)
    (taken : (∃ c ∈ s.conflicts, c.conflictId = tick.conflictId.text) ↔
      ∃ c ∈ t.conflicts, c.conflictId = tick.conflictId.text)
    (typed : ∀ c d, state = some (c, d) →
      c.memoryKind = "state" ∧ c.scope = scope ∧ decideStateWrite s c = .ok d) :
    Both (fun a b => a.2 = b.2 ∧ Alike scope a.1 b.1)
      (persist host service s tick context request requestHash state)
      (persist host service t tick context request requestHash state) := by
  refine (alike.recordObservation sound.digests).bind ?_
  rintro ⟨a, o⟩ ⟨b, o'⟩ recorded recorded' ⟨rfl, observed⟩
  dsimp only at observed
  obtain ⟨frame, -⟩ := recordObservation_eq_ok recorded
  obtain ⟨frame', -⟩ := recordObservation_eq_ok recorded'
  have members : MembersKnown a :=
    sound.members.of_same (by rw [frame]) (by rw [frame]) (by rw [frame])
  have members' : MembersKnown b :=
    sound'.members.of_same (by rw [frame']) (by rw [frame']) (by rw [frame'])
  simp only [nearDuplicate_unembedded unembedded, ok_bind]
  refine Both.bind (R := SameApplied scope a.facts.sequence) ?_ fun _ _ _ _ same => same.finish
  cases state with
  | none => exact (observed.paired members members' (none_held a scope)).applyUntyped here
  | some pair =>
      obtain ⟨c, d⟩ := pair
      obtain ⟨kind, scope', decided⟩ := typed c d rfl
      have decided' : decideStateWrite a c = .ok d :=
        (decideStateWrite_observed frame).trans decided
      obtain ⟨listed, target⟩ := (decideStateWrite_eq_ok kind decided').listed
      have held : ∀ k ∈ (currentRows a.facts c.slot).map FactRow.factId,
          ∃ r ∈ a.facts, r.factId = k ∧ r.scope = scope := by
        intro k mem
        obtain ⟨r, current, same⟩ := List.mem_map.1 mem
        obtain ⟨memR, inSlot, -⟩ := mem_currentRows.1 current
        exact ⟨r, memR, same, inSlot.2.1.trans scope'⟩
      refine (observed.paired members members' held).applyState members members' ?_ ?_
        (scope' ▸ c.scopeValid) here scope' ((decideStateWrite_slot decided).1.trans scope') listed
        target
      · intro r mem g group
        rw [frame] at mem ⊢
        exact sound.grouped r mem g group
      · rw [frame, frame']
        exact taken

/-- A write that is not a replay. -/
theorem Alike.writeNew (alike : Alike scope s t) (sound : Sound s) (sound' : Sound t) {host : Host}
    {service : MemoryWriteService} {requestHash : String} {candidate : Option StateCandidate}
    (unembedded : service.queryEmbedder = none) (here : request.scope = scope)
    (taken : (∃ c ∈ s.conflicts, c.conflictId = tick.conflictId.text) ↔
      ∃ c ∈ t.conflicts, c.conflictId = tick.conflictId.text)
    (valid : validateStateCandidate request candidate = .ok ()) :
    Both (fun a b => a.2 = b.2 ∧ Alike scope a.1 b.1)
      (writeNew host service s tick context request candidate requestHash)
      (writeNew host service t tick context request candidate requestHash) := by
  have typed : ∀ c ∈ candidate, c.memoryKind = "state" ∧ c.scope = scope := by
    intro c given
    cases given
    obtain ⟨kind, valid⟩ := require_bind_eq_ok.1 valid
    obtain ⟨-, valid⟩ := require_bind_eq_ok.1 valid
    obtain ⟨inScope, -⟩ := require_bind_eq_ok.1 valid
    exact ⟨kind, inScope.trans here⟩
  refine alike.registerSession.bind fun a b registered registered' alike => ?_
  have frame := registerSession_eq_ok registered
  have frame' := registerSession_eq_ok registered'
  have soundA : Sound a := by
    rw [frame]
    exact ⟨sound.members, sound.digests, sound.grouped⟩
  have soundB : Sound b := by
    rw [frame']
    exact ⟨sound'.members, sound'.digests, sound'.grouped⟩
  rw [← alike.decide_eq here fun c given => (typed c given).2]
  refine Both.bind_same fun decided decision => ?_
  cases decided with
  | factless policy =>
      have paired := alike.paired soundA.members soundB.members (none_held _ scope)
      refine (paired.appendLog (by simp) (by simp)).bind fun _ _ _ _ logged => ?_
      exact Both.bind_same fun outcome _ => .pure ⟨rfl, logged⟩
  | proceed state =>
      refine alike.persist soundA soundB unembedded here (by rw [frame, frame']; exact taken) ?_
      rintro c d rfl
      obtain ⟨-, filled, stateDecided, -⟩ := decide_typed decision
      obtain ⟨original, given, sameSlot, -, -, sameKind, -⟩ := effectiveCandidate_eq_ok filled
      obtain ⟨kind, inScope⟩ := typed original given
      exact ⟨sameKind.trans kind, (congrArg Slot.scope sameSlot).trans inScope, stateDecided⟩

/-- The whole routine. -/
theorem Alike.write {host : Host} {call : WriteCall} (alike : Alike call.request.scope s t)
    (sound : Sound s) (sound' : Sound t) (unembedded : call.service.queryEmbedder = none)
    (taken : (∃ c ∈ s.conflicts, c.conflictId = call.tick.conflictId.text) ↔
      ∃ c ∈ t.conflicts, c.conflictId = call.tick.conflictId.text) :
    Both (fun a b => a.2 = b.2 ∧ Alike call.request.scope a.1 b.1) (call.apply host s)
      (call.apply host t) := by
  refine Both.bind_same fun context _ => Both.bind_same fun _ valid => ?_
  refine alike.registerClient.bind fun a b registered registered' alike => ?_
  obtain ⟨frame, -⟩ := registerClient_eq_ok registered
  obtain ⟨frame', -⟩ := registerClient_eq_ok registered'
  have prior : loadPrior a context.clientId call.request.idempotencyKey =
      loadPrior b context.clientId call.request.idempotencyKey := alike.writeLog.get?_eq _
  rw [prior]
  split
  · refine Both.require Iff.rfl fun _ _ => ?_
    exact Both.bind_same fun outcome _ => .pure ⟨rfl, alike⟩
  · refine alike.writeNew ?_ ?_ unembedded rfl ?_ valid
    · rw [frame]
      exact ⟨sound.members, sound.digests, sound.grouped⟩
    · rw [frame']
      exact ⟨sound'.members, sound'.digests, sound'.grouped⟩
    · rw [frame, frame']
      exact taken

end Write

/-! ## Targets of another scope -/

/-- The request with another fact to supersede. -/
def naming (request : WriteRequest) (k : Nat) (positive : 0 < k) : WriteRequest :=
  { request with
    supersedeFactId := some k
    supersedePositive := by
      intro k' named
      cases named
      exact positive }

/-- The call with another fact to supersede. -/
def callNaming (call : WriteCall) (k : Nat) (positive : 0 < k) : WriteCall :=
  { call with request := naming call.request k positive }

section Naming

variable {s : Store} {request : WriteRequest} {k k' : Nat} {positive : 0 < k} {positive' : 0 < k'}

/-- A target that is no fact of the scope is unavailable. -/
theorem supersessionPolicy_unavailable (small : k < 2 ^ 63)
    (unavailable : ∀ r ∈ s.facts, r.factId = k → r.scope ≠ request.scope)
    (authority : Option Decimal) :
    supersessionPolicy s (naming request k positive) none authority =
      .ok (some (review "supersession target is unavailable")) := by
  have missing : ((s.facts.get? k).filter fun r => r.scope = request.scope) = none := by
    refine Option.eq_none_iff_forall_not_mem.2 fun r mem => ?_
    obtain ⟨found, here⟩ := Option.filter_eq_some_iff.1 mem
    obtain ⟨memR, same⟩ := Facts.get?_eq_some.1 found
    exact unavailable r memR same (of_decide_eq_true here)
  unfold supersessionPolicy
  split
  · rename_i unnamed
    cases unnamed
  · rename_i target named
    cases named
    rw [SQLite.integer_of_lt small, ok_bind]
    split
    · rfl
    · rename_i row found
      cases missing.symm.trans found

/-- The policy does not tell unavailable targets apart, unless a configured screen does. -/
theorem policyDecision_unavailable {service : MemoryWriteService} {context : ConnectionContext}
    (small : k < 2 ^ 63) (small' : k' < 2 ^ 63)
    (unavailable : ∀ r ∈ s.facts, r.factId = k → r.scope ≠ request.scope)
    (unavailable' : ∀ r ∈ s.facts, r.factId = k' → r.scope ≠ request.scope)
    (screens : ∀ screen ∈ service.policy.screens,
      screen (naming request k positive) = screen (naming request k' positive')) :
    policyDecision service s context (naming request k positive) none =
      policyDecision service s context (naming request k' positive') none := by
  have screened : ∀ screens, (∀ screen ∈ screens,
      screen (naming request k positive) = screen (naming request k' positive')) →
      runScreens (naming request k positive) screens =
        runScreens (naming request k' positive') screens := by
    intro screens same
    induction screens with
    | nil => rfl
    | cons screen screens ih =>
        have rest := ih fun screen mem => same screen (List.mem_cons_of_mem _ mem)
        simp only [runScreens, same screen List.mem_cons_self, rest]
  have evaluated : service.policy.evaluateWrite (naming request k positive)
      (some context.clientId) (sensitiveFields none) =
      service.policy.evaluateWrite (naming request k' positive') (some context.clientId)
        (sensitiveFields none) := by
    unfold MemoryPolicy.evaluateWrite
    rw [screened service.policy.screens screens]
    rfl
  unfold policyDecision
  rw [evaluated, supersessionPolicy_unavailable small unavailable,
    supersessionPolicy_unavailable small' unavailable']
  rfl

/-- An unavailable target stops the write. -/
theorem decide_unavailable {service : MemoryWriteService} {context : ConnectionContext} {tick : Tick}
    {state : Option (StateCandidate × SlotDecision)} (small : k < 2 ^ 63)
    (unavailable : ∀ r ∈ s.facts, r.factId = k → r.scope ≠ request.scope) :
    Model.decide service s tick context (naming request k positive) none ≠ .ok (.proceed state) := by
  intro decided
  obtain ⟨decision, policy, decided⟩ := bind_eq_ok.1 decided
  obtain ⟨effective, filled, decided⟩ := bind_eq_ok.1 decided
  cases pure_eq_ok.1 filled
  cases decision with
  | some decision => cases pure_eq_ok.1 decided
  | none =>
      obtain ⟨decision, -, policy⟩ := bind_eq_ok.1 policy
      cases decision with
      | some decision => cases pure_eq_ok.1 policy
      | none =>
          dsimp only at policy
          split at policy
          · cases pure_eq_ok.1 policy
          · rw [supersessionPolicy_unavailable small unavailable] at policy
            cases policy

/-- Typed writes name no target. -/
theorem validateStateCandidate_naming (positive : 0 < k) (positive' : 0 < k')
    (candidate : Option StateCandidate) :
    Both (fun _ _ => candidate = none) (validateStateCandidate (naming request k positive) candidate)
      (validateStateCandidate (naming request k' positive') candidate) := by
  cases candidate with
  | none => exact .pure rfl
  | some candidate =>
      refine Both.require Iff.rfl fun _ _ => Both.require Iff.rfl fun _ _ => ?_
      refine Both.require Iff.rfl fun _ _ => Both.require Iff.rfl fun _ _ => ?_
      exact .error _

/-- Neither request was logged before. -/
def NotLogged (host : Host) (s : Store) (context : ConnectionContext) (request : WriteRequest)
    (candidate : Option StateCandidate) : Prop :=
  ∀ row ∈ s.writeLog, row.clientId = context.clientId →
    row.idempotencyKey = request.idempotencyKey →
    row.requestSha256 ≠ requestSha256 host context request candidate

/-- The refusals differ in the digest that the log keeps. -/
theorem recordFactlessDecision_both {tick : Tick} {context : ConnectionContext}
    {decision : PolicyDecision} {hash hash' : String} :
    Both (fun a b => a.2 = b.2 ∧ b.1 = { a.1 with writeLog := b.1.writeLog })
      (recordFactlessDecision s tick context (naming request k positive) hash decision)
      (recordFactlessDecision s tick context (naming request k' positive') hash' decision) := by
  refine Both.bind (R := fun a b => b = { a with writeLog := b.writeLog }) ?_
    fun a b _ _ same => Both.bind_same fun outcome _ => .pure ⟨rfl, same⟩
  refine Both.require Iff.rfl fun _ _ => Both.require Iff.rfl fun _ _ => ?_
  refine Both.bind (R := fun _ _ => True) ?_ fun a b _ _ _ => .pure rfl
  refine Both.mono (insertRow_both (t := s.writeLog) (u := s.writeLog) ?_) fun _ _ _ => trivial
  exact Iff.rfl

/-- Unavailable targets are answered alike. -/
theorem unavailable_both {host : Host} {call : WriteCall} (small : k < 2 ^ 63)
    (small' : k' < 2 ^ 63)
    (unavailable : ∀ r ∈ s.facts, r.factId = k → r.scope ≠ call.request.scope)
    (unavailable' : ∀ r ∈ s.facts, r.factId = k' → r.scope ≠ call.request.scope)
    (screens : ∀ screen ∈ call.service.policy.screens,
      screen (naming call.request k positive) = screen (naming call.request k' positive'))
    (new : NotLogged host s call.context (naming call.request k positive) call.candidate)
    (new' : NotLogged host s call.context (naming call.request k' positive') call.candidate) :
    Both (fun a b => a.2 = b.2 ∧ b.1 = { a.1 with writeLog := b.1.writeLog })
      ((callNaming call k positive).apply host s) ((callNaming call k' positive').apply host s) := by
  refine Both.bind_same fun context authorized => ?_
  refine (validateStateCandidate_naming positive positive' call.candidate).bind
    fun _ _ _ _ untyped => ?_
  refine Both.bind_same fun a registered => ?_
  obtain ⟨frame, -⟩ := registerClient_eq_ok registered
  obtain ⟨scopes, nonempty, narrowed⟩ := authorizeContext_eq_ok authorized
  dsimp only [callNaming] at narrowed ⊢
  have sameKey : (naming call.request k positive).idempotencyKey = call.request.idempotencyKey :=
    rfl
  have sameKey' : (naming call.request k' positive').idempotencyKey =
      call.request.idempotencyKey := rfl
  rw [sameKey, sameKey']
  cases prior : loadPrior a context.clientId call.request.idempotencyKey with
  | some row =>
      obtain ⟨mem, key⟩ := Table.get?_eq_some.1 prior
      obtain ⟨client, idempotency⟩ := Prod.mk.inj key
      have memLog : row ∈ s.writeLog := by rwa [frame] at mem
      have sameClient : row.clientId = call.context.clientId := by rw [client, narrowed]
      have other := new row memLog sameClient idempotency
      have other' := new' row memLog sameClient idempotency
      have hashed : ∀ request', requestSha256 host context request' call.candidate =
          requestSha256 host call.context request' call.candidate := by
        intro request'
        rw [narrowed]
        rfl
      rw [← hashed] at other other'
      exact Both.require ⟨fun same => absurd same other, fun same => absurd same other'⟩
        fun same _ => absurd same other
  | none =>
      dsimp only
      rw [untyped]
      refine Both.bind_same fun b session => ?_
      have facts : b.facts = s.facts := by rw [registerSession_eq_ok session, frame]
      rw [← facts] at unavailable unavailable'
      have decisions : Model.decide call.service b call.tick context
          (naming call.request k positive) none = Model.decide call.service b call.tick context
          (naming call.request k' positive') none := by
        unfold Model.decide
        rw [policyDecision_unavailable small small' unavailable unavailable' screens]
        exact bind_congr_ok fun decision _ => by cases decision <;> rfl
      rw [decisions]
      refine Both.bind_same fun decided decision => ?_
      cases decided with
      | factless policy => exact recordFactlessDecision_both
      | proceed state => exact absurd decision (decide_unavailable small' unavailable')

end Naming

/-! ## The result -/

/-- A write sees its own scope.  With no query embedder, two reachable stores that agree on
the registrations, the log, the observations, the next ids, and the facts and conflicts of the
request's scope answer alike: the same error, or the same outcome and stores that agree again.
A target that is no fact of the scope is refused alike, whether it is a fact of another scope
or no fact at all, as long as it is an id that can be bound to a statement. -/
theorem write_sees_scope (host : Host) (call : WriteCall)
    (unembedded : call.service.queryEmbedder = none) :
    (∀ s t, Reached host (fun _ _ => True) s → Reached host (fun _ _ => True) t →
      Alike call.request.scope s t →
      ((∃ c ∈ s.conflicts, c.conflictId = call.tick.conflictId.text) ↔
        ∃ c ∈ t.conflicts, c.conflictId = call.tick.conflictId.text) →
      Both (fun a b => a.2 = b.2 ∧ Alike call.request.scope a.1 b.1) (call.apply host s)
        (call.apply host t)) ∧
    ∀ s k k' (positive : 0 < k) (positive' : 0 < k'), k < 2 ^ 63 → k' < 2 ^ 63 →
      Reached host (fun _ _ => True) s →
      (∃ r ∈ s.facts, r.factId = k ∧ r.scope ≠ call.request.scope) →
      (∀ r ∈ s.facts, r.factId ≠ k') →
      (∀ screen ∈ call.service.policy.screens,
        screen (naming call.request k positive) = screen (naming call.request k' positive')) →
      NotLogged host s call.context (naming call.request k positive) call.candidate →
      NotLogged host s call.context (naming call.request k' positive') call.candidate →
      Both (fun a b => a.2 = b.2 ∧ b.1 = { a.1 with writeLog := b.1.writeLog })
        ((callNaming call k positive).apply host s)
        ((callNaming call k' positive').apply host s) := by
  refine ⟨fun s t reached reached' alike taken => ?_, fun s k k' positive positive' small small' _
    other missing screens new new' => ?_⟩
  · exact alike.write (sound_of_reached reached) (sound_of_reached reached') unembedded taken
  · obtain ⟨r, mem, rfl, elsewhere⟩ := other
    refine unavailable_both small small' (fun r' mem' same => ?_)
      (fun r' mem' same => absurd same (missing r' mem')) screens new new'
    rwa [Facts.eq_of_id mem' mem same]

/-- A write to another scope than the sample dispute's. -/
def elsewhere : WriteCall :=
  { service :=
      { Sample.service with
        policy := ⟨[("agent-c", ["private"])], [], [], []⟩
        queryEmbedder := none }
    tick := Sample.tick "5"
    context := { Sample.context "agent-c" with
                  accessScopes := ["private"], scopesNonempty := Sample.private_nonempty }
    request := { Sample.request "the garden is large" with
                  scope := "private", scopeValid := by decide +kernel }
    candidate := none }

/-- A resolution changes facts, conflicts and the audit, and gives no id. -/
theorem resolve_frame (host : Host) (call : ResolveCall) (s : Store) :
    ∃ facts conflicts resolutions, facts.sequence = s.facts.sequence ∧
      step host (.resolve call) s =
        { s with facts, conflicts, conflictResolutions := resolutions } := by
  refine commit_induction
    (P := fun s' => ∃ facts conflicts resolutions, facts.sequence = s.facts.sequence ∧
      s' = { s with facts, conflicts, conflictResolutions := resolutions })
    ⟨s.facts, s.conflicts, s.conflictResolutions, rfl, rfl⟩ fun s' resolution done => ?_
  have effect := resolve_effect done
  exact ⟨_, _, _, effect.sequence, effect.frame⟩

/-- The write does not notice that a dispute of the other scope was resolved, nor whether the
fact it is asked to supersede is there. -/
theorem sample_write_sees_scope :
    (run (step Sample.host) Sample.dispute Store.empty).facts.table ≠
        (run (step Sample.host) (Sample.dispute ++ [.resolve sampleResolution])
          Store.empty).facts.table ∧
      Both (fun a b => a.2 = b.2 ∧ Alike "private" a.1 b.1)
        (elsewhere.apply Sample.host (run (step Sample.host) Sample.dispute Store.empty))
        (elsewhere.apply Sample.host
          (run (step Sample.host) (Sample.dispute ++ [.resolve sampleResolution]) Store.empty)) ∧
      Both (fun a b => a.2 = b.2 ∧ b.1 = { a.1 with writeLog := b.1.writeLog })
        ((callNaming elsewhere 1 (by decide)).apply Sample.host
          (run (step Sample.host) Sample.dispute Store.empty))
        ((callNaming elsewhere 7 (by decide)).apply Sample.host
          (run (step Sample.host) Sample.dispute Store.empty)) := by
  have facts : (run (step Sample.host) Sample.dispute Store.empty).facts.table ≠
      (run (step Sample.host) (Sample.dispute ++ [.resolve sampleResolution])
        Store.empty).facts.table ∧
      (∀ r ∈ (run (step Sample.host) Sample.dispute Store.empty).facts.table.rows,
        r.scope ≠ "private" ∧ r.factId ≠ 7) ∧
      (∃ r ∈ (run (step Sample.host) Sample.dispute Store.empty).facts.table.rows,
        r.factId = 1 ∧ r.scope ≠ "private") ∧
      (∀ c ∈ (run (step Sample.host) Sample.dispute Store.empty).conflicts.rows,
        c.scope ≠ "private" ∧ c.conflictId ≠ "5") ∧
      (∀ row ∈ (run (step Sample.host) Sample.dispute Store.empty).writeLog.rows,
        row.clientId ≠ "agent-c") ∧
      (∀ r ∈ (run (step Sample.host) (Sample.dispute ++ [.resolve sampleResolution])
        Store.empty).facts.table.rows, r.scope ≠ "private") ∧
      (∀ c ∈ (run (step Sample.host) (Sample.dispute ++ [.resolve sampleResolution])
        Store.empty).conflicts.rows, c.scope ≠ "private" ∧ c.conflictId ≠ "5") := by
    decide +kernel
  obtain ⟨differ, old, foreign, oldConflicts, log, new, newConflicts⟩ := facts
  obtain ⟨sees, refuses⟩ := write_sees_scope Sample.host elsewhere rfl
  refine ⟨differ, sees _ _ ⟨_, Admits.always _ _, rfl⟩ ⟨_, Admits.always _ _, rfl⟩ ?_ ?_, ?_⟩
  · obtain ⟨facts, conflicts, resolutions, sequence, same⟩ :=
      resolve_frame Sample.host sampleResolution (run (step Sample.host) Sample.dispute Store.empty)
    rw [run_append, show ∀ s, run (step Sample.host) [.resolve sampleResolution] s =
      step Sample.host (.resolve sampleResolution) s from fun _ => rfl, same] at new newConflicts ⊢
    exact
      { clients := .refl _ _, sessions := .refl _ _, writeLog := .refl _ _
        observations := .refl _ _, sequence := sequence.symm
        facts := fun r inScope =>
          ⟨fun mem => absurd inScope (old r mem).1, fun mem => absurd inScope (new r mem)⟩
        conflicts := fun c inScope =>
          ⟨fun mem => absurd inScope (oldConflicts c mem).1,
            fun mem => absurd inScope (newConflicts c mem).1⟩ }
  · constructor
    · rintro ⟨c, mem, same⟩
      exact absurd same (oldConflicts c mem).2
    · rintro ⟨c, mem, same⟩
      exact absurd same (newConflicts c mem).2
  · refine refuses _ 1 7 (by decide) (by decide) (by decide) (by decide)
      ⟨_, Admits.always _ _, rfl⟩ foreign (fun r mem => (old r mem).2) (by intro screen mem; cases mem) ?_ ?_
    · exact fun row mem client => absurd client (log row mem)
    · exact fun row mem client => absurd client (log row mem)

/-- An id that cannot be bound raises, where a fact of another scope is refused. -/
theorem unbindable_target_raises :
    (∃ r ∈ (run (step Sample.host) Sample.dispute Store.empty).facts,
      r.factId = 1 ∧ r.scope ≠ elsewhere.request.scope) ∧
    (∀ r ∈ (run (step Sample.host) Sample.dispute Store.empty).facts, r.factId ≠ 2 ^ 63) ∧
    ¬ Both (fun a b => a.2 = b.2)
      ((callNaming elsewhere 1 (by decide)).apply Sample.host
        (run (step Sample.host) Sample.dispute Store.empty))
      ((callNaming elsewhere (2 ^ 63) (by decide)).apply Sample.host
        (run (step Sample.host) Sample.dispute Store.empty)) := by
  have facts : (∃ r ∈ (run (step Sample.host) Sample.dispute Store.empty).facts.table.rows,
        r.factId = 1 ∧ r.scope ≠ elsewhere.request.scope) ∧
      (∀ r ∈ (run (step Sample.host) Sample.dispute Store.empty).facts.table.rows,
        r.factId ≠ 2 ^ 63) ∧
      ((callNaming elsewhere 1 (by decide)).apply Sample.host
        (run (step Sample.host) Sample.dispute Store.empty)).isOk = true ∧
      ((callNaming elsewhere (2 ^ 63) (by decide)).apply Sample.host
        (run (step Sample.host) Sample.dispute Store.empty)).isOk = false := by
    decide +kernel
  obtain ⟨foreign, missing, answered, raised⟩ := facts
  refine ⟨foreign, missing, fun both => ?_⟩
  rw [both.isOk_eq, raised] at answered
  cases answered

end Enfold.Laws
