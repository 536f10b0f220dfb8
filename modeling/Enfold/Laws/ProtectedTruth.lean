/-
# Laws.ProtectedTruth -- what automation may replace

Three branches of a write end the life of a current fact: the supersession of the slot's
value, the supersession the request names, and the merge with a near duplicate
(`Retires`).  The first two pass `supersessionPolicy`, which lets neither human corrections
nor better sources be replaced.  The third does not, and its query takes typed state facts
as well.

So two laws that the policy is there for hold exactly when the merge stays off the fact
they protect: `protected_kept_iff` for protected facts, `state_kept_iff` for typed state
under untyped writes.  The condition is the one `Merges` states on the store before the
call.
-/
import Enfold.Laws.MergeBranch
import Enfold.Laws.SlotInvariant

namespace Enfold.Laws

open Enfold.Theory Enfold.Model

set_option autoImplicit false

/-! ## Facts a write retires -/

/-- Why a write makes a current fact of the store invalid. -/
inductive Retires (host : Host) (call : WriteCall) (s : Store) (r : FactRow) : Prop where
  /-- It is the value of the candidate's slot, and the policy passed. -/
  | slot (authority : Decimal) (same : authority.value = call.request.sourceAuthority.value)
      (typed : call.candidate ≠ none)
      (passed : supersessionPolicy s call.request (some r.factId) (some authority) = .ok none)
  /-- The request names it, and the policy passed. -/
  | named (target : call.request.supersedeFactId = some r.factId)
      (passed : supersessionPolicy s call.request none none = .ok none)
  /-- It is a near duplicate. -/
  | merged (c : NearDuplicateCandidate) (merges : Merges host call s c) (here : r.factId = c.factId)

/-- A row of a patched table that is no longer current was patched. -/
theorem retired_of_patch {facts facts' : Facts} {patch : List FactRow} {r r' : FactRow}
    (patched : FactPatch facts facts' patch) (mem : r ∈ facts) (current : r.Current)
    (mem' : r' ∈ facts') (same : r'.factId = r.factId) (retired : ¬ r'.Current) : r' ∈ patch := by
  rcases (patched r').1 mem' with new | ⟨old, -⟩
  · exact new
  · rw [Facts.eq_of_id old mem same] at retired
    exact absurd current retired

section Branches

variable {tick : Tick} {request : WriteRequest} {s s' : Store} {factId : Nat} {r r' : FactRow}

/-- A typed branch retires the fact it decided to supersede. -/
theorem StateEffect.retired {candidate : StateCandidate} {d : SlotDecision}
    (effect : StateEffect tick request candidate d s s' factId) (mem : r ∈ s.facts)
    (current : r.Current) (mem' : r' ∈ s'.facts) (same : r'.factId = r.factId)
    (retired : ¬ r'.Current) : d.action = .supersede ∧ d.targetFactId = some r.factId := by
  have new : ∀ group, r' = stateRow tick request candidate group factId → False := by
    rintro group rfl
    exact retired ⟨rfl, rfl⟩
  cases effect with
  | repeated _ _ _ _ unchanged =>
      rw [unchanged] at mem'
      rw [Facts.eq_of_id mem' mem same] at retired
      exact absurd current retired
  | added vacant patch conflicts members result =>
      have inPatch := retired_of_patch patch mem current mem' same retired
      exact absurd (List.mem_singleton.1 inPatch) (new none)
  | superseded r₀ only ungrouped patch conflicts members result chosen =>
      have inPatch := retired_of_patch patch mem current mem' same retired
      rcases List.mem_cons.1 inPatch with rfl | inPatch
      · rwa [show r.factId = r₀.factId from same.symm]
      · exact absurd (List.mem_singleton.1 inPatch) (new none)
  | disputed r₀ detail joined only ungrouped patch conflicts member newMember result =>
      have inPatch := retired_of_patch patch mem current mem' same retired
      rcases List.mem_cons.1 inPatch with rfl | inPatch
      · exact absurd (mem_of_only only).2.2 retired
      · exact absurd (List.mem_singleton.1 inPatch) (new (some tick.conflictId.text))
  | joined r₀ c here group opened patch conflicts newMember result =>
      have inPatch := retired_of_patch patch mem current mem' same retired
      exact absurd (List.mem_singleton.1 inPatch) (new (some c.conflictId))

/-- An untyped branch retires the near duplicate that lost. -/
theorem UntypedEffect.retired {near : Option NearDuplicateCandidate}
    (effect : UntypedEffect tick request near s s' factId) (mem : r ∈ s.facts)
    (current : r.Current) (mem' : r' ∈ s'.facts) (same : r'.factId = r.factId)
    (retired : ¬ r'.Current) :
    ∃ c, near = some c ∧ IncomingWins request tick.recordedAt c ∧ r.factId = c.factId := by
  have new : r' ≠ plainRow tick request factId := by
    rintro rfl
    exact retired ⟨rfl, rfl⟩
  cases effect with
  | repeated _ _ _ _ _ _ _ unchanged =>
      rw [unchanged] at mem'
      rw [Facts.eq_of_id mem' mem same] at retired
      exact absurd current retired
  | inserted unmatched patch result =>
      have inPatch := retired_of_patch patch mem current mem' same retired
      exact absurd (List.mem_singleton.1 inPatch) new
  | mergedIntoNew c r₀ found wins mem₀ here _ patch result =>
      have inPatch := retired_of_patch patch mem current mem' same retired
      rcases List.mem_cons.1 inPatch with rfl | inPatch
      · exact absurd rfl new
      · rw [List.mem_singleton.1 inPatch] at same
        exact ⟨c, found, wins, same.symm.trans here⟩
  | mergedIntoOld c found loses patch result =>
      have inPatch := retired_of_patch patch mem current mem' same retired
      rw [List.mem_singleton.1 inPatch] at same
      exact absurd same.symm (Facts.nextId_fresh mem)

end Branches

/-- Finishing a write retires the fact the request names. -/
theorem Finished.retired {tick : Tick} {context : ConnectionContext} {request : WriteRequest}
    {requestHash : String} {observationId : Nat} {state : Option SlotDecision} {applied : Applied}
    {s' : Store} {o : WriteOutcome} {r r' : FactRow}
    (finished : Finished tick context request requestHash observationId state applied s' o)
    (mem : r ∈ applied.store.facts) (current : r.Current) (mem' : r' ∈ s'.facts)
    (same : r'.factId = r.factId) (retired : ¬ r'.Current) :
    explicitTarget request state = some r.factId := by
  rcases finished.superseded with ⟨-, unchanged⟩ | ⟨r₀, -, target, -, -, -, -, -, patch⟩
  · rw [unchanged] at mem'
    rw [Facts.eq_of_id mem' mem same] at retired
    exact absurd current retired
  · have inPatch := retired_of_patch patch mem current mem' same retired
    rw [List.mem_singleton.1 inPatch] at same
    rw [target]
    exact congrArg some same

theorem Finished.row_before {tick : Tick} {context : ConnectionContext} {request : WriteRequest}
    {requestHash : String} {observationId : Nat} {state : Option SlotDecision} {applied : Applied}
    {s' : Store} {o : WriteOutcome} {r' : FactRow}
    (finished : Finished tick context request requestHash observationId state applied s' o)
    (mem' : r' ∈ s'.facts) : ∃ r ∈ applied.store.facts, r'.factId = r.factId := by
  rcases finished.superseded with ⟨-, unchanged⟩ | ⟨r₀, mem₀, -, -, -, -, -, -, patch⟩
  · rw [unchanged] at mem'
    exact ⟨r', mem', rfl⟩
  · rcases (patch r').1 mem' with new | ⟨old, -⟩
    · rw [List.mem_singleton.1 new]
      exact ⟨r₀, mem₀, rfl⟩
    · exact ⟨r', old, rfl⟩

/-- Every fact a write retires is retired by one of the three branches. -/
theorem write_retires {host : Host} {call : WriteCall} {s s' : Store} {o : WriteOutcome}
    {r r' : FactRow} (done : call.apply host s = .ok (s', o)) (mem : r ∈ s.facts)
    (current : r.Current) (mem' : r' ∈ s'.facts) (same : r'.factId = r.factId)
    (retired : ¬ r'.Current) : Retires host call s r := by
  have unchanged : s'.facts = s.facts → Retires host call s r := by
    intro facts
    rw [facts] at mem'
    rw [Facts.eq_of_id mem' mem same] at retired
    exact absurd current retired
  have policyCongr : ∀ {s₀ : Store}, Registered s s₀ → ∀ target authority,
      supersessionPolicy s₀ call.request target authority =
        supersessionPolicy s call.request target authority := by
    intro s₀ registered target authority
    rw [supersessionPolicy, supersessionPolicy, registered.frame]
  obtain ⟨context, authorized, valid, -, branches⟩ := write_cases done
  cases branches with
  | replay prior found sameHash answer frame clients => exact unchanged (by rw [frame])
  | factless s₀ decision fresh registered decided frame logged answer =>
      exact unchanged (by rw [frame, registered.frame])
  | typed s₀ s₁ observationId effective d applied fresh registered decided recorded observed accepted
      branch finished =>
      have before : s₁.facts = s.facts := by rw [observed, registered.frame]
      rcases finished.superseded with ⟨-, facts⟩ | ⟨_, -, target, -⟩
      · rw [facts] at mem'
        rw [← before] at mem
        obtain ⟨action, target⟩ := branch.2.retired mem current mem' same retired
        obtain ⟨-, filled, -, policy⟩ := decide_typed decided
        obtain ⟨original, given, -, -, -, -, authority⟩ := effectiveCandidate_eq_ok filled
        rw [given] at valid
        obtain ⟨-, valid⟩ := require_bind_eq_ok.1 valid
        obtain ⟨-, valid⟩ := require_bind_eq_ok.1 valid
        obtain ⟨-, valid⟩ := require_bind_eq_ok.1 valid
        obtain ⟨sameAuthority, -⟩ := require_bind_eq_ok.1 valid
        have passed := policy action
        rw [target, policyCongr registered] at passed
        exact .slot effective.sourceAuthority (by rw [authority]; exact sameAuthority)
          (by simp [given]) passed
      · cases target
  | untyped s₀ s₁ observationId near applied fresh registered decided recorded observed searched
      accepted branch finished =>
      have before : s₁.facts = s.facts := by rw [observed, registered.frame]
      obtain ⟨x, memX, sameX⟩ := finished.row_before mem'
      by_cases stays : x.Current
      · have target := finished.retired memX stays mem' sameX retired
        rw [← sameX, same] at target
        have passed := (passes_of_proceed decided).2.2
        rw [policyCongr registered] at passed
        exact .named target passed
      · rw [← before] at mem
        obtain ⟨c, found, wins, here⟩ := branch.2.1.retired mem current memX (sameX.symm.trans same) stays
        rw [found] at searched
        exact .merged c (merges_of_merged done authorized fresh registered decided observed searched
          branch.1 finished wins) here

/-! ## Protected facts -/

/-- The fact has a human status, or a better source than the request. -/
def Protected (request : WriteRequest) (r : FactRow) : Prop :=
  (∃ status ∈ r.correctionStatus, status ∈ humanStatuses) ∨
    request.sourceAuthority.value < (r.sourceAuthority.getD Decimal.half).value

instance (request : WriteRequest) (r : FactRow) : Decidable (Protected request r) :=
  inferInstanceAs (Decidable (_ ∨ _))

/-- The write leaves every protected current fact current. -/
def KeepsProtected (host : Host) (call : WriteCall) (s : Store) : Prop :=
  ∀ r ∈ s.facts, r.Current → Protected call.request r →
    ∀ r' ∈ (step host (.write call) s).facts, r'.factId = r.factId → r'.Current

/-- What passes the supersession policy is not protected from automation. -/
theorem unprotected_of_policy {s : Store} {request : WriteRequest} {targetId : Option Nat}
    {authority : Option Decimal} {r : FactRow} (mem : r ∈ s.facts)
    (passed : supersessionPolicy s request targetId authority = .ok none)
    (target : (targetId <|> request.supersedeFactId) = some r.factId)
    (same : (authority.getD request.sourceAuthority).value = request.sourceAuthority.value)
    (automated : ¬ ClaimsCorrection request) : ¬ Protected request r := by
  unfold supersessionPolicy at passed
  rw [target] at passed
  obtain ⟨bound, integer, passed⟩ := bind_eq_ok.1 passed
  rw [SQLite.integer_eq_ok integer, Facts.get?_eq_some.2 ⟨mem, rfl⟩] at passed
  split at passed
  · cases passed
  · rename_i row found
    obtain rfl : r = row := Option.some.inj (Option.filter_eq_some_iff.1 found).1
    split at passed
    · cases passed
    split at passed
    · cases passed
    split at passed
    · cases passed
    rename_i human
    split at passed
    · cases passed
    rename_i better
    rintro (status | authoritative)
    · exact human ⟨status, automated⟩
    · rw [same] at better
      exact better authoritative

/-- Automation replaces no protected truth, except through the near-duplicate merge: the
law holds of a call exactly when the call does not merge into a protected fact. -/
theorem protected_kept_iff {host : Host} {s : Store} {call : WriteCall}
    (reached : Reached host (fun _ _ => True) s) (automated : ¬ ClaimsCorrection call.request) :
    KeepsProtected host call s ↔
      ∀ c, Merges host call s c → ∀ r ∈ s.facts, r.factId = c.factId → ¬ Protected call.request r := by
  constructor
  · intro keeps c merges r mem here isProtected
    obtain ⟨s', o, r₀, done, mem₀, here₀, current, superseded⟩ :=
      merges.apply_ok (observations_positive reached)
    obtain rfl : r = r₀ := Facts.eq_of_id mem mem₀ (here.trans here₀.symm)
    have after : step host (.write call) s = s' := by
      rw [step, done]
      rfl
    have stays := keeps r mem current isProtected (supersededRow r call.tick.recordedAt s.facts.nextId)
      (by rwa [after]) rfl
    exact supersededRow_not_current stays
  · intro apart r mem current isProtected r' mem' same
    by_contra retired
    cases done : call.apply host s with
    | error e =>
        rw [step, done] at mem'
        rw [Facts.eq_of_id mem' mem same] at retired
        exact retired current
    | ok result =>
        rw [step, done] at mem'
        cases write_retires done mem current mem' same retired with
        | slot authority sameAuthority typed passed =>
            exact unprotected_of_policy mem passed rfl sameAuthority automated isProtected
        | named target passed =>
            exact unprotected_of_policy mem passed target rfl automated isProtected
        | merged c merges here => exact apart c merges r mem here isProtected

/-- A plain write of a second client. -/
def secondWrite (content : String)
    (valid : Required content := by
      with_reducible first
        | exact Sample.opens_required
        | exact Sample.opened_required
        | exact Sample.red_required
        | exact Sample.blue_required
        | decide +kernel) : WriteCall :=
  ⟨Sample.service, Sample.tick "2", Sample.context "agent-b", Sample.request content valid, none⟩

/-- A fact that its authority confirms. -/
def confirmedWrite : WriteCall :=
  ⟨Sample.service, Sample.tick "1", Sample.context "agent-a",
    { Sample.request "the door opens" with correctionStatus := some "human_confirmed" }, none⟩

/-- The law on a merge of two plain facts. -/
theorem sample_merge_keeps_protected :
    KeepsProtected Sample.host (secondWrite "the door opened")
      (run (step Sample.host) (Sample.merge.take 2) Store.empty) := by
  refine (protected_kept_iff ⟨Sample.merge.take 2, Admits.always _ _, rfl⟩ (by decide +kernel)).2 ?_
  have plain : ∀ r ∈ (run (step Sample.host) (Sample.merge.take 2) Store.empty).facts.table.rows,
      ¬ Protected (secondWrite "the door opened").request r := by decide +kernel
  exact fun c _ r mem _ => plain r mem

/-- A confirmed fact with a vector, superseded by a near duplicate of another client. -/
theorem sample_confirmed_replaced :
    ¬ ClaimsCorrection (secondWrite "the door opened").request ∧
      ¬ KeepsProtected Sample.host (secondWrite "the door opened")
        (run (step Sample.host) [.write confirmedWrite, .storeEmbedding Sample.spec 1 [.one]]
          Store.empty) := by
  refine ⟨by decide +kernel, fun keeps => ?_⟩
  have replaced : ∃ r ∈ (run (step Sample.host)
      [.write confirmedWrite, .storeEmbedding Sample.spec 1 [.one]] Store.empty).facts.table.rows,
      r.Current ∧ Protected (secondWrite "the door opened").request r ∧
        ∃ r' ∈ (step Sample.host (.write (secondWrite "the door opened")) (run (step Sample.host)
          [.write confirmedWrite, .storeEmbedding Sample.spec 1 [.one]] Store.empty)).facts.table.rows,
          r'.factId = r.factId ∧ ¬ r'.Current := by decide +kernel
  obtain ⟨r, mem, current, isProtected, r', mem', same, retired⟩ := replaced
  exact retired (keeps r mem current isProtected r' mem' same)

/-! ## Typed state under untyped writes -/

/-- The write leaves what every slot reads as. -/
def KeepsState (host : Host) (call : WriteCall) (s : Store) : Prop :=
  ∀ subjectKey predicateKey scope,
    currentStateFacts (step host (.write call) s) subjectKey predicateKey scope =
        currentStateFacts s subjectKey predicateKey scope ∧
      readCurrentState (step host (.write call) s) subjectKey predicateKey scope =
        readCurrentState s subjectKey predicateKey scope

/-- Reading a slot reads its current rows. -/
theorem reads_congr {s s' : Store} (rows : ∀ k, currentRows s'.facts k = currentRows s.facts k)
    (subjectKey predicateKey scope : String) :
    currentStateFacts s' subjectKey predicateKey scope =
        currentStateFacts s subjectKey predicateKey scope ∧
      readCurrentState s' subjectKey predicateKey scope =
        readCurrentState s subjectKey predicateKey scope := by
  have facts : currentStateFacts s' subjectKey predicateKey scope =
      currentStateFacts s subjectKey predicateKey scope := by
    simp only [currentStateFacts, rows]
  exact ⟨facts, by rw [readCurrentState, readCurrentState, facts]⟩

/-- A superseded state fact is missing from its slot. -/
theorem reads_differ {s s' : Store} {r : FactRow} {moment : String} {survivor : Nat}
    (mem : r ∈ s.facts) (current : r.Current) (kind : r.memoryKind = some "state")
    (held : Addressable r) (superseded : supersededRow r moment survivor ∈ s'.facts) :
    ∃ subjectKey predicateKey scope, currentStateFacts s' subjectKey predicateKey scope ≠
      currentStateFacts s subjectKey predicateKey scope := by
  obtain ⟨k, inSlot, scope, subject, predicate⟩ := held kind
  refine ⟨k.subjectKey, k.predicateKey, k.scope, fun same => ?_⟩
  rw [currentStateFacts_of subject predicate scope, currentStateFacts_of subject predicate scope] at same
  have ids := congrArg (List.map CurrentStateFact.factId) (Except.ok.inj same)
  rw [List.map_map, List.map_map] at ids
  have listed : r.factId ∈ (currentRows s.facts k).map FactRow.factId :=
    List.mem_map_of_mem (mem_currentRows.2 ⟨mem, inSlot, current⟩)
  have listed' : r.factId ∈ (currentRows s'.facts k).map FactRow.factId := ids ▸ listed
  obtain ⟨x, here, sameId⟩ := List.mem_map.1 listed'
  obtain ⟨memX, -, currentX⟩ := mem_currentRows.1 here
  rw [Facts.eq_of_id memX superseded sameId] at currentX
  exact supersededRow_not_current currentX

/-- An untyped write that does not merge into a state fact leaves every slot alone. -/
theorem write_keeps_rows {host : Host} {call : WriteCall} {s s' : Store} {o : WriteOutcome}
    (untyped : call.candidate = none) (done : call.apply host s = .ok (s', o))
    (apart : ∀ c, Merges host call s c → ∀ r ∈ s.facts, r.factId = c.factId →
      r.memoryKind ≠ some "state") (k : Slot) :
    currentRows s'.facts k = currentRows s.facts k := by
  obtain ⟨context, authorized, -, -, branches⟩ := write_cases done
  cases branches with
  | replay prior found sameHash answer frame clients => rw [frame]
  | factless s₀ decision fresh registered decided frame logged answer =>
      rw [frame, registered.frame]
  | typed s₀ s₁ observationId effective d applied fresh registered decided recorded observed accepted
      branch finished =>
      obtain ⟨-, filled, -⟩ := decide_typed decided
      obtain ⟨original, given, -⟩ := effectiveCandidate_eq_ok filled
      cases untyped.symm.trans given
  | untyped s₀ s₁ observationId near applied fresh registered decided recorded observed searched
      accepted branch finished =>
      have before : s₁.facts = s.facts := by rw [observed, registered.frame]
      rw [finished.currentRows_kept k, branch.2.1.currentRows_kept, before]
      intro c found wins r mem here inSlot
      rw [found] at searched
      rw [before] at mem
      exact apart c (merges_of_merged done authorized fresh registered decided observed searched
        branch.1 finished wins) r mem here inSlot.1

/-- Untyped writes leave typed state alone, except through the near-duplicate merge: the
law holds of a call exactly when the call does not merge into a state fact. -/
theorem state_kept_iff {host : Host} {s : Store} {call : WriteCall}
    (reached : Reached host (fun _ _ => True) s) (untyped : call.candidate = none) :
    KeepsState host call s ↔
      ∀ c, Merges host call s c → ∀ r ∈ s.facts, r.factId = c.factId →
        r.memoryKind ≠ some "state" := by
  constructor
  · intro keeps c merges r mem here kind
    obtain ⟨s', o, r₀, done, mem₀, here₀, current, superseded⟩ :=
      merges.apply_ok (observations_positive reached)
    obtain rfl : r = r₀ := Facts.eq_of_id mem mem₀ (here.trans here₀.symm)
    have after : step host (.write call) s = s' := by
      rw [step, done]
      rfl
    obtain ⟨subject, predicate, scope, differ⟩ :=
      reads_differ mem current kind (addressable.of_reached reached r mem) superseded
    exact differ (after ▸ (keeps subject predicate scope).1)
  · intro apart subject predicate scope
    cases done : call.apply host s with
    | error e =>
        rw [step, done]
        exact ⟨rfl, rfl⟩
    | ok result =>
        rw [step, done]
        exact reads_congr (write_keeps_rows untyped done apart) subject predicate scope

/-- The law on a merge of two plain facts. -/
theorem sample_merge_keeps_state :
    KeepsState Sample.host (secondWrite "the door opened")
      (run (step Sample.host) (Sample.merge.take 2) Store.empty) := by
  refine (state_kept_iff ⟨Sample.merge.take 2, Admits.always _ _, rfl⟩ rfl).2 ?_
  have plain : ∀ r ∈ (run (step Sample.host) (Sample.merge.take 2) Store.empty).facts.table.rows,
      r.memoryKind ≠ some "state" := by decide +kernel
  exact fun c _ r mem _ => plain r mem

/-- The value of a slot, superseded by a near duplicate that has no slot. -/
theorem sample_state_replaced :
    ¬ KeepsState Sample.host (secondWrite "the door is quite red")
      (run (step Sample.host) [.write Sample.red, .storeEmbedding Sample.spec 1 [.one]]
        Store.empty) := by
  intro keeps
  have before : (currentStateFacts (run (step Sample.host)
      [.write Sample.red, .storeEmbedding Sample.spec 1 [.one]] Store.empty)
      "door" "color" "work").toOption.map List.length = some 1 := by decide +kernel
  have after : (currentStateFacts (step Sample.host (.write (secondWrite "the door is quite red"))
      (run (step Sample.host) [.write Sample.red, .storeEmbedding Sample.spec 1 [.one]] Store.empty))
      "door" "color" "work").toOption.map List.length = some 0 := by decide +kernel
  rw [(keeps "door" "color" "work").1, before] at after
  cases after

end Enfold.Laws
