/-
# Laws.PlainWrites -- a write of a new text adds one fact

`Adds` says, of the store and the arguments before the call, that an untyped write inserts its fact
and does nothing else to the facts: the connection registers, the policies pass, no fact has the text
and none is near it.  Such a write returns (`Adds.apply_ok`), and its connection can write again.
-/
import Enfold.Laws.MergeBranch

namespace Enfold.Laws

open Enfold.Theory Enfold.Model

set_option autoImplicit false

/-- An untyped write is going to insert its fact. -/
structure Adds (host : Host) (call : WriteCall) (s : Store) : Prop where
  untyped : call.candidate = none
  untargeted : call.request.supersedeFactId = none
  connects : ∃ context, call.service.policy.authorizeContext call.context = .ok context ∧
    ClientFits s context ∧ SessionFits s context ∧ call.request.scope ∈ context.accessScopes
  unlogged : loadPrior s call.context.clientId call.request.idempotencyKey = none
  passes : call.service.policy.evaluateWrite call.request (some call.context.clientId) [] = .ok none
  freshId : ∀ l ∈ s.writeLog.rows, l.writeId ≠ call.tick.writeId.text
  novel : findUntypedExactDuplicate s call.request = none
  alone : findUntypedNearDuplicate host call.service s call.request = .ok none

/-- What such a write leaves: one more fact, the same conflicts, and a connection that fits. -/
structure Added (call : WriteCall) (s s' : Store) : Prop where
  facts : FactPatch s.facts s'.facts [plainRow call.tick call.request s.facts.nextId]
  sequence : s'.facts.sequence = s.facts.nextId
  conflicts : s'.conflicts = s.conflicts
  connects : ∀ context, call.service.policy.authorizeContext call.context = .ok context →
    ClientFits s' context ∧ SessionFits s' context
  logged : ∀ l ∈ s'.writeLog.rows, l ∈ s.writeLog.rows ∨
    l.writeId = call.tick.writeId.text ∧ l.idempotencyKey = call.request.idempotencyKey

theorem Adds.apply_ok {host : Host} {call : WriteCall} {s : Store} (adds : Adds host call s)
    (positive : ∀ x ∈ s.observations, 0 < x.observationId) :
    ∃ s' o, call.apply host s = .ok (s', o) ∧ Added call s s' := by
  have goes : ∀ s₁, Recorded s s₁ → nearDuplicate host call.service s₁ call.request false = .ok none ∧
      ∃ applied, applyDecision s₁ call.tick call.request none none = .ok applied ∧
        Branched call.request s₁ applied ∧ applied.store.conflicts = s.conflicts ∧
          applied.store.facts.sequence = s.facts.nextId ∧
            FactPatch s.facts applied.store.facts
              [plainRow call.tick call.request s.facts.nextId] := by
    intro s₁ recorded
    obtain ⟨sameExact, sameNear⟩ := near_recorded recorded host call.service call.request
    have facts : s₁.facts = s.facts := by rw [recorded]
    obtain ⟨⟨s₂, inserted⟩, wrote⟩ := factWriter_ok s₁ call.tick call.request
    obtain ⟨rfl, frame, sequence, patch⟩ := factWriter_eq_ok wrote
    have new := patch.of_mem List.mem_cons_self
    refine ⟨?_, ⟨s₂, ⟨s₁.facts.nextId, .inserted, none⟩, none, some s₁.facts.nextId⟩, ?_,
      ⟨by rw [FactFrame, frame], ⟨_, new, rfl, rfl⟩, ?_, ?_⟩, ?_, facts ▸ sequence,
      facts ▸ patch⟩
    · unfold nearDuplicate
      rw [sameNear, adds.alone, ite_self]
    · rw [applyDecision, sameExact, adds.novel]
      exact bind_eq_ok.2 ⟨_, wrote, rfl⟩
    · intro k none
      cases none
    · intro k same
      cases same
      exact ⟨_, new, rfl⟩
    · rw [frame, recorded]
  obtain ⟨s', o, s₁, applied, done, recorded, wrote, facts, conflicts, connects, logged⟩ :=
    untyped_write_ok adds.untyped adds.untargeted adds.connects adds.unlogged adds.passes adds.freshId
      positive fun s₁ recorded =>
        (goes s₁ recorded).imp_right (Exists.imp fun _ parts => ⟨parts.1, parts.2.1⟩)
  obtain ⟨-, applied', wrote', -, same, sequence, patch⟩ := goes s₁ recorded
  obtain rfl : applied' = applied := Except.ok.inj (wrote'.symm.trans wrote)
  exact ⟨s', o, done, facts ▸ patch, facts ▸ sequence, conflicts.trans same, connects, logged⟩

/-! ## Notes of any length

Notes that repeat one letter: no credential pattern matches a text of so few letters, whatever its
length. -/

namespace Sample

/-- A text of `k + 1` letters. -/
def longText (k : Nat) : String := String.ofList (List.replicate (k + 1) 'x')

theorem mem_longText {k : Nat} {c : Char} (mem : c ∈ (longText k).toList) : c = 'x' := by
  rw [longText, String.toList_ofList] at mem
  exact List.eq_of_mem_replicate mem

theorem length_longText (k : Nat) : (longText k).length = k + 1 := by
  rw [longText, String.length_ofList, List.length_replicate]

theorem longText_required (k : Nat) : Required (longText k) := by
  refine ⟨strip_of_solid fun c mem => ?_, fun empty => ?_⟩
  · rw [mem_longText mem]
    decide +kernel
  · have length := length_longText k
    rw [empty] at length
    cases length

/-- A service that looks for no near duplicates. -/
def noteService : MemoryWriteService := { Sample.service with queryEmbedder := none }

/-- A note about the door, under its own key. -/
def noteRequest (key : String) (valid : Required key) (k : Nat) : WriteRequest :=
  { Sample.request (longText k) (longText_required k) with
    idempotencyKey := key, keyValid := valid, tags := "door" }

def note (key : String) (valid : Required key) (k : Nat) : WriteCall :=
  ⟨noteService, Sample.tick key valid, Sample.context "agent-a", noteRequest key valid k, none⟩

end Sample

/-- The letters of a joined text are those of its parts and of the separator. -/
theorem mem_intercalate {sep : String} {parts : List String} {c : Char}
    (mem : c ∈ (sep.intercalate parts).toList) :
    c ∈ sep.toList ∨ ∃ part ∈ parts, c ∈ part.toList := by
  induction parts with
  | nil => simp [String.intercalate_nil] at mem
  | cons part parts ih =>
      cases parts with
      | nil =>
          rw [String.intercalate_singleton] at mem
          exact .inr ⟨part, List.mem_cons_self, mem⟩
      | cons next parts =>
          rw [String.intercalate_cons_cons, String.toList_append, String.toList_append] at mem
          rcases List.mem_append.1 mem with mem | mem
          · rcases List.mem_append.1 mem with mem | mem
            · exact .inr ⟨part, List.mem_cons_self, mem⟩
            · exact .inl mem
          · refine (ih mem).imp_right fun ⟨part', among, inside⟩ => ?_
            exact ⟨part', List.mem_cons_of_mem _ among, inside⟩

/-- The letters of a note and of the texts beside it. -/
def noteLetters : List Char := "x\ngenraldo\x7b\x7d".toList

theorem note_unscreened (key : String) (valid : Required key) (k : Nat) :
    defaultCredentialScreen (Sample.noteRequest key valid k) [] = none := by
  have letters : ∀ c ∈ (screenedText (Sample.noteRequest key valid k) []).toList,
      c ∈ noteLetters := by
    have others : ∀ part ∈ ["", "general", "door", Json.dumps .ascii (.obj [])],
        ∀ c ∈ part.toList, c ∈ noteLetters := by decide +kernel
    intro c mem
    rcases mem_intercalate mem with sep | ⟨part, among, inside⟩
    · have newline : ∀ c ∈ "\n".toList, c ∈ noteLetters := by decide +kernel
      exact newline c sep
    · rcases List.mem_cons.1 (List.mem_filter.1 among).1 with rfl | among
      · rw [Sample.mem_longText inside]
        decide +kernel
      · refine others part ?_ c inside
        have sub : ["", "", "", "", "general", "door", Json.dumps .ascii (.obj [])] ⊆
            ["", "general", "door", Json.dumps .ascii (.obj [])] := by
          simp
        exact sub among
  have needs : (credentialShapes.all fun pattern => pattern.blocked noteLetters) = true := by
    decide +kernel
  rw [defaultCredentialScreen, if_neg]
  rw [List.any_eq_true]
  rintro ⟨pattern, mem, found⟩
  rw [Regex.search_eq_false (List.all_eq_true.1 needs pattern mem) letters] at found
  cases found

theorem note_passes (key : String) (valid : Required key) (k : Nat) :
    Sample.noteService.policy.evaluateWrite (Sample.noteRequest key valid k) (some "agent-a") [] =
      .ok none := by
  have scope : validateScope "work" = .ok "work" := by decide +kernel
  have sensitivity : validateSensitivity "normal" = .ok "normal" := by decide +kernel
  have relation : validateRelation "supports" = .ok "supports" := by decide +kernel
  have plain : ¬ ((Sample.noteRequest key valid k).scope = "secret" ∨
      (Sample.noteRequest key valid k).sensitivity = "secret") :=
    show ¬ ("work" = "secret" ∨ "normal" = "secret") by decide +kernel
  have modest : ¬ ClaimsCorrection (Sample.noteRequest key valid k) :=
    show ¬ ("agent" = "human_correction" ∨ "supports" = "corrects" ∨
      ∃ status ∈ (none : Option String), status ∈ humanStatuses) by decide +kernel
  refine bind_eq_ok.2 ⟨"work", scope, bind_eq_ok.2 ⟨"normal", sensitivity,
    bind_eq_ok.2 ⟨"supports", relation, bind_eq_ok.2 ⟨none, rfl, ?_⟩⟩⟩⟩
  rw [if_neg plain, if_neg fun claims => modest claims.1, note_unscreened]
  rfl

/-- What a note needs of the store: a connection that fits, a key, an id and a text that are new. -/
theorem note_adds {s : Store} {key : String} {valid : Required key} {k : Nat}
    (client : ClientFits s (Sample.context "agent-a"))
    (session : SessionFits s (Sample.context "agent-a"))
    (logged : ∀ l ∈ s.writeLog.rows, l.writeId ≠ key ∧ l.idempotencyKey ≠ key)
    (novel : ∀ r ∈ s.facts, r.content ≠ Sample.longText k) :
    Adds Sample.host (Sample.note key valid k) s where
  untyped := rfl
  untargeted := rfl
  connects := ⟨Sample.context "agent-a", by rfl, client, session, List.mem_cons_self⟩
  unlogged := Table.get?_eq_none.2 fun l mem same => (logged l mem).2 (Prod.mk.inj same).2
  passes := note_passes key valid k
  freshId := fun l mem => (logged l mem).1
  novel := by
    cases found : findUntypedExactDuplicate s (Sample.note key valid k).request with
    | none => rfl
    | some id =>
        obtain ⟨r, mem, -, -, same, -⟩ := findUntypedExactDuplicate_eq_some found
        exact absurd same (novel r mem)
  alone := rfl

/-- The fact of a note. -/
def Sample.noteRow (key : String) (valid : Required key) (k factId : Nat) : FactRow :=
  plainRow (Sample.tick key valid) (Sample.noteRequest key valid k) factId

/-- Two notes of different lengths are two facts. -/
theorem notes_reached {k k' : Nat} (differ : k ≠ k') :
    ∃ s, Reached Sample.host (fun _ _ => True) s ∧ s.conflicts = Table.empty ∧
      s.facts.table.rows.Perm [Sample.noteRow "1" Sample.first_required k 1,
        Sample.noteRow "2" Sample.second_required k' 2] := by
  have first : Adds Sample.host (Sample.note "1" Sample.first_required k) Store.empty :=
    note_adds (by decide +kernel) (by decide +kernel) (fun l mem => absurd mem List.not_mem_nil)
      fun r mem => absurd mem (Facts.not_mem_empty r)
  obtain ⟨s₁, o₁, done₁, added₁⟩ := first.apply_ok fun x mem => absurd mem (Table.not_mem_empty x)
  obtain ⟨client, session⟩ := added₁.connects (Sample.context "agent-a") rfl
  have reached₁ : Reached Sample.host (fun _ _ => True) s₁ :=
    ⟨[.write (Sample.note "1" Sample.first_required k)], Admits.always _ _, by
      rw [run_cons, run_nil, step, done₁, commit_ok]⟩
  have rows₁ : ∀ r, r ∈ s₁.facts ↔ r = Sample.noteRow "1" Sample.first_required k 1 := by
    intro r
    refine (added₁.facts r).trans ?_
    rw [List.mem_singleton]
    exact or_iff_left fun old => Facts.not_mem_empty r old.1
  have second : Adds Sample.host (Sample.note "2" Sample.second_required k') s₁ := by
    refine note_adds client session (fun l mem => ?_) fun r mem same => ?_
    · obtain old | ⟨writeId, key⟩ := added₁.logged l mem
      · exact absurd old List.not_mem_nil
      · rw [writeId, key]
        exact ⟨show "1" ≠ "2" by decide, show "1" ≠ "2" by decide⟩
    · rw [(rows₁ r).1 mem] at same
      have length := congrArg String.length (show Sample.longText k = Sample.longText k' from same)
      rw [Sample.length_longText, Sample.length_longText] at length
      omega
  obtain ⟨s₂, o₂, done₂, added₂⟩ := second.apply_ok (observations_positive reached₁)
  have id : s₁.facts.nextId = 2 := by
    rw [Facts.nextId, added₁.sequence]
    rfl
  have moved₁ : step Sample.host (.write (Sample.note "1" Sample.first_required k)) Store.empty = s₁ := by
    rw [step, done₁, commit_ok]
  have moved₂ : step Sample.host (.write (Sample.note "2" Sample.second_required k')) s₁ = s₂ := by
    rw [step, done₂, commit_ok]
  refine ⟨s₂, ⟨[.write (Sample.note "1" Sample.first_required k),
    .write (Sample.note "2" Sample.second_required k')], Admits.always _ _, ?_⟩,
    added₂.conflicts.trans added₁.conflicts, ?_⟩
  · rw [run_cons, run_cons, run_nil, moved₁, moved₂]
  · have distinct : Sample.noteRow "1" Sample.first_required k 1 ≠
        Sample.noteRow "2" Sample.second_required k' 2 := fun same =>
      absurd (congrArg FactRow.factId same) (show 1 ≠ 2 by decide)
    refine (List.perm_ext_iff_of_nodup (List.Nodup.of_map _ s₂.facts.table.nodup) ?_).2 fun r => ?_
    · rw [List.nodup_cons, List.mem_singleton]
      exact ⟨distinct, List.nodup_singleton _⟩
    · refine (added₂.facts r).trans ?_
      rw [id, List.mem_singleton, List.mem_cons, List.mem_singleton, or_comm]
      refine or_congr_left ⟨fun old => (rows₁ r).1 old.1, ?_⟩
      rintro rfl
      exact ⟨(rows₁ _).2 rfl, show 1 ∉ [2] by decide⟩

end Enfold.Laws
