/-
# Laws.ContextPacking -- what a packed context is

Every input fact is counted once: it is selected, omitted or discarded.  The loop invariant
`PackInv` names the places of the input the selected facts came from; a round adds at most one
(`packOne_inv`), and the facts it runs over come from distinct places, also after the
reordering (`mmrSelect_places`).  The text keeps to the budget because every line is checked,
and a content keeps to its bound because the second truncation only shortens.

Nothing is assumed of the floats.  What `pack_context` raises on good arguments, a conversion of
an input value raised (`packContext_sound`).
-/
import Enfold.Model.ContextPack

namespace Enfold.Laws

open Enfold.Theory Enfold.Model

set_option autoImplicit false

/-! ## Records -/

section Records

variable {fact : FactRecord} {key key' : String} {value : Json}

theorem get_set : (fact.set key value).get key' = if key' = key then value else fact.get key' := by
  unfold FactRecord.get FactRecord.set
  split
  · rename_i fresh
    by_cases same : key' = key
    · have found : (fact.insert (key, value) fresh).get? key' = some (key, value) :=
        Table.get?_eq_some.2 ⟨Table.mem_insert.2 (.inr rfl), same.symm⟩
      rw [found, if_pos same]
      rfl
    · rw [if_neg same]
      congr 2
      cases found : fact.get? key' with
      | none =>
          refine Table.get?_eq_none.2 fun entry mem => ?_
          obtain mem | rfl := Table.mem_insert.1 mem
          · exact Table.get?_eq_none.1 found entry mem
          · exact fun here => same here.symm
      | some entry =>
          obtain ⟨mem, here⟩ := Table.get?_eq_some.1 found
          exact Table.get?_eq_some.2 ⟨Table.mem_insert.2 (.inl mem), here⟩
  · rename_i taken
    rw [Table.get?_update]
    cases found : fact.get? key' with
    | none =>
        have apart : key' ≠ key := by
          rintro rfl
          obtain ⟨entry, mem, here⟩ := List.mem_map.1 (not_not.1 taken)
          exact Table.get?_eq_none.1 found entry mem here
        rw [if_neg apart]
        rfl
    | some entry =>
        obtain ⟨-, rfl⟩ := Table.get?_eq_some.1 found
        simp only [Option.map_some, Option.getD_some]
        split <;> rfl

theorem get_pop : (fact.pop key).get key' = if key' = key then .null else fact.get key' := by
  unfold FactRecord.get FactRecord.pop
  by_cases same : key' = key
  · have gone : (fact.delete fun entry => entry.1 = key).get? key' = none :=
      Table.get?_eq_none.2 fun entry mem here => (Table.mem_delete.1 mem).2 (here.trans same)
    rw [gone, if_pos same]
    rfl
  · rw [if_neg same]
    congr 2
    cases found : fact.get? key' with
    | none =>
        exact Table.get?_eq_none.2 fun entry mem =>
          Table.get?_eq_none.1 found entry (Table.mem_delete.1 mem).1
    | some entry =>
        obtain ⟨mem, here⟩ := Table.get?_eq_some.1 found
        exact Table.get?_eq_some.2 ⟨Table.mem_delete.2 ⟨mem, fun at_key =>
          same (here.symm.trans at_key)⟩, here⟩

end Records

/-! ## Truncation -/

theorem estimateTokens_empty : estimateTokens "" = 0 := by decide

theorem length_lt_of_estimate {text text' : String} {budget : Int}
    (fits : (estimateTokens text : Int) ≤ budget) (exceeds : budget < estimateTokens text') :
    text.length < text'.length := by
  unfold estimateTokens at fits exceeds
  omega

theorem length_trimmedPrefix (text : String) (n : Nat) : (trimmedPrefix text n).length ≤ n := by
  unfold trimmedPrefix
  rw [String.length_ofList]
  exact (List.rdropWhile_prefix _ _).length_le.trans (List.length_take_le _ _)

/-- Whatever the search settles on fits. -/
theorem longestFit_fits {text : String} {budget : Int} {low stop : Nat} {best : String}
    (fits : (estimateTokens best : Int) ≤ budget) :
    (estimateTokens (longestFit text budget low stop best) : Int) ≤ budget := by
  fun_induction longestFit text budget low stop best with
  | case1 _ _ _ _ _ _ better ih => exact ih better
  | case2 _ _ _ _ _ _ _ ih => exact ih fits
  | case3 => exact fits

/-- A text the budget leaves alone is whole, and it never gets longer. -/
theorem truncateToBudget_spec (text : String) (budget : Int) :
    ((truncateToBudget text budget).2 = false → (truncateToBudget text budget).1 = text) ∧
      (truncateToBudget text budget).1.length ≤ text.length := by
  unfold truncateToBudget
  split
  · refine ⟨fun kept => ?_, Nat.zero_le _⟩
    exact (not_not.1 (of_decide_eq_false kept)).symm
  split
  · exact ⟨fun _ => rfl, Nat.le_refl _⟩
  split
  · exact ⟨fun kept => absurd kept (by simp), Nat.zero_le _⟩
  · rename_i roomy long small
    refine ⟨fun kept => absurd kept (by simp), ?_⟩
    have blank : (estimateTokens "" : Int) ≤ budget := by
      rw [estimateTokens_empty]
      omega
    exact Nat.le_of_lt (length_lt_of_estimate (longestFit_fits blank) (by omega))

theorem truncateToChars_spec (text : String) {maximum : Nat}
    (roomy : truncationMarker.length ≤ maximum) :
    ((truncateToChars text maximum).2 = false → (truncateToChars text maximum).1 = text) ∧
      (truncateToChars text maximum).1.length ≤ maximum := by
  unfold truncateToChars
  split
  · rename_i short
    exact ⟨fun _ => rfl, short⟩
  · refine ⟨fun kept => absurd kept (by simp), ?_⟩
    have cut := length_trimmedPrefix text (maximum - truncationMarker.length)
    rw [String.length_append]
    omega

/-- The packed content keeps to the bound, and is the whole content unless it is marked. -/
theorem packedContent_spec (tokenBudget : Nat) {maxFactChars : Option Nat}
    (roomy : ∀ maximum ∈ maxFactChars, truncationMarker.length ≤ maximum)
    (markdown linePrefix : String) (fact : FactRecord) :
    let packed := packedContent tokenBudget maxFactChars markdown linePrefix fact
    (∀ maximum ∈ maxFactChars, packed.1.length ≤ maximum) ∧
      ((packed.2.1 || packed.2.2) = false → packed.1 = textOf (fact.get "content")) := by
  intro packed
  cases maxFactChars with
  | none =>
      refine ⟨fun _ absent => (by cases absent), fun kept => ?_⟩
      exact (truncateToBudget_spec _ _).1 (Bool.or_eq_false_iff.1 kept).2
  | some maximum =>
      have chars := truncateToChars_spec (textOf (fact.get "content")) (roomy maximum rfl)
      have budget := truncateToBudget_spec
        (truncateToChars (textOf (fact.get "content")) maximum).1
        ((tokenBudget : Int) - estimateTokens markdown - estimateTokens linePrefix - 1)
      refine ⟨?_, fun kept => ?_⟩
      · rintro _ ⟨⟩
        exact budget.2.trans chars.2
      · obtain ⟨byChars, byBudget⟩ := Bool.or_eq_false_iff.1 kept
        exact (budget.1 byBudget).trans (chars.1 byChars)

/-! ## One round -/

/-- The record a packed fact came from, and what was done to it. -/
structure PackedFrom (maxFactChars : Option Nat) (raw fact : FactRecord) : Prop where
  rest : ∀ key, key ∉ ["_mmr_embedding", "content", "context_truncated", "content_truncated"] →
    fact.get key = raw.get key
  content : ∃ text, fact.get "content" = .str text ∧
    (∀ maximum ∈ maxFactChars, text.length ≤ maximum) ∧
    (raw.get "content" = .str text ∨ fact.get "context_truncated" = .bool true)

theorem packedRecord_get {fact : FactRecord} {content key : String} {byChars byBudget : Bool}
    (other : key ∉ ["content", "context_truncated", "content_truncated"]) :
    (packedRecord fact content byChars byBudget).get key = fact.get key := by
  obtain ⟨notContent, notContext, notTruncated⟩ :
      key ≠ "content" ∧ key ≠ "context_truncated" ∧ key ≠ "content_truncated" := by
    simpa using other
  unfold packedRecord
  dsimp only
  split
  · rw [get_set, if_neg notTruncated, get_set, if_neg notContext, get_set, if_neg notContent]
  · rw [get_set, if_neg notContext, get_set, if_neg notContent]

theorem packedRecord_content (fact : FactRecord) (content : String) (byChars byBudget : Bool) :
    (packedRecord fact content byChars byBudget).get "content" = .str content ∧
      (packedRecord fact content byChars byBudget).get "context_truncated" =
        .bool (byChars || byBudget) := by
  unfold packedRecord
  dsimp only
  split
  · simp [get_set]
  · simp [get_set]

/-- A packed fact is as current as it was, and in the same slot. -/
theorem packedRecord_kind (fact : FactRecord) (content : String) (byChars byBudget : Bool) :
    (SafeCandidate (packedRecord fact content byChars byBudget) ↔ SafeCandidate fact) ∧
      stateSlot (packedRecord fact content byChars byBudget) = stateSlot fact := by
  have same : ∀ key ∉ ["content", "context_truncated", "content_truncated"],
      (packedRecord fact content byChars byBudget).get key = fact.get key :=
    fun _ other => packedRecord_get other
  unfold SafeCandidate stateSlot
  rw [same "invalid_at" (by decide), same "superseded_by" (by decide),
    same "conflict_group" (by decide), same "memory_kind" (by decide),
    same "subject_key" (by decide), same "predicate_key" (by decide), same "scope" (by decide)]
  exact ⟨Iff.rfl, rfl⟩

theorem packedFrom_of {tokenBudget : Nat} {maxFactChars : Option Nat}
    (roomy : ∀ maximum ∈ maxFactChars, truncationMarker.length ≤ maximum)
    (markdown linePrefix : String) (raw : FactRecord) :
    let fact := raw.pop "_mmr_embedding"
    let packed := packedContent tokenBudget maxFactChars markdown linePrefix fact
    packed.1 ≠ "" →
      PackedFrom maxFactChars raw (packedRecord fact packed.1 packed.2.1 packed.2.2) := by
  intro fact packed nonempty
  obtain ⟨short, whole⟩ :=
    packedContent_spec tokenBudget roomy markdown linePrefix fact
  obtain ⟨content, marked⟩ := packedRecord_content fact packed.1 packed.2.1 packed.2.2
  refine ⟨fun key other => ?_, packed.1, content, short, ?_⟩
  · rw [packedRecord_get (List.not_mem_of_not_mem_cons other), get_pop,
      if_neg (List.ne_of_not_mem_cons other)]
  · cases truncated : packed.2.1 || packed.2.2 with
    | true =>
        rw [truncated] at marked
        exact .inr marked
    | false =>
        refine .inl ?_
        have same : packed.1 = textOf (raw.get "content") := by
          rw [whole truncated, get_pop, if_neg (by decide)]
        rw [same] at nonempty ⊢
        cases held : raw.get "content" with
        | str text => rfl
        | _ => exact absurd (by rw [held]; rfl) nonempty

/-- The loop after the input places `before`: `base` facts were omitted before it started. -/
structure PackInv (facts : List FactRecord) (tokenBudget : Nat) (maxFactChars : Option Nat)
    (base : Nat) (before : List Nat) (state : PackState) : Prop where
  fits : estimateTokens state.markdown ≤ tokenBudget
  counted : state.selected.length + state.omitted + state.discarded = base + before.length
  current : ∀ fact ∈ state.selected, SafeCandidate fact
  slots : state.selected.filterMap stateSlot = state.selectedSlots
  alone : state.selectedSlots.Nodup
  places : ∃ picks, picks.Sublist before ∧
    List.Forall₂ (fun i fact => ∃ raw, facts[i]? = some raw ∧ PackedFrom maxFactChars raw fact)
      picks state.selected

section Round

variable {F : Type} {floats : Floats F} {facts : List FactRecord} {tokenBudget : Nat}
  {maxFactChars : Option Nat} {base : Nat} {before : List Nat} {state state' : PackState}

/-- A fact that is skipped is counted. -/
theorem PackInv.skip (inv : PackInv facts tokenBudget maxFactChars base before state) (i : Nat)
    {omitted discarded : Nat}
    (counts : omitted + discarded = state.omitted + state.discarded + 1) :
    PackInv facts tokenBudget maxFactChars base (before ++ [i])
      { state with omitted, discarded } where
  fits := inv.fits
  counted := by
    have counted := inv.counted
    rw [List.length_append, List.length_singleton]
    dsimp only
    omega
  current := inv.current
  slots := inv.slots
  alone := inv.alone
  places := by
    obtain ⟨picks, sublist, related⟩ := inv.places
    exact ⟨picks, sublist.trans (List.sublist_append_left _ _), related⟩

theorem slots_singleton (fact : FactRecord) : [fact].filterMap stateSlot = (stateSlot fact).toList := by
  cases slot : stateSlot fact with
  | none => simp [slot]
  | some k => simp [slot]

/-- One round over the fact at place `i`. -/
theorem packOne_inv {i : Nat} {raw : FactRecord}
    (roomy : ∀ maximum ∈ maxFactChars, truncationMarker.length ≤ maximum)
    (here : facts[i]? = some raw)
    (done : packOne floats tokenBudget maxFactChars state raw = .ok state')
    (inv : PackInv facts tokenBudget maxFactChars base before state) :
    PackInv facts tokenBudget maxFactChars base (before ++ [i]) state' := by
  unfold packOne at done
  dsimp only at done
  split at done
  · cases pure_eq_ok.1 done
    exact inv.skip i (by omega)
  rename_i safe
  split at done
  · cases pure_eq_ok.1 done
    exact inv.skip i (by omega)
  rename_i free
  obtain ⟨linePrefix, -, done⟩ := bind_eq_ok.1 done
  split at done
  · cases pure_eq_ok.1 done
    exact inv.skip i (by omega)
  rename_i kept
  cases pure_eq_ok.1 done
  obtain ⟨-, nonempty, within⟩ : _ ∧ _ ∧ _ := by simpa only [not_or] using kept
  obtain ⟨picks, sublist, related⟩ := inv.places
  refine ⟨Nat.not_lt.1 within, ?_, ?_, ?_, ?_, picks ++ [i], sublist.append_right [i], ?_⟩
  · have counted := inv.counted
    simp only [List.length_append, List.length_singleton]
    omega
  · intro fact mem
    obtain mem | mem := List.mem_append.1 mem
    · exact inv.current fact mem
    · rw [List.mem_singleton.1 mem]
      exact (packedRecord_kind _ _ _ _).1.2 (not_not.1 safe)
  · dsimp only
    rw [List.filterMap_append, inv.slots]
    rw [slots_singleton, (packedRecord_kind _ _ _ _).2]
  · refine inv.alone.append ?_ ?_
    · cases stateSlot (raw.pop "_mmr_embedding") with
      | none => exact List.nodup_nil
      | some k => exact List.nodup_singleton k
    · intro k taken new
      exact free ⟨k, Option.mem_toList.1 new, taken⟩
  · refine List.rel_append related (.cons ⟨raw, here, ?_⟩ .nil)
    exact packedFrom_of roomy state.markdown linePrefix raw nonempty

/-- The whole loop. -/
theorem packAll_inv {order : List Nat} {ranked : List FactRecord}
    (roomy : ∀ maximum ∈ maxFactChars, truncationMarker.length ≤ maximum)
    (placed : List.Forall₂ (fun i raw => facts[i]? = some raw) order ranked)
    (done : ranked.foldlM (packOne floats tokenBudget maxFactChars) state = .ok state')
    (inv : PackInv facts tokenBudget maxFactChars base before state) :
    PackInv facts tokenBudget maxFactChars base (before ++ order) state' := by
  induction placed generalizing before state with
  | nil =>
      cases pure_eq_ok.1 done
      rwa [List.append_nil]
  | cons here _ ih =>
      rw [List.foldlM_cons] at done
      obtain ⟨next, first, done⟩ := bind_eq_ok.1 done
      rw [List.append_cons]
      exact ih done (packOne_inv roomy here first inv)

end Round

/-! ## The reordering -/

/-- The chosen facts, and the distinct places of the input they come from. -/
def Places (facts : List FactRecord) (order : List Nat) (chosen : List FactRecord) : Prop :=
  order.Nodup ∧ List.Forall₂ (fun i raw => facts[i]? = some raw) order chosen

/-- Distinct places are no more than the input has. -/
theorem Places.length_le {facts chosen : List FactRecord} {order : List Nat}
    (places : Places facts order chosen) : chosen.length ≤ facts.length := by
  obtain ⟨distinct, placed⟩ := places
  have inside : order ⊆ List.range facts.length := by
    intro i mem
    obtain ⟨j, at_j⟩ := List.getElem?_of_mem mem
    obtain ⟨raw, -, here⟩ := forall₂_getElem? placed at_j
    exact List.mem_range.2 (List.getElem?_eq_some_iff.1 here).1
  have few := (distinct.subperm inside).length_le
  rwa [List.length_range, placed.length_eq] at few

section Reordering

variable {F : Type} {floats : Floats F} {facts : List FactRecord} {mmrLambda : F}

theorem bestCandidate_mem (floats : Floats F) (first : Candidate F) (rest : List (Candidate F)) :
    bestCandidate floats first rest ∈ first :: rest := by
  unfold bestCandidate
  induction rest generalizing first with
  | nil => exact List.mem_cons_self
  | cons next rest ih =>
      rw [List.foldl_cons]
      obtain here | later := List.mem_cons.1 (ih (if Candidate.better floats first next then next
        else first))
      · rw [here]
        split
        · exact List.mem_cons_of_mem _ List.mem_cons_self
        · exact List.mem_cons_self
      · exact List.mem_cons_of_mem _ (List.mem_cons_of_mem _ later)

/-- Taking the place `i` out of the remaining ones. -/
theorem erased_places {remaining : List (Nat × FactRecord)} {before : List Nat} {i : Nat}
    (mem : i ∈ remaining.map Prod.fst) (distinct : (before ++ remaining.map Prod.fst).Nodup) :
    (before ++ [i] ++ (remaining.eraseP fun item => item.1 = i).map Prod.fst).Nodup := by
  have erased : (remaining.eraseP fun item => item.1 = i).map Prod.fst =
      (remaining.map Prod.fst).erase i := by
    rw [List.erase_eq_eraseP', List.eraseP_map]
    congr 2
  rw [erased, List.append_assoc, List.singleton_append]
  exact (((List.perm_cons_erase mem).append_left before).nodup_iff).1 distinct

theorem mmrLoop_places {needed : Nat} {remaining : List (Nat × FactRecord)}
    {selected chosen : List FactRecord} {before : List Nat}
    (done : mmrLoop floats mmrLambda needed remaining selected = .ok chosen)
    (kept : ∀ item ∈ remaining, facts[item.1]? = some item.2)
    (distinct : (before ++ remaining.map Prod.fst).Nodup)
    (placed : List.Forall₂ (fun i raw => facts[i]? = some raw) before selected) :
    ∃ order, Places facts order chosen ∧ chosen.length ≤ selected.length + needed := by
  induction needed generalizing remaining selected before with
  | zero =>
      cases done
      exact ⟨before, ⟨distinct.of_append_left, placed⟩, Nat.le_refl _⟩
  | succ needed ih =>
      rw [mmrLoop] at done
      obtain ⟨scored, scores, done⟩ := bind_eq_ok.1 done
      cases scored with
      | nil =>
          cases pure_eq_ok.1 done
          exact ⟨before, ⟨distinct.of_append_left, placed⟩, Nat.le_add_right _ _⟩
      | cons first rest =>
          dsimp only at done
          obtain ⟨item, mem, score⟩ := mem_of_mapM_eq_ok scores _
            (bestCandidate_mem floats first rest)
          obtain ⟨value, -, score⟩ := bind_eq_ok.1 score
          have best := pure_eq_ok.1 score
          rw [← best] at done
          obtain ⟨order, places, few⟩ := ih done
            (fun other mem' => kept other (List.mem_of_mem_eraseP mem'))
            (erased_places (List.mem_map_of_mem mem) distinct)
            (List.rel_append placed (.cons (kept item mem) .nil))
          rw [List.length_append, List.length_singleton] at few
          exact ⟨order, places, by omega⟩

/-- The facts that are packed stand at distinct places of the input. -/
theorem mmrSelect_places {maxFacts : Option Nat} {chosen : List FactRecord}
    (done : mmrSelect floats facts maxFacts mmrLambda = .ok chosen) :
    ∃ order, Places facts order chosen ∧ ∀ limit ∈ maxFacts, chosen.length ≤ limit := by
  have whole : Places facts (List.range facts.length) facts := by
    refine ⟨List.nodup_range, forall₂_of_getElem? List.length_range fun i j raw at_i here => ?_⟩
    obtain ⟨-, rfl⟩ := List.getElem?_eq_some_iff.1 at_i
    rwa [List.getElem_range]
  unfold mmrSelect at done
  cases maxFacts with
  | none =>
      cases done
      exact ⟨_, whole, fun _ absent => by cases absent⟩
  | some limit =>
      dsimp only at done
      split at done
      · rename_i small
        cases done
        refine ⟨_, whole, ?_⟩
        rintro _ ⟨⟩
        exact small
      · have kept : ∀ item ∈ facts.zipIdx.map Prod.swap, facts[item.1]? = some item.2 := by
          intro item mem
          obtain ⟨entry, listed, rfl⟩ := List.mem_map.1 mem
          exact List.mem_zipIdx_iff_getElem?.1 listed
        have distinct : ([] ++ (facts.zipIdx.map Prod.swap).map Prod.fst).Nodup := by
          have indices : (Prod.fst ∘ Prod.swap : FactRecord × Nat → Nat) = Prod.snd := rfl
          rw [List.nil_append, List.map_map, indices, List.zipIdx_map_snd]
          exact List.nodup_range'
        obtain ⟨order, places, few⟩ := mmrLoop_places done kept distinct .nil
        refine ⟨order, places, ?_⟩
        rintro _ ⟨⟩
        simpa using few

end Reordering

/-! ## What is raised -/

section Raised

variable {F : Type} (floats : Floats F)

/-- A conversion of a value to a float raised this, and nothing caught it. -/
def RaisedByRead (raised : Raised) : Prop :=
  ∃ value, floats.read value = .error raised ∧ ¬ Handled raised

variable {floats}

theorem relevance_raises (fact : FactRecord) :
    Raises (RaisedByRead floats) (relevance floats fact) := by
  unfold relevance
  split
  · exact .ok _
  · rename_i raised read
    split
    · exact .ok _
    · rename_i escaped
      exact .error ⟨_, read, escaped⟩

/-- What escapes the components was raised by a conversion. -/
theorem components_raises (value : Json) :
    Raises (fun raised => Handled raised ∨ RaisedByRead floats raised) (floats.components value) := by
  have each : ∀ values : List Json,
      Raises (fun raised => Handled raised ∨ RaisedByRead floats raised)
        (values.mapM floats.read) := fun values =>
    .mapM fun item _ raised read => by
      by_cases handled : Handled raised
      · exact .inl handled
      · exact .inr ⟨item, read, handled⟩
  unfold Floats.components
  split
  · exact each _
  · exact each _
  · exact .error (.inl (.inl rfl))

theorem embeddingSimilarity_raises (left right : Json) :
    Raises (RaisedByRead floats) (embeddingSimilarity floats left right) := by
  unfold embeddingSimilarity
  split
  · exact .ok _
  · exact .ok _
  · split
    · rename_i raised failed
      have escapes : Raises (fun raised => Handled raised ∨ RaisedByRead floats raised)
          (do return (← floats.components left, ← floats.components right) : Py _) :=
        (components_raises left).bind fun _ _ => (components_raises right).bind fun _ _ => .ok _
      split
      · exact .ok _
      · rename_i escaped
        exact .error ((escapes raised failed).resolve_left escaped)
    · exact .ok _

theorem similarity_raises (left right : FactRecord) :
    Raises (RaisedByRead floats) (similarity floats left right) := by
  refine (embeddingSimilarity_raises _ _).bind fun dense _ => ?_
  cases dense with
  | none => exact .ok _
  | some dense => exact .ok _

theorem objective_raises (mmrLambda : F) (selected : List FactRecord) (fact : FactRecord) :
    Raises (RaisedByRead floats) (objective floats mmrLambda selected fact) :=
  (relevance_raises fact).bind fun _ _ =>
    (Raises.mapM fun chosen _ => similarity_raises fact chosen).bind fun _ _ => .ok _

theorem mmrLoop_raises (mmrLambda : F) (needed : Nat) (remaining : List (Nat × FactRecord))
    (selected : List FactRecord) :
    Raises (RaisedByRead floats) (mmrLoop floats mmrLambda needed remaining selected) := by
  induction needed generalizing remaining selected with
  | zero => exact .ok _
  | succ needed ih =>
      rw [mmrLoop]
      refine (Raises.mapM fun item _ => (objective_raises mmrLambda selected item.2).bind
        fun _ _ => .ok _).bind fun scored _ => ?_
      cases scored with
      | nil => exact .ok _
      | cons first rest => exact ih _ _

theorem mmrSelect_raises (facts : List FactRecord) (maxFacts : Option Nat) (mmrLambda : F) :
    Raises (RaisedByRead floats) (mmrSelect floats facts maxFacts mmrLambda) := by
  unfold mmrSelect
  split
  · exact .ok _
  · split
    · exact .ok _
    · exact mmrLoop_raises mmrLambda _ _ _

theorem linePrefix_raises (fact : FactRecord) :
    Raises (RaisedByRead floats) (linePrefix floats fact) := by
  refine Raises.bind ?_ fun _ _ => .ok _
  unfold scoreText
  split
  · exact .ok _
  · rename_i raised read
    split
    · exact .ok _
    · rename_i escaped
      exact .error ⟨_, read, escaped⟩

theorem packOne_raises (tokenBudget : Nat) (maxFactChars : Option Nat) (state : PackState)
    (raw : FactRecord) : Raises (RaisedByRead floats) (packOne floats tokenBudget maxFactChars state raw) := by
  unfold packOne
  dsimp only
  split
  · exact .ok _
  split
  · exact .ok _
  · refine (linePrefix_raises _).bind fun _ _ => ?_
    split
    · exact .ok _
    · exact .ok _

end Raised

/-! ## The pack -/

/-- What holds of a pack of `facts`. -/
structure SoundPack (facts : List FactRecord) (tokenBudget : Int) (maxFactChars maxFacts : Option Int)
    (pack : ContextPack) : Prop where
  estimated : estimateTokens pack.markdown = pack.tokenEstimate
  within : (pack.tokenEstimate : Int) ≤ tokenBudget
  counted : pack.facts.length + pack.omittedFactCount + pack.unsafeFactCount = facts.length
  current : ∀ fact ∈ pack.facts, SafeCandidate fact
  slots : (pack.facts.filterMap stateSlot).Nodup
  limited : ∀ limit ∈ maxFacts, (pack.facts.length : Int) ≤ limit
  /-- Every selected fact stands at a place of the input of its own. -/
  used : ∃ picks : List Nat, picks.Nodup ∧ List.Forall₂ (fun i fact => ∃ raw, facts[i]? = some raw ∧
    PackedFrom (maxFactChars.map Int.toNat) raw fact) picks pack.facts
  abstains : pack.abstained = true ↔ pack.facts = []

/-- A pack without facts. -/
theorem emptyPack_sound {facts : List FactRecord} {tokenBudget : Int}
    {maxFactChars maxFacts : Option Int} {omitted discarded : Nat} (positive : 0 < tokenBudget)
    (limits : ∀ limit ∈ maxFacts, 1 ≤ limit) (counted : omitted + discarded = facts.length) :
    SoundPack facts tokenBudget maxFactChars maxFacts
      ⟨"", [], true, tokenBudget.toNat, 0, omitted, discarded⟩ where
  estimated := estimateTokens_empty
  within := Int.le_of_lt positive
  counted := by
    dsimp only [List.length_nil]
    omega
  current := fun _ mem => absurd mem List.not_mem_nil
  slots := List.nodup_nil
  limited := fun limit given => Int.le_trans (Int.natCast_nonneg 1) (limits limit given)
  used := ⟨[], List.nodup_nil, .nil⟩
  abstains := ⟨fun _ => rfl, fun _ => rfl⟩

section Pack

variable {F : Type} {floats : Floats F} {facts : List FactRecord} {tokenBudget : Int}
  {maxFactChars maxFacts : Option Int} {mmrLambda : F}

theorem packContext_eq_ok {pack : ContextPack}
    (done : packContext floats facts tokenBudget maxFactChars maxFacts mmrLambda = .ok pack) :
    SoundPack facts tokenBudget maxFactChars maxFacts pack := by
  unfold packContext at done
  obtain ⟨positive, done⟩ := require_bind_eq_ok.1 done
  obtain ⟨roomy, done⟩ := require_bind_eq_ok.1 done
  obtain ⟨limits, done⟩ := require_bind_eq_ok.1 done
  obtain ⟨-, done⟩ := require_bind_eq_ok.1 done
  dsimp only at done
  split at done
  · cases pure_eq_ok.1 done
    exact emptyPack_sound positive limits (Nat.add_zero _)
  rename_i headed
  obtain ⟨ranked, ordered, done⟩ := bind_eq_ok.1 done
  obtain ⟨state, packed, done⟩ := bind_eq_ok.1 done
  obtain ⟨order, places, few⟩ := mmrSelect_places ordered
  have bounds : ∀ maximum ∈ maxFactChars.map Int.toNat, truncationMarker.length ≤ maximum := by
    intro maximum rounded
    obtain ⟨given, mem, rfl⟩ := Option.mem_map.1 rounded
    have enough := roomy given mem
    omega
  have start : PackInv facts tokenBudget.toNat (maxFactChars.map Int.toNat)
      (facts.length - ranked.length) [] ⟨header, [], [], facts.length - ranked.length, 0⟩ :=
    ⟨Nat.not_lt.1 headed, by simp, by simp, rfl, List.nodup_nil, [], List.Sublist.slnil, .nil⟩
  have inv := packAll_inv bounds places.2 packed start
  have counted : state.selected.length + state.omitted + state.discarded = facts.length := by
    have total := inv.counted
    have fewer := places.length_le
    rw [List.nil_append, places.2.length_eq] at total
    omega
  obtain ⟨picks, sublist, related⟩ := inv.places
  split at done
  · rename_i empty
    cases pure_eq_ok.1 done
    rw [empty] at counted
    exact emptyPack_sound positive limits (by simpa using counted)
  · rename_i selected
    cases pure_eq_ok.1 done
    refine ⟨rfl, ?_, counted, inv.current, ?_, ?_,
      ⟨picks, places.1.sublist sublist, related⟩, ?_⟩
    · have fits := inv.fits
      dsimp only
      omega
    · dsimp only
      rw [inv.slots]
      exact inv.alone
    · intro limit given
      have chosen := few limit.toNat (Option.mem_map.2 ⟨limit, given, rfl⟩)
      have atLeastOne := limits limit given
      have length : state.selected.length ≤ ranked.length := by
        rw [← related.length_eq, ← places.2.length_eq]
        exact sublist.length_le
      dsimp only
      omega
    · exact ⟨fun abstained => (by cases abstained), fun none => absurd none selected⟩

/-- On good arguments packing returns a sound pack, unless a score or a vector of the input
cannot be converted to floats. -/
theorem packContext_sound (positive : 0 < tokenBudget)
    (roomy : ∀ maximum ∈ maxFactChars, (truncationMarker.length : Int) ≤ maximum)
    (limits : ∀ limit ∈ maxFacts, 1 ≤ limit)
    (unit : floats.finite mmrLambda ∧ floats.atMost floats.zero mmrLambda ∧
      floats.atMost mmrLambda floats.one) :
    (∃ pack, packContext floats facts tokenBudget maxFactChars maxFacts mmrLambda = .ok pack ∧
      SoundPack facts tokenBudget maxFactChars maxFacts pack) ∨
    (∃ raised, packContext floats facts tokenBudget maxFactChars maxFacts mmrLambda =
        .error raised ∧ RaisedByRead floats raised) := by
  cases done : packContext floats facts tokenBudget maxFactChars maxFacts mmrLambda with
  | ok pack => exact .inl ⟨pack, rfl, packContext_eq_ok done⟩
  | error raised =>
      refine .inr ⟨raised, rfl, ?_⟩
      have escapes : Raises (RaisedByRead floats)
          (packContext floats facts tokenBudget maxFactChars maxFacts mmrLambda) := by
        unfold packContext
        rw [require_of positive, require_of roomy, require_of limits, require_of unit]
        dsimp only [ok_bind]
        split
        · exact .ok _
        · refine (mmrSelect_raises _ _ _).bind fun ranked _ => ?_
          refine (Raises.foldlM (fun state raw _ => packOne_raises _ _ state raw) _).bind
            fun state _ => ?_
          split
          · exact .ok _
          · exact .ok _
      exact escapes raised done

end Pack

/-! ## Samples -/

/-- Exact arithmetic on the numbers the samples hold: no roots are taken, and nothing is
printed but whole numbers. -/
def sampleFloats : Floats Int where
  read
    | .int n => .ok n
    | _ => .error ⟨.typeError, "must be a number"⟩
  zero := 0
  one := 1
  minusOne := -1
  sub x y := x - y
  mul x y := x * y
  div x y := x / y
  sqrt x := x
  sum xs := xs.sum
  ratio _ _ := 0
  less x y := x < y
  atMost x y := x ≤ y
  same x y := x = y
  finite _ := true
  fixed n := String.ofList (Json.intText n) ++ ".000"
  str
    | .int n => String.ofList (Json.intText n)
    | _ => "None"

/-- A fact of the sample slot, and a plain one. -/
def sampleRecords : List FactRecord :=
  [⟨[("fact_id", .int 1), ("content", .str "the door is red"), ("score", .int 1),
      ("memory_kind", .str "state"), ("scope", .str "work"), ("subject_key", .str "door"),
      ("predicate_key", .str "color")], by decide⟩,
    ⟨[("fact_id", .int 2), ("content", .str "the door opens"), ("score", .int 0)], by decide⟩]

/-- Both are packed into the prompt. -/
theorem sample_pack_sound :
    ∃ pack, packContext sampleFloats sampleRecords 40 (some 20) (some 5) 1 = .ok pack ∧
      pack.facts.length = 2 ∧ SoundPack sampleRecords 40 (some 20) (some 5) pack := by
  have length : ((packContext sampleFloats sampleRecords 40 (some 20) (some 5) 1).map fun pack =>
      pack.facts.length) = .ok 2 := by decide +kernel
  obtain ⟨pack, done, two⟩ := map_eq_ok.1 length
  obtain ⟨pack', done', sound⟩ | ⟨raised, failed, -⟩ :=
    @packContext_sound Int sampleFloats sampleRecords 40 (some 20) (some 5) 1 (by decide)
      (by rintro _ ⟨⟩; decide) (by rintro _ ⟨⟩; decide) (by decide)
  · rw [done] at done'
    cases done'
    exact ⟨pack, done, two, sound⟩
  · rw [done] at failed
    cases failed

end Enfold.Laws
