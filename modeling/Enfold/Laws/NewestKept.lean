/-
# Laws.NewestKept -- which end of a timeline survives the cuts

The scan limit and the item limit keep the newest matching events (`selectedEvents_suffix`).  The
character budget then keeps the oldest of these, and the loop that shortens a dossier drops its
newest change first.  So an answer ends with the newest matching event exactly when the last two cuts
leave everything or nothing, up to repetitions of one event.  An empty answer counts as a suffix: it
shows no older event in place of a newer one.
-/
import Enfold.Laws.PlainWrites
import Enfold.Laws.ProjectionHonesty

namespace Enfold.Laws

open Enfold.Theory Enfold.Model

set_option autoImplicit false

section Newest

variable {J : Type} [LinearOrder J] {julianday : String → Option J} {columns : FactColumns} {s : Store}
  {scopes : List String} {matching : EventRow → Bool} {cap : Nat}

/-! ## The cuts that keep the newest -/

/-- The settled events that match, oldest first. -/
def matchingEvents (julianday : String → Option J) (s : Store) (scopes : List String)
    (matching : EventRow → Bool) : List EventRow :=
  (chronicle julianday s scopes).filter matching

/-- The matching events the scan sees. -/
def scannedEvents (julianday : String → Option J) (s : Store) (scopes : List String)
    (matching : EventRow → Bool) : List EventRow :=
  ((chronicle julianday s scopes).drop
    ((chronicle julianday s scopes).length - projectionScanLimit)).filter matching

/-- The last `cap` of these. -/
def selectedEvents (julianday : String → Option J) (s : Store) (scopes : List String)
    (matching : EventRow → Bool) (cap : Nat) : List EventRow :=
  (scannedEvents julianday s scopes matching).drop
    ((scannedEvents julianday s scopes matching).length - cap)

/-- The scan limit or the item limit left something out. -/
def cutEarly (julianday : String → Option J) (s : Store) (scopes : List String)
    (matching : EventRow → Bool) (cap : Nat) : Bool :=
  decide (projectionScanLimit ≤ (chronicle julianday s scopes).length) ||
    decide (cap < (scannedEvents julianday s scopes matching).length)

theorem selectedEvents_suffix :
    selectedEvents julianday s scopes matching cap <:+ matchingEvents julianday s scopes matching :=
  (List.drop_suffix _ _).trans ((List.drop_suffix _ _).filter matching)

theorem length_selectedEvents : (selectedEvents julianday s scopes matching cap).length ≤ cap := by
  rw [selectedEvents, List.length_drop]
  generalize (scannedEvents julianday s scopes matching).length = n
  omega

theorem selectEvents_fst :
    (selectEvents columns (eventRows julianday s scopes none) matching cap).1 =
      (bounded (EventRow.toJson columns) (selectedEvents julianday s scopes matching cap) cap).1 := by
  have cuts : ∀ scanned : List EventRow × Bool, (selectEvents columns scanned matching cap).1 =
      (bounded (EventRow.toJson columns) ((scanned.1.filter matching).drop
        ((scanned.1.filter matching).length - cap)) cap).1 := fun _ => rfl
  rw [cuts, eventRows_eq, windowEvents_none, selectedEvents, scannedEvents]

theorem selectEvents_snd :
    (selectEvents columns (eventRows julianday s scopes none) matching cap).2 =
      (cutEarly julianday s scopes matching cap || (bounded (EventRow.toJson columns)
        (selectedEvents julianday s scopes matching cap) cap).2) := by
  have cuts : ∀ scanned : List EventRow × Bool, (selectEvents columns scanned matching cap).2 =
      ((scanned.2 || decide (cap < (scanned.1.filter matching).length)) ||
        (bounded (EventRow.toJson columns) ((scanned.1.filter matching).drop
          ((scanned.1.filter matching).length - cap)) cap).2) := fun _ => rfl
  rw [cuts, eventRows_eq, windowEvents_none, selectedEvents, cutEarly, scannedEvents]

/-- A start of the selected events ends with the newest matching event when it is all of them, or
empty, or one event over and over. -/
theorem take_selected_suffix_iff (k : Nat) :
    (selectedEvents julianday s scopes matching cap).take k <:+
        matchingEvents julianday s scopes matching ↔
      (selectedEvents julianday s scopes matching cap).length ≤ k ∨ k = 0 ∨
        ∀ a ∈ selectedEvents julianday s scopes matching cap,
          ∀ b ∈ selectedEvents julianday s scopes matching cap, a = b := by
  have suffix := @selectedEvents_suffix J _ julianday s scopes matching cap
  have inChronicle : (selectedEvents julianday s scopes matching cap).Sublist
      (chronicle julianday s scopes) := suffix.sublist.trans List.filter_sublist
  have distinct : Distinguished (EventRow.key julianday)
      (selectedEvents julianday s scopes matching cap) :=
    (factEvents_distinguished julianday s scopes).subset fun e mem =>
      mem_ascending.1 (inChronicle.subset mem)
  rw [← take_suffix_iff distinct ((ascending_pairwise _).sublist inChronicle)]
  constructor
  · intro ends
    exact List.suffix_of_suffix_length_le ends suffix (List.take_sublist _ _).length_le
  · intro ends
    exact ends.trans suffix

/-! ## The character budget -/

/-- The budget keeps a start of a list that is within the limit: all of it when it fits, and nothing
when its first element does not. -/
theorem bounded_keeps {α : Type} {toJson : α → Json} {items : List α} (few : items.length ≤ cap)
    (some' : 0 < cap) :
    ∃ k ≤ items.length, (bounded toJson items cap).1 = items.take k ∧
      ((bounded toJson items cap).2 = true ↔ k < items.length) ∧
      (items.length ≤ k ↔ Fits toJson items cap) ∧
      (k = 0 ↔ items = [] ∨ ¬ Fits toJson (items.take 1) cap) := by
  obtain ⟨k, within, kept, flag⟩ := @fill_take α (fun item => jsonChars (toJson item)) cap
    itemsCharBudget 0 2 items
  refine ⟨k, within, kept, flag, ?_, ?_⟩
  · rw [← bounded_complete_iff, ← Bool.not_eq_true, bounded, flag, Nat.not_lt]
  · have empty := @fill_eq_nil_iff α (fun item => jsonChars (toJson item)) cap itemsCharBudget 2
      some' items
    rw [kept, List.take_eq_nil_iff] at empty
    cases items with
    | nil => simpa using within
    | cons item items =>
        have first : Fits toJson [item] cap ↔ 2 + jsonChars (toJson item) ≤ itemsCharBudget := by
          simp only [Fits, cost, itemCost, List.length_singleton, Nat.lt_irrefl, if_false,
            Nat.add_zero]
          exact and_iff_right some'
        simp only [List.head?_cons, Option.mem_def, Option.some.injEq, forall_eq', reduceCtorEq,
          or_false] at empty
        rw [List.take_succ_cons, List.take_zero, first, empty]
        simp

/-! ## The loop of a dossier -/

/-- The dossier with other recent changes fits. -/
def ShortWith (columns : FactColumns) (d : Dossier) (recent : List EventRow) (truncated : Bool) : Prop :=
  jsonChars (({ d with recentChanges := recent, truncated := truncated } : Dossier).toJson columns) ≤
    maxOutputChars

/-- A dossier that fits does so with only the first of its changes. -/
theorem shortWith_first {d : Dossier} (short : jsonChars (d.toJson columns) ≤ maxOutputChars) :
    ShortWith columns d (d.recentChanges.take 1) (d.truncated || decide (1 < d.recentChanges.length)) := by
  have flag : ∀ flag, flagChars (d.truncated || flag) ≤ flagChars d.truncated := by
    intro flag
    cases d.truncated <;> cases flag <;> decide
  have flagged := flag (decide (1 < d.recentChanges.length))
  have fewer : cost (eventChars columns) 0 (d.recentChanges.take 1) ≤
      cost (eventChars columns) 0 d.recentChanges := by
    cases d.recentChanges with
    | nil => exact Nat.le_refl 0
    | cons e rest =>
        simp only [List.take_succ_cons, List.take_zero, cost]
        omega
  rw [jsonChars_dossier] at short
  unfold ShortWith
  rw [jsonChars_dossier]
  dsimp only at *
  omega

theorem shrink_noChanges {d : Dossier} (none : d.recentChanges = []) :
    (Dossier.shrink columns d).recentChanges = [] :=
  shrink_preserves (P := fun d => d.recentChanges = []) (fun d none => by simp [none])
    (fun _ none => none) (fun _ none => none) none

/-- The loop keeps a start of the recent changes: all of them when the dossier fits, and none when
it is too long with the first of them. -/
theorem shrink_recentChanges (d : Dossier) :
    ∃ j ≤ d.recentChanges.length,
      (Dossier.shrink columns d).recentChanges = d.recentChanges.take j ∧
      (d.recentChanges.length ≤ j ↔
        d.recentChanges = [] ∨ jsonChars (d.toJson columns) ≤ maxOutputChars) ∧
      (j = 0 ↔ d.recentChanges = [] ∨ ¬ ShortWith columns d (d.recentChanges.take 1)
        (d.truncated || decide (1 < d.recentChanges.length))) := by
  by_cases none : d.recentChanges = []
  · refine ⟨0, Nat.zero_le _, ?_, ?_, ?_⟩
    · rw [shrink_noChanges none, List.take_zero]
    · simp [none]
    · simp [none]
  have filled := List.length_pos_iff.2 none
  fun_induction Dossier.shrink columns d with
  | case1 d fits =>
      refine ⟨d.recentChanges.length, Nat.le_refl _, (List.take_length).symm, ?_, ?_⟩
      · exact iff_of_true (Nat.le_refl _) (.inr fits)
      · have first := shortWith_first fits
        exact iff_of_false (by omega) (not_or.2 ⟨none, not_not.2 first⟩)
  | case2 d long some' ih =>
      have tooLong : ¬ (d.recentChanges = [] ∨ jsonChars (d.toJson columns) ≤ maxOutputChars) :=
        not_or.2 ⟨none, long⟩
      by_cases single : d.recentChanges.length = 1
      · have last : d.recentChanges.dropLast = [] := List.length_eq_zero_iff.1 (by
          rw [List.length_dropLast, single])
        refine ⟨0, Nat.zero_le _, ?_, iff_of_false (by omega) tooLong, iff_of_true rfl (.inr ?_)⟩
        · rw [shrink_noChanges last, List.take_zero]
        · have same : d.recentChanges.take 1 = d.recentChanges := List.take_of_length_le (by omega)
          rw [same, single]
          simpa [ShortWith] using long
      · have more : d.recentChanges.dropLast ≠ [] := by
          intro empty
          have := congrArg List.length empty
          rw [List.length_dropLast, List.length_nil] at this
          omega
        obtain ⟨j, within, kept, -, nothing⟩ := ih more (List.length_pos_iff.2 more)
        dsimp only at within kept nothing
        have starts : ∀ n ≤ d.recentChanges.length - 1,
            d.recentChanges.dropLast.take n = d.recentChanges.take n := fun n few => by
          rw [List.dropLast_eq_take, List.take_take, Nat.min_eq_left few]
        rw [List.length_dropLast] at within
        rw [starts j within] at kept
        rw [starts 1 (by omega)] at nothing
        refine ⟨j, by omega, kept, iff_of_false (by omega) tooLong, ?_⟩
        rw [nothing, Bool.true_or, decide_eq_true (by omega : 1 < d.recentChanges.length),
          Bool.or_true]
        exact or_congr (iff_of_false more none) Iff.rfl
  | case3 d long empty => omega
  | case4 d long empty => omega
  | case5 d long empty => omega

/-! ## Timelines and dossiers -/

/-- The same event over and over. -/
def Constant (events : List EventRow) : Prop := ∀ a ∈ events, ∀ b ∈ events, a = b

/-- What the budget leaves of selected events ends with the newest of them: it leaves all, or none,
or they are one event over and over. -/
def BudgetSpares (columns : FactColumns) (cap : Nat) (selected : List EventRow) : Prop :=
  Fits (EventRow.toJson columns) selected cap ∨
    ¬ Fits (EventRow.toJson columns) (selected.take 1) cap ∨ Constant selected

/-- The same, of a dossier with such recent changes: `early` tells that they are not all there are. -/
def DossierSpares (columns : FactColumns) (cap : Nat) (draft : List EventRow → Bool → Dossier)
    (early : Bool) (selected : List EventRow) : Prop :=
  Fits (EventRow.toJson columns) selected cap ∧
      jsonChars ((draft selected early).toJson columns) ≤ maxOutputChars ∨
    (¬ Fits (EventRow.toJson columns) (selected.take 1) cap ∨
      maxOutputChars < jsonChars
        ((draft (selected.take 1) (early || decide (1 < selected.length))).toJson columns)) ∨
    Constant selected

theorem projectionLimit_positive {limit : Int} (limited : projectionLimit limit = .ok cap) : 0 < cap := by
  obtain ⟨⟨positive, -⟩, done⟩ := require_bind_eq_ok.1 limited
  cases pure_eq_ok.1 done
  omega

/-- What the budget leaves of the selected events. -/
theorem bounded_newest_iff (positive : 0 < cap) :
    (bounded (EventRow.toJson columns) (selectedEvents julianday s scopes matching cap) cap).1 <:+
        matchingEvents julianday s scopes matching ↔
      BudgetSpares columns cap (selectedEvents julianday s scopes matching cap) := by
  have ends := @take_selected_suffix_iff J _ julianday s scopes matching cap
  have few := @length_selectedEvents J _ julianday s scopes matching cap
  generalize selectedEvents julianday s scopes matching cap = selected at ends few ⊢
  obtain ⟨k, -, kept, -, whole, nothing⟩ :=
    @bounded_keeps cap EventRow (EventRow.toJson columns) selected few positive
  rw [kept, ends, whole, nothing, BudgetSpares, Constant, or_assoc]
  refine or_congr_right ⟨?_, ?_⟩
  · rintro (none | long | same)
    · exact .inr (by simp [none])
    · exact .inl long
    · exact .inr same
  · rintro (long | same)
    · exact .inr (.inl long)
    · exact .inr (.inr same)

/-- Stated for variables: the kernel would compute the lists. -/
theorem events_of {result : Timeline} {kept : List EventRow} {cut : Bool}
    (made : result = ⟨kept, cut⟩) : result.events = kept := by
  rw [made]

theorem timeline_newest_iff {query : String} {scope : List String} {limit : Int} {result : Timeline}
    (cleaned : projectionScopes scope = .ok scopes) (limited : projectionLimit limit = .ok cap)
    (done : timeline julianday columns s query scope limit = .ok result) :
    result.events <:+ matchingEvents julianday s scopes (inTimeline (casefold (strip query))) ↔
      BudgetSpares columns cap
        (selectedEvents julianday s scopes (inTimeline (casefold (strip query))) cap) := by
  obtain ⟨scopes', cap', -, -, limited', cleaned', made⟩ := timeline_eq_ok.1 done
  cases cleaned.symm.trans cleaned'
  cases limited.symm.trans limited'
  have ends := @bounded_newest_iff J _ julianday columns s scopes
    (inTimeline (casefold (strip query))) cap (projectionLimit_positive limited)
  rw [events_of made, selectEvents_fst]
  exact ends

/-- The draft with other recent changes, marked for what they leave out. -/
theorem shortWith_draft {entity : String} {active : List FactRow} (kept recent : List EventRow)
    (cut cut' : Bool) :
    ShortWith columns (draftDossier s entity scopes cap active kept cut) recent
        ((draftDossier s entity scopes cap active kept cut).truncated || cut') ↔
      jsonChars ((draftDossier s entity scopes cap active recent (cut || cut')).toJson columns) ≤
        maxOutputChars := by
  have marks : ((draftDossier s entity scopes cap active kept cut).truncated || cut') =
      (draftDossier s entity scopes cap active recent (cut || cut')).truncated := Bool.or_assoc _ _ _
  rw [ShortWith, marks]
  exact Iff.rfl

/-- A start of the selected events, shortened by the loop.  Everything is left when the budget and the
loop leave everything, and nothing when the budget leaves nothing or the loop drops even the first
event. -/
theorem shrink_newest_iff {entity : String} {active : List FactRow} {selected all : List EventRow}
    (positive : 0 < cap) (few : selected.length ≤ cap)
    (ends : ∀ k, selected.take k <:+ all ↔ selected.length ≤ k ∨ k = 0 ∨ Constant selected)
    (early : Bool) :
    (Dossier.shrink columns (draftDossier s entity scopes cap active
        (bounded (EventRow.toJson columns) selected cap).1
        (early || (bounded (EventRow.toJson columns) selected cap).2))).recentChanges <:+ all ↔
      DossierSpares columns cap (draftDossier s entity scopes cap active) early selected := by
  by_cases none : selected = []
  · subst none
    have constant : Constant [] := fun a mem => absurd mem List.not_mem_nil
    refine iff_of_true ?_ (.inr (.inr constant))
    rw [shrink_noChanges (by rfl)]
    exact List.nil_suffix
  obtain ⟨k, within, kept, flag, whole, nothing⟩ :=
    @bounded_keeps cap EventRow (EventRow.toJson columns) selected few positive
  obtain ⟨j, fewer, left, short, empty⟩ := @shrink_recentChanges columns
    (draftDossier s entity scopes cap active (bounded (EventRow.toJson columns) selected cap).1
      (early || (bounded (EventRow.toJson columns) selected cap).2))
  have marked : (bounded (EventRow.toJson columns) selected cap).2 = decide (k < selected.length) := by
    rw [Bool.eq_iff_iff, flag, decide_eq_true_iff]
  have recent : (draftDossier s entity scopes cap active
      (bounded (EventRow.toJson columns) selected cap).1
      (early || (bounded (EventRow.toJson columns) selected cap).2)).recentChanges =
        selected.take k := kept
  rw [shortWith_draft, recent] at empty
  rw [recent] at fewer left short
  rw [marked] at empty
  rw [kept, marked] at short left
  have length : (selected.take k).length = k := by rw [List.length_take, Nat.min_eq_left within]
  rw [length] at fewer short empty
  rw [kept, marked, left, List.take_take, Nat.min_eq_left fewer, ends, DossierSpares]
  have filled := List.length_pos_iff.2 none
  refine or_congr ?_ (or_congr ?_ Iff.rfl)
  · rw [← whole]
    by_cases all' : selected.length ≤ k
    · have exact' : k = selected.length := Nat.le_antisymm within all'
      rw [List.take_of_length_le all', decide_eq_false (by omega : ¬ k < selected.length),
        Bool.or_false, exact'] at short
      rw [short]
      constructor
      · rintro (none' | fits)
        · exact absurd none' none
        · exact ⟨all', fits⟩
      · exact fun ⟨_, fits⟩ => .inr fits
    · exact iff_of_false (by omega) fun fits => all' fits.1
  · by_cases zero : k = 0
    · exact iff_of_true (by omega) (.inl ((nothing.1 zero).resolve_left none))
    · have fits : ¬ ¬ Fits (EventRow.toJson columns) (selected.take 1) cap := fun long =>
        zero (nothing.2 (.inr long))
      have some' : ¬ selected.take k = [] := fun none' => by
        rw [none', List.length_nil] at length
        omega
      have cuts : (early || decide (k < selected.length) || decide (1 < k)) =
          (early || decide (1 < selected.length)) := by
        rw [Bool.or_assoc, ← Bool.decide_or]
        congr 2
        exact propext (by omega)
      rw [List.take_take, Nat.min_eq_left (by omega : 1 ≤ k), cuts] at empty
      rw [empty, or_iff_right some', or_iff_right fits, Nat.not_le]

theorem recentChanges_of {d d' : Dossier} (made : d = d') : d.recentChanges = d'.recentChanges := by
  rw [made]

theorem dossier_newest_iff {name : String} {scope : List String} {limit : Int} {d : Dossier}
    {active : List FactRow} (cleaned : projectionScopes scope = .ok scopes)
    (limited : projectionLimit limit = .ok cap)
    (scanned : activeFacts s (some scopes) none projectionScanLimit = .ok active)
    (done : entityDossier julianday columns s name scope limit = .ok d) :
    d.recentChanges <:+
        matchingEvents julianday s scopes (fun e => matchesEntity (strip name) e.fact) ↔
      DossierSpares columns cap (draftDossier s (strip name) scopes cap active)
        (cutEarly julianday s scopes (fun e => matchesEntity (strip name) e.fact) cap)
        (selectedEvents julianday s scopes (fun e => matchesEntity (strip name) e.fact) cap) := by
  obtain ⟨scopes', cap', active', -, -, cleaned', limited', scanned', made⟩ :=
    entityDossier_eq_ok.1 done
  cases cleaned.symm.trans cleaned'
  cases limited.symm.trans limited'
  cases scanned.symm.trans scanned'
  rw [recentChanges_of made, recentEvents, selectEvents_fst, selectEvents_snd]
  exact shrink_newest_iff (projectionLimit_positive limited) length_selectedEvents
    take_selected_suffix_iff _

/-- In every store, what a timeline and what the recent changes of a dossier return ends with the
newest matching event exactly when the character budget, and the loop of a dossier, leave all of
the selected events or none. -/
theorem newest_kept_iff {scope : List String} {limit : Int} (cleaned : projectionScopes scope = .ok scopes)
    (limited : projectionLimit limit = .ok cap) :
    (∀ query result, timeline julianday columns s query scope limit = .ok result →
      (result.events <:+ matchingEvents julianday s scopes (inTimeline (casefold (strip query))) ↔
        BudgetSpares columns cap
          (selectedEvents julianday s scopes (inTimeline (casefold (strip query))) cap))) ∧
    ∀ name d active, activeFacts s (some scopes) none projectionScanLimit = .ok active →
      entityDossier julianday columns s name scope limit = .ok d →
      (d.recentChanges <:+
          matchingEvents julianday s scopes (fun e => matchesEntity (strip name) e.fact) ↔
        DossierSpares columns cap (draftDossier s (strip name) scopes cap active)
          (cutEarly julianday s scopes (fun e => matchesEntity (strip name) e.fact) cap)
          (selectedEvents julianday s scopes (fun e => matchesEntity (strip name) e.fact) cap)) :=
  ⟨fun _ _ done => timeline_newest_iff cleaned limited done,
    fun _ _ _ scanned done => dossier_newest_iff cleaned limited scanned done⟩

/-- Two short notes are both returned. -/
theorem sample_newest_kept :
    ∃ result, timeline some noColumns datedStore "door" ["work"] 100 = .ok result ∧
      result.events <:+
        matchingEvents some datedStore ["work"] (inTimeline (casefold (strip "door"))) := by
  have cleaned : projectionScopes ["work"] = .ok ["work"] := by decide
  have limited : projectionLimit 100 = .ok 100 := by rfl
  obtain ⟨result, done⟩ : ∃ result, timeline some noColumns datedStore "door" ["work"] 100 =
      .ok result :=
    ⟨_, timeline_eq_ok.2 ⟨_, _, by decide, by decide, limited, cleaned, rfl⟩⟩
  have fits : Fits (EventRow.toJson noColumns)
      (selectedEvents some datedStore ["work"] (inTimeline (casefold (strip "door"))) 100) 100 :=
    ⟨by decide +kernel, by decide +kernel⟩
  exact ⟨result, done, ((newest_kept_iff cleaned limited).1 "door" result done).2 (.inl fits)⟩

end Newest

/-! ## Two long notes -/

section LongNotes

/-- A note was written. -/
def noteEvent (key : String) (valid : Required key) (k factId : Nat) : EventRow :=
  ⟨.created, "2026-01-0" ++ key ++ " 00:00:00", Sample.noteRow key valid k factId⟩

def older (k : Nat) : EventRow := noteEvent "1" Sample.first_required k 1

def newer (k : Nat) : EventRow := noteEvent "2" Sample.second_required k 2

theorem chronicle_notes {s : Store} {k k' : Nat} (conflicts : s.conflicts = Table.empty)
    (rows : s.facts.table.rows.Perm [Sample.noteRow "1" Sample.first_required k 1,
      Sample.noteRow "2" Sample.second_required k' 2]) :
    chronicle some s ["work"] = [older k, newer k'] := by
  have perm : (factEvents s ["work"]).Perm [older k, newer k'] := by
    unfold factEvents
    rw [conflicts]
    refine (((rows.filterMap _).append (rows.filterMap _)).append_right _).trans ?_
    exact List.Perm.of_eq rfl
  have sorted : [older k, newer k'].Pairwise fun a b => a.key some ≤ b.key some := by
    refine List.pairwise_pair.2 (le_of_lt (Prod.Lex.toLex_lt_toLex.2 (.inl ?_)))
    exact WithBot.coe_lt_coe.2 (show "2026-01-01 00:00:00" < "2026-01-02 00:00:00" by decide +kernel)
  have distinct := (factEvents_distinguished some s ["work"]).subset perm.symm.subset
  exact sort_unique distinct ((ascending_perm _).trans perm) (ascending_pairwise _) sorted

/-- Of an event only the text of its fact is long. -/
theorem jsonChars_content (columns : FactColumns) (kind : EventKind) (changedAt : String)
    (f : FactRow) (content : String)
    (updated : columns.updatedAt { f with content } = columns.updatedAt { f with content := "" })
    (confidence : columns.confidence { f with content } = columns.confidence { f with content := "" })
    (schema : columns.schemaVersion { f with content } =
      columns.schemaVersion { f with content := "" }) :
    jsonChars ((⟨kind, changedAt, { f with content }⟩ : EventRow).toJson columns) + 2 =
      jsonChars ((⟨kind, changedAt, { f with content := "" }⟩ : EventRow).toJson columns) +
        jsonChars (.str content) := by
  have empty : (Json.quote .unicode "").length = 2 := by rfl
  simp only [EventRow.toJson, projectionFact, jsonChars, Json.dump, Json.dumpMembers,
    List.length_cons, List.length_append, updated, confidence, schema]
  omega

theorem jsonChars_longText (k : Nat) : jsonChars (.str (Sample.longText k)) = k + 3 := by
  have plain : Json.escapeChar .unicode 'x' = ['x'] := by rfl
  have letters : ∀ n, ((List.replicate n 'x').flatMap (Json.escapeChar .unicode)).length = n := by
    intro n
    induction n with
    | zero => rfl
    | succ n ih => rw [List.replicate_succ, List.flatMap_cons, plain, List.length_append, ih,
        List.length_singleton, Nat.add_comm]
  rw [jsonChars, Json.dump, Json.quote, List.length_cons, List.length_append, Sample.longText,
    String.toList_ofList, letters, List.length_singleton]

/-- The event of a note without its text. -/
def blankEvent (key : String) (valid : Required key) (factId : Nat) : EventRow :=
  ⟨.created, "2026-01-0" ++ key ++ " 00:00:00",
    { Sample.noteRow key valid 0 factId with content := "" }⟩

theorem jsonChars_noteEvent {key : String} {valid : Required key} (k factId : Nat)
    (blank : jsonChars ((blankEvent key valid factId).toJson noColumns) = 477) :
    jsonChars ((noteEvent key valid k factId).toJson noColumns) = k + 478 := by
  have size : jsonChars ((noteEvent key valid k factId).toJson noColumns) + 2 =
      jsonChars ((blankEvent key valid factId).toJson noColumns) +
        jsonChars (.str (Sample.longText k)) :=
    jsonChars_content noColumns .created _ (Sample.noteRow key valid k factId) _ rfl rfl rfl
  rw [blank, jsonChars_longText] at size
  omega

theorem notes_match {key : String} {valid : Required key} (k factId : Nat) :
    inTimeline (casefold (strip "door")) (noteEvent key valid k factId) = true := by
  have query : casefold (strip "door") = "door" := by decide
  have parts : " ".intercalate [Sample.longText k, "", "", "", "door"] =
      Sample.longText k ++ "    door" := by
    simp only [String.intercalate_cons_cons, String.intercalate_singleton, String.append_assoc]
    rfl
  have plain : ∀ c ∈ (Sample.longText k ++ "    door").toList, PlainChar c := by
    intro c mem
    rw [String.toList_append] at mem
    rcases List.mem_append.1 mem with mem | mem
    · rw [Sample.mem_longText mem]
      decide
    · have rest : ∀ c ∈ "    door".toList, PlainChar c := by decide
      exact rest c mem
  have text : timelineText (noteEvent key valid k factId).fact = Sample.longText k ++ "    door" :=
    (congrArg casefold parts).trans (casefold_of_plain plain)
  rw [inTimeline, query, text]
  refine decide_eq_true ⟨(Sample.longText k).toList ++ "    ".toList, [], ?_⟩
  rw [String.toList_append, List.append_nil, List.append_assoc]
  rfl

theorem selected_notes {s : Store} {k k' : Nat} (conflicts : s.conflicts = Table.empty)
    (rows : s.facts.table.rows.Perm [Sample.noteRow "1" Sample.first_required k 1,
      Sample.noteRow "2" Sample.second_required k' 2]) :
    selectedEvents some s ["work"] (inTimeline (casefold (strip "door"))) 200 =
      [older k, newer k'] := by
  have wide : 2 - projectionScanLimit = 0 := by
    unfold projectionScanLimit
    rfl
  have both : [older k, newer k'].filter (inTimeline (casefold (strip "door"))) =
      [older k, newer k'] := by
    refine List.filter_eq_self.2 fun e mem => ?_
    rcases List.mem_cons.1 mem with rfl | mem
    · exact notes_match _ _
    · rw [List.mem_singleton.1 mem]
      exact notes_match _ _
  have scanned : scannedEvents some s ["work"] (inTimeline (casefold (strip "door"))) =
      [older k, newer k'] := by
    rw [scannedEvents, chronicle_notes conflicts rows, List.length_cons, List.length_singleton, wide,
      List.drop_zero, both]
  rw [selectedEvents, scanned, Nat.sub_eq_zero_of_le (by simp), List.drop_zero]

/-- The budget leaves the older of two notes when it holds one of them but not both. -/
theorem notes_not_spared {k k' : Nat} (one : 2 + (k + 478) ≤ itemsCharBudget)
    (two : itemsCharBudget < 2 + (k + 478) + (k' + 478)) :
    ¬ BudgetSpares noColumns 200 [older k, newer k'] := by
  have first : jsonChars ((older k).toJson noColumns) = k + 478 :=
    jsonChars_noteEvent k 1 (by decide +kernel)
  have second : jsonChars ((newer k').toJson noColumns) = k' + 478 :=
    jsonChars_noteEvent k' 2 (by decide +kernel)
  rintro (fits | tooLong | same)
  · have size := fits.2
    simp only [cost, itemCost, first, second] at size
    omega
  · refine tooLong ⟨by simp, ?_⟩
    simp only [List.take_succ_cons, List.take_zero, cost, itemCost, first, Nat.lt_irrefl, if_false]
    omega
  · have times := congrArg EventRow.changedAt
      (same _ List.mem_cons_self _ (List.mem_cons_of_mem _ List.mem_cons_self))
    exact absurd times (show "2026-01-01 00:00:00" ≠ "2026-01-02 00:00:00" by simp)

/-- Of two notes of some thirty thousand letters about the door, the timeline returns only the older. -/
theorem newest_note_dropped :
    ∃ s, Reached Sample.host (fun _ _ => True) s ∧
      ∃ result, timeline some noColumns s "door" ["work"] 200 = .ok result ∧
        ¬ result.events <:+ matchingEvents some s ["work"] (inTimeline (casefold (strip "door"))) := by
  obtain ⟨s, reached, conflicts, rows⟩ := @notes_reached 30000 30001 (by decide)
  have cleaned : projectionScopes ["work"] = .ok ["work"] := by decide
  have limited : projectionLimit 200 = .ok 200 := by rfl
  obtain ⟨result, done⟩ : ∃ result, timeline some noColumns s "door" ["work"] 200 = .ok result :=
    ⟨_, timeline_eq_ok.2 ⟨_, _, by decide, by decide, limited, cleaned, rfl⟩⟩
  refine ⟨s, reached, result, done, fun ends => ?_⟩
  have spared := (timeline_newest_iff cleaned limited done).1 ends
  rw [selected_notes conflicts rows] at spared
  exact notes_not_spared (by decide) (by decide) spared

end LongNotes

end Enfold.Laws
