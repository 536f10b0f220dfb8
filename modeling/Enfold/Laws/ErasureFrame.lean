/-
# Laws.ErasureFrame -- which lifecycles an erasure touches

Besides the erased fact, an erasure may end the insights that cite it and release the last
member of a conflict it empties.  The clean-up loop runs over every conflict the fact was
ever a member of, resolved ones included, and releases the last member of those too, whatever
its `conflict_group` says: that it is in another conflict by now, or that it lost this one.  And an insight that is itself a member of an open
conflict leaves that conflict with a member that cannot be superseded.

`ErasureSafe` names the two situations.  Where no erasure of a run meets one of them, the
slots stay in order (`EraseEffect.slotSound`), every erasure keeps to its frame and every
conflict it does not concern can still be resolved to each of its members
(`erasures_keep_frame`).
-/
import Enfold.Laws.SlotRuns

namespace Enfold.Laws

open Enfold.Theory Enfold.Model

set_option autoImplicit false

/-! ## Insights -/

/-- An active insight that cites the fact. -/
def CitesActively (factId : Nat) (r : FactRow) : Prop :=
  r.category = "insight" ∧ r.invalidAt = none ∧
    match citedFacts r.tags with
    | .ok ids => factId ∈ ids
    | .error _ => False

instance (factId : Nat) (r : FactRow) : Decidable (CitesActively factId r) :=
  match cited : citedFacts r.tags with
  | .ok ids =>
      decidable_of_iff (r.category = "insight" ∧ r.invalidAt = none ∧ factId ∈ ids)
        (by rw [CitesActively, cited])
  | .error _ => isFalse (by rw [CitesActively, cited]; exact fun active => active.2.2)

/-- The invalidated insights cite the fact, and are not the fact itself, whose tags are
gone by then. -/
theorem EraseEffect.insight {host : Host} {call : EraseCall} {s s' : Store} {row : FactRow}
    {insights : List Nat} (effect : EraseEffect host call s s' row insights) {id : Nat}
    (mem : id ∈ insights) :
    ∃ r ∈ s.facts, r.factId = id ∧ r.factId ≠ call.factId ∧ CitesActively call.factId r := by
  obtain ⟨scrubbed, map, cited⟩ := effect.cited
  obtain ⟨entries, collected, result⟩ := bind_eq_ok.1 cited
  cases pure_eq_ok.1 result
  obtain ⟨⟨id', ids⟩, filtered, rfl⟩ := List.mem_map.1 mem
  obtain ⟨entry, cites⟩ := List.mem_filter.1 filtered
  obtain ⟨r', selected, found⟩ := mem_of_mapM_eq_ok collected _ entry
  obtain ⟨ids', read, found⟩ := bind_eq_ok.1 found
  cases pure_eq_ok.1 found
  obtain ⟨memR', category, active⟩ := Table.mem_select.1 selected
  obtain ⟨r, memR, rfl⟩ := (map r').1 memR'
  have citesFact : call.factId ∈ ids := by simpa using cites
  by_cases here : r.factId = call.factId
  · rw [scrubbedRow, if_pos here] at read
    cases read
    cases citesFact
  · rw [scrubbedRow, if_neg here] at category active read
    refine ⟨r, memR, by simp, here, category, active, ?_⟩
    rw [read]
    exact citesFact

/-! ## Members -/

/-- The members of a conflict besides the fact. -/
def otherMembers (s : Store) (conflictId : String) (factId : Nat) : List Nat :=
  remainingMembers (leaveConflicts s factId) conflictId

theorem mem_otherMembers {s : Store} {conflictId : String} {factId id : Nat} :
    id ∈ otherMembers s conflictId factId ↔ ⟨conflictId, id⟩ ∈ s.conflictMembers ∧ id ≠ factId := by
  unfold otherMembers remainingMembers leaveConflicts
  constructor
  · intro mem
    obtain ⟨m, selected, rfl⟩ := List.mem_map.1 mem
    obtain ⟨left, rfl⟩ := Table.mem_select.1 selected
    exact Table.mem_delete.1 left
  · rintro ⟨mem, other⟩
    exact List.mem_map.2 ⟨_, Table.mem_select.2 ⟨Table.mem_delete.2 ⟨mem, other⟩, rfl⟩, rfl⟩

theorem otherMembers_nodup (s : Store) (conflictId : String) (factId : Nat) :
    (otherMembers s conflictId factId).Nodup := by
  refine List.Nodup.map_on ?_ (Table.nodup_select _ _)
  intro m mem m' mem' same
  obtain ⟨inTable, here⟩ := Table.mem_select.1 mem
  obtain ⟨inTable', here'⟩ := Table.mem_select.1 mem'
  exact Table.eq_of_key inTable inTable' (Prod.ext (here.trans here'.symm) same)

theorem mem_conflictsOf {s : Store} {factId : Nat} {conflictId : String} :
    conflictId ∈ conflictsOf s factId ↔ ⟨conflictId, factId⟩ ∈ s.conflictMembers := by
  unfold conflictsOf
  constructor
  · intro mem
    obtain ⟨m, selected, rfl⟩ := List.mem_map.1 mem
    obtain ⟨inTable, rfl⟩ := Table.mem_select.1 selected
    exact inTable
  · exact fun mem => List.mem_map.2 ⟨_, Table.mem_select.2 ⟨mem, rfl⟩, rfl⟩

/-- The members the clean-up loop releases. -/
def released (s : Store) (factId : Nat) : List Nat :=
  lastMembers (leaveConflicts s factId) (conflictsOf s factId)

/-- A released fact is the one other member of a conflict of the fact. -/
theorem mem_released {s : Store} {factId id : Nat} :
    id ∈ released s factId ↔ ∃ conflictId, ⟨conflictId, factId⟩ ∈ s.conflictMembers ∧
      otherMembers s conflictId factId = [id] := by
  unfold released lastMembers
  constructor
  · intro mem
    obtain ⟨conflictId, filtered, left⟩ := List.mem_flatMap.1 mem
    obtain ⟨ofFact, settles⟩ := List.mem_filter.1 filtered
    have short : (otherMembers s conflictId factId).length ≤ 1 := of_decide_eq_true settles
    have one : (otherMembers s conflictId factId).length = 1 :=
      Nat.le_antisymm short (List.length_pos_of_mem left)
    obtain ⟨x, only⟩ := List.length_eq_one_iff.1 one
    have same : id = x := by
      have inOthers : id ∈ otherMembers s conflictId factId := left
      simpa [only] using inOthers
    exact ⟨conflictId, mem_conflictsOf.1 ofFact, by rw [only, same]⟩
  · rintro ⟨conflictId, ofFact, only⟩
    refine List.mem_flatMap.2 ⟨conflictId, List.mem_filter.2 ⟨mem_conflictsOf.2 ofFact, ?_⟩, ?_⟩
    · have short : (otherMembers s conflictId factId).length ≤ 1 := by simp [only]
      exact decide_eq_true short
    · show id ∈ otherMembers s conflictId factId
      simp [only]

/-- Nothing but the conflicts at hand is disturbed: the fact is not one of the last two
members of a resolved conflict whose other member has its `conflict_group` set, and no active
insight that cites it is in a conflict that stays open. -/
structure ErasureSafe (s : Store) (factId : Nat) : Prop where
  former : ∀ c ∈ s.conflicts, ¬ c.Unresolved → factId ∈ conflictMemberIds s c.conflictId →
    ∀ r ∈ s.facts, otherMembers s c.conflictId factId = [r.factId] → r.conflictGroup = none
  insights : ∀ r ∈ s.facts, CitesActively factId r → r.factId ≠ factId →
    ∀ c ∈ s.conflicts, c.Unresolved → r.factId ∈ conflictMemberIds s c.conflictId →
      (otherMembers s c.conflictId factId).length ≤ 1

/-! ## Rows and conflicts after the erasure -/

section Effect

variable {host : Host} {call : EraseCall} {s s' : Store} {row : FactRow} {insights : List Nat}

/-- The current rows of a slot after an erasure. -/
theorem EraseEffect.mem_currentRows (effect : EraseEffect host call s s' row insights) {k : Slot}
    {x' : FactRow} :
    x' ∈ currentRows s'.facts k ↔ ∃ x ∈ currentRows s.facts k, x.factId ≠ call.factId ∧
      x.factId ∉ insights ∧ ungroupedRow (released s call.factId) x = x' := by
  have keepsSlot : ∀ ids r, (ungroupedRow ids r).InSlot k ↔ r.InSlot k := by
    intro ids r
    unfold ungroupedRow
    split <;> exact Iff.rfl
  have keepsCurrent : ∀ ids r, (ungroupedRow ids r).Current ↔ r.Current := by
    intro ids r
    unfold ungroupedRow
    split <;> exact Iff.rfl
  constructor
  · intro mem
    obtain ⟨inFacts, inSlot, current⟩ := Model.mem_currentRows.1 mem
    obtain ⟨x, memX, rfl⟩ := (effect.facts x').1 inFacts
    unfold erasedRow at inSlot current
    rw [keepsSlot] at inSlot
    rw [keepsCurrent] at current
    have uncited : x.factId ∉ insights := by
      intro cited
      rw [invalidatedRow, if_pos (by simpa using cited)] at current
      cases current.1
    rw [invalidatedRow, if_neg (by simpa using uncited)] at inSlot current
    have other : x.factId ≠ call.factId := by
      intro here
      rw [scrubbedRow, if_pos here] at inSlot
      simp [FactRow.InSlot] at inSlot
    rw [scrubbedRow, if_neg other] at inSlot current
    refine ⟨x, Model.mem_currentRows.2 ⟨memX, inSlot, current⟩, other, uncited, ?_⟩
    rw [erasedRow, scrubbedRow, if_neg other, invalidatedRow, if_neg uncited]
    rfl
  · rintro ⟨x, here, other, uncited, rfl⟩
    obtain ⟨memX, inSlot, current⟩ := Model.mem_currentRows.1 here
    refine Model.mem_currentRows.2 ⟨(effect.facts _).2 ⟨x, memX, ?_⟩, (keepsSlot _ _).2 inSlot,
      (keepsCurrent _ _).2 current⟩
    rw [erasedRow, scrubbedRow, if_neg other, invalidatedRow, if_neg uncited]
    rfl

/-- An open conflict after an erasure was open before and was not settled by it. -/
theorem EraseEffect.mem_open (effect : EraseEffect host call s s' row insights) {c : ConflictRow}
    (unresolved : c.Unresolved) :
    c ∈ s'.conflicts ↔ c ∈ s.conflicts ∧
      ¬ (⟨c.conflictId, call.factId⟩ ∈ s.conflictMembers ∧
        (otherMembers s c.conflictId call.factId).length ≤ 1) := by
  constructor
  · intro mem
    obtain ⟨c₀, mem₀, rfl⟩ := (effect.conflicts c).1 mem
    unfold cleanedConflict at unresolved ⊢
    split at unresolved
    · cases unresolved
    · rename_i passed
      rw [if_neg passed]
      exact ⟨mem₀, fun settled => passed ⟨mem_conflictsOf.2 settled.1, settled.2, unresolved⟩⟩
  · rintro ⟨mem, stays⟩
    refine (effect.conflicts c).2 ⟨c, mem, if_neg ?_⟩
    exact fun settled => stays ⟨mem_conflictsOf.1 settled.1, settled.2.1⟩

theorem EraseEffect.mem_members (effect : EraseEffect host call s s' row insights)
    {m : MemberRow} : m ∈ s'.conflictMembers ↔ m ∈ s.conflictMembers ∧ m.factId ≠ call.factId := by
  rw [effect.members]
  exact Table.mem_delete

/-! ## Slots -/

/-- A released fact of a safe erasure is in no conflict, or shares an open one with the
erased fact. -/
theorem released_cases (sound : SlotSound s) (safe : ErasureSafe s call.factId) {r : FactRow}
    (mem : r ∈ s.facts) (free : r.factId ∈ released s call.factId) :
    r.conflictGroup = none ∨ ∃ c ∈ s.conflicts, c.Unresolved ∧
      ⟨c.conflictId, call.factId⟩ ∈ s.conflictMembers ∧
      otherMembers s c.conflictId call.factId = [r.factId] := by
  obtain ⟨conflictId, ofFact, only⟩ := mem_released.1 free
  obtain ⟨c, memC, rfl⟩ := sound.known _ ofFact
  by_cases unresolved : c.Unresolved
  · exact .inr ⟨c, memC, unresolved, ofFact, only⟩
  · exact .inl (safe.former c memC unresolved (mem_conflictMemberIds.2 ofFact) r mem only)

/-- A conflict that the erasure leaves open keeps its other members as they were: two open conflicts
of one fact are about the same slot. -/
theorem EraseEffect.open_rows (effect : EraseEffect host call s s' row insights)
    (sound : SlotSound s) (safe : ErasureSafe s call.factId) {c : ConflictRow}
    (mem : c ∈ s.conflicts) (unresolved : c.Unresolved)
    (several : 2 ≤ (otherMembers s c.conflictId call.factId).length) {x : FactRow}
    (here : x ∈ currentRows s.facts c.slot) (other : x.factId ≠ call.factId) :
    x.factId ∉ insights ∧ ungroupedRow (released s call.factId) x = x := by
  obtain ⟨onlyOpen, -, grouped, members⟩ := (sound.slots c.slot).disputed_of_open mem rfl unresolved
  obtain ⟨memX, inSlot, -⟩ := Model.mem_currentRows.1 here
  have member : ⟨c.conflictId, x.factId⟩ ∈ s.conflictMembers := (members _).2 ⟨x, here, rfl⟩
  constructor
  · intro cited
    obtain ⟨r, memR, idR, otherR, cites⟩ := effect.insight cited
    obtain rfl : r = x := Facts.eq_of_id memR memX idR
    have short := safe.insights r memR cites otherR c mem unresolved (mem_conflictMemberIds.2 member)
    omega
  · refine if_neg fun free => ?_
    rcases released_cases sound safe memX free with ungrouped | ⟨c', mem', unresolved', ofFact, only⟩
    · rw [grouped x here] at ungrouped
      cases ungrouped
    · have inOthers : x.factId ∈ otherMembers s c'.conflictId call.factId := by simp [only]
      have there := sound.member_row mem' unresolved' memX (mem_otherMembers.1 inOthers).1
      have slot : c'.slot = c.slot := (Model.mem_currentRows.1 there).2.1.unique inSlot
      rw [onlyOpen c' mem' slot unresolved'] at only
      rw [only] at several
      simp at several

/-- A conflict that the erasure does not settle has two members besides the fact. -/
theorem SlotSound.many_others (sound : SlotSound s) {c : ConflictRow} (mem : c ∈ s.conflicts)
    (unresolved : c.Unresolved) {factId : Nat}
    (stays : ¬ (⟨c.conflictId, factId⟩ ∈ s.conflictMembers ∧
      (otherMembers s c.conflictId factId).length ≤ 1)) :
    2 ≤ (otherMembers s c.conflictId factId).length := by
  obtain ⟨-, several, -, members⟩ := (sound.slots c.slot).disputed_of_open mem rfl unresolved
  by_cases ofFact : ⟨c.conflictId, factId⟩ ∈ s.conflictMembers
  · have long : ¬ (otherMembers s c.conflictId factId).length ≤ 1 := fun short => stays ⟨ofFact, short⟩
    omega
  · have all : ((currentRows s.facts c.slot).map FactRow.factId) ⊆
        otherMembers s c.conflictId factId := by
      intro id listed
      obtain ⟨x, here, rfl⟩ := List.mem_map.1 listed
      have member := (members x.factId).2 ⟨x, here, rfl⟩
      exact mem_otherMembers.2 ⟨member, fun same => ofFact (same ▸ member)⟩
    have distinct : ((currentRows s.facts c.slot).map FactRow.factId).Nodup :=
      List.Nodup.map_on (fun x hereX y hereY same => Facts.eq_of_id
        (Model.mem_currentRows.1 hereX).1 (Model.mem_currentRows.1 hereY).1 same)
        (currentRows_nodup _ _)
    have bound := (distinct.subperm all).length_le
    rw [List.length_map] at bound
    omega

/-- The slot of a conflict that stays open loses the erased fact and nothing else. -/
theorem EraseEffect.mem_currentRows_open (effect : EraseEffect host call s s' row insights)
    (sound : SlotSound s) (safe : ErasureSafe s call.factId) {c : ConflictRow}
    (mem : c ∈ s.conflicts) (unresolved : c.Unresolved)
    (stays : ¬ (⟨c.conflictId, call.factId⟩ ∈ s.conflictMembers ∧
      (otherMembers s c.conflictId call.factId).length ≤ 1)) (x : FactRow) :
    x ∈ currentRows s'.facts c.slot ↔ x ∈ currentRows s.facts c.slot ∧ x.factId ≠ call.factId := by
  have many := sound.many_others mem unresolved stays
  rw [effect.mem_currentRows]
  constructor
  · rintro ⟨y, here, other, -, rfl⟩
    rw [(effect.open_rows sound safe mem unresolved many here other).2]
    exact ⟨here, other⟩
  · rintro ⟨here, other⟩
    obtain ⟨uncited, kept⟩ := effect.open_rows sound safe mem unresolved many here other
    exact ⟨x, here, other, uncited, kept⟩

/-- The slot of a conflict that stays open is disputed about it as before. -/
theorem EraseEffect.slotInv_open (effect : EraseEffect host call s s' row insights)
    (sound : SlotSound s) (safe : ErasureSafe s call.factId) {c : ConflictRow}
    (mem : c ∈ s.conflicts) (unresolved : c.Unresolved)
    (stays : ¬ (⟨c.conflictId, call.factId⟩ ∈ s.conflictMembers ∧
      (otherMembers s c.conflictId call.factId).length ≤ 1)) : SlotInv s' c.slot := by
  obtain ⟨onlyOpen, -, grouped, members⟩ := (sound.slots c.slot).disputed_of_open mem rfl unresolved
  have rows := effect.mem_currentRows_open sound safe mem unresolved stays
  have listed : otherMembers s c.conflictId call.factId ⊆
      (currentRows s'.facts c.slot).map FactRow.factId := by
    intro id inOthers
    obtain ⟨member, other⟩ := mem_otherMembers.1 inOthers
    obtain ⟨x, here, rfl⟩ := (members id).1 member
    exact List.mem_map_of_mem ((rows x).2 ⟨here, other⟩)
  have several : 2 ≤ (currentRows s'.facts c.slot).length := by
    have many := sound.many_others mem unresolved stays
    have bound := ((otherMembers_nodup _ _ _).subperm listed).length_le
    rw [List.length_map] at bound
    omega
  refine .disputed c ((effect.mem_open unresolved).2 ⟨mem, stays⟩) rfl unresolved
    (fun c' mem' slot' unresolved' => ?_) several (fun x there => grouped x ((rows x).1 there).1)
    fun id => ?_
  · exact onlyOpen c' ((effect.mem_open unresolved').1 mem').1 slot' unresolved'
  · rw [effect.mem_members, members]
    constructor
    · rintro ⟨⟨x, here, rfl⟩, other⟩
      exact ⟨x, (rows x).2 ⟨here, other⟩, rfl⟩
    · rintro ⟨x, there, rfl⟩
      obtain ⟨here, other⟩ := (rows x).1 there
      exact ⟨⟨x, here, rfl⟩, other⟩

/-- A slot whose conflict the erasure closes has at most one fact left; any other stays as it was,
without the erased fact. -/
theorem EraseEffect.slotInv (effect : EraseEffect host call s s' row insights)
    (sound : SlotSound s) (safe : ErasureSafe s call.factId) (k : Slot) : SlotInv s' k := by
  cases sound.slots k with
  | settled atMostOne ungrouped quiet =>
      refine .of_ungrouped (fun x' mem => ?_) fun c mem slot unresolved => ?_
      · obtain ⟨x, here, -, -, rfl⟩ := effect.mem_currentRows.1 mem
        unfold ungroupedRow
        split
        · rfl
        · exact ungrouped x here
      · exact quiet c ((effect.mem_open unresolved).1 mem).1 slot unresolved
  | disputed c mem slot unresolved onlyOpen several grouped members =>
      subst slot
      by_cases settles : ⟨c.conflictId, call.factId⟩ ∈ s.conflictMembers ∧
          (otherMembers s c.conflictId call.factId).length ≤ 1
      · refine .of_ungrouped (fun x' there => ?_) fun c' mem' slot' unresolved' => ?_
        · obtain ⟨x, here, other, -, rfl⟩ := effect.mem_currentRows.1 there
          have inOthers : x.factId ∈ otherMembers s c.conflictId call.factId :=
            mem_otherMembers.2 ⟨(members _).2 ⟨x, here, rfl⟩, other⟩
          obtain ⟨y, only⟩ := List.length_eq_one_iff.1
            (Nat.le_antisymm settles.2 (List.length_pos_of_mem inOthers))
          have same : x.factId = y := by simpa [only] using inOthers
          rw [ungroupedRow, if_pos (mem_released.2 ⟨c.conflictId, settles.1, by rw [only, same]⟩)]
        · obtain ⟨before, stays⟩ := (effect.mem_open unresolved').1 mem'
          rw [onlyOpen c' before slot' unresolved'] at stays
          exact stays settles
      · exact effect.slotInv_open sound safe mem unresolved settles

/-- A safe erasure keeps the slots in order. -/
theorem EraseEffect.slotSound (effect : EraseEffect host call s s' row insights)
    (sound : SlotSound s) (safe : ErasureSafe s call.factId) : SlotSound s' where
  slots := effect.slotInv sound safe
  known m mem := by
    obtain ⟨c, memC, same⟩ := sound.known m (effect.mem_members.1 mem).1
    exact ⟨_, effect.conflicts.of_mem memC, by simpa using same⟩
  audited x mem := by
    have before : s'.conflictResolutions = s.conflictResolutions := by rw [effect.frame]
    rw [before] at mem
    obtain ⟨c, memC, same, resolved⟩ := sound.audited x mem
    refine ⟨c, (effect.conflicts c).2 ⟨c, memC, if_neg ?_⟩, same, resolved⟩
    exact fun settled => resolved settled.2.2

end Effect

/-! ## The frame -/

/-- The lifecycle columns agree. -/
def SameLifecycle (r r' : FactRow) : Prop :=
  r'.invalidAt = r.invalidAt ∧ r'.supersededBy = r.supersededBy ∧ r'.memoryKind = r.memoryKind ∧
    r'.subjectKey = r.subjectKey ∧ r'.predicateKey = r.predicateKey ∧
    r'.conflictGroup = r.conflictGroup

instance (r r' : FactRow) : Decidable (SameLifecycle r r') :=
  inferInstanceAs (Decidable (_ ∧ _ ∧ _ ∧ _ ∧ _ ∧ _))

/-- Both facts are members of a conflict that is open. -/
def SharesConflict (s : Store) (factId id : Nat) : Prop :=
  ∃ c ∈ s.conflicts.rows, c.Unresolved ∧ factId ∈ conflictMemberIds s c.conflictId ∧
    id ∈ conflictMemberIds s c.conflictId

instance (s : Store) (factId id : Nat) : Decidable (SharesConflict s factId id) :=
  inferInstanceAs (Decidable (∃ c ∈ s.conflicts.rows, _))

/-- What an erasure of the fact may do to the lifecycles of a store. -/
structure FrameKept (s s' : Store) (factId : Nat) : Prop where
  /-- Only the fact, active insights that cite it and facts it shares an open conflict with
  change. -/
  lifecycle : ∀ r ∈ s.facts, ∀ r' ∈ s'.facts, r'.factId = r.factId → ¬ SameLifecycle r r' →
    r.factId = factId ∨ CitesActively factId r ∨ SharesConflict s factId r.factId
  /-- The members of any other open conflict keep their group. -/
  groups : ∀ c ∈ s.conflicts, c.Unresolved → factId ∉ conflictMemberIds s c.conflictId →
    ∀ r ∈ s.facts, r.factId ∈ conflictMemberIds s c.conflictId →
      ∃ r' ∈ s'.facts, r'.factId = r.factId ∧ r'.conflictGroup = r.conflictGroup
  /-- It keeps its members, and can be resolved to each of them. -/
  resolvable : ∀ c ∈ s.conflicts, c.Unresolved → factId ∉ conflictMemberIds s c.conflictId →
    (∀ id, id ∈ conflictMemberIds s' c.conflictId ↔ id ∈ conflictMemberIds s c.conflictId) ∧
      ∀ call : ResolveCall, call.conflictId = c.conflictId →
        call.resolutionFactId ∈ conflictMemberIds s' c.conflictId → ResolveArgs call s' →
        ∃ s'' resolution, call.apply s' = .ok (s'', resolution) ∧
          ResolvedTo s' s'' call.conflictId call.resolutionFactId

theorem erasedRow_of_untouched {tick : ErasureTick} {factId : Nat} {insights ungrouped : List Nat}
    {r : FactRow} (other : r.factId ≠ factId) (uncited : r.factId ∉ insights)
    (free : r.factId ∈ ungrouped → r.conflictGroup = none) :
    erasedRow tick factId insights ungrouped r = r := by
  rw [erasedRow, scrubbedRow, if_neg other, invalidatedRow, if_neg uncited, ungroupedRow]
  split
  · rename_i listed
    rw [← free listed]
  · rfl

/-- An open conflict of a sound store resolves to each of its members. -/
theorem SlotSound.resolves {s : Store} (sound : SlotSound s) {c : ConflictRow}
    (mem : c ∈ s.conflicts) (unresolved : c.Unresolved) {call : ResolveCall}
    (same : call.conflictId = c.conflictId)
    (member : call.resolutionFactId ∈ conflictMemberIds s c.conflictId)
    (args : ResolveArgs call s) :
    ∃ s' resolution, call.apply s = .ok (s', resolution) ∧
      ResolvedTo s s' call.conflictId call.resolutionFactId := by
  obtain ⟨⟨s', resolution⟩, done⟩ := resolve_ok sound ⟨c, mem, same.symm, unresolved⟩
    (same ▸ member) args
  exact ⟨s', resolution, done, (resolve_effect done).resolvedTo sound⟩

theorem FrameKept.refl {s : Store} (sound : SlotSound s) (factId : Nat) : FrameKept s s factId where
  lifecycle r mem r' mem' same changed := by
    rw [Facts.eq_of_id mem' mem same] at changed
    exact absurd ⟨rfl, rfl, rfl, rfl, rfl, rfl⟩ changed
  groups c _ _ _ r mem _ := ⟨r, mem, rfl, rfl⟩
  resolvable c mem unresolved _ :=
    ⟨fun _ => Iff.rfl, fun _ same member args => sound.resolves mem unresolved same member args⟩

theorem EraseEffect.frameKept {host : Host} {call : EraseCall} {s s' : Store} {row : FactRow}
    {insights : List Nat} (effect : EraseEffect host call s s' row insights) (sound : SlotSound s)
    (safe : ErasureSafe s call.factId) : FrameKept s s' call.factId := by
  have open' : ∀ c : ConflictRow, call.factId ∉ conflictMemberIds s c.conflictId →
      ¬ (⟨c.conflictId, call.factId⟩ ∈ s.conflictMembers ∧
        (otherMembers s c.conflictId call.factId).length ≤ 1) :=
    fun c outside settles => outside (mem_conflictMemberIds.2 settles.1)
  refine { lifecycle := ?_, groups := ?_, resolvable := ?_ }
  · intro r mem r' mem' same changed
    by_contra outside
    obtain ⟨other, outside⟩ := not_or.1 outside
    obtain ⟨silent, apart⟩ := not_or.1 outside
    obtain ⟨r₀, mem₀, rfl⟩ := (effect.facts r').1 mem'
    obtain rfl : r₀ = r := Facts.eq_of_id mem₀ mem (by simpa using same)
    refine changed ?_
    rw [erasedRow_of_untouched other]
    · exact ⟨rfl, rfl, rfl, rfl, rfl, rfl⟩
    · intro cited
      obtain ⟨x, memX, idX, -, cites⟩ := effect.insight cited
      rw [Facts.eq_of_id memX mem idX] at cites
      exact silent cites
    · intro free
      rcases released_cases sound safe mem free with ungrouped | ⟨c, memC, unresolved, ofFact, only⟩
      · exact ungrouped
      · have inOthers : r₀.factId ∈ otherMembers s c.conflictId call.factId := by simp [only]
        exact absurd ⟨c, memC, unresolved, mem_conflictMemberIds.2 ofFact,
          mem_conflictMemberIds.2 (mem_otherMembers.1 inOthers).1⟩ apart
  · intro c memC unresolved outside r mem member
    have here := sound.member_row memC unresolved mem (mem_conflictMemberIds.1 member)
    have other : r.factId ≠ call.factId := fun same => outside (same ▸ member)
    have there := (effect.mem_currentRows_open sound safe memC unresolved (open' c outside) r).2
      ⟨here, other⟩
    exact ⟨r, (Model.mem_currentRows.1 there).1, rfl, rfl⟩
  · intro c memC unresolved outside
    have memC' := (effect.mem_open unresolved).2 ⟨memC, open' c outside⟩
    refine ⟨fun id => ?_, fun _ same member args =>
      (effect.slotSound sound safe).resolves memC' unresolved same member args⟩
    rw [mem_conflictMemberIds, mem_conflictMemberIds, effect.mem_members]
    refine ⟨And.left, fun member => ⟨member, fun same => outside ?_⟩⟩
    exact mem_conflictMemberIds.2 (same ▸ member)

/-! ## Runs -/

/-- The erasures of a run are safe; nothing is asked of the other operations. -/
def SafelyErases (op : Op) (s : Store) : Prop := ∀ call, op = .erase call → ErasureSafe s call.factId

theorem step_slotSound_of_safe {host : Host} {op : Op} {s : Store} (safe : SafelyErases op s)
    (sound : SlotSound s) : SlotSound (step host op s) := by
  by_cases erases : op.Erases
  · cases op with
    | erase call =>
        refine commit_induction sound fun s' report done => ?_
        obtain ⟨row, insights, effect⟩ := erase_effect done
        exact effect.slotSound sound (safe call rfl)
    | _ => cases erases
  · exact step_slotSound erases sound

/-- In every store that a run with safe erasures reaches, a safe erasure keeps to its frame,
and every open conflict it does not concern can still be resolved to each of its members. -/
theorem erasures_keep_frame {host : Host} {s : Store} (reached : Reached host SafelyErases s)
    (call : EraseCall) (safe : ErasureSafe s call.factId) :
    FrameKept s (step host (.erase call) s) call.factId := by
  have sound : SlotSound s :=
    reached.induction SlotSound.empty fun _ _ safe sound => step_slotSound_of_safe safe sound
  refine commit_induction (P := fun s' => FrameKept s s' call.factId)
    (FrameKept.refl sound call.factId) fun s' report done => ?_
  obtain ⟨row, insights, effect⟩ := erase_effect done
  exact effect.frameKept sound safe

/-- Erasing one side of the sample dispute settles it. -/
theorem sample_erasure_keeps_frame :
    FrameKept (run (step Sample.host) Sample.dispute Store.empty)
      (run (step Sample.host) (Sample.dispute ++ [.erase Sample.erasure]) Store.empty) 1 := by
  have opened : ∀ c ∈ (run (step Sample.host) Sample.dispute Store.empty).conflicts.rows,
      c.Unresolved := by decide +kernel
  have silent : ∀ r ∈ (run (step Sample.host) Sample.dispute Store.empty).facts.table.rows,
      ¬ CitesActively 1 r := by decide +kernel
  rw [run_append]
  refine erasures_keep_frame ⟨Sample.dispute, ⟨?_, ?_, trivial⟩, rfl⟩ Sample.erasure ⟨?_, ?_⟩
  · intro call same
    cases same
  · intro call same
    cases same
  · exact fun c mem resolved => absurd (opened c mem) resolved
  · exact fun r mem cites => absurd cites (silent r mem)

/-- A third value for the slot of the sample dispute. -/
def green : WriteCall :=
  ⟨Sample.service, Sample.tick "4", Sample.context "agent-c", Sample.request "the door is green",
    some (Sample.candidate "the door is green" (some "green"))⟩

/-- The winner of a resolved conflict is disputed again. -/
def disputedAgain : List Op := Sample.dispute ++ [.resolve sampleResolution, .write green]

/-- Erasing the loser of the first conflict takes the group from the fact that is in the
second one, which then cannot be resolved to it. -/
theorem sample_erasure_breaks_frame :
    ¬ FrameKept (run (step Sample.host) disputedAgain Store.empty)
      (run (step Sample.host) (disputedAgain ++ [.erase Sample.erasure]) Store.empty) 1 := by
  intro kept
  have lost : ∃ c ∈ (run (step Sample.host) disputedAgain Store.empty).conflicts.rows,
      c.Unresolved ∧
      1 ∉ conflictMemberIds (run (step Sample.host) disputedAgain Store.empty) c.conflictId ∧
      ∃ r ∈ (run (step Sample.host) disputedAgain Store.empty).facts.table.rows,
        r.factId ∈ conflictMemberIds (run (step Sample.host) disputedAgain Store.empty)
          c.conflictId ∧
        ∀ r' ∈ (run (step Sample.host) (disputedAgain ++ [.erase Sample.erasure])
            Store.empty).facts.table.rows,
          r'.factId = r.factId → r'.conflictGroup ≠ r.conflictGroup := by decide +kernel
  obtain ⟨c, memC, unresolved, outside, r, mem, member, changed⟩ := lost
  obtain ⟨r', mem', same, group⟩ := kept.groups c memC unresolved outside r mem member
  exact changed r' mem' same group

end Enfold.Laws
