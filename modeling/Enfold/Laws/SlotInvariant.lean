/-
# Laws.SlotInvariant -- every slot is settled or openly disputed

`SlotInv s k` is the state-slot invariant: the slot holds at most one current fact, outside
every conflict and with none open, or at least two, which are exactly the members of the
one open conflict of the slot.

A step touches the rows of one slot.  `SlotInv.frame` carries the invariant over for the
others; for the slot itself the cases of `StateEffect`, `UntypedEffect` and `ResolveEffect`
re-establish it.  `SlotSound` adds what the cases need of the conflict tables, and is kept
by every write and every resolution.
-/
import Enfold.Laws.ResolveEffect

namespace Enfold.Laws

open Enfold.Theory Enfold.Model

set_option autoImplicit false

/-! ## Rows of a slot -/

/-- The current rows of a slot are determined by which rows they are. -/
theorem currentRows_congr {facts facts' : Facts} {k : Slot}
    (same : ∀ r, r ∈ currentRows facts' k ↔ r ∈ currentRows facts k) :
    currentRows facts' k = currentRows facts k := by
  have perm : (currentRows facts' k).Perm (currentRows facts k) :=
    (List.perm_ext_iff_of_nodup (currentRows_nodup _ _) (currentRows_nodup _ _)).2 same
  refine perm.eq_of_pairwise (fun r r' mem mem' le ge => ?_)
    (List.pairwise_insertionSort _ _) (List.pairwise_insertionSort _ _)
  exact Facts.eq_of_id (mem_currentRows.1 ((same r).1 mem)).1 (mem_currentRows.1 mem').1
    (Nat.le_antisymm le ge)

/-- The current rows of a slot after a patch. -/
theorem mem_currentRows_patch {facts facts' : Facts} {patch : List FactRow} {k : Slot} {r : FactRow}
    (patched : FactPatch facts facts' patch) :
    r ∈ currentRows facts' k ↔
      (r ∈ patch ∧ r.InSlot k ∧ r.Current) ∨
        r ∈ currentRows facts k ∧ r.factId ∉ patch.map FactRow.factId := by
  rw [mem_currentRows, mem_currentRows, ← Facts.mem_table, patched r]
  constructor
  · rintro ⟨mem | ⟨mem, outside⟩, inSlot, current⟩
    · exact .inl ⟨mem, inSlot, current⟩
    · exact .inr ⟨⟨mem, inSlot, current⟩, outside⟩
  · rintro (⟨mem, inSlot, current⟩ | ⟨⟨mem, inSlot, current⟩, outside⟩)
    · exact ⟨.inl mem, inSlot, current⟩
    · exact ⟨.inr ⟨mem, outside⟩, inSlot, current⟩

/-- A patch that neither adds nor replaces a current row of the slot. -/
theorem currentRows_of_patch {facts facts' : Facts} {patch : List FactRow} {k : Slot}
    (patched : FactPatch facts facts' patch)
    (new : ∀ r ∈ patch, ¬ (r.InSlot k ∧ r.Current))
    (old : ∀ r ∈ currentRows facts k, r.factId ∉ patch.map FactRow.factId) :
    currentRows facts' k = currentRows facts k := by
  refine currentRows_congr fun r => ?_
  rw [mem_currentRows_patch patched]
  constructor
  · rintro (⟨mem, here⟩ | ⟨mem, -⟩)
    · exact absurd here (new r mem)
    · exact mem
  · exact fun mem => .inr ⟨mem, old r mem⟩

theorem plainRow_not_inSlot {tick : Tick} {request : WriteRequest} {factId : Nat} {k : Slot} :
    ¬ (plainRow tick request factId).InSlot k := by
  rintro ⟨kind, -⟩
  cases kind

theorem supersededRow_not_current {r : FactRow} {moment : String} {survivor : Nat} :
    ¬ (supersededRow r moment survivor).Current := by
  rintro ⟨valid, -⟩
  cases valid

/-- A new row has an id no row of the slot has. -/
theorem ne_nextId {facts : Facts} {k : Slot} {r : FactRow} (here : r ∈ currentRows facts k) :
    r.factId ≠ facts.nextId :=
  Facts.nextId_fresh (mem_currentRows.1 here).1

/-- Rows outside every conflict of one slot: at most one. -/
theorem length_le_one {facts : Facts} {k : Slot}
    (ungrouped : ∀ r ∈ currentRows facts k, r.conflictGroup = none) :
    (currentRows facts k).length ≤ 1 := by
  by_contra several
  exact not_inDispute ungrouped (.inl (by omega))

theorem two_le_length {facts : Facts} {k : Slot} {r r' : FactRow} (mem : r ∈ currentRows facts k)
    (mem' : r' ∈ currentRows facts k) (apart : r ≠ r') : 2 ≤ (currentRows facts k).length := by
  have distinct : [r, r'].Nodup := by simpa using apart
  refine (distinct.subperm ?_).length_le
  intro x
  simp only [List.mem_cons, List.not_mem_nil, or_false]
  rintro (rfl | rfl)
  · exact mem
  · exact mem'

/-! ## The invariant -/

/-- A slot is settled, or openly disputed. -/
inductive SlotInv (s : Store) (k : Slot) : Prop where
  | settled (atMostOne : (currentRows s.facts k).length ≤ 1)
      (ungrouped : ∀ r ∈ currentRows s.facts k, r.conflictGroup = none)
      (quiet : ∀ c ∈ s.conflicts, c.slot = k → ¬ c.Unresolved)
  | disputed (c : ConflictRow) (mem : c ∈ s.conflicts) (slot : c.slot = k)
      (unresolved : c.Unresolved)
      (onlyOpen : ∀ c' ∈ s.conflicts, c'.slot = k → c'.Unresolved → c' = c)
      (several : 2 ≤ (currentRows s.facts k).length)
      (grouped : ∀ r ∈ currentRows s.facts k, r.conflictGroup = some c.conflictId)
      (members : ∀ id, ⟨c.conflictId, id⟩ ∈ s.conflictMembers ↔
        ∃ r ∈ currentRows s.facts k, r.factId = id)

namespace SlotInv

variable {s s' : Store} {k : Slot}

/-- A slot whose rows, open conflicts and members stay keeps the invariant. -/
theorem frame (inv : SlotInv s k) (rows : currentRows s'.facts k = currentRows s.facts k)
    (conflicts : ∀ c, c.slot = k → c.Unresolved → (c ∈ s'.conflicts ↔ c ∈ s.conflicts))
    (members : ∀ c ∈ s.conflicts, c.slot = k → c.Unresolved → ∀ id,
      ⟨c.conflictId, id⟩ ∈ s'.conflictMembers ↔ ⟨c.conflictId, id⟩ ∈ s.conflictMembers) :
    SlotInv s' k := by
  cases inv with
  | settled atMostOne ungrouped quiet =>
      rw [← rows] at atMostOne ungrouped
      refine .settled atMostOne ungrouped fun c mem slot unresolved => ?_
      exact quiet c ((conflicts c slot unresolved).1 mem) slot unresolved
  | disputed c mem slot unresolved onlyOpen several grouped inMembers =>
      rw [← rows] at several grouped inMembers
      refine .disputed c ((conflicts c slot unresolved).2 mem) slot unresolved
        (fun c' mem' slot' unresolved' => ?_) several grouped (fun id => ?_)
      · exact onlyOpen c' ((conflicts c' slot' unresolved').1 mem') slot' unresolved'
      · rw [members c mem slot unresolved]
        exact inMembers id

/-- A slot with at most one current fact is settled. -/
theorem quiet_of_le_one (inv : SlotInv s k) (atMostOne : (currentRows s.facts k).length ≤ 1) :
    (∀ r ∈ currentRows s.facts k, r.conflictGroup = none) ∧
      ∀ c ∈ s.conflicts, c.slot = k → ¬ c.Unresolved := by
  cases inv with
  | settled _ ungrouped quiet => exact ⟨ungrouped, quiet⟩
  | disputed _ _ _ _ _ several => omega

/-- A slot with a current fact outside every conflict is settled, and holds only it. -/
theorem settled_of_ungrouped (inv : SlotInv s k) {r : FactRow} (here : r ∈ currentRows s.facts k)
    (ungrouped : r.conflictGroup = none) :
    currentRows s.facts k = [r] ∧ ∀ c ∈ s.conflicts, c.slot = k → ¬ c.Unresolved := by
  cases inv with
  | settled atMostOne _ quiet =>
      refine ⟨?_, quiet⟩
      match rows : currentRows s.facts k, here with
      | [r'], here => rw [List.mem_singleton.1 here]
      | _ :: _ :: _, _ => simp [rows] at atMostOne
  | disputed _ _ _ _ _ _ grouped =>
      rw [grouped r here] at ungrouped
      cases ungrouped

/-- A slot with an open conflict is disputed about it. -/
theorem disputed_of_open (inv : SlotInv s k) {c : ConflictRow} (mem : c ∈ s.conflicts)
    (slot : c.slot = k) (unresolved : c.Unresolved) :
    (∀ c' ∈ s.conflicts, c'.slot = k → c'.Unresolved → c' = c) ∧
      2 ≤ (currentRows s.facts k).length ∧
      (∀ r ∈ currentRows s.facts k, r.conflictGroup = some c.conflictId) ∧
      ∀ id, ⟨c.conflictId, id⟩ ∈ s.conflictMembers ↔ ∃ r ∈ currentRows s.facts k, r.factId = id := by
  cases inv with
  | settled _ _ quiet => exact absurd unresolved (quiet c mem slot)
  | disputed c' mem' slot' unresolved' onlyOpen several grouped members =>
      cases onlyOpen c mem slot unresolved
      exact ⟨onlyOpen, several, grouped, members⟩

/-- A slot with no current fact, or with one outside every conflict, and no open conflict. -/
theorem of_ungrouped (ungrouped : ∀ r ∈ currentRows s.facts k, r.conflictGroup = none)
    (quiet : ∀ c ∈ s.conflicts, c.slot = k → ¬ c.Unresolved) : SlotInv s k :=
  .settled (length_le_one ungrouped) ungrouped quiet

end SlotInv

/-- The slots of a store are in order, and so are the references between its conflict
tables. -/
structure SlotSound (s : Store) : Prop where
  slots : ∀ k, SlotInv s k
  known : ∀ m ∈ s.conflictMembers, ∃ c ∈ s.conflicts, c.conflictId = m.conflictId
  audited : ∀ x ∈ s.conflictResolutions, ∃ c ∈ s.conflicts, c.conflictId = x.conflictId ∧
    ¬ c.Unresolved

namespace SlotSound

variable {s s' : Store}

theorem empty : SlotSound Store.empty where
  slots k := by
    have vacant : ∀ r, r ∉ currentRows Store.empty.facts k := fun r mem =>
      Facts.not_mem_empty r (mem_currentRows.1 mem).1
    refine .of_ungrouped (fun r mem => absurd mem (vacant r)) fun c mem => ?_
    exact absurd mem (Table.not_mem_empty c)
  known m mem := absurd mem (Table.not_mem_empty m)
  audited x mem := absurd mem (Table.not_mem_empty x)

/-- A change to facts alone that keeps the rows of every slot. -/
theorem of_rows (sound : SlotSound s) (rows : ∀ k, currentRows s'.facts k = currentRows s.facts k)
    (conflicts : s'.conflicts = s.conflicts) (members : s'.conflictMembers = s.conflictMembers)
    (resolutions : s'.conflictResolutions = s.conflictResolutions) : SlotSound s' where
  slots k := (sound.slots k).frame (rows k) (by simp [conflicts]) (by simp [members])
  known := by
    rw [members, conflicts]
    exact sound.known
  audited := by
    rw [resolutions, conflicts]
    exact sound.audited

/-- Tables other than the four do not matter. -/
theorem of_same (sound : SlotSound s) (facts : s'.facts = s.facts)
    (conflicts : s'.conflicts = s.conflicts) (members : s'.conflictMembers = s.conflictMembers)
    (resolutions : s'.conflictResolutions = s.conflictResolutions) : SlotSound s' :=
  sound.of_rows (fun k => by rw [facts]) conflicts members resolutions

/-- The members of an open conflict are current rows of its slot. -/
theorem member_row (sound : SlotSound s) {c : ConflictRow} (mem : c ∈ s.conflicts)
    (unresolved : c.Unresolved) {r : FactRow} (inFacts : r ∈ s.facts)
    (member : ⟨c.conflictId, r.factId⟩ ∈ s.conflictMembers) : r ∈ currentRows s.facts c.slot := by
  obtain ⟨-, -, -, members⟩ := (sound.slots c.slot).disputed_of_open mem rfl unresolved
  obtain ⟨r', here, same⟩ := (members r.factId).1 member
  rwa [Facts.eq_of_id inFacts (mem_currentRows.1 here).1 same.symm]

end SlotSound

/-! ## Typed writes -/

section Typed

variable {tick : Tick} {request : WriteRequest} {candidate : StateCandidate} {d : SlotDecision}
  {s s' : Store} {factId : Nat}

/-- A patch of rows of another slot passes by this one. -/
theorem currentRows_other {facts facts' : Facts} {patch : List FactRow} {k k' : Slot}
    (patched : FactPatch facts facts' patch) (inSlot : ∀ r ∈ patch, r.InSlot k)
    (old : ∀ r ∈ facts, r.factId ∈ patch.map FactRow.factId → r.InSlot k) (other : k' ≠ k) :
    currentRows facts' k' = currentRows facts k' := by
  refine currentRows_of_patch patched (fun r mem here => ?_) (fun r here mem => ?_)
  · exact other (here.1.unique (inSlot r mem))
  · obtain ⟨inFacts, there, -⟩ := mem_currentRows.1 here
    exact other (there.unique (old r inFacts mem))

/-- A typed write changes rows of its own slot only. -/
theorem StateEffect.currentRows_other (effect : StateEffect tick request candidate d s s' factId)
    {k : Slot} (other : k ≠ candidate.slot) : currentRows s'.facts k = currentRows s.facts k := by
  have fresh : ∀ group, ∀ r ∈ s.facts,
      r.factId ≠ (stateRow tick request candidate group s.facts.nextId).factId :=
    fun _ r mem => Facts.nextId_fresh mem
  cases effect with
  | repeated r here repeats result same => rw [same]
  | added vacant patch conflicts members result =>
      subst result
      refine Laws.currentRows_other patch (k := candidate.slot) ?_ ?_ other
      · simpa using stateRow_inSlot none s.facts.nextId
      · intro r mem inPatch
        exact absurd (by simpa using inPatch) (fresh none r mem)
  | superseded r only ungrouped patch conflicts members result =>
      subst result
      obtain ⟨memR, inSlot, -⟩ := mem_of_only only
      refine Laws.currentRows_other patch (k := candidate.slot) ?_ ?_ other
      · simpa using ⟨inSlot, stateRow_inSlot none s.facts.nextId⟩
      · intro x mem inPatch
        rcases List.mem_cons.1 inPatch with same | inPatch
        · rwa [Facts.eq_of_id mem memR same]
        · exact absurd (by simpa using inPatch) (fresh none x mem)
  | disputed r detail joined only ungrouped patch conflicts member newMember result =>
      subst result
      obtain ⟨memR, inSlot, -⟩ := mem_of_only only
      refine Laws.currentRows_other patch (k := candidate.slot) ?_ ?_ other
      · simpa using ⟨inSlot, stateRow_inSlot (some tick.conflictId.text) s.facts.nextId⟩
      · intro x mem inPatch
        rcases List.mem_cons.1 inPatch with same | inPatch
        · rwa [Facts.eq_of_id mem memR same]
        · exact absurd (by simpa using inPatch) (fresh (some tick.conflictId.text) x mem)
  | joined r c here group opened patch conflicts newMember result =>
      subst result
      refine Laws.currentRows_other patch (k := candidate.slot) ?_ ?_ other
      · simpa using stateRow_inSlot (some c.conflictId) s.facts.nextId
      · intro x mem inPatch
        exact absurd (by simpa using inPatch) (fresh (some c.conflictId) x mem)

/-- The conflict tables only grow, and only about one slot. -/
structure ConflictGrowth (s s' : Store) (k : Slot) : Prop where
  keptConflicts : ∀ c ∈ s.conflicts, c ∈ s'.conflicts
  newConflicts : ∀ c ∈ s'.conflicts, c ∈ s.conflicts ∨ c.slot = k
  keptMembers : ∀ m ∈ s.conflictMembers, m ∈ s'.conflictMembers
  newMembers : ∀ m ∈ s'.conflictMembers, m ∈ s.conflictMembers ∨
    ∃ c ∈ s'.conflicts, c.conflictId = m.conflictId ∧ c.slot = k

theorem ConflictGrowth.of_same {k : Slot} (conflicts : s'.conflicts = s.conflicts)
    (members : s'.conflictMembers = s.conflictMembers) : ConflictGrowth s s' k where
  keptConflicts c mem := by rwa [conflicts]
  newConflicts c mem := .inl (by rwa [← conflicts])
  keptMembers m mem := by rwa [members]
  newMembers m mem := .inl (by rwa [← members])

theorem StateEffect.conflictGrowth (effect : StateEffect tick request candidate d s s' factId) :
    ConflictGrowth s s' candidate.slot := by
  cases effect with
  | repeated r here repeats result same => exact .of_same (by rw [same]) (by rw [same])
  | added vacant patch conflicts members result => exact .of_same conflicts members
  | superseded r only ungrouped patch conflicts members result => exact .of_same conflicts members
  | joined r c here group opened patch conflicts newMember result =>
      obtain ⟨memC, unresolved, slot⟩ := opened
      refine
        { keptConflicts := fun c mem => by rwa [conflicts]
          newConflicts := fun c mem => .inl (by rwa [← conflicts])
          keptMembers := fun m mem => (Table.mem_of_insert? newMember).2 (.inl mem)
          newMembers := fun m mem => ?_ }
      rcases (Table.mem_of_insert? newMember).1 mem with mem | rfl
      · exact .inl mem
      · exact .inr ⟨c, by rwa [conflicts], rfl, slot⟩
  | disputed r detail joined only ungrouped patch conflicts member newMember result =>
      have opened := (Table.mem_of_insert? conflicts).2 (.inr rfl)
      refine
        { keptConflicts := fun c mem => (Table.mem_of_insert? conflicts).2 (.inl mem)
          newConflicts := fun c mem => ?_
          keptMembers := fun m mem => ?_
          newMembers := fun m mem => ?_ }
      · rcases (Table.mem_of_insert? conflicts).1 mem with mem | rfl
        · exact .inl mem
        · exact .inr rfl
      · exact (Table.mem_of_insert? newMember).2 (.inl ((Table.mem_of_insert? member).2 (.inl mem)))
      · rcases (Table.mem_of_insert? newMember).1 mem with mem | rfl
        · rcases (Table.mem_of_insert? member).1 mem with mem | rfl
          · exact .inl mem
          · exact .inr ⟨_, opened, rfl, rfl⟩
        · exact .inr ⟨_, opened, rfl, rfl⟩

/-- The other slots keep the invariant while the tables grow about one. -/
theorem SlotInv.frame_growth {k k' : Slot} (inv : SlotInv s k')
    (rows : currentRows s'.facts k' = currentRows s.facts k') (growth : ConflictGrowth s s' k)
    (other : k' ≠ k) : SlotInv s' k' := by
  refine inv.frame rows (fun c slot _ => ?_) (fun c mem slot _ id => ?_)
  · refine ⟨fun mem => ?_, growth.keptConflicts c⟩
    rcases growth.newConflicts c mem with mem | here
    · exact mem
    · exact absurd (slot.symm.trans here) other
  · refine ⟨fun member => ?_, growth.keptMembers _⟩
    rcases growth.newMembers _ member with member | ⟨c', mem', sameId, here⟩
    · exact member
    · have same : c' = c := Table.eq_of_key mem' (growth.keptConflicts c mem) sameId
      rw [same] at here
      exact absurd (slot.symm.trans here) other

/-! ## The slot of a typed write -/

theorem SlotInv.added (inv : SlotInv s candidate.slot)
    (vacant : currentRows s.facts candidate.slot = [])
    (patch : FactPatch s.facts s'.facts [stateRow tick request candidate none factId])
    (conflicts : s'.conflicts = s.conflicts) : SlotInv s' candidate.slot := by
  obtain ⟨-, quiet⟩ := inv.quiet_of_le_one (by simp [vacant])
  refine .of_ungrouped (fun r mem => ?_) (by rwa [conflicts])
  rcases (mem_currentRows_patch patch).1 mem with ⟨new, -⟩ | ⟨old, -⟩
  · rw [List.mem_singleton.1 new]
    rfl
  · simp [vacant] at old

theorem SlotInv.superseded (inv : SlotInv s candidate.slot) {r : FactRow} {moment : String}
    (only : currentRows s.facts candidate.slot = [r])
    (patch : FactPatch s.facts s'.facts
      [supersededRow r moment factId, stateRow tick request candidate none factId])
    (conflicts : s'.conflicts = s.conflicts) : SlotInv s' candidate.slot := by
  obtain ⟨-, quiet⟩ := inv.quiet_of_le_one (by simp [only])
  refine .of_ungrouped (fun x mem => ?_) (by rwa [conflicts])
  rcases (mem_currentRows_patch patch).1 mem with ⟨new, -, current⟩ | ⟨old, outside⟩
  · rcases List.mem_cons.1 new with rfl | new
    · exact absurd current supersededRow_not_current
    · rw [List.mem_singleton.1 new]
      rfl
  · rw [only, List.mem_singleton] at old
    subst old
    exact absurd (by simp [supersededRow]) outside

/-- The rows of a slot whose only fact is grouped with a new one. -/
theorem mem_currentRows_disputed {facts facts' : Facts} {r : FactRow} {group : Option String}
    (only : currentRows facts candidate.slot = [r])
    (patch : FactPatch facts facts'
      [{ r with conflictGroup := group }, stateRow tick request candidate group factId])
    {x : FactRow} :
    x ∈ currentRows facts' candidate.slot ↔
      x = { r with conflictGroup := group } ∨ x = stateRow tick request candidate group factId := by
  obtain ⟨-, inSlot, current⟩ := mem_of_only only
  rw [mem_currentRows_patch patch, only]
  constructor
  · rintro (⟨new, -⟩ | ⟨old, outside⟩)
    · simpa using new
    · rw [List.mem_singleton.1 old] at outside
      simp at outside
  · rintro (rfl | rfl)
    · exact .inl ⟨by simp, inSlot, current⟩
    · exact .inl ⟨by simp, stateRow_inSlot _ _, rfl, rfl⟩

/-- The opened conflict is the only open one of its slot, and its members are the two facts. -/
theorem SlotSound.disputed (sound : SlotSound s) {r : FactRow} {conflictId now : String}
    {detail : Json} {joined : Table (String × Nat) MemberRow fun r => (r.conflictId, r.factId)}
    (only : currentRows s.facts candidate.slot = [r])
    (patch : FactPatch s.facts s'.facts [{ r with conflictGroup := some conflictId },
      stateRow tick request candidate (some conflictId) factId])
    (conflicts : s.conflicts.insert? (openedConflict conflictId candidate.slot now detail) =
      some s'.conflicts)
    (member : s.conflictMembers.insert? ⟨conflictId, r.factId⟩ = some joined)
    (newMember : joined.insert? ⟨conflictId, factId⟩ = some s'.conflictMembers)
    (distinct : r.factId ≠ factId) : SlotInv s' candidate.slot := by
  obtain ⟨-, quiet⟩ := (sound.slots candidate.slot).quiet_of_le_one (by simp [only])
  have rows := fun x => @mem_currentRows_disputed _ _ _ _ _ _ _ _ only patch x
  refine .disputed _ ((Table.mem_of_insert? conflicts).2 (.inr rfl)) rfl rfl
    (fun c mem slot unresolved => ?_) ?_ (fun x mem => ?_) (fun id => ?_)
  · rcases (Table.mem_of_insert? conflicts).1 mem with mem | rfl
    · exact absurd unresolved (quiet c mem slot)
    · rfl
  · refine two_le_length ((rows _).2 (.inl rfl)) ((rows _).2 (.inr rfl)) fun same => distinct ?_
    exact congrArg FactRow.factId same
  · rcases (rows x).1 mem with rfl | rfl
    · rfl
    · rfl
  · rw [Table.mem_of_insert? newMember, Table.mem_of_insert? member]
    constructor
    · rintro ((mem | same) | same)
      · obtain ⟨c, memC, sameId⟩ := sound.known _ mem
        exact absurd sameId (Table.fresh_of_insert? conflicts memC)
      · cases same
        exact ⟨_, (rows _).2 (.inl rfl), rfl⟩
      · cases same
        exact ⟨_, (rows _).2 (.inr rfl), rfl⟩
    · rintro ⟨x, mem, rfl⟩
      rcases (rows x).1 mem with rfl | rfl
      · exact .inl (.inr rfl)
      · exact .inr rfl

/-- The rows of a slot that gets a new one. -/
theorem mem_currentRows_joined {facts facts' : Facts} {group : Option String}
    (patch : FactPatch facts facts' [stateRow tick request candidate group factId])
    (result : factId = facts.nextId) {x : FactRow} :
    x ∈ currentRows facts' candidate.slot ↔
      x ∈ currentRows facts candidate.slot ∨ x = stateRow tick request candidate group factId := by
  rw [mem_currentRows_patch patch]
  constructor
  · rintro (⟨new, -⟩ | ⟨old, -⟩)
    · exact .inr (List.mem_singleton.1 new)
    · exact .inl old
  · rintro (old | rfl)
    · refine .inr ⟨old, ?_⟩
      have apart := ne_nextId old
      rw [← result] at apart
      simpa [stateRow, plainRow] using apart
    · exact .inl ⟨by simp, stateRow_inSlot _ _, rfl, rfl⟩

/-- The open conflict of the slot stays, with the new fact as one more member. -/
theorem SlotInv.joined (inv : SlotInv s candidate.slot) {c : ConflictRow} (memC : c ∈ s.conflicts)
    (unresolved : c.Unresolved) (slot : c.slot = candidate.slot)
    (patch : FactPatch s.facts s'.facts
      [stateRow tick request candidate (some c.conflictId) factId])
    (conflicts : s'.conflicts = s.conflicts)
    (newMember : s.conflictMembers.insert? ⟨c.conflictId, factId⟩ = some s'.conflictMembers)
    (result : factId = s.facts.nextId) : SlotInv s' candidate.slot := by
  obtain ⟨onlyOpen, several, grouped, members⟩ := inv.disputed_of_open memC slot unresolved
  have rows := fun x => @mem_currentRows_joined _ _ _ _ _ _ _ patch result x
  refine .disputed c (by rwa [conflicts]) slot unresolved (by rwa [conflicts]) ?_
    (fun x mem => ?_) (fun id => ?_)
  · refine le_trans several (((currentRows_nodup _ _).subperm ?_).length_le)
    exact fun x mem => (rows x).2 (.inl mem)
  · rcases (rows x).1 mem with old | rfl
    · exact grouped x old
    · rfl
  · rw [Table.mem_of_insert? newMember, members id]
    constructor
    · rintro (⟨x, old, here⟩ | same)
      · exact ⟨x, (rows x).2 (.inl old), here⟩
      · cases same
        exact ⟨_, (rows _).2 (.inr rfl), rfl⟩
    · rintro ⟨x, mem, rfl⟩
      rcases (rows x).1 mem with old | rfl
      · exact .inl ⟨x, old, rfl⟩
      · exact .inr rfl

/-- The slot of a typed write, row by row: what is added is the new fact, and what is
lost is the fact it supersedes. -/
theorem StateEffect.slotInv (effect : StateEffect tick request candidate d s s' factId)
    (sound : SlotSound s) : SlotInv s' candidate.slot := by
  have inv := sound.slots candidate.slot
  cases effect with
  | repeated r here repeats result same =>
      rw [same]
      exact inv
  | added vacant patch conflicts members result => exact inv.added vacant patch conflicts
  | superseded r only ungrouped patch conflicts members result =>
      exact inv.superseded only patch conflicts
  | disputed r detail joined only ungrouped patch conflicts member newMember result =>
      have distinct : r.factId ≠ factId := result ▸ Facts.nextId_fresh (mem_of_only only).1
      exact sound.disputed only patch conflicts member newMember distinct
  | joined r c here group opened patch conflicts newMember result =>
      obtain ⟨memC, unresolved, slot⟩ := opened
      exact inv.joined memC unresolved slot patch conflicts newMember result

/-- A typed write keeps the slots in order. -/
theorem StateEffect.slotSound (effect : StateEffect tick request candidate d s s' factId)
    (frame : FactFrame s s') (sound : SlotSound s) : SlotSound s' := by
  have growth := effect.conflictGrowth
  refine { slots := fun k => ?_, known := fun m mem => ?_, audited := fun x mem => ?_ }
  · by_cases here : k = candidate.slot
    · rw [here]
      exact effect.slotInv sound
    · exact (sound.slots k).frame_growth (effect.currentRows_other here) growth here
  · rcases growth.newMembers m mem with old | ⟨c, memC, same, -⟩
    · obtain ⟨c, memC, same⟩ := sound.known m old
      exact ⟨c, growth.keptConflicts c memC, same⟩
    · exact ⟨c, memC, same⟩
  · rw [frame] at mem
    obtain ⟨c, memC, same, resolved⟩ := sound.audited x mem
    exact ⟨c, growth.keptConflicts c memC, same, resolved⟩

end Typed

/-! ## Untyped writes -/

section Untyped

variable {tick : Tick} {request : WriteRequest} {near : Option NearDuplicateCandidate} {s s' : Store}
  {factId : Nat} {k : Slot}

/-- An untyped write adds nothing to a slot. -/
theorem UntypedEffect.mem_currentRows_of (effect : UntypedEffect tick request near s s' factId)
    {x : FactRow} (there : x ∈ currentRows s'.facts k) : x ∈ currentRows s.facts k := by
  cases effect with
  | repeated r mem inScope sameContent current noGroup result same => rwa [same] at there
  | inserted unmatched patch result =>
      rcases (mem_currentRows_patch patch).1 there with ⟨new, inSlot, -⟩ | ⟨old, -⟩
      · rw [List.mem_singleton.1 new] at inSlot
        exact absurd inSlot plainRow_not_inSlot
      · exact old
  | mergedIntoOld c found loses patch result =>
      rcases (mem_currentRows_patch patch).1 there with ⟨new, -, current⟩ | ⟨old, -⟩
      · rw [List.mem_singleton.1 new] at current
        exact absurd current supersededRow_not_current
      · exact old
  | mergedIntoNew c r found wins mem here _ patch result =>
      rcases (mem_currentRows_patch patch).1 there with ⟨new, inSlot, current⟩ | ⟨old, -⟩
      · rcases List.mem_cons.1 new with rfl | new
        · exact absurd inSlot plainRow_not_inSlot
        · rw [List.mem_singleton.1 new] at current
          exact absurd current supersededRow_not_current
      · exact old

/-- An untyped write leaves a slot alone, unless it supersedes a fact of it. -/
theorem UntypedEffect.currentRows_kept (effect : UntypedEffect tick request near s s' factId)
    (outside : ∀ c ∈ near, IncomingWins request tick.recordedAt c → ∀ r ∈ s.facts,
      r.factId = c.factId → ¬ r.InSlot k) :
    currentRows s'.facts k = currentRows s.facts k := by
  refine currentRows_congr fun x => ⟨effect.mem_currentRows_of, fun there => ?_⟩
  have apart := ne_nextId there
  cases effect with
  | repeated r mem inScope sameContent current noGroup result same => rwa [same]
  | inserted unmatched patch result =>
      refine (mem_currentRows_patch patch).2 (.inr ⟨there, ?_⟩)
      rw [← result] at apart
      simpa [plainRow] using apart
  | mergedIntoOld c found loses patch result =>
      refine (mem_currentRows_patch patch).2 (.inr ⟨there, ?_⟩)
      simpa [supersededRow, plainRow] using apart
  | mergedIntoNew c r found wins mem here current patch result =>
      refine (mem_currentRows_patch patch).2 (.inr ⟨there, ?_⟩)
      have distinct : x.factId ≠ r.factId := by
        intro same
        obtain ⟨memX, inSlot, -⟩ := mem_currentRows.1 there
        rw [Facts.eq_of_id memX mem same] at inSlot
        exact outside c found wins r mem here inSlot
      rw [← result] at apart
      simp [plainRow, supersededRow, apart, distinct]

/-- An untyped write keeps the slots in order.  Its near duplicate is outside every
conflict, so losing it can only empty a settled slot. -/
theorem UntypedEffect.slotSound (effect : UntypedEffect tick request near s s' factId)
    (known : ∀ c ∈ near, ∃ r ∈ s.facts, r.factId = c.factId ∧ r.scope = request.scope ∧
      r.Current ∧ r.conflictGroup = none)
    (frame : FactFrame s s') (conflicts : s'.conflicts = s.conflicts)
    (members : s'.conflictMembers = s.conflictMembers) (sound : SlotSound s) : SlotSound s' := by
  have resolutions : s'.conflictResolutions = s.conflictResolutions := by rw [frame]
  refine
    { slots := fun k => ?_
      known := by
        rw [members, conflicts]
        exact sound.known
      audited := by
        rw [resolutions, conflicts]
        exact sound.audited }
  by_cases same : currentRows s'.facts k = currentRows s.facts k
  · exact (sound.slots k).frame same (by simp [conflicts]) (by simp [members])
  · obtain ⟨c, found, wins, r, mem, here, inSlot⟩ : ∃ c ∈ near,
        IncomingWins request tick.recordedAt c ∧ ∃ r ∈ s.facts, r.factId = c.factId ∧ r.InSlot k := by
      by_contra none
      refine same (effect.currentRows_kept fun c found wins r mem here inSlot => ?_)
      exact none ⟨c, found, wins, r, mem, here, inSlot⟩
    obtain ⟨r₀, mem₀, here₀, -, current, ungrouped⟩ := known c found
    obtain rfl : r = r₀ := Facts.eq_of_id mem mem₀ (here.trans here₀.symm)
    obtain ⟨only, quiet⟩ := (sound.slots k).settled_of_ungrouped
      (mem_currentRows.2 ⟨mem, inSlot, current⟩) ungrouped
    refine .of_ungrouped (fun x there => ?_) (by rwa [conflicts])
    have old := effect.mem_currentRows_of there
    rw [only, List.mem_singleton] at old
    rwa [old]

end Untyped

/-- A requested supersession takes an untyped fact, which is in no slot. -/
theorem Finished.currentRows_kept {tick : Tick} {context : ConnectionContext} {request : WriteRequest}
    {requestHash : String} {observationId : Nat} {state : Option SlotDecision} {applied : Applied}
    {s' : Store} {o : WriteOutcome}
    (finished : Finished tick context request requestHash observationId state applied s' o)
    (k : Slot) : currentRows s'.facts k = currentRows applied.store.facts k := by
  rcases finished.superseded with ⟨-, facts⟩ | ⟨r, mem, -, -, -, -, untyped, -, patch⟩
  · rw [facts]
  · refine currentRows_of_patch patch (fun x memX here => ?_) (fun x here inPatch => ?_)
    · rw [List.mem_singleton.1 memX] at here
      exact supersededRow_not_current here.2
    · obtain ⟨memX, ⟨kind, -⟩, -⟩ := mem_currentRows.1 here
      have same : x.factId = r.factId := by simpa [supersededRow] using inPatch
      rw [Facts.eq_of_id memX mem same] at kind
      exact untyped kind

theorem Finished.slotSound {tick : Tick} {context : ConnectionContext} {request : WriteRequest}
    {requestHash : String} {observationId : Nat} {state : Option SlotDecision} {applied : Applied}
    {s' : Store} {o : WriteOutcome}
    (finished : Finished tick context request requestHash observationId state applied s' o)
    (sound : SlotSound applied.store) : SlotSound s' := by
  have frame := finished.frame
  exact sound.of_rows finished.currentRows_kept (by rw [frame]) (by rw [frame]) (by rw [frame])

/-! ## Whole writes -/

theorem Registered.slotSound {s s₀ : Store} (registered : Registered s s₀) (sound : SlotSound s) :
    SlotSound s₀ :=
  sound.of_same (by rw [registered.frame]) (by rw [registered.frame]) (by rw [registered.frame]) (by rw [registered.frame])

theorem Observed.slotSound {s₀ s₁ : Store} (observed : Observed s₀ s₁) (sound : SlotSound s₀) :
    SlotSound s₁ :=
  sound.of_same (by rw [observed]) (by rw [observed]) (by rw [observed]) (by rw [observed])

theorem write_slotSound {host : Host} {call : WriteCall} {s s' : Store} {o : WriteOutcome}
    (done : call.apply host s = .ok (s', o)) (sound : SlotSound s) : SlotSound s' := by
  obtain ⟨context, -, -, -, branches⟩ := write_cases done
  cases branches with
  | replay prior found sameHash answer frame clients =>
      exact sound.of_same (by rw [frame]) (by rw [frame]) (by rw [frame]) (by rw [frame])
  | factless s₀ decision fresh registered decided frame logged answer =>
      have sound₀ := registered.slotSound sound
      exact sound₀.of_same (by rw [frame]) (by rw [frame]) (by rw [frame]) (by rw [frame])
  | typed s₀ s₁ observationId effective d applied fresh registered decided recorded observed accepted
      branch finished =>
      have sound₁ := observed.slotSound (registered.slotSound sound)
      exact finished.slotSound (branch.2.slotSound branch.1 sound₁)
  | untyped s₀ s₁ observationId near applied fresh registered decided recorded observed searched
      accepted branch finished =>
      have sound₁ := observed.slotSound (registered.slotSound sound)
      obtain ⟨frame, effect, conflicts, members⟩ := branch
      exact finished.slotSound (effect.slotSound (nearDuplicate_row searched) frame conflicts
        members sound₁)

end Enfold.Laws
