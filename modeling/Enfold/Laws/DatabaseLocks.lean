/-
# Laws.DatabaseLocks -- what the two lock files of a database exclude

The holder of a lock file is the party whose code stands between taking and giving back (`Sound`, in
every reachable state).  From it:

* `maintenance_alone`: while a maintenance run stands past its first lock, no daemon serves and no
  other maintenance run has a lock; while it is inside, no outer section of a legacy writer is open;
* `sections_exclude`: as long as outer sections end after the nested ones, two processes never have
  sections open at once, and none is open beside maintenance;
* `sections_overlap`: an outer section that ends first lets any other process in beside the nested
  one;
* `locks_freed`: the holders can always give both locks back by steps of their own.
-/
import Enfold.Model.DatabaseLocks

namespace Enfold.Laws.DatabaseLocks

open Enfold.Theory Enfold.Model.DatabaseLocks

set_option autoImplicit false

variable {s : State} {action : Action} {party : Party}

/-! ## Who holds a lock -/

/-- The code of a party stands where it has the daemon's lock. -/
def Owns (s : State) : Party → Prop
  | .daemon d => s.daemons d = true
  | .maintenance m => s.maintenance m ≠ .idle
  | .writer _ => False

/-- The code of a party stands where it has the writers' lock. -/
def Locks (s : State) : Party → Prop
  | .daemon _ => False
  | .maintenance m => s.maintenance m = .inside
  | .writer p => 0 < (s.writers p).outer + (s.writers p).leaving

/-- A process has an entry in its table while its outer section is open, and waits for the file
only without one. -/
structure WriterSound (w : Writer) : Prop where
  single : w.outer + w.leaving ≤ 1
  entry : w.registered.isSome = true ↔ 0 < w.outer
  waits : w.entering = true → w.registered = none

structure Sound (s : State) : Prop where
  owned : Agrees s.ownership (Owns s)
  locked : Agrees s.legacy (Locks s)
  writer : ∀ p, WriterSound (s.writers p)

theorem writerSound_fresh : WriterSound .fresh := by
  constructor <;> simp [Writer.fresh]

theorem sound_initial : Sound .initial := by
  refine ⟨?_, ?_, fun _ => writerSound_fresh⟩
  · rintro (d | m | p) <;> simp [State.initial, Owns]
  · rintro (d | m | p) <;> simp [State.initial, Locks, Writer.fresh]

section Frame

variable {ownership legacy : Option Party} {other : Party}

theorem owns_setDaemon {d : Nat} {owns : Bool} (apart : other ≠ .daemon d) :
    Owns { s.setDaemon d owns with ownership := ownership, legacy := legacy } other ↔
      Owns s other := by
  cases other with
  | daemon d' =>
      have differs : d' ≠ d := fun same => apart (same ▸ rfl)
      simp [Owns, State.setDaemon, Function.update_of_ne differs]
  | maintenance m' => rfl
  | writer p' => rfl

theorem owns_setStage {m : Nat} {stage : Stage} (apart : other ≠ .maintenance m) :
    Owns { s.setStage m stage with ownership := ownership, legacy := legacy } other ↔
      Owns s other := by
  cases other with
  | daemon d' => rfl
  | maintenance m' =>
      have differs : m' ≠ m := fun same => apart (same ▸ rfl)
      simp [Owns, State.setStage, Function.update_of_ne differs]
  | writer p' => rfl

theorem owns_setWriter {p : Nat} {w : Writer} :
    Owns { s.setWriter p w with ownership := ownership, legacy := legacy } other ↔
      Owns s other := by
  cases other <;> rfl

theorem locks_setDaemon {d : Nat} {owns : Bool} :
    Locks { s.setDaemon d owns with ownership := ownership, legacy := legacy } other ↔
      Locks s other := by
  cases other <;> rfl

theorem locks_setStage {m : Nat} {stage : Stage} (apart : other ≠ .maintenance m) :
    Locks { s.setStage m stage with ownership := ownership, legacy := legacy } other ↔
      Locks s other := by
  cases other with
  | daemon d' => rfl
  | maintenance m' =>
      have differs : m' ≠ m := fun same => apart (same ▸ rfl)
      simp [Locks, State.setStage, Function.update_of_ne differs]
  | writer p' => rfl

theorem locks_setWriter {p : Nat} {w : Writer} (apart : other ≠ .writer p) :
    Locks { s.setWriter p w with ownership := ownership, legacy := legacy } other ↔
      Locks s other := by
  cases other with
  | daemon d' => rfl
  | maintenance m' => rfl
  | writer p' =>
      have differs : p' ≠ p := fun same => apart (same ▸ rfl)
      simp [Locks, State.setWriter, Function.update_of_ne differs]

end Frame

/-! ## The steps keep it -/

/-- A change of the stage that keeps the first lock. -/
theorem owns_stage {m : Nat} {stage : Stage} {ownership legacy : Option Party}
    (busy : stage ≠ .idle) (was : s.maintenance m ≠ .idle) (other : Party) :
    Owns { s.setStage m stage with ownership := ownership, legacy := legacy } other ↔
      Owns s other := by
  by_cases same : other = .maintenance m
  · rw [same]
    simp [Owns, State.setStage, busy, was]
  · exact owns_setStage same

theorem owned_step (owned : Agrees s.ownership (Owns s)) :
    Agrees (step action s).ownership (Owns (step action s)) := by
  cases action with
  | own d =>
      rw [step]
      split
      · next free =>
        refine owned.take free ?_ fun other apart => owns_setDaemon apart
        simp [Owns, State.setDaemon]
      · exact owned
  | disown d =>
      rw [step]
      split
      · refine owned.give ?_ fun other apart => owns_setDaemon apart
        simp [Owns, State.setDaemon]
      · exact owned
  | maintain m =>
      rw [step]
      split
      · next ready =>
        refine owned.take ready.2 ?_ fun other apart => owns_setStage apart
        simp [Owns, State.setStage]
      · exact owned
  | maintainLegacy m =>
      rw [step]
      split
      · next ready => exact owned.keep (owns_stage (by decide) (by rw [ready.1]; decide))
      · exact owned
  | giveUp m =>
      rw [step]
      split
      · next tried => exact owned.keep (owns_stage (by decide) (by rw [tried]; decide))
      · exact owned
  | releaseLegacy m =>
      rw [step]
      split
      · next inside => exact owned.keep (owns_stage (by decide) (by rw [inside]; decide))
      · exact owned
  | releaseDaemon m =>
      rw [step]
      split
      · refine owned.give ?_ fun other apart => owns_setStage apart
        simp [Owns, State.setStage]
      · exact owned
  | enter p | leaveNested p | leaveOuter p => exact owned.keep fun other => owns_setWriter
  | lockFile p =>
      rw [step]
      dsimp only
      split
      · exact owned.keep fun other => owns_setWriter
      · exact owned
  | unlockFile p =>
      rw [step]
      dsimp only
      split
      · exact owned
      · exact owned.keep fun other => owns_setWriter
  | crash party =>
      cases party with
      | daemon d =>
          refine owned.give ?_ fun other apart => owns_setDaemon apart
          simp [step, endParty, Owns, State.setDaemon]
      | maintenance m =>
          refine owned.give ?_ fun other apart => owns_setStage apart
          simp [step, endParty, Owns, State.setStage]
      | writer p => exact owned.give (by simp [Owns]) fun other _ => owns_setWriter

/-- A process that waits for the file has no outer section. -/
theorem WriterSound.waiting {w : Writer} (sound : WriterSound w) (waits : w.entering = true) :
    w.outer = 0 := by
  by_contra outer
  have entry := sound.entry.2 (Nat.pos_of_ne_zero outer)
  rw [sound.waits waits] at entry
  cases entry

theorem enterSection_sound {w : Writer} (sound : WriterSound w) : WriterSound (enterSection w) := by
  unfold enterSection
  split
  · exact sound
  · next started =>
    split
    · next count entry =>
      have outer := sound.entry.1 (by rw [entry]; rfl)
      exact ⟨sound.single, ⟨fun _ => outer, fun _ => rfl⟩, fun waits => absurd waits started⟩
    · next entry => exact ⟨sound.single, sound.entry, fun _ => entry⟩

theorem leaveNestedSection_sound {w : Writer} (sound : WriterSound w) :
    WriterSound (leaveNestedSection w) := by
  unfold leaveNestedSection
  split
  · exact sound
  · refine ⟨sound.single, ?_, fun waits => ?_⟩
    · rw [Option.isSome_map]
      exact sound.entry
    · rw [sound.waits waits]
      rfl

theorem leaveOuterSection_sound {w : Writer} (sound : WriterSound w) :
    WriterSound (leaveOuterSection w) := by
  unfold leaveOuterSection
  split
  · exact sound
  · have single := sound.single
    refine ⟨?_, ?_, fun _ => rfl⟩
    · dsimp only
      omega
    · simp only [Option.isSome_none, Bool.false_eq_true, false_iff]
      omega

/-- A change of one process keeps what holds of every process, if it holds of the new one. -/
theorem writers_update {P : Writer → Prop} {w : Writer} {q : Nat} (kept : ∀ p, P (s.writers p))
    (new : P w) (p : Nat) : P (Function.update s.writers q w p) := by
  by_cases same : p = q
  · rw [same, Function.update_self]
    exact new
  · rw [Function.update_of_ne same]
    exact kept p

/-- No outer section of a process is open or ending while the writers' lock is free. -/
theorem Sound.none_open (sound : Sound s) (free : s.legacy = none) (p : Nat) :
    (s.writers p).outer + (s.writers p).leaving = 0 := by
  by_contra opened
  have held := (sound.locked (.writer p)).2 (Nat.pos_of_ne_zero opened)
  rw [free] at held
  cases held

theorem writer_step (sound : Sound s) (p : Nat) : WriterSound ((step action s).writers p) := by
  have kept := sound.writer
  cases action with
  | own d | disown d | maintain m | maintainLegacy m | giveUp m | releaseLegacy m
  | releaseDaemon m =>
      rw [step]
      split <;> exact kept p
  | enter q => exact writers_update kept (enterSection_sound (kept q)) p
  | leaveNested q => exact writers_update kept (leaveNestedSection_sound (kept q)) p
  | leaveOuter q => exact writers_update kept (leaveOuterSection_sound (kept q)) p
  | lockFile q =>
      rw [step]
      dsimp only
      split
      · next ready =>
        have none := sound.none_open ready.2 q
        refine writers_update kept ⟨?_, ?_, fun waits => ?_⟩ p
        · dsimp only
          omega
        · simp
        · cases waits
      · exact kept p
  | unlockFile q =>
      rw [step]
      dsimp only
      split
      · exact kept p
      · have single := (kept q).single
        have ended : WriterSound { s.writers q with leaving := (s.writers q).leaving - 1 } := by
          refine ⟨?_, (kept q).entry, (kept q).waits⟩
          dsimp only
          omega
        exact writers_update kept ended p
  | crash party =>
      cases party with
      | daemon d | maintenance m => exact kept p
      | writer q => exact writers_update kept writerSound_fresh p

/-- A change of a process that keeps its outer sections. -/
theorem locks_sections {p : Nat} {w : Writer} {ownership legacy : Option Party}
    (same : w.outer + w.leaving = (s.writers p).outer + (s.writers p).leaving) (other : Party) :
    Locks { s.setWriter p w with ownership := ownership, legacy := legacy } other ↔
      Locks s other := by
  by_cases here : other = .writer p
  · rw [here]
    simp only [Locks, State.setWriter, Function.update_self, same]
  · exact locks_setWriter here

/-- A change of the stage outside. -/
theorem locks_stage {m : Nat} {stage : Stage} {ownership legacy : Option Party}
    (after : stage ≠ .inside) (before : s.maintenance m ≠ .inside) (other : Party) :
    Locks { s.setStage m stage with ownership := ownership, legacy := legacy } other ↔
      Locks s other := by
  by_cases same : other = .maintenance m
  · rw [same]
    simp [Locks, State.setStage, after, before]
  · exact locks_setStage same

theorem leaveOuterSection_total (w : Writer) :
    (leaveOuterSection w).outer + (leaveOuterSection w).leaving = w.outer + w.leaving := by
  unfold leaveOuterSection
  split
  · rfl
  · dsimp only
    omega

theorem locked_step (sound : Sound s) :
    Agrees (step action s).legacy (Locks (step action s)) := by
  have locked := sound.locked
  cases action with
  | own d | disown d =>
      rw [step]
      split
      · exact locked.keep fun other => locks_setDaemon
      · exact locked
  | maintain m =>
      rw [step]
      split
      · next ready => exact locked.keep (locks_stage (by decide) (by rw [ready.1]; decide))
      · exact locked
  | maintainLegacy m =>
      rw [step]
      split
      · next ready =>
        refine locked.take ready.2 ?_ fun other apart => locks_setStage apart
        simp [Locks, State.setStage]
      · exact locked
  | giveUp m =>
      rw [step]
      split
      · next tried => exact locked.keep (locks_stage (by decide) (by rw [tried]; decide))
      · exact locked
  | releaseLegacy m =>
      rw [step]
      split
      · refine locked.give ?_ fun other apart => locks_setStage apart
        simp [Locks, State.setStage]
      · exact locked
  | releaseDaemon m =>
      rw [step]
      split
      · next done => exact locked.keep (locks_stage (by decide) (by rw [done]; decide))
      · exact locked
  | enter p =>
      refine locked.keep (locks_sections ?_)
      unfold enterSection
      split
      · rfl
      · split <;> rfl
  | leaveNested p =>
      refine locked.keep (locks_sections ?_)
      unfold leaveNestedSection
      split <;> rfl
  | leaveOuter p => exact locked.keep (locks_sections (leaveOuterSection_total _))
  | lockFile p =>
      rw [step]
      dsimp only
      split
      · next ready =>
        refine locked.take ready.2 ?_ fun other apart => locks_setWriter apart
        simp only [Locks, State.setWriter, Function.update_self]
        omega
      · exact locked
  | unlockFile p =>
      rw [step]
      dsimp only
      split
      · exact locked
      · next ending =>
        have single := (sound.writer p).single
        refine locked.give ?_ fun other apart => locks_setWriter apart
        simp only [Locks, State.setWriter, Function.update_self]
        omega
  | crash party =>
      cases party with
      | daemon d => exact locked.give (fun held => held) fun other _ => locks_setDaemon
      | maintenance m =>
          refine locked.give ?_ fun other apart => locks_setStage apart
          simp [step, endParty, Locks, State.setStage]
      | writer p =>
          refine locked.give ?_ fun other apart => locks_setWriter apart
          simp [step, endParty, Locks, State.setWriter, Writer.fresh]

theorem sound_step (sound : Sound s) : Sound (step action s) :=
  ⟨owned_step sound.owned, locked_step sound, writer_step sound⟩

theorem sound_reached {ok : Action → State → Prop} (reached : Reachable step ok .initial s) :
    Sound s :=
  reached.induction sound_initial fun _ _ _ => sound_step

/-! ## Exclusion -/

/-- A maintenance run past its first lock is the only party that has the first lock, and inside it
is the only one that has either. -/
theorem maintenance_alone {ok : Action → State → Prop} (reached : Reachable step ok .initial s)
    {m : Nat} (busy : s.maintenance m ≠ .idle) :
    (∀ d, s.daemons d = false) ∧ (∀ m', m' ≠ m → s.maintenance m' = .idle) ∧
      (s.maintenance m = .inside → ∀ p, (s.writers p).outer = 0) := by
  have sound := sound_reached reached
  have mine : Owns s (.maintenance m) := busy
  refine ⟨fun d => ?_, fun m' apart => ?_, fun inside p => ?_⟩
  · rw [Bool.eq_false_iff]
    intro serves
    have theirs : Owns s (.daemon d) := serves
    cases sound.owned.unique mine theirs
  · by_contra started
    have theirs : Owns s (.maintenance m') := started
    cases sound.owned.unique mine theirs
    exact apart rfl
  · by_contra opened
    have mine : Locks s (.maintenance m) := inside
    have theirs : Locks s (.writer p) := Nat.add_pos_left (Nat.pos_of_ne_zero opened) _
    cases sound.locked.unique mine theirs

/-- A maintenance run with both locks. -/
def maintained : List Action := [.maintain 0, .maintainLegacy 0]

theorem maintained_alone :
    (∀ d, (run step maintained .initial).daemons d = false) ∧
      (∀ m', m' ≠ 0 → (run step maintained .initial).maintenance m' = .idle) ∧
      ((run step maintained .initial).maintenance 0 = .inside →
        ∀ p, ((run step maintained .initial).writers p).outer = 0) :=
  maintenance_alone ⟨maintained, Admits.always _ _, rfl⟩ (by decide)

/-- A nested section lies inside an outer one of its process. -/
def Inside (w : Writer) : Prop := 0 < w.nested → 0 < w.outer

def Nested (s : State) : Prop := ∀ p, Inside (s.writers p)

theorem nested_step (orderly : Orderly action s) (sound : Sound s) (nested : Nested s) :
    Nested (step action s) := by
  intro p
  cases action with
  | own d | disown d | maintain m | maintainLegacy m | giveUp m | releaseLegacy m
  | releaseDaemon m =>
      rw [step]
      split <;> exact nested p
  | enter q =>
      refine writers_update (P := Inside) nested ?_ p
      unfold enterSection
      split
      · exact nested q
      · split
        · next count entry =>
          intro _
          exact (sound.writer q).entry.1 (by rw [entry]; rfl)
        · exact nested q
  | lockFile q =>
      rw [step]
      dsimp only
      split
      · exact writers_update (P := Inside) nested (fun _ => Nat.succ_pos _) p
      · exact nested p
  | leaveNested q =>
      refine writers_update (P := Inside) nested ?_ p
      unfold leaveNestedSection
      split
      · exact nested q
      · intro more
        exact nested q (Nat.lt_of_lt_of_le more (Nat.sub_le _ _))
  | leaveOuter q =>
      refine writers_update (P := Inside) nested ?_ p
      have ended : (s.writers q).nested = 0 := orderly
      unfold leaveOuterSection
      split
      · exact nested q
      · intro more
        dsimp only at more
        omega
  | unlockFile q =>
      rw [step]
      dsimp only
      split
      · exact nested p
      · refine writers_update (P := Inside) nested ?_ p
        exact nested q
  | crash party =>
      cases party with
      | daemon d | maintenance m => exact nested p
      | writer q =>
          have fresh : Inside .fresh := fun more => absurd more (Nat.lt_irrefl 0)
          exact writers_update nested fresh p

/-- In a run of orderly steps the sections of a process lie where it has the file. -/
theorem locks_of_section (reached : Reachable step Orderly .initial s) {p : Nat}
    (opened : 0 < (s.writers p).sections) : Locks s (.writer p) := by
  have both : Sound s ∧ Nested s := by
    refine reached.induction (P := fun s => Sound s ∧ Nested s) ⟨sound_initial, ?_⟩ ?_
    · intro p more
      exact absurd more (Nat.lt_irrefl 0)
    · rintro action s orderly ⟨sound, nested⟩
      exact ⟨sound_step sound, nested_step orderly sound nested⟩
  have nested : 0 < (s.writers p).nested → 0 < (s.writers p).outer := both.2 p
  unfold Writer.sections at opened
  unfold Locks
  omega

/-- When outer sections end last, only one process has sections open, and none has while a
maintenance run is inside. -/
theorem sections_exclude (reached : Reachable step Orderly .initial s) {p : Nat}
    (opened : 0 < (s.writers p).sections) :
    (∀ q, 0 < (s.writers q).sections → q = p) ∧ ∀ m, s.maintenance m ≠ .inside := by
  have sound := sound_reached reached
  have mine := locks_of_section reached opened
  constructor
  · intro q other
    cases sound.locked.unique mine (locks_of_section reached other)
    rfl
  · intro m inside
    have theirs : Locks s (.maintenance m) := inside
    cases sound.locked.unique mine theirs

/-- One process opens a section inside another. -/
def nestedSections : List Action := [.enter 1, .lockFile 1, .enter 1]

theorem nestedSections_exclude :
    (∀ q, 0 < ((run step nestedSections .initial).writers q).sections → q = 1) ∧
      ∀ m, (run step nestedSections .initial).maintenance m ≠ .inside :=
  sections_exclude ⟨nestedSections, ⟨trivial, trivial, trivial, trivial⟩, rfl⟩ (by decide)

/-! ## An outer section that ends first -/

theorem unlockFile_frees {p : Nat} (held : s.legacy = some (.writer p))
    (ending : (s.writers p).leaving ≠ 0) :
    (step (.unlockFile p) s).legacy = none ∧
      (step (.unlockFile p) s).ownership = s.ownership := by
  rw [step]
  dsimp only
  rw [if_neg ending, held]
  exact ⟨freed_self _, rfl⟩

/-- Once an outer section has ended and unlocked its file, the writers' lock is free. -/
theorem outer_frees {p : Nat} (sound : Sound s) (outer : 0 < (s.writers p).outer) :
    (step (.unlockFile p) (step (.leaveOuter p) s)).legacy = none ∧
      (step (.unlockFile p) (step (.leaveOuter p) s)).ownership = s.ownership := by
  have held : s.legacy = some (.writer p) :=
    (sound.locked (.writer p)).2 (Nat.add_pos_left outer _)
  have busy : ¬ ((s.writers p).entering = true ∨ (s.writers p).outer = 0) := by
    rintro (waits | none)
    · have none := (sound.writer p).waiting waits
      omega
    · omega
  have ending : ((step (.leaveOuter p) s).writers p).leaving = (s.writers p).leaving + 1 := by
    simp only [step, State.setWriter, Function.update_self, leaveOuterSection, if_neg busy]
  exact unlockFile_frees (s := step (.leaveOuter p) s) held (by rw [ending]; omega)

/-- A thread that enters while the writers' lock is free starts to wait for it, -/
theorem enter_waits (sound : Sound s) (free : s.legacy = none) (q : Nat) :
    ((step (.enter q) s).writers q).entering = true := by
  have absent : (s.writers q).registered = none := by
    rw [← Option.not_isSome_iff_eq_none]
    intro entry
    have outer := (sound.writer q).entry.1 entry
    have none := sound.none_open free q
    omega
  simp only [step, State.setWriter, Function.update_self, enterSection, absent]
  split
  · next waits => exact waits
  · rfl

/-- and has it with the next step. -/
theorem lockFile_enters {q : Nat} (waits : (s.writers q).entering = true) (free : s.legacy = none) :
    0 < ((step (.lockFile q) s).writers q).sections := by
  rw [step]
  dsimp only
  rw [if_pos ⟨waits, free⟩]
  simp only [State.setWriter, Function.update_self, Writer.sections]
  omega

theorem leaveOuter_nested (p : Nat) :
    ((step (.leaveOuter p) s).writers p).nested = (s.writers p).nested := by
  simp only [step, State.setWriter, Function.update_self, leaveOuterSection]
  split <;> rfl

theorem unlockFile_nested (p : Nat) :
    ((step (.unlockFile p) s).writers p).nested = (s.writers p).nested := by
  rw [step]
  dsimp only
  split
  · rfl
  · simp only [State.setWriter, Function.update_self]

theorem lockFile_other {p q : Nat} (apart : p ≠ q) :
    (step (.lockFile q) s).writers p = s.writers p := by
  rw [step]
  dsimp only
  split
  · exact Function.update_of_ne apart ..
  · rfl

/-- Process `p` ends its outer section, then process `q` enters one. -/
def passOn (p q : Nat) : List Action :=
  [.leaveOuter p, .unlockFile p, .enter q, .lockFile q]

/-- Whenever an outer section ends before a nested one, any other process can come in beside it. -/
theorem sections_overlap {ok : Action → State → Prop} (reached : Reachable step ok .initial s)
    {p q : Nat} (outer : 0 < (s.writers p).outer) (nested : 0 < (s.writers p).nested)
    (apart : p ≠ q) :
    0 < ((run step (passOn p q) s).writers p).sections ∧
      0 < ((run step (passOn p q) s).writers q).sections := by
  have sound := sound_reached reached
  have free := (outer_frees sound outer).1
  simp only [passOn, run_cons, run_nil]
  constructor
  · have entered : ∀ s : State, (step (.enter q) s).writers p = s.writers p := fun s =>
      Function.update_of_ne apart ..
    have still : ((step (.unlockFile p) (step (.leaveOuter p) s)).writers p).nested =
        (s.writers p).nested := (unlockFile_nested p).trans (leaveOuter_nested p)
    rw [lockFile_other apart, entered, Writer.sections, still]
    omega
  · exact lockFile_enters (enter_waits (sound_step (sound_step sound)) free q) free

theorem nestedSections_overlap :
    0 < ((run step (passOn 1 2) (run step nestedSections .initial)).writers 1).sections ∧
      0 < ((run step (passOn 1 2) (run step nestedSections .initial)).writers 2).sections :=
  sections_overlap ⟨nestedSections, Admits.always _ _, rfl⟩ (by decide) (by decide) (by decide)

/-! ## The locks come back -/

/-- Who takes a step; a crash is nobody's. -/
def actor : Action → Option Party
  | .own d | .disown d => some (.daemon d)
  | .maintain m | .maintainLegacy m | .giveUp m | .releaseLegacy m | .releaseDaemon m =>
      some (.maintenance m)
  | .enter p | .lockFile p | .leaveNested p | .leaveOuter p | .unlockFile p => some (.writer p)
  | .crash _ => none

theorem releaseLegacy_frees {m : Nat} (held : s.legacy = some (.maintenance m))
    (inside : s.maintenance m = .inside) :
    (step (.releaseLegacy m) s).legacy = none ∧
      (step (.releaseLegacy m) s).ownership = s.ownership := by
  rw [step, if_pos inside, held]
  exact ⟨freed_self _, rfl⟩

theorem disown_frees {d : Nat} (held : s.ownership = some (.daemon d))
    (serves : s.daemons d = true) :
    (step (.disown d) s).ownership = none ∧ (step (.disown d) s).legacy = s.legacy := by
  rw [step, if_pos serves, held]
  exact ⟨freed_self _, rfl⟩

theorem releaseDaemon_frees {m : Nat} (held : s.ownership = some (.maintenance m))
    (releasing : s.maintenance m = .releasing) :
    (step (.releaseDaemon m) s).ownership = none ∧
      (step (.releaseDaemon m) s).legacy = s.legacy := by
  rw [step, if_pos releasing, held]
  exact ⟨freed_self _, rfl⟩

/-- The holder of the writers' lock gives it back. -/
theorem legacy_freed (sound : Sound s) :
    ∃ actions, (∀ action ∈ actions, ∃ party, actor action = some party ∧ s.legacy = some party) ∧
      (run step actions s).legacy = none ∧ (run step actions s).ownership = s.ownership := by
  cases held : s.legacy with
  | none => exact ⟨[], by simp, held, rfl⟩
  | some party =>
      have locks := (sound.locked party).1 held
      cases party with
      | daemon d => exact absurd locks id
      | maintenance m => exact ⟨[.releaseLegacy m], by simp [actor], releaseLegacy_frees held locks⟩
      | writer p =>
          by_cases outer : 0 < (s.writers p).outer
          · exact ⟨[.leaveOuter p, .unlockFile p], by simp [actor], outer_frees sound outer⟩
          · have ending : (s.writers p).leaving ≠ 0 := by
              unfold Locks at locks
              omega
            exact ⟨[.unlockFile p], by simp [actor], unlockFile_frees held ending⟩

/-- With the writers' lock free, the holder of the daemon's lock gives it back. -/
theorem ownership_freed (sound : Sound s) (free : s.legacy = none) :
    ∃ actions,
      (∀ action ∈ actions, ∃ party, actor action = some party ∧ s.ownership = some party) ∧
      (run step actions s).ownership = none ∧ (run step actions s).legacy = s.legacy := by
  cases held : s.ownership with
  | none => exact ⟨[], by simp, held, rfl⟩
  | some party =>
      have owns := (sound.owned party).1 held
      cases party with
      | daemon d => exact ⟨[.disown d], by simp [actor], disown_frees held owns⟩
      | maintenance m =>
          cases stage : s.maintenance m with
          | idle => exact absurd stage owns
          | daemonLocked =>
              refine ⟨[.giveUp m, .releaseDaemon m], by simp [actor], ?_⟩
              have gaveUp : step (.giveUp m) s = s.setStage m .releasing := by
                rw [step, if_pos stage]
              rw [run_cons, run_cons, run_nil, gaveUp]
              refine releaseDaemon_frees (s := s.setStage m .releasing) held ?_
              exact Function.update_self ..
          | inside =>
              have locked := (sound.locked (.maintenance m)).2 stage
              rw [free] at locked
              cases locked
          | releasing => exact ⟨[.releaseDaemon m], by simp [actor], releaseDaemon_frees held stage⟩
      | writer p => exact absurd owns id

/-- From every state the holders give both locks back by steps of their own, so nobody waits for a
party that waits. -/
theorem locks_freed {ok : Action → State → Prop} (reached : Reachable step ok .initial s) :
    ∃ actions,
      (∀ action ∈ actions, ∃ party, actor action = some party ∧
        (s.ownership = some party ∨ s.legacy = some party)) ∧
      (run step actions s).ownership = none ∧ (run step actions s).legacy = none := by
  have sound := sound_reached reached
  obtain ⟨first, writers, free, kept⟩ := legacy_freed sound
  have sound' : Sound (run step first s) :=
    run_induction (fun _ _ _ => sound_step) sound (Admits.always first s)
  obtain ⟨second, owners, freed, unlocked⟩ := ownership_freed sound' free
  refine ⟨first ++ second, ?_, ?_⟩
  · intro action mem
    rcases List.mem_append.1 mem with early | late
    · obtain ⟨party, takes, holds⟩ := writers action early
      exact ⟨party, takes, .inr holds⟩
    · obtain ⟨party, takes, holds⟩ := owners action late
      exact ⟨party, takes, .inl (kept ▸ holds)⟩
  · rw [run_append]
    exact ⟨freed, unlocked.trans free⟩

theorem nestedSections_freed :
    ∃ actions,
      (∀ action ∈ actions, ∃ party, actor action = some party ∧
        ((run step nestedSections .initial).ownership = some party ∨
          (run step nestedSections .initial).legacy = some party)) ∧
      (run step actions (run step nestedSections .initial)).ownership = none ∧
      (run step actions (run step nestedSections .initial)).legacy = none :=
  locks_freed ⟨nestedSections, Admits.always _ _, rfl⟩

end Enfold.Laws.DatabaseLocks
