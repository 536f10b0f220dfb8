/-
# Model.DatabaseLocks -- who may touch a database file (`write_lock.py`, `server.py`, `backup.py`)

Two lock files stand beside a database.  A daemon owns the first while it serves
(`DatabaseOwnership`).  A legacy writer takes the second around a write that spans several
transactions (`cross_process_write_lock`); within one process these sections nest, and a table of the
process counts them.  Maintenance takes both, the daemon's first (`maintenance_database_lock`).

A lock belongs to the open file that took it, so a party waits for its own earlier file as for any
other.  One step is what a party does between two points where another may come in: a call that
locks or unlocks a file, or a block under the table's own lock.

One database is modelled.  The table's own lock (`_held_lock`) is shared by all databases of a
process, and it is held while a writer waits for its file: so a section may also have to wait for a
writer of another database, which is outside this model.
-/
import Enfold.Theory.Holder
import Enfold.Theory.Run
import Mathlib.Logic.Function.Basic

namespace Enfold.Model.DatabaseLocks

open Enfold.Theory

set_option autoImplicit false

/-- Whose open file holds a lock. -/
inductive Party where
  | daemon (id : Nat)
  | maintenance (id : Nat)
  | writer (process : Nat)
  deriving DecidableEq, Repr

/-- Where a maintenance run stands. -/
inductive Stage where
  | idle
  /-- It has the daemon's lock and tries for the writers'. -/
  | daemonLocked
  /-- It has both. -/
  | inside
  /-- It has given back the writers' lock. -/
  | releasing
  deriving DecidableEq, Repr

/-- A process of legacy writers. -/
structure Writer where
  /-- The count in `_held_by_path`, while the database has an entry. -/
  registered : Option Int
  /-- A thread waits for the file lock.  It holds the lock of the table. -/
  entering : Bool
  /-- Sections that took the file lock, and sections that found an entry. -/
  outer : Nat
  nested : Nat
  /-- Outer sections that have removed the entry and are about to unlock the file. -/
  leaving : Nat
  deriving DecidableEq, Repr

def Writer.fresh : Writer := ⟨none, false, 0, 0, 0⟩

/-- The sections in which a thread of the process is. -/
def Writer.sections (w : Writer) : Nat := w.outer + w.nested

structure State where
  /-- The holder of `.enfold.lock`. -/
  ownership : Option Party
  /-- The holder of `.mcp-write.lock`. -/
  legacy : Option Party
  daemons : Nat → Bool
  maintenance : Nat → Stage
  writers : Nat → Writer

def State.initial : State :=
  ⟨none, none, fun _ => false, fun _ => .idle, fun _ => .fresh⟩

def State.setDaemon (s : State) (d : Nat) (owns : Bool) : State :=
  { s with daemons := Function.update s.daemons d owns }

def State.setStage (s : State) (m : Nat) (stage : Stage) : State :=
  { s with maintenance := Function.update s.maintenance m stage }

def State.setWriter (s : State) (p : Nat) (w : Writer) : State :=
  { s with writers := Function.update s.writers p w }

inductive Action where
  /-- `DatabaseOwnership.acquire` and `release`. -/
  | own (d : Nat)
  | disown (d : Nat)
  /-- `maintenance_database_lock`: a try for the first lock and for the second, the two unlocks. -/
  | maintain (m : Nat)
  | maintainLegacy (m : Nat)
  /-- The second lock was not free in time. -/
  | giveUp (m : Nat)
  | releaseLegacy (m : Nat)
  | releaseDaemon (m : Nat)
  /-- A thread enters a section: it finds an entry, or starts to wait for the file. -/
  | enter (p : Nat)
  | lockFile (p : Nat)
  /-- The end of a nested section, and of an outer one. -/
  | leaveNested (p : Nat)
  | leaveOuter (p : Nat)
  | unlockFile (p : Nat)
  /-- The process of the party ends; the system closes its files. -/
  | crash (party : Party)

/-- The part of `cross_process_write_lock` before `yield`, under the lock of the table. -/
def enterSection (w : Writer) : Writer :=
  if w.entering then w
  else
    match w.registered with
    | some count => { w with registered := some (count + 1), nested := w.nested + 1 }
    | none => { w with entering := true }

/-- `finally` of a nested section.  A missing entry raises, and the section is over as well. -/
def leaveNestedSection (w : Writer) : Writer :=
  if w.entering ∨ w.nested = 0 then w
  else { w with registered := w.registered.map (· - 1), nested := w.nested - 1 }

/-- `finally` of an outer section: the entry goes first. -/
def leaveOuterSection (w : Writer) : Writer :=
  if w.entering ∨ w.outer = 0 then w
  else { w with registered := none, outer := w.outer - 1, leaving := w.leaving + 1 }

def endParty (s : State) : Party → State
  | .daemon d => s.setDaemon d false
  | .maintenance m => s.setStage m .idle
  | .writer p => s.setWriter p .fresh

/-- One step; a party that cannot take it waits. -/
def step : Action → State → State
  | .own d, s =>
      if s.ownership = none then { s.setDaemon d true with ownership := some (.daemon d) } else s
  | .disown d, s =>
      if s.daemons d then { s.setDaemon d false with ownership := freed (.daemon d) s.ownership }
      else s
  | .maintain m, s =>
      if s.maintenance m = .idle ∧ s.ownership = none then
        { s.setStage m .daemonLocked with ownership := some (.maintenance m) }
      else s
  | .maintainLegacy m, s =>
      if s.maintenance m = .daemonLocked ∧ s.legacy = none then
        { s.setStage m .inside with legacy := some (.maintenance m) }
      else s
  | .giveUp m, s => if s.maintenance m = .daemonLocked then s.setStage m .releasing else s
  | .releaseLegacy m, s =>
      if s.maintenance m = .inside then
        { s.setStage m .releasing with legacy := freed (.maintenance m) s.legacy }
      else s
  | .releaseDaemon m, s =>
      if s.maintenance m = .releasing then
        { s.setStage m .idle with ownership := freed (.maintenance m) s.ownership }
      else s
  | .enter p, s => s.setWriter p (enterSection (s.writers p))
  | .lockFile p, s =>
      let w := s.writers p
      if w.entering = true ∧ s.legacy = none then
        { s.setWriter p { w with entering := false, registered := some 1, outer := w.outer + 1 } with
          legacy := some (.writer p) }
      else s
  | .leaveNested p, s => s.setWriter p (leaveNestedSection (s.writers p))
  | .leaveOuter p, s => s.setWriter p (leaveOuterSection (s.writers p))
  | .unlockFile p, s =>
      let w := s.writers p
      if w.leaving = 0 then s
      else
        { s.setWriter p { w with leaving := w.leaving - 1 } with legacy := freed (.writer p) s.legacy }
  | .crash party, s =>
      { endParty s party with
        ownership := freed party s.ownership
        legacy := freed party s.legacy }

/-- An outer section ends when the other sections of its process have ended, as it does when one
thread opens them all. -/
def Orderly : Action → State → Prop
  | .leaveOuter p, s => (s.writers p).nested = 0
  | _, _ => True

end Enfold.Model.DatabaseLocks
