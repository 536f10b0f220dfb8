/-
# Theory.Run -- runs of a deterministic transition system

A system is a step function on states.  A run is a list of operations; `Admits`
says that every operation of the run meets a condition at the state it is applied
in, and `Reachable` is what some admitted run reaches.

There is one induction rule.  What holds at the start and is kept by every
admitted step holds after every admitted run (`run_induction`), hence in every
reachable state (`Reachable.induction`).
-/
import Mathlib.Logic.Basic

namespace Enfold.Theory

set_option autoImplicit false

variable {O S : Type} (step : O → S → S)

/-- The state after a list of operations. -/
def run (ops : List O) (s : S) : S :=
  ops.foldl (fun state op => step op state) s

@[simp] theorem run_nil (s : S) : run step [] s = s := rfl

@[simp] theorem run_cons (op : O) (ops : List O) (s : S) :
    run step (op :: ops) s = run step ops (step op s) := rfl

theorem run_append (ops ops' : List O) (s : S) :
    run step (ops ++ ops') s = run step ops' (run step ops s) :=
  List.foldl_append

/-- Every operation meets `ok` at the state it is applied in. -/
def Admits (ok : O → S → Prop) : List O → S → Prop
  | [], _ => True
  | op :: ops, s => ok op s ∧ Admits ok ops (step op s)

variable {step}

theorem Admits.append {ok : O → S → Prop} {ops ops' : List O} {s : S}
    (first : Admits step ok ops s) (second : Admits step ok ops' (run step ops s)) :
    Admits step ok (ops ++ ops') s := by
  induction ops generalizing s with
  | nil => exact second
  | cons op ops ih => exact ⟨first.1, ih first.2 second⟩

theorem Admits.split {ok : O → S → Prop} {ops ops' : List O} {s : S}
    (admitted : Admits step ok (ops ++ ops') s) :
    Admits step ok ops s ∧ Admits step ok ops' (run step ops s) := by
  induction ops generalizing s with
  | nil => exact ⟨trivial, admitted⟩
  | cons op ops ih =>
      obtain ⟨head, tail⟩ := admitted
      obtain ⟨first, second⟩ := ih tail
      exact ⟨⟨head, first⟩, second⟩

theorem Admits.mono {ok ok' : O → S → Prop} {ops : List O} {s : S}
    (weaker : ∀ op s, ok op s → ok' op s) (admitted : Admits step ok ops s) :
    Admits step ok' ops s := by
  induction ops generalizing s with
  | nil => trivial
  | cons op ops ih => exact ⟨weaker op s admitted.1, ih admitted.2⟩

/-- Every run is admitted when every operation is. -/
theorem Admits.always (ops : List O) (s : S) : Admits step (fun _ _ => True) ops s := by
  induction ops generalizing s with
  | nil => trivial
  | cons op ops ih => exact ⟨trivial, ih (step op s)⟩

/-- What every admitted step keeps, every admitted run keeps. -/
theorem run_induction {ok : O → S → Prop} {P : S → Prop} {ops : List O} {s : S}
    (kept : ∀ op s, ok op s → P s → P (step op s)) (start : P s)
    (admitted : Admits step ok ops s) : P (run step ops s) := by
  induction ops generalizing s with
  | nil => exact start
  | cons op ops ih => exact ih (kept op s admitted.1 start) admitted.2

variable (step)

/-- The states some admitted run reaches from `init`. -/
def Reachable (ok : O → S → Prop) (init s : S) : Prop :=
  ∃ ops, Admits step ok ops init ∧ run step ops init = s

variable {step}

theorem Reachable.refl {ok : O → S → Prop} {init : S} : Reachable step ok init init :=
  ⟨[], trivial, rfl⟩

theorem Reachable.mono {ok ok' : O → S → Prop} {init s : S}
    (weaker : ∀ op s, ok op s → ok' op s) (reached : Reachable step ok init s) :
    Reachable step ok' init s := by
  obtain ⟨ops, admitted, rfl⟩ := reached
  exact ⟨ops, admitted.mono weaker, rfl⟩

/-- The invariant rule: true at the start and kept by every admitted step. -/
theorem Reachable.induction {ok : O → S → Prop} {P : S → Prop} {init s : S}
    (reached : Reachable step ok init s) (start : P init)
    (kept : ∀ op s, ok op s → P s → P (step op s)) : P s := by
  obtain ⟨ops, admitted, rfl⟩ := reached
  exact run_induction kept start admitted

end Enfold.Theory
