/-
# Model.QueryEmbedder -- the cache of query embeddings (`read_pool.py`)

`embed` has two critical sections, and calls the model between them without the cache's lock.  A
step is a critical section of a thread; the steps of different threads come in any order, so two
threads may ask the model for one text.  What the model returns is an input of the step, as a tuple
of numbers (a vector that `float` refuses raises, like the model itself).
-/
import Enfold.Model.Provenance
import Enfold.Theory.OrderedDict
import Mathlib.Logic.Function.Basic

namespace Enfold.Model

open Enfold.Theory

set_option autoImplicit false

structure LRUQueryEmbedder where
  model : String
  maxsize : Int
  named : strip model ≠ ""
  positive : 1 ≤ maxsize

namespace LRUQueryEmbedder

def make (model : String) (maxsize : Int) : Py LRUQueryEmbedder :=
  if named : strip model ≠ "" then
    if positive : 1 ≤ maxsize then .ok ⟨model, maxsize, named, positive⟩
    else .error (valueError "maxsize must be positive")
  else .error (valueError "model must not be empty")

variable {V : Type}

abbrev Key := String × String

abbrev Cache (V : Type) := OrderedDict Key V

def key (embedder : LRUQueryEmbedder) (text : String) : Key := (embedder.model, text)

/-- The second critical section: another thread may have stored the key meanwhile. -/
def store (embedder : LRUQueryEmbedder) (cache : Cache V) (k : Key) (immutable : V) : Cache V × V :=
  match cache.get? k with
  | some existing => (cache.moveToEnd k, existing)
  | none =>
      let grown := (cache.set k immutable).moveToEnd k
      (if embedder.maxsize < grown.entries.length then grown.popFirst else grown, immutable)

/-- The cache, the threads that wait for the model with the text each has asked for, the keys that
were used, the last one first, and what the calls have returned. -/
structure State (V : Type) where
  cache : Cache V
  waiting : Nat → Option String
  uses : List Key
  returned : List (String × Option V)

def State.initial : State V := ⟨.empty, fun _ => none, [], []⟩

inductive Action (V : Type) where
  /-- A thread that waits for nothing calls `embed`. -/
  | embed (thread : Nat) (text : String)
  /-- The model has returned a vector, or none. -/
  | answer (thread : Nat) (vector : Option V)
  | fail (thread : Nat)

def advance (embedder : LRUQueryEmbedder) : Action V → State V → State V
  | .embed thread text, state =>
      match state.waiting thread with
      | some _ => state
      | none =>
          match state.cache.get? (embedder.key text) with
          | some cached =>
              { state with
                cache := state.cache.moveToEnd (embedder.key text)
                uses := embedder.key text :: state.uses
                returned := (text, some cached) :: state.returned }
          | none => { state with waiting := Function.update state.waiting thread (some text) }
  | .answer thread vector, state =>
      match state.waiting thread with
      | none => state
      | some text =>
          let waiting := Function.update state.waiting thread none
          match vector with
          | none => { state with waiting, returned := (text, none) :: state.returned }
          | some immutable =>
              let stored := embedder.store state.cache (embedder.key text) immutable
              { cache := stored.1
                waiting
                uses := embedder.key text :: state.uses
                returned := (text, some stored.2) :: state.returned }
  | .fail thread, state => { state with waiting := Function.update state.waiting thread none }

end LRUQueryEmbedder

end Enfold.Model
