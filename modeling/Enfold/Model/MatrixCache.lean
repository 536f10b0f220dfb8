/-
# Model.MatrixCache -- the cached matrix of an embedding store (`embed_store.py`)

A handle keeps the matrix of the last identity and dimension it was asked for, and drops it after a
write of its own.  What other handles and connections write it does not see.  A step is a call of
the handle under its lock, or any change of the database by others between two calls.
-/
import Enfold.Model.OfflineMerge
import Enfold.Model.VecIndex

namespace Enfold.Model

open Enfold.Theory

set_option autoImplicit false

namespace EmbedStore

/-- `_identity_for_storage` of the identity that was given, or of the handle's own. -/
def matrixIdentity (self : EmbedStore) (identity : Option String) : Option String :=
  let identity := identity <|> self.embeddingIdentity
  match givenIdentity identity with
  | some text => some (identityForStorage text)
  | none => identity

/-- The rows of `_embedding_matrix`. -/
def matrixRows (s : Store) (dim : Nat) (identity : Option String) : List EmbeddingRow :=
  match givenIdentity identity with
  | some text => s.factEmbeddings.select fun e => e.dim = dim ∧ e.embeddingIdentity = text
  | none => s.factEmbeddings.select fun e => e.dim = dim

/-- Fact ids with their normalised vectors. -/
def normedMatrix {V : Type} (normed : List Decimal → V) (s : Store) (dim : Nat)
    (identity : Option String) : List (Nat × V) :=
  (matrixRows s dim identity).map fun e => (e.factId, normed e.embedding)

end EmbedStore

namespace MatrixCache

variable {V : Type}

/-- `_cache_dim`, `_cache_identity`, `_cache_ids` and `_cache_matrix`. -/
structure Cached (V : Type) where
  dim : Nat
  identity : Option String
  matrix : List (Nat × V)

structure State (V : Type) where
  db : VecDb
  cache : Option (Cached V)
  /-- The states of the store since the handle last dropped its cache, the newest first. -/
  since : List Store

def State.opened (db : VecDb) : State V := ⟨db, none, [db.store]⟩

inductive Action where
  | upsert (factId : Nat) (vec : List Decimal) (embeddingIdentity : Option String)
  | delete (factId : Nat)
  | pruneIdentities (keep : List String)
  | embeddingMatrix (dim : Nat) (embeddingIdentity : Option String)
  /-- Others leave the database like this. -/
  | others (db : VecDb)

/-- A write of the handle: it drops the cache, unless it raised. -/
def written (state : State V) : Py VecDb → State V
  | .ok db => ⟨db, none, [db.store]⟩
  | .error _ => state

end MatrixCache

/-- `_embedding_matrix`: the answer, and the cache it leaves. -/
def EmbedStore.embeddingMatrix {V : Type} (normed : List Decimal → V) (self : EmbedStore)
    (state : MatrixCache.State V) (dim : Nat) (embeddingIdentity : Option String) :
    List (Nat × V) × MatrixCache.Cached V :=
  let identity := self.matrixIdentity embeddingIdentity
  let read := EmbedStore.normedMatrix normed state.db.store dim identity
  match state.cache with
  | some cached =>
      if cached.dim = dim ∧ cached.identity = identity then (cached.matrix, cached)
      else (read, ⟨dim, identity, read⟩)
  | none => (read, ⟨dim, identity, read⟩)

namespace MatrixCache

variable {V : Type}

def advance (host : Host) (normed : List Decimal → V) (self : EmbedStore) :
    Action → State V → State V
  | .upsert factId vec embeddingIdentity, state =>
      written state (self.upsert host factId vec embeddingIdentity state.db)
  | .delete factId, state => written state (self.delete factId state.db)
  | .pruneIdentities keep, state =>
      match self.pruneIdentities keep state.db with
      | .ok (db, deleted) =>
          if deleted = 0 then { state with db, since := db.store :: state.since }
          else ⟨db, none, [db.store]⟩
      | .error _ => state
  | .embeddingMatrix dim embeddingIdentity, state =>
      { state with cache := some (self.embeddingMatrix normed state dim embeddingIdentity).2 }
  | .others db, state => { state with db, since := db.store :: state.since }

end MatrixCache

end Enfold.Model
