/-
# Laws.MatrixCache -- how old a cached matrix can be

* `matrix_since_write`: whatever others write, the matrix a handle returns is the one of some state
  the store has been in since the handle's own last write;
* `others_unseen`: what others write after a call is not seen by the next call for the same matrix;
* `matrix_current`: while others leave the vectors alone, it is the one of the store as it is.
-/
import Enfold.Laws.DerivedIndex
import Enfold.Model.MatrixCache
import Enfold.Theory.Run

namespace Enfold.Laws.MatrixCache

open Enfold.Theory Enfold.Model Enfold.Model.MatrixCache

set_option autoImplicit false

variable {V : Type} {host : Host} {normed : List Decimal → V} {self : EmbedStore} {state : State V}
  {action : Action} {db : VecDb}

/-- A cached matrix is the one of a store. -/
def Reads (normed : List Decimal → V) (cached : Cached V) (s : Store) : Prop :=
  cached.matrix = EmbedStore.normedMatrix normed s cached.dim cached.identity

/-- The answer is the cached matrix, or is read from the store; so is the cache it leaves. -/
theorem embeddingMatrix_cases (normed : List Decimal → V) (self : EmbedStore) (state : State V)
    (dim : Nat) (embeddingIdentity : Option String) :
    ((self.embeddingMatrix normed state dim embeddingIdentity).2 ∈ state.cache ∨
        Reads normed (self.embeddingMatrix normed state dim embeddingIdentity).2 state.db.store) ∧
      (self.embeddingMatrix normed state dim embeddingIdentity).2.dim = dim ∧
      (self.embeddingMatrix normed state dim embeddingIdentity).2.identity =
        self.matrixIdentity embeddingIdentity ∧
      (self.embeddingMatrix normed state dim embeddingIdentity).1 =
        (self.embeddingMatrix normed state dim embeddingIdentity).2.matrix := by
  unfold EmbedStore.embeddingMatrix
  dsimp only
  cases held : state.cache with
  | none => exact ⟨.inr rfl, rfl, rfl, rfl⟩
  | some cached =>
      dsimp only
      split
      · next hit => exact ⟨.inl rfl, hit.1, hit.2, rfl⟩
      · exact ⟨.inr rfl, rfl, rfl, rfl⟩

/-! ## Any writes of others -/

/-- The cache was read since the last write, and the store as it is counts as one of the states. -/
structure Sound (normed : List Decimal → V) (state : State V) : Prop where
  now : state.db.store ∈ state.since
  read : ∀ cached ∈ state.cache, ∃ s ∈ state.since, Reads normed cached s

theorem sound_fresh (normed : List Decimal → V) (db : VecDb) :
    Sound normed (⟨db, none, [db.store]⟩ : State V) := by
  refine ⟨List.mem_singleton_self _, ?_⟩
  intro cached held
  cases held

/-- One more state of the store. -/
theorem Sound.later (sound : Sound normed state) (db : VecDb) :
    Sound normed { state with db, since := db.store :: state.since } := by
  refine ⟨List.mem_cons_self, fun cached held => ?_⟩
  obtain ⟨s, mem, reads⟩ := sound.read cached held
  exact ⟨s, List.mem_cons_of_mem _ mem, reads⟩

theorem Sound.written (sound : Sound normed state) (outcome : Py VecDb) :
    Sound normed (written state outcome) := by
  cases outcome with
  | ok db => exact sound_fresh normed db
  | error e => exact sound

theorem sound_step (sound : Sound normed state) :
    Sound normed (advance host normed self action state) := by
  cases action with
  | upsert factId vec embeddingIdentity => exact sound.written _
  | delete factId => exact sound.written _
  | pruneIdentities keep =>
      unfold advance
      dsimp only
      split
      · split
        · exact sound.later _
        · exact sound_fresh normed _
      · exact sound
  | embeddingMatrix dim embeddingIdentity =>
      refine ⟨sound.now, fun cached held => ?_⟩
      cases held
      rcases (embeddingMatrix_cases normed self state dim embeddingIdentity).1 with kept | read
      · exact sound.read _ kept
      · exact ⟨_, sound.now, read⟩
  | others db => exact sound.later db

/-- Whatever others write, the matrix of a call is the one of a state in which the store has been
since the handle's own last write. -/
theorem matrix_since_write {ok : Action → State V → Prop}
    (reached : Reachable (advance host normed self) ok (.opened db) state) (dim : Nat)
    (embeddingIdentity : Option String) :
    ∃ s ∈ state.since, (self.embeddingMatrix normed state dim embeddingIdentity).1 =
      EmbedStore.normedMatrix normed s dim (self.matrixIdentity embeddingIdentity) := by
  have sound := reached.induction (sound_fresh normed db) fun _ _ _ => sound_step
  obtain ⟨source, width, identity, answer⟩ :=
    embeddingMatrix_cases normed self state dim embeddingIdentity
  have reads : ∃ s ∈ state.since,
      Reads normed (self.embeddingMatrix normed state dim embeddingIdentity).2 s := by
    rcases source with kept | read
    · exact sound.read _ kept
    · exact ⟨_, sound.now, read⟩
  obtain ⟨s, mem, reads⟩ := reads
  refine ⟨s, mem, ?_⟩
  unfold Reads at reads
  rw [answer, reads, width, identity]

/-- A handle for the vectors of the sample store. -/
def sampleStore : EmbedStore := ⟨some "sample", none⟩

/-- Others empty the database after the matrix was read. -/
def emptied : List Action := [.embeddingMatrix 1 none, .others VecDb.empty]

theorem emptied_since_write :
    ∃ s ∈ (run (advance Sample.host id sampleStore) emptied (.opened VecSystem.indexedState.db)).since,
      (sampleStore.embeddingMatrix id
        (run (advance Sample.host id sampleStore) emptied (.opened VecSystem.indexedState.db)) 1 none).1 =
          EmbedStore.normedMatrix id s 1 (sampleStore.matrixIdentity none) :=
  matrix_since_write ⟨emptied, Admits.always _ _, rfl⟩ 1 none

/-- What others write between two calls for one matrix is not seen. -/
theorem others_unseen (host : Host) (normed : List Decimal → V) (self : EmbedStore) (state : State V)
    (dim : Nat) (embeddingIdentity : Option String) (db : VecDb) :
    (self.embeddingMatrix normed (run (advance host normed self)
      [.embeddingMatrix dim embeddingIdentity, .others db] state) dim embeddingIdentity).1 =
        (self.embeddingMatrix normed state dim embeddingIdentity).1 := by
  obtain ⟨-, width, identity, answer⟩ :=
    embeddingMatrix_cases normed self state dim embeddingIdentity
  simp only [run_cons, run_nil, advance]
  generalize self.embeddingMatrix normed state dim embeddingIdentity = first at width identity answer
  rw [EmbedStore.embeddingMatrix]
  dsimp only
  rw [if_pos ⟨width, identity⟩, answer]

/-! ## Others that leave the vectors alone -/

/-- Others do not write vectors. -/
def VectorsKept : Action → State V → Prop
  | .others db, state => db.store.factEmbeddings = state.db.store.factEmbeddings
  | _, _ => True

/-- The cache is the matrix of the store as it is. -/
def Current (normed : List Decimal → V) (state : State V) : Prop :=
  ∀ cached ∈ state.cache, Reads normed cached state.db.store

theorem current_fresh (normed : List Decimal → V) (db : VecDb) (since : List Store) :
    Current normed (⟨db, none, since⟩ : State V) := by
  intro cached held
  cases held

/-- The matrix is read from the vectors alone. -/
theorem Current.kept (current : Current normed state) {since : List Store}
    (same : db.store.factEmbeddings = state.db.store.factEmbeddings) :
    Current normed { state with db, since } := by
  intro cached held
  have reads := current cached held
  unfold Reads EmbedStore.normedMatrix EmbedStore.matrixRows at reads ⊢
  rw [same]
  exact reads

theorem Current.written (current : Current normed state) (outcome : Py VecDb) :
    Current normed (written state outcome) := by
  cases outcome with
  | ok db => exact current_fresh normed db _
  | error e => exact current

/-- Deleting no row leaves the table as it is. -/
theorem delete_none {K R : Type} {key : R → K} {t : Table K R key} {p : R → Prop}
    [DecidablePred p] (none : t.rowcount p = 0) : t.delete p = t := by
  have rows : t.rows.filter (fun r => ¬ p r) = t.rows := by
    refine List.filter_eq_self.2 fun r mem => ?_
    have absent := List.countP_eq_zero.1 none r mem
    simpa using absent
  exact Table.ext rows

/-- What a prune does to the store, and the number it returns. -/
theorem prune_eq_ok {keep : List String} {deleted : Nat} {after : VecDb}
    (done : self.pruneIdentities keep db = .ok (after, deleted)) :
    after.store = EmbedStore.pruned db.store keep ∧
      deleted = db.store.factEmbeddings.rowcount fun e => e.embeddingIdentity ∉ keep := by
  unfold EmbedStore.pruneIdentities at done
  obtain ⟨-, done⟩ := require_bind_eq_ok.1 done
  dsimp only at done
  split at done
  · cases pure_eq_ok.1 done
    exact ⟨rfl, rfl⟩
  · split at done
    · cases pure_eq_ok.1 done
      exact ⟨rfl, rfl⟩
    · obtain ⟨cleared, ran, done⟩ := bind_eq_ok.1 done
      obtain ⟨table, table', -, -, rfl⟩ := onTable_eq_ok ran
      cases pure_eq_ok.1 done
      exact ⟨rfl, rfl⟩

/-- A prune that deletes nothing leaves the vectors as they are. -/
theorem prune_nothing {keep : List String} {after : VecDb}
    (done : self.pruneIdentities keep db = .ok (after, 0)) :
    after.store.factEmbeddings = db.store.factEmbeddings := by
  obtain ⟨store, deleted⟩ := prune_eq_ok done
  rw [store]
  exact delete_none deleted.symm

theorem current_step (kept : VectorsKept action state) (current : Current normed state) :
    Current normed (advance host normed self action state) := by
  cases action with
  | upsert factId vec embeddingIdentity => exact current.written _
  | delete factId => exact current.written _
  | pruneIdentities keep =>
      unfold advance
      dsimp only
      split
      · next after deleted done =>
        split
        · next nothing =>
          rw [nothing] at done
          exact current.kept (prune_nothing done)
        · exact current_fresh normed _ _
      · exact current
  | embeddingMatrix dim embeddingIdentity =>
      intro cached held
      cases held
      rcases (embeddingMatrix_cases normed self state dim embeddingIdentity).1 with stays | read
      · exact current _ stays
      · exact read
  | others db => exact current.kept kept

/-- While others leave the vectors alone, the matrix of a call is the one of the store as it is. -/
theorem matrix_current (reached : Reachable (advance host normed self) VectorsKept (.opened db) state)
    (dim : Nat) (embeddingIdentity : Option String) :
    (self.embeddingMatrix normed state dim embeddingIdentity).1 =
      EmbedStore.normedMatrix normed state.db.store dim (self.matrixIdentity embeddingIdentity) := by
  have current := reached.induction (current_fresh normed db _) fun _ _ => current_step
  obtain ⟨source, width, identity, answer⟩ :=
    embeddingMatrix_cases normed self state dim embeddingIdentity
  have reads : Reads normed (self.embeddingMatrix normed state dim embeddingIdentity).2
      state.db.store := by
    rcases source with stays | read
    · exact current _ stays
    · exact read
  unfold Reads at reads
  rw [answer, reads, width, identity]

/-- The handle reads the matrix and deletes its vector. -/
def deleted : List Action := [.embeddingMatrix 1 none, .delete 1]

theorem deleted_current :
    (sampleStore.embeddingMatrix id
      (run (advance Sample.host id sampleStore) deleted (.opened VecSystem.indexedState.db)) 1 none).1 =
        EmbedStore.normedMatrix id
          (run (advance Sample.host id sampleStore) deleted (.opened VecSystem.indexedState.db)).db.store 1
          (sampleStore.matrixIdentity none) :=
  matrix_current ⟨deleted, ⟨trivial, trivial, trivial⟩, rfl⟩ 1 none

end Enfold.Laws.MatrixCache
