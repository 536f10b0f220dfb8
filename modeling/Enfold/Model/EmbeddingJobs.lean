/-
# Model.EmbeddingJobs -- the embedding outbox and stored vectors (`embedding_jobs.py`)

`enqueueInTransaction` is what a write calls for the fact it leaves current.
`upsertInTransaction` is how a prepared vector reaches `fact_embeddings`; it is the only
source of the vectors the near-duplicate search reads.
-/
import Enfold.Model.Schema

namespace Enfold.Model

open Enfold.Theory

set_option autoImplicit false

structure EmbeddingSpec where
  documentIdentity : String
  embeddingVersion : String
  dimensions : Nat

/-- The stored vector a completed job stands for is there. -/
def HasVector (s : Store) (spec : EmbeddingSpec) (factId : Nat) : Prop :=
  ∃ e ∈ s.factEmbeddings.rows, e.factId = factId ∧ e.embeddingIdentity = spec.documentIdentity ∧
    e.dim = spec.dimensions

instance (s : Store) (spec : EmbeddingSpec) (factId : Nat) : Decidable (HasVector s spec factId) :=
  inferInstanceAs (Decidable (∃ e ∈ s.factEmbeddings.rows, _))

/-- A new job starts pending; a completed one whose vector is gone is restarted; any other
is left alone. -/
def enqueueInTransaction (host : Host) (spec : EmbeddingSpec) (now : String) (s : Store)
    (factId : Nat) : Py Store := do
  match s.facts.get? factId with
  | none => throw (runtimeError "cannot enqueue an embedding for a missing fact")
  | some fact =>
      let job : JobRow :=
        { jobId := nextRowId (s.embeddingJobs.rows.map JobRow.jobId), factId
          documentIdentity := spec.documentIdentity, embeddingVersion := spec.embeddingVersion
          dimensions := spec.dimensions, contentSha256 := host.sha256 fact.content
          status := .pending, attempts := 0, availableAt := now, leaseToken := none
          leaseOwner := none, leaseExpiresAt := none, lastError := none, createdAt := now
          updatedAt := now, completedAt := none }
      match s.embeddingJobs.insert? job with
      | some embeddingJobs => return { s with embeddingJobs }
      | none =>
          let embeddingJobs := s.embeddingJobs.update
            (fun old => old.factId = factId ∧ old.documentIdentity = spec.documentIdentity ∧
              old.status = .completed ∧ ¬ HasVector s spec factId)
            (fun old => { job with jobId := old.jobId, factId := old.factId
                                   documentIdentity := old.documentIdentity
                                   createdAt := old.createdAt })
            (fun _ => rfl)
          return { s with embeddingJobs }

/-- `INSERT INTO fact_embeddings … ON CONFLICT DO UPDATE`. -/
def upsertInTransaction (spec : EmbeddingSpec) (s : Store) (factId : Nat)
    (embedding : List Decimal) : Py Store := do
  require (embedding.length = spec.dimensions)
    ⟨.foreign, "prepared document embedding is invalid"⟩
  require (s.facts.get? factId ≠ none) SQLite.foreignKey
  let row : EmbeddingRow := ⟨factId, spec.documentIdentity, embedding, spec.dimensions⟩
  match s.factEmbeddings.insert? row with
  | some factEmbeddings => return { s with factEmbeddings }
  | none =>
      let factEmbeddings := s.factEmbeddings.update
        (fun old => old.factId = factId ∧ old.embeddingIdentity = spec.documentIdentity)
        (fun old => { old with embedding, dim := spec.dimensions })
        (fun _ => rfl)
      return { s with factEmbeddings }

end Enfold.Model
