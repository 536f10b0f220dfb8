/-
# Model.OfflineMerge -- merging near duplicates of a store at rest (`cluster_merge.py`)

The maintenance tool over a copy of a store.  `buildClusters` joins the facts whose vectors are
similar, `planMerge` picks a survivor in every cluster and adds up the counts and the tags of its
members, and `executeMerge` writes the plan behind its guard rails.

Similarity is a relation between rows of the matrix: how it is computed from the vectors is left
to the host, as is the product of a trust score with a count.  The connection of the tool does
not enforce foreign keys, so its deletes reach the tables they name only.  The vector index and
the full-text table are left out.
-/
import Enfold.Model.ClusterMerge
import Mathlib.Algebra.GroupWithZero.Nat
import Mathlib.Logic.Function.Basic

namespace Enfold.Model

open Enfold.Theory

set_option autoImplicit false

/-! ## Tables -/

/-- A fact with the counters that the tool merges. -/
structure CountedRow extends FactRow where
  retrievalCount : Int
  helpfulCount : Int
  deriving DecidableEq

structure EntityLink where
  factId : Nat
  entityId : Nat
  deriving DecidableEq

/-- The tables the tool writes, and those whose rows refer to facts. -/
structure MergeStore where
  facts : Table Nat CountedRow fun r => r.factId
  factEmbeddings : Table (Nat × String) EmbeddingRow fun r => (r.factId, r.embeddingIdentity)
  factEntities : Table (Nat × Nat) EntityLink fun r => (r.factId, r.entityId)
  provenance : Table (Nat × Nat × String) ProvenanceRow
    fun r => (r.factId, r.observationId, r.relation)
  writeLog : Table (String × String) WriteLogRow fun r => (r.clientId, r.idempotencyKey)
  conflicts : Table String ConflictRow ConflictRow.conflictId
  conflictMembers : Table (String × Nat) MemberRow fun r => (r.conflictId, r.factId)
  conflictResolutions : Table String ResolutionRow ResolutionRow.conflictId
  erasureLog : Table String ErasureRow ErasureRow.erasureId
  embeddingJobs : Table (Nat × String) JobRow fun r => (r.factId, r.documentIdentity)

/-- What the tool asks of its surroundings. -/
structure MergeHost where
  /-- `row[j] >= threshold` for two rows of the matrix. -/
  similar : Decimal → EmbeddingRow → EmbeddingRow → Bool
  /-- `float(trust_score) * float(retrieval_count)`. -/
  score : Decimal → Int → Decimal
  /-- `max_drop_fraction * starting_fact_count`. -/
  cap : Decimal → Nat → Decimal
  realpath : String → String
  pathExists : String → Bool
  /-- A fraction in the form `.0%`. -/
  percent : Decimal → String
  integrityCheck : MergeStore → Bool
  ftsIntegrityCheck : MergeStore → Bool

/-! ## Union-find -/

/-- `_UnionFind`: the dictionary of parents and its keys. -/
structure UnionFind where
  ids : List Nat
  parent : Nat → Option Nat

namespace UnionFind

def ofIds (ids : List Nat) : UnionFind := ⟨ids, fun i => if i ∈ ids then some i else none⟩

/-- The first loop of `find`.  `none` is a missing key, or more rounds than there are keys. -/
def rootLoop (parent : Nat → Option Nat) : Nat → Nat → Option Nat
  | rounds, root => do
      let next ← parent root
      if next = root then return root
      match rounds with
      | 0 => none
      | rounds + 1 => rootLoop parent rounds next

/-- The second loop of `find`, which points what it passes at the root. -/
def compressLoop (root : Nat) : Nat → (Nat → Option Nat) → Nat → Option (Nat → Option Nat)
  | rounds, parent, x => do
      let next ← parent x
      if next = root then return parent
      match rounds with
      | 0 => none
      | rounds + 1 => compressLoop root rounds (Function.update parent x (some root)) next

def find (uf : UnionFind) (x : Nat) : Option (Nat × UnionFind) := do
  let root ← rootLoop uf.parent uf.ids.length x
  let parent ← compressLoop root uf.ids.length uf.parent x
  return (root, { uf with parent })

def union (uf : UnionFind) (a b : Nat) : Option UnionFind := do
  let (ra, uf) ← uf.find a
  let (rb, uf) ← uf.find b
  if ra ≠ rb then return { uf with parent := Function.update uf.parent ra (some rb) }
  return uf

end UnionFind

/-! ## Clusters -/

def supersededPrefixes : List String := ["superseded", "stale/disabled", "historical/superseded"]

/-- `_is_legacy_superseded`. -/
def isLegacySuperseded (content : String) : Bool :=
  supersededPrefixes.any fun words =>
    words.toList.isPrefixOf ((content.toList.dropWhile isSpace).flatMap lowerChar)

/-- `invalid_at IS NULL`, and the content does not say that it is superseded. -/
def CountedRow.Active (r : CountedRow) : Prop :=
  r.invalidAt = none ∧ isLegacySuperseded r.content = false

instance decidableCountedActive (r : CountedRow) : Decidable r.Active := inferInstanceAs (Decidable (_ ∧ _))

/-- `_active_fact_ids`. -/
def activeFactIds (s : MergeStore) : List Nat := (s.facts.select CountedRow.Active).map (·.factId)

/-- An identity that is given and not empty. -/
def givenIdentity (identity : Option String) : Option String :=
  match identity with
  | some text => if text = "" then none else some text
  | none => none

/-- `text.replace(":query:", ":document:")` on characters. -/
def documentRole : Nat → List Char → List Char
  | 0, cs => cs
  | _ + 1, [] => []
  | fuel + 1, c :: cs =>
      if ":query:".toList.isPrefixOf (c :: cs) then
        ":document:".toList ++ documentRole fuel ((c :: cs).drop ":query:".length)
      else c :: documentRole fuel cs

/-- `_identity_for_storage`. -/
def identityForStorage (identity : String) : String :=
  String.ofList (documentRole identity.length identity.toList)

/-- `_dim`: the width of some row of the identity, or of some row at all. -/
def storedDim (s : MergeStore) (identity : Option String) : Nat :=
  let rows := match givenIdentity identity with
    | some text => s.factEmbeddings.select fun r => r.embeddingIdentity = text
    | none => s.factEmbeddings.rows
  match rows with
  | [] => 0
  | r :: _ => r.dim

/-- The rows of `_embedding_matrix`. -/
def embeddingMatrix (s : MergeStore) (dim : Nat) (identity : Option String) : List EmbeddingRow :=
  match givenIdentity identity with
  | some text =>
      s.factEmbeddings.select fun r =>
        r.dim = dim ∧ r.embeddingIdentity = identityForStorage text
  | none => s.factEmbeddings.select fun r => r.dim = dim

/-- The rows of the matrix that belong to active facts. -/
def activeMatrix (s : MergeStore) (identity : Option String) : List EmbeddingRow :=
  (embeddingMatrix s (storedDim s identity) identity).filter fun r => r.factId ∈ activeFactIds s

/-- The facts of every pair of rows, the first before the second, that are similar. -/
def similarPairs (similar : EmbeddingRow → EmbeddingRow → Bool) :
    List EmbeddingRow → List (Nat × Nat)
  | [] => []
  | row :: rest =>
      (rest.filter fun later => similar row later).map (fun later => (row.factId, later.factId)) ++
        similarPairs similar rest

/-- `groups.setdefault(root, []).append(fid)`. -/
def appendTo (groups : List (Nat × List Nat)) (root fid : Nat) : List (Nat × List Nat) :=
  match groups with
  | [] => [(root, [fid])]
  | (key, members) :: rest =>
      if key = root then (key, members ++ [fid]) :: rest
      else (key, members) :: appendTo rest root fid

/-- The loop that collects the groups. -/
def collectGroups : UnionFind → List (Nat × List Nat) → List Nat → Option (List (Nat × List Nat))
  | _, groups, [] => some groups
  | uf, groups, fid :: rest => do
      let (root, uf) ← uf.find fid
      collectGroups uf (appendTo groups root fid) rest

/-- `build_clusters`. -/
def buildClusters (host : MergeHost) (s : MergeStore) (threshold : Decimal)
    (identity : Option String) : Option (List (List Nat)) := do
  let rows := activeMatrix s identity
  let factIds := rows.map EmbeddingRow.factId
  if factIds.length < 2 then return []
  let uf ← (similarPairs (host.similar threshold) rows).foldlM (fun uf pair =>
    uf.union pair.1 pair.2) (UnionFind.ofIds factIds)
  let groups ← collectGroups uf [] factIds
  return (groups.map Prod.snd).filter fun members => 2 ≤ members.length

/-! ## Survivors -/

/-- The key `(-score, created_at)` of a row is smaller than that of another. -/
def keyBefore (host : MergeHost) (r r' : CountedRow) : Bool :=
  let score := (host.score r.trustScore r.retrievalCount).value
  let score' := (host.score r'.trustScore r'.retrievalCount).value
  score' < score || (score = score' && r.createdAt < r'.createdAt)

/-- `min`: the first row that no other comes before. -/
def firstMin (before : CountedRow → CountedRow → Bool) (best : CountedRow) :
    List CountedRow → CountedRow
  | [] => best
  | r :: rest => firstMin before (if before r best then r else best) rest

/-- `choose_survivor`, on the rows of the members. -/
def chooseSurvivor (host : MergeHost) (rows : List CountedRow) (floodCutoff : String) :
    Option (Nat × List Nat) :=
  let active := rows.filter CountedRow.Active
  let rows := if active = [] then rows else active
  let preExisting := rows.filter fun r => r.createdAt < floodCutoff
  let flood := rows.filter fun r => ¬ r.createdAt < floodCutoff
  let candidates := if preExisting ≠ [] ∧ flood ≠ [] then preExisting else rows
  match candidates with
  | [] => none
  | first :: rest =>
      let survivor := (firstMin (keyBefore host) first rest).factId
      some (survivor, (rows.map (·.factId)).filter (· ≠ survivor))

/-! ## Plans -/

structure ClusterMerge where
  survivorId : Nat
  loserIds : List Nat
  mergedRetrievalCount : Int
  mergedHelpfulCount : Int
  mergedTags : String
  suspicious : Bool

structure MergePlan where
  clusters : List ClusterMerge
  startingFactCount : Nat

namespace MergePlan

def dropCount (plan : MergePlan) : Nat := (plan.clusters.map fun c => c.loserIds.length).sum

def projectedFinalCount (plan : MergePlan) : Int := plan.startingFactCount - plan.dropCount

end MergePlan

/-- One round of the inner loop of `_merge_tags`. -/
def addTag (seen : List String) (tag : String) : List String :=
  if strip tag ≠ "" ∧ strip tag ∉ seen then seen ++ [strip tag] else seen

/-- `_merge_tags`. -/
def mergeTags (tagStrings : List String) : String :=
  ",".intercalate
    (tagStrings.foldl (fun seen tags => (splitAt ',' tags).foldl addTag seen) [])

def planCluster (host : MergeHost) (s : MergeStore) (floodCutoff : String)
    (suspiciousClusterSize : Nat) (members : List Nat) : Option ClusterMerge := do
  let rows ← members.mapM s.facts.get?
  let (survivorId, loserIds) ← chooseSurvivor host rows floodCutoff
  return {
    survivorId, loserIds
    mergedRetrievalCount := (rows.map (·.retrievalCount)).sum
    mergedHelpfulCount := (rows.map (·.helpfulCount)).sum
    mergedTags := mergeTags (rows.map (·.tags))
    suspicious := suspiciousClusterSize < members.length }

/-- `plan_merge`.  `none` is a key that is missing or a loop that does not end. -/
def planMerge (host : MergeHost) (s : MergeStore) (threshold : Decimal) (floodCutoff : String)
    (identity : Option String) (suspiciousClusterSize : Nat) : Option MergePlan := do
  let clusters ← buildClusters host s threshold identity
  let merges ← clusters.mapM (planCluster host s floodCutoff suspiciousClusterSize)
  return ⟨merges, s.facts.rows.length⟩

/-! ## Execution -/

structure MergeCall where
  dbPath : String
  threshold : Decimal
  floodCutoff : String
  embeddingIdentity : Option String
  backupPath : String
  expectedDropMin : Int
  expectedDropMax : Int
  dryRun : Bool
  suspiciousClusterSize : Nat
  maxDropFraction : Decimal

structure MergeResult where
  dryRun : Bool
  dropCount : Nat
  projectedFinalCount : Int
  finalFactCount : Option Nat
  integrityOk : Option Bool
  ftsIntegrityOk : Option Bool
  deriving DecidableEq

def guardRailError (message : String) : Raised := ⟨.guardRailError, message⟩

/-- `.hermes` is a part of the path. -/
def underHermes (path : String) : Bool :=
  ".hermes" ∈ splitAt '/' (String.ofList (path.toList.map fun c => if c = '\\' then '/' else c))

/-- An integer that a statement can be given. -/
def fitsInteger (n : Int) : Bool := -2 ^ 63 ≤ n && n < 2 ^ 63

/-- The rows after one `DELETE FROM facts`, `fact_embeddings` and `fact_entities`. -/
def dropFact (s : MergeStore) (loserId : Nat) : MergeStore :=
  { s with
    facts := s.facts.delete fun r => r.factId = loserId
    factEmbeddings := s.factEmbeddings.delete fun r => r.factId = loserId
    factEntities := s.factEntities.delete fun r => r.factId = loserId }

/-- One round of the loop of `_apply_merge`. -/
def applyCluster (s : MergeStore) (c : ClusterMerge) : Py MergeStore := do
  require (fitsInteger c.mergedRetrievalCount ∧ fitsInteger c.mergedHelpfulCount)
    ⟨.overflowError, "Python int too large to convert to SQLite INTEGER"⟩
  let facts := s.facts.update (fun r => r.factId = c.survivorId)
    (fun r =>
      { r with
        retrievalCount := c.mergedRetrievalCount
        helpfulCount := c.mergedHelpfulCount
        tags := c.mergedTags })
    (fun _ => rfl)
  return c.loserIds.foldl dropFact { s with facts }

/-- `_apply_merge`. -/
def applyMerge (s : MergeStore) (plan : MergePlan) : Py MergeStore :=
  plan.clusters.foldlM applyCluster s

/-- `execute_merge`: the store afterwards, and the result. -/
def executeMerge (host : MergeHost) (call : MergeCall) (s : MergeStore) :
    Py (MergeStore × MergeResult) := do
  require (underHermes call.dbPath = false ∧ underHermes (host.realpath call.dbPath) = false)
    (guardRailError ("refusing to run against a path under .hermes (" ++ call.dbPath ++
      "); this tool only ever runs against a copy"))
  match planMerge host s call.threshold call.floodCutoff call.embeddingIdentity
      call.suspiciousClusterSize with
  | none => throw ⟨.foreign, "KeyError"⟩
  | some plan =>
      if call.dryRun then
        return (s, ⟨true, plan.dropCount, plan.projectedFinalCount, none, none, none⟩)
      require (host.pathExists call.backupPath)
        (guardRailError ("refusing to run: backup file does not exist (" ++ call.backupPath ++ ")"))
      require (call.expectedDropMin ≤ plan.dropCount ∧ plan.dropCount ≤ call.expectedDropMax)
        (guardRailError ("refusing to run: drop count " ++ natText plan.dropCount ++
          " is outside the expected band [" ++ toString call.expectedDropMin ++ ", " ++
          toString call.expectedDropMax ++ "]"))
      require (¬ (0 < plan.startingFactCount ∧
          (host.cap call.maxDropFraction plan.startingFactCount).value < plan.dropCount))
        (guardRailError ("refusing to run: drop count " ++ natText plan.dropCount ++
          " exceeds the relative cap of " ++ host.percent call.maxDropFraction ++ " of the " ++
          natText plan.startingFactCount ++ " active facts"))
      let s ← applyMerge s plan
      return (s, ⟨false, plan.dropCount, plan.projectedFinalCount, some s.facts.rows.length,
        some (host.integrityCheck s), some (host.ftsIntegrityCheck s)⟩)

end Enfold.Model
