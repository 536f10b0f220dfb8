/-
# Model.ClusterMerge -- near duplicates of a write (`cluster_merge.py`)

The write-time part of the duplicate search.  A full-text match bounds the candidates,
`safeToMergeNearDuplicate` blocks every pair whose values, polarity or lifecycle words
differ, and the stored vector of the rest must reach a cosine threshold.
-/
import Enfold.Model.Schema
import Enfold.Theory.Regex

namespace Enfold.Model

open Enfold.Theory

set_option autoImplicit false

/-! ## Textual signals -/

/-- `str.lower` as far as `[a-z0-9]` can see: two letters beyond ASCII lower into it. -/
def lowerChar (c : Char) : List Char :=
  if isAsciiUpper c then [Char.ofNat (c.toNat + 32)]
  else if c.toNat = 8490 then ['k']
  else if c.toNat = 304 then ['i', Char.ofNat 775]
  else [c]

/-- The maximal runs of `[a-z0-9]`; `word` is the current run, reversed. -/
def tokenRuns (word : List Char) : List Char → List String
  | [] => if word.isEmpty then [] else [String.ofList word.reverse]
  | c :: cs =>
      if isAsciiLower c || isAsciiDigit c then tokenRuns (c :: word) cs
      else if word.isEmpty then tokenRuns [] cs
      else String.ofList word.reverse :: tokenRuns [] cs

def tokens (content : String) : List String := tokenRuns [] (content.toList.flatMap lowerChar)

/-- A character of a token. -/
abbrev TokenChar (c : Char) : Prop := (isAsciiLower c || isAsciiDigit c) = true

/-- A run collects the characters of a token. -/
theorem tokenRuns_append {word : List Char} (run rest : List Char) (solid : ∀ c ∈ run, TokenChar c) :
    tokenRuns word (run ++ rest) = tokenRuns (run.reverse ++ word) rest := by
  induction run generalizing word with
  | nil => rfl
  | cons c run ih =>
      rw [List.cons_append, tokenRuns, if_pos (solid c List.mem_cons_self),
        ih fun c' mem => solid c' (List.mem_cons_of_mem c mem), List.reverse_cons,
        List.append_assoc, List.singleton_append]

def negationWords : List String := ["not", "no", "never", "without"]

def dateWords : List String :=
  ["january", "february", "march", "april", "may", "june", "july", "august", "september",
    "october", "november", "december", "monday", "tuesday", "wednesday", "thursday", "friday",
    "saturday", "sunday", "today", "tomorrow", "yesterday"]

/-- The lifecycle words, group by group. -/
def stateWords : List String :=
  ["enabled", "disabled", "active", "inactive", "archived", "on", "off", "open", "closed",
    "paused", "resumed", "up", "down", "alive", "dead", "started", "stopped", "pending", "running",
    "completed", "failed", "succeeded", "deployed", "undeployed", "installed", "uninstalled",
    "available", "unavailable", "approved", "rejected", "accepted", "denied"]

/-- Words of one group exclude each other. -/
def stateWordGroups : List (List String) :=
  [["enabled", "disabled"], ["active", "inactive", "archived"], ["on", "off"], ["open", "closed"],
    ["paused", "resumed"], ["up", "down"], ["alive", "dead"], ["started", "stopped"],
    ["pending", "running", "completed", "failed", "succeeded"],
    ["deployed", "undeployed", "installed", "uninstalled"], ["available", "unavailable"],
    ["approved", "rejected", "accepted", "denied"]]

theorem stateWords_eq : stateWords = stateWordGroups.flatten := rfl

/-- Concrete values: dates, versions, ids and plain numbers. -/
def valueTokens (content : String) : List String :=
  (tokens content).filter fun token => token.toList.any isAsciiDigit || token ∈ dateWords

/-- `on` and `off` assert a state only after one of these words. -/
def copulas : List String := ["is", "was", "turned", "set"]

/-- Some occurrence of the word has no copula before it. -/
def prepositional (word : String) : Option String → List String → Bool
  | _, [] => false
  | previous, token :: rest =>
      (token == word && !previous.any (· ∈ copulas)) || prepositional word (some token) rest

/-- The state words of a text, in the order of `stateWords`. -/
def stateTokens (content : String) : List String :=
  let words := tokens content
  stateWords.filter fun word =>
    word ∈ words ∧ ¬ (word ∈ ["on", "off"] ∧ prepositional word none words)

def negated (content : String) : Bool := (tokens content).any (· ∈ negationWords)

def safeToMergeNearDuplicate (content other : String) : Bool :=
  valueTokens content = valueTokens other ∧ negated content = negated other ∧
    stateTokens content = stateTokens other

/-! ## Candidates -/

structure NearDuplicateCandidate where
  factId : Nat
  trustScore : Decimal
  createdAt : String
  cosine : Decimal
  deriving DecidableEq

/-- One row of the candidate query. -/
structure NearDuplicateRow where
  rank : Decimal
  fact : FactRow
  stored : EmbeddingRow

/-- The joined rows of the query, before ordering. -/
def matchingRows (host : Host) (s : Store) (terms : List String) (scope : String)
    (embeddingIdentity : Option String) : List NearDuplicateRow :=
  s.factsFts.rows.flatMap fun entry =>
    match host.bm25 terms s.factsFts.rows entry, s.facts.get? entry.rowid with
    | some rank, some fact =>
        if fact.scope = scope ∧ fact.Current ∧ fact.conflictGroup = none then
          (s.factEmbeddings.select fun stored =>
            stored.factId = fact.factId ∧ ∀ i ∈ embeddingIdentity, stored.embeddingIdentity = i).map
            fun stored => ⟨rank, fact, stored⟩
        else []
    | _, _ => []

/-- `ORDER BY bm25(facts_fts), f.fact_id LIMIT ?`. -/
def orderByRank (limit : Nat) (rows : List NearDuplicateRow) : List NearDuplicateRow :=
  (rows.insertionSort fun a b =>
    a.rank.value < b.rank.value ∨ a.rank.value = b.rank.value ∧ a.fact.factId ≤ b.fact.factId).take
    limit

/-- The candidate a row yields, when its vector is close enough. -/
def candidateOf (host : Host) (content : String) (vector : List Decimal) (threshold : Decimal)
    (row : NearDuplicateRow) : Option NearDuplicateCandidate :=
  if row.stored.dim ≠ vector.length ∨ ¬ safeToMergeNearDuplicate content row.fact.content then none
  else if row.stored.embedding.length ≠ vector.length then none
  else if (host.norm row.stored.embedding).value = 0 then none
  else
    match host.cosine vector row.stored.embedding with
    | none => none
    | some cosine =>
        if threshold.value ≤ cosine.value then
          some ⟨row.fact.factId, row.fact.trustScore, row.fact.createdAt, cosine⟩
        else none

/-- What embedding the content of a write gave. -/
inductive Embedded where
  | vector (components : List Decimal)
  /-- A vector with a component that is not finite. -/
  | notFinite
  /-- An error the write path tolerates: type, value or database. -/
  | unavailable
  /-- Any other error. -/
  | raised (e : Raised)

/-- For a finite query vector and a valid configuration. -/
def findWriteNearDuplicates (host : Host) (s : Store) (content scope : String)
    (vector : List Decimal) (threshold : Decimal) (candidateLimit : Nat)
    (embeddingIdentity : Option String) : List NearDuplicateCandidate :=
  let terms := (tokens content).eraseDups
  if terms = [] ∨ vector = [] then []
  else if (host.norm vector).value = 0 then []
  else
    (orderByRank candidateLimit (matchingRows host s terms scope embeddingIdentity)).filterMap
      (candidateOf host content vector threshold)

theorem candidateOf_eq_some {host : Host} {content : String} {vector : List Decimal}
    {threshold : Decimal} {row : NearDuplicateRow} {c : NearDuplicateCandidate}
    (found : candidateOf host content vector threshold row = some c) :
    c.factId = row.fact.factId ∧ c.trustScore = row.fact.trustScore ∧
      c.createdAt = row.fact.createdAt := by
  unfold candidateOf at found
  split at found
  · cases found
  split at found
  · cases found
  split at found
  · cases found
  split at found
  · cases found
  split at found
  · cases found
    exact ⟨rfl, rfl, rfl⟩
  · cases found

theorem mem_matchingRows {host : Host} {s : Store} {terms : List String} {scope : String}
    {identity : Option String} {row : NearDuplicateRow}
    (mem : row ∈ matchingRows host s terms scope identity) :
    row.fact ∈ s.facts ∧ row.fact.scope = scope ∧ row.fact.Current ∧
      row.fact.conflictGroup = none := by
  obtain ⟨entry, -, joined⟩ := List.mem_flatMap.1 mem
  split at joined
  · rename_i rank fact _ found
    split at joined
    · rename_i eligible
      obtain ⟨stored, -, rfl⟩ := List.mem_map.1 joined
      exact ⟨(Facts.get?_eq_some.1 found).1, eligible⟩
    · simp at joined
  · simp at joined

/-- A candidate is an unconflicted current fact of the scope. -/
theorem mem_findWriteNearDuplicates {host : Host} {s : Store} {content scope : String}
    {vector : List Decimal} {threshold : Decimal} {limit : Nat} {identity : Option String}
    {c : NearDuplicateCandidate}
    (mem : c ∈ findWriteNearDuplicates host s content scope vector threshold limit identity) :
    ∃ r ∈ s.facts, r.factId = c.factId ∧ r.scope = scope ∧ r.Current ∧ r.conflictGroup = none ∧
      r.trustScore = c.trustScore ∧ r.createdAt = c.createdAt := by
  simp only [findWriteNearDuplicates] at mem
  split at mem
  · simp at mem
  split at mem
  · simp at mem
  obtain ⟨row, taken, found⟩ := List.mem_filterMap.1 mem
  have matching := (List.perm_insertionSort _ _).mem_iff.1 (List.mem_of_mem_take taken)
  obtain ⟨inFacts, inScope, current, unconflicted⟩ := mem_matchingRows matching
  obtain ⟨sameId, sameTrust, sameTime⟩ := candidateOf_eq_some found
  exact ⟨row.fact, inFacts, sameId.symm, inScope, current, unconflicted, sameTrust.symm,
    sameTime.symm⟩

end Enfold.Model
