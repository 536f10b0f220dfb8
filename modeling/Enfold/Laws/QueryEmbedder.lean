/-
# Laws.QueryEmbedder -- the cache holds the last used texts, and returns what the model returned

* `lru_cache`: in every state some order of steps reaches, the cached keys are the `maxsize` last
  used ones in the order of their use, and a call asks the model exactly for a text that is not
  among them;
* `returned_sound`: whatever holds of each vector the model returns, and of the text it was asked
  for, holds of each vector a call returns, and of the text of that call;
* `entry_stays`: a cached vector is never replaced, only dropped.
-/
import Enfold.Model.QueryEmbedder
import Enfold.Theory.Run

namespace Enfold.Laws.QueryEmbedder

open Enfold.Theory Enfold.Model Enfold.Model.LRUQueryEmbedder

set_option autoImplicit false

variable {V : Type} {embedder : LRUQueryEmbedder} {cache : Cache V} {k : Key} {v : V}
  {state : State V} {action : Action V}

/-! ## Storing a vector -/

/-- What the second critical section does: it finds the key, or adds it and may drop the first. -/
theorem store_cases (embedder : LRUQueryEmbedder) (cache : Cache V) (k : Key) (v : V) :
    (∃ existing, cache.get? k = some existing ∧
      embedder.store cache k v = (cache.moveToEnd k, existing)) ∨
    (k ∉ cache.keys ∧ embedder.store cache k v =
      (if embedder.maxsize < ((cache.set k v).moveToEnd k).entries.length then
        ((cache.set k v).moveToEnd k).popFirst else (cache.set k v).moveToEnd k, v)) := by
  unfold store
  cases found : cache.get? k with
  | some existing => exact .inl ⟨existing, rfl, rfl⟩
  | none => exact .inr ⟨OrderedDict.get?_eq_none.1 found, rfl⟩

theorem keys_grown (absent : k ∉ cache.keys) :
    ((cache.set k v).moveToEnd k).keys = cache.keys ++ [k] := by
  have present : k ∈ (cache.set k v).keys := by
    rw [OrderedDict.keys_set absent]
    exact List.mem_append_right _ (List.mem_singleton_self k)
  have others : cache.keys.filter (· ≠ k) = cache.keys := by
    refine List.filter_eq_self.2 fun other mem => decide_eq_true ?_
    rintro rfl
    exact absent mem
  rw [OrderedDict.keys_moveToEnd present, OrderedDict.keys_set absent, List.filter_append, others]
  simp

/-- Dropping the oldest key leaves the newest ones. -/
theorem reverse_tail {l : List Key} {m : Nat} (full : l.length = m + 1) :
    (l ++ [k]).tail.reverse = k :: l.reverse.take m := by
  cases l with
  | nil => cases full
  | cons oldest l =>
      have first : l.reverse.length = m := by
        rw [List.length_reverse]
        exact Nat.succ.inj full
      have newest : (oldest :: l).reverse.take m = l.reverse := by
        rw [List.reverse_cons, List.take_left' first]
      rw [List.cons_append, List.tail_cons, List.reverse_append, newest]
      rfl

/-- The cached keys, the last used first. -/
def Recent (embedder : LRUQueryEmbedder) (cache : Cache V) (uses : List Key) : Prop :=
  cache.keys.reverse = (recent uses).take embedder.maxsize.toNat

variable {uses : List Key}

theorem Recent.mem_keys (held : Recent embedder cache uses) :
    k ∈ cache.keys ↔ k ∈ (recent uses).take embedder.maxsize.toNat := by
  rw [← held, List.mem_reverse]

theorem moveToEnd_recent (held : Recent embedder cache uses) (present : k ∈ cache.keys) :
    Recent embedder (cache.moveToEnd k) (k :: uses) := by
  unfold Recent
  rw [take_recent_hit (held.mem_keys.1 present), OrderedDict.keys_moveToEnd present,
    List.reverse_append, ← List.filter_reverse, held]
  rfl

theorem store_recent (held : Recent embedder cache uses) :
    Recent embedder (embedder.store cache k v).1 (k :: uses) := by
  rcases store_cases embedder cache k v with ⟨existing, found, stored⟩ | ⟨absent, stored⟩
  · rw [stored]
    have present : k ∈ cache.keys := by
      by_contra absent
      rw [OrderedDict.get?_eq_none.2 absent] at found
      cases found
    exact moveToEnd_recent held present
  · rw [stored]
    have positive := embedder.positive
    obtain ⟨m, size⟩ : ∃ m, embedder.maxsize.toNat = m + 1 := ⟨embedder.maxsize.toNat - 1, by omega⟩
    have missed : k ∉ (recent uses).take (m + 1) := by
      rw [← size]
      exact fun mem => absent (held.mem_keys.2 mem)
    have length : ((cache.set k v).moveToEnd k).entries.length = cache.keys.length + 1 := by
      have keys := congrArg List.length (keys_grown (v := v) absent)
      rw [OrderedDict.keys, List.length_map, List.length_append] at keys
      exact keys
    have few : cache.keys.length ≤ m + 1 := by
      rw [← List.length_reverse, held, size]
      exact List.length_take_le _ _
    unfold Recent at held ⊢
    rw [size] at held ⊢
    rw [take_recent_miss missed, ← held, length]
    dsimp only
    split
    · have full : cache.keys.length = m + 1 := by omega
      rw [OrderedDict.keys_popFirst, keys_grown absent, reverse_tail full]
    · have room : cache.keys.reverse.length ≤ m := by
        rw [List.length_reverse]
        omega
      rw [keys_grown absent, List.take_of_length_le room, List.reverse_append]
      rfl

/-! ## The last used keys -/

theorem recent_step (held : Recent embedder state.cache state.uses) :
    Recent embedder (advance embedder action state).cache (advance embedder action state).uses := by
  cases action with
  | embed thread text =>
      simp only [advance]
      split
      · exact held
      · split
        · next cached found =>
          exact moveToEnd_recent held (List.mem_map_of_mem (OrderedDict.get?_eq_some.1 found))
        · exact held
  | answer thread vector =>
      simp only [advance]
      split
      · exact held
      · split
        · exact held
        · exact store_recent held
  | fail thread => exact held

theorem recent_reached {ok : Action V → State V → Prop}
    (reached : Reachable (advance embedder) ok .initial state) :
    Recent embedder state.cache state.uses := by
  refine reached.induction (P := fun state => Recent embedder state.cache state.uses) ?_
    fun _ _ _ => recent_step
  exact (List.take_nil).symm

/-- The cache holds the `maxsize` last used keys in the order of their use, and a call asks the
model exactly for a text whose key is not among them. -/
theorem lru_cache {ok : Action V → State V → Prop}
    (reached : Reachable (advance embedder) ok .initial state) :
    state.cache.keys.reverse = (recent state.uses).take embedder.maxsize.toNat ∧
      ∀ thread text, state.waiting thread = none →
        ((advance embedder (.embed thread text) state).waiting thread = some text ↔
          embedder.key text ∉ (recent state.uses).take embedder.maxsize.toNat) := by
  have held := recent_reached reached
  refine ⟨held, fun thread text free => ?_⟩
  rw [← held.mem_keys, ← OrderedDict.get?_eq_none]
  simp only [advance, free]
  cases found : state.cache.get? (embedder.key text) with
  | none => simp
  | some cached => simp [free]

theorem pair_named : strip "nomic-v1" ≠ "" := by
  decide +kernel

theorem pair_positive : (1 : Int) ≤ 2 := by
  decide

/-- The cache has room for two texts. -/
def pair : LRUQueryEmbedder := ⟨"nomic-v1", 2, pair_named, pair_positive⟩

theorem pair_made : make "nomic-v1" 2 = .ok pair := by
  rw [make, dif_pos pair_named, dif_pos pair_positive]
  rfl

/-- Three texts, the first of them twice. -/
def asked : List (Action Nat) :=
  [.embed 0 "US", .answer 0 (some 2), .embed 0 "door", .answer 0 (some 4), .embed 0 "US",
    .embed 0 "key", .answer 0 (some 3)]

/-- The third text drops the second one, which was not used again. -/
theorem pair_cache :
    make "nomic-v1" 2 = .ok pair ∧
      (run (advance pair) asked .initial).cache.keys = [pair.key "US", pair.key "key"] ∧
      (run (advance pair) asked .initial).cache.keys.reverse =
        (recent (run (advance pair) asked .initial).uses).take 2 ∧
      ∀ thread text, (run (advance pair) asked .initial).waiting thread = none →
        ((advance pair (.embed thread text) (run (advance pair) asked .initial)).waiting thread =
            some text ↔
          pair.key text ∉ (recent (run (advance pair) asked .initial).uses).take 2) :=
  ⟨pair_made, by decide, lru_cache ⟨asked, Admits.always _ _, rfl⟩⟩

/-! ## What calls return -/

/-- The model returns vectors with a property of the text it was asked for. -/
def Answers (P : String → V → Prop) : Action V → State V → Prop
  | .answer thread (some vector), state => ∀ text, state.waiting thread = some text → P text vector
  | _, _ => True

/-- Cached and returned vectors have it. -/
structure Sound (embedder : LRUQueryEmbedder) (P : String → V → Prop) (state : State V) : Prop where
  cached : ∀ text v, (embedder.key text, v) ∈ state.cache.entries → P text v
  returned : ∀ text v, (text, some v) ∈ state.returned → P text v

variable {P : String → V → Prop}

/-- An entry after a store was there before, or is the new one, whose key was not there. -/
theorem mem_store {entry : Key × V} (mem : entry ∈ (embedder.store cache k v).1.entries) :
    entry ∈ cache.entries ∨ entry = (k, v) ∧ k ∉ cache.keys := by
  rcases store_cases embedder cache k v with ⟨existing, -, stored⟩ | ⟨absent, stored⟩
  · rw [stored] at mem
    exact .inl (OrderedDict.mem_moveToEnd.1 mem)
  · rw [stored] at mem
    have grown : entry ∈ ((cache.set k v).moveToEnd k).entries := by
      dsimp only at mem
      split at mem
      · exact OrderedDict.mem_of_popFirst mem
      · exact mem
    rcases (OrderedDict.mem_set absent).1 (OrderedDict.mem_moveToEnd.1 grown) with before | new
    · exact .inl before
    · exact .inr ⟨new, absent⟩

theorem store_returns (embedder : LRUQueryEmbedder) (cache : Cache V) (k : Key) (v : V) :
    (embedder.store cache k v).2 = v ∨ (k, (embedder.store cache k v).2) ∈ cache.entries := by
  rcases store_cases embedder cache k v with ⟨existing, found, stored⟩ | ⟨-, stored⟩
  · rw [stored]
    exact .inr (OrderedDict.get?_eq_some.1 found)
  · rw [stored]
    exact .inl rfl

theorem sound_step (answers : Answers P action state) (sound : Sound embedder P state) :
    Sound embedder P (advance embedder action state) := by
  cases action with
  | embed thread text =>
      simp only [advance]
      split
      · exact sound
      · split
        · next cached found =>
          have here := sound.cached text cached (OrderedDict.get?_eq_some.1 found)
          refine ⟨fun other w mem => ?_, fun other w mem => ?_⟩
          · exact sound.cached other w (OrderedDict.mem_moveToEnd.1 mem)
          · rcases List.mem_cons.1 mem with now | before
            · cases now
              exact here
            · exact sound.returned other w before
        · exact ⟨sound.cached, sound.returned⟩
  | answer thread vector =>
      simp only [advance]
      split
      · exact sound
      · next text asked =>
        split
        · refine ⟨sound.cached, fun other w mem => ?_⟩
          rcases List.mem_cons.1 mem with now | before
          · cases now
          · exact sound.returned other w before
        · next immutable =>
          have fresh : P text immutable := answers text asked
          refine ⟨fun other w mem => ?_, fun other w mem => ?_⟩
          · rcases mem_store mem with before | ⟨new, -⟩
            · exact sound.cached other w before
            · cases new
              exact fresh
          · rcases List.mem_cons.1 mem with now | before
            · cases now
              rcases store_returns embedder state.cache (embedder.key text) immutable with new | old
              · rw [new]
                exact fresh
              · exact sound.cached text _ old
            · exact sound.returned other w before
  | fail thread => exact ⟨sound.cached, sound.returned⟩

/-- Whatever the order of the threads, a call returns a vector that the model returned for just this
text. -/
theorem returned_sound (reached : Reachable (advance embedder) (Answers P) .initial state)
    {text : String} (mem : (text, some v) ∈ state.returned) : P text v := by
  have start : Sound embedder P (.initial : State V) := by
    constructor
    · intro text v mem
      cases mem
    · intro text v mem
      cases mem
  exact (reached.induction start fun _ _ => sound_step).returned text v mem

/-- Two threads ask for one text at once. -/
def raced : List (Action Nat) :=
  [.embed 0 "US", .embed 1 "US", .answer 1 (some 2), .answer 0 (some 2)]

theorem raced_returned :
    (run (advance pair) raced .initial).returned = [("US", some 2), ("US", some 2)] ∧
      2 = "US".length := by
  have reached : Reachable (advance pair) (Answers fun text v => v = text.length) .initial
      (run (advance pair) raced .initial) := by
    refine ⟨raced, ⟨trivial, trivial, ?_, ?_, trivial⟩, rfl⟩
    · intro text waits
      cases waits
      rfl
    · intro text waits
      cases waits
      rfl
  have mem : ("US", some 2) ∈ (run (advance pair) raced .initial).returned := by decide
  exact ⟨by decide, returned_sound reached mem⟩

/-- A step leaves a cached vector as it is, or drops it: an entry that it adds has a key that was not
cached. -/
theorem entry_stays (found : state.cache.get? k = some v) :
    (advance embedder action state).cache.get? k = some v ∨
      (advance embedder action state).cache.get? k = none := by
  have mem := OrderedDict.get?_eq_some.1 found
  have kept : ∀ w, (k, w) ∈ (advance embedder action state).cache.entries → w = v := by
    intro w mem'
    cases action with
    | embed thread text =>
        simp only [advance] at mem'
        split at mem'
        · exact state.cache.value_unique mem' mem
        · split at mem'
          · exact state.cache.value_unique (OrderedDict.mem_moveToEnd.1 mem') mem
          · exact state.cache.value_unique mem' mem
    | answer thread vector =>
        simp only [advance] at mem'
        split at mem'
        · exact state.cache.value_unique mem' mem
        · split at mem'
          · exact state.cache.value_unique mem' mem
          · rcases mem_store mem' with before | ⟨new, absent⟩
            · exact state.cache.value_unique before mem
            · cases new
              exact absurd (List.mem_map_of_mem mem) absent
    | fail thread => exact state.cache.value_unique mem' mem
  cases after : (advance embedder action state).cache.get? k with
  | none => exact .inr rfl
  | some w => exact .inl (congrArg some (kept w (OrderedDict.get?_eq_some.1 after)))

end Enfold.Laws.QueryEmbedder
