/-
# Theory.OrderedDict -- a dictionary that remembers the order of its keys, and recency

`OrderedDict` is Python's `collections.OrderedDict`: its entries stand in the order in which their
keys were inserted or last moved to the end.  A lookup finds the one entry with the key
(`get?_eq_some`); moving a key to the end and storing a new key reorder the keys as stated
(`keys_moveToEnd`, `keys_set`), and neither touches another entry.

`recent` lists the keys of a history of uses, the last used first.  What the first `n` of them are
after one more use depends only on what the first `n` were before (`take_recent_hit`,
`take_recent_miss`): this is the rule by which a cache of `n` entries keeps the last used ones.
-/
import Mathlib.Data.List.Nodup

namespace Enfold.Theory

set_option autoImplicit false

variable {K V : Type} [DecidableEq K]

/-! ## The dictionary -/

structure OrderedDict (K V : Type) where
  entries : List (K × V)
  distinct : (entries.map Prod.fst).Nodup

namespace OrderedDict

variable {dict : OrderedDict K V} {k other : K} {v value : V}

def empty : OrderedDict K V := ⟨[], List.nodup_nil⟩

/-- The keys, the first one the longest in its place. -/
def keys (dict : OrderedDict K V) : List K := dict.entries.map Prod.fst

def get? (dict : OrderedDict K V) (k : K) : Option V :=
  (dict.entries.find? fun entry => entry.1 = k).map Prod.snd

omit [DecidableEq K] in
theorem value_unique (dict : OrderedDict K V) (mem : (k, v) ∈ dict.entries)
    (mem' : (k, value) ∈ dict.entries) : v = value :=
  congrArg Prod.snd (List.inj_on_of_nodup_map dict.distinct mem mem' rfl)

theorem get?_eq_some : dict.get? k = some v ↔ (k, v) ∈ dict.entries := by
  unfold get?
  rw [Option.map_eq_some_iff]
  constructor
  · rintro ⟨⟨k', v'⟩, found, rfl⟩
    have holds := List.find?_some found
    have same : k' = k := of_decide_eq_true holds
    rw [← same]
    exact List.mem_of_find?_eq_some found
  · intro mem
    cases found : dict.entries.find? fun entry => entry.1 = k with
    | none =>
        have absent := List.find?_eq_none.1 found (k, v) mem
        exact absurd (decide_eq_true rfl) absent
    | some entry =>
        obtain ⟨k', v'⟩ := entry
        have holds := List.find?_some found
        have same : k' = k := of_decide_eq_true holds
        have mem' := List.mem_of_find?_eq_some found
        rw [same] at mem'
        exact ⟨(k', v'), rfl, dict.value_unique mem' mem⟩

theorem get?_eq_none : dict.get? k = none ↔ k ∉ dict.keys := by
  rw [Option.eq_none_iff_forall_not_mem]
  constructor
  · intro absent mem
    obtain ⟨⟨k', v⟩, here, same⟩ := List.mem_map.1 mem
    cases same
    exact absent v (get?_eq_some.2 here)
  · intro absent v found
    exact absent (List.mem_map_of_mem (get?_eq_some.1 found))

/-- The entries without a key. -/
theorem distinct_erased (dict : OrderedDict K V) (k : K) (v : V) :
    ((dict.entries.filter (fun entry => entry.1 ≠ k) ++ [(k, v)]).map Prod.fst).Nodup := by
  rw [List.map_append, List.nodup_append']
  refine ⟨dict.distinct.sublist (List.filter_sublist.map _), List.nodup_singleton _, ?_⟩
  intro k' mem here
  obtain ⟨entry, kept, rfl⟩ := List.mem_map.1 mem
  have apart : decide (entry.1 ≠ k) = true := (List.mem_filter.1 kept).2
  exact of_decide_eq_true apart (List.mem_singleton.1 here)

/-- `move_to_end`.  A missing key raises; here it changes nothing. -/
def moveToEnd (dict : OrderedDict K V) (k : K) : OrderedDict K V :=
  match dict.get? k with
  | none => dict
  | some v => ⟨dict.entries.filter (fun entry => entry.1 ≠ k) ++ [(k, v)], dict.distinct_erased k v⟩

/-- The entries with another value at a key. -/
def assigned (dict : OrderedDict K V) (k : K) (v : V) : List (K × V) :=
  dict.entries.map fun entry => if entry.1 = k then (k, v) else entry

theorem keys_assigned (dict : OrderedDict K V) (k : K) (v : V) :
    (dict.assigned k v).map Prod.fst = dict.keys := by
  rw [assigned, List.map_map]
  refine List.map_congr_left fun entry _ => ?_
  dsimp only [Function.comp_apply]
  split
  · next here => exact here.symm
  · rfl

theorem distinct_assigned (dict : OrderedDict K V) (k : K) (v : V) :
    ((dict.assigned k v).map Prod.fst).Nodup := by
  rw [keys_assigned]
  exact dict.distinct

omit [DecidableEq K] in
theorem distinct_appended (dict : OrderedDict K V) {k : K} (v : V) (absent : k ∉ dict.keys) :
    ((dict.entries ++ [(k, v)]).map Prod.fst).Nodup := by
  rw [List.map_append, List.nodup_append']
  refine ⟨dict.distinct, List.nodup_singleton _, fun k' mem here => ?_⟩
  rw [List.mem_singleton.1 here] at mem
  exact absent mem

/-- `dict[k] = v`: a key that is there stays in its place. -/
def set (dict : OrderedDict K V) (k : K) (v : V) : OrderedDict K V :=
  if present : k ∈ dict.keys then ⟨dict.assigned k v, dict.distinct_assigned k v⟩
  else ⟨dict.entries ++ [(k, v)], dict.distinct_appended v present⟩

omit [DecidableEq K] in
theorem distinct_tail (dict : OrderedDict K V) : (dict.entries.tail.map Prod.fst).Nodup :=
  dict.distinct.sublist ((List.tail_sublist _).map _)

/-- `popitem(last=False)`.  An empty dictionary raises; here it stays empty. -/
def popFirst (dict : OrderedDict K V) : OrderedDict K V :=
  ⟨dict.entries.tail, dict.distinct_tail⟩

theorem keys_moveToEnd (present : k ∈ dict.keys) :
    (dict.moveToEnd k).keys = dict.keys.filter (· ≠ k) ++ [k] := by
  cases found : dict.get? k with
  | none => exact absurd present (get?_eq_none.1 found)
  | some v =>
      simp only [moveToEnd, found, keys, List.map_append, List.map_cons, List.map_nil,
        List.filter_map]
      rfl

theorem keys_set (absent : k ∉ dict.keys) : (dict.set k v).keys = dict.keys ++ [k] := by
  rw [set, dif_neg absent, keys, List.map_append]
  rfl

omit [DecidableEq K] in
theorem keys_popFirst : dict.popFirst.keys = dict.keys.tail := List.map_tail

theorem mem_moveToEnd {entry : K × V} :
    entry ∈ (dict.moveToEnd k).entries ↔ entry ∈ dict.entries := by
  cases found : dict.get? k with
  | none => simp only [moveToEnd, found]
  | some v =>
      have mem := get?_eq_some.1 found
      simp only [moveToEnd, found, List.mem_append, List.mem_filter, List.mem_singleton,
        decide_eq_true_eq]
      constructor
      · rintro (⟨there, -⟩ | rfl)
        · exact there
        · exact mem
      · intro there
        by_cases here : entry.1 = k
        · right
          obtain ⟨k', v'⟩ := entry
          cases here
          rw [dict.value_unique there mem]
        · exact .inl ⟨there, here⟩

theorem mem_set (absent : k ∉ dict.keys) {entry : K × V} :
    entry ∈ (dict.set k v).entries ↔ entry ∈ dict.entries ∨ entry = (k, v) := by
  rw [set, dif_neg absent, List.mem_append, List.mem_singleton]

omit [DecidableEq K] in
theorem mem_of_popFirst {entry : K × V} (mem : entry ∈ dict.popFirst.entries) :
    entry ∈ dict.entries :=
  List.mem_of_mem_tail mem

end OrderedDict

/-! ## Recency -/

/-- The keys of a history, the last use first. -/
def recent : List K → List K
  | [] => []
  | k :: history => k :: (recent history).filter (· ≠ k)

variable {k : K} {history : List K} {n : Nat}

theorem nodup_recent (history : List K) : (recent history).Nodup := by
  induction history with
  | nil => exact List.nodup_nil
  | cons used history ih =>
      refine List.nodup_cons.2 ⟨?_, ih.filter _⟩
      intro mem
      exact of_decide_eq_true (List.mem_filter.1 mem).2 rfl

/-- The other elements of a list, cut after its first `n`. -/
theorem filter_cut (l : List K) (n : Nat) (k : K) :
    l.filter (· ≠ k) = (l.take n).filter (· ≠ k) ++ (l.drop n).filter (· ≠ k) := by
  rw [← List.filter_append, List.take_append_drop]

theorem length_filter_ne {l : List K} (distinct : l.Nodup) (mem : k ∈ l) :
    (l.filter (· ≠ k)).length + 1 = l.length := by
  have erased := List.length_erase_of_mem mem
  have positive := List.length_pos_of_mem mem
  rw [distinct.erase_eq_filter] at erased
  have same : (l.filter (· ≠ k)) = l.filter (· != k) := by
    refine List.filter_congr fun other _ => ?_
    rw [bne, beq_eq_decide, decide_not]
  rw [same, erased]
  omega

/-- Without a key that stands among the first `n`, one element fewer comes from the first `n`. -/
theorem take_filter_of_mem {l : List K} (distinct : l.Nodup) (mem : k ∈ l.take n) :
    (l.filter (· ≠ k)).take (n - 1) = (l.take n).filter (· ≠ k) := by
  have length := length_filter_ne (distinct.sublist (List.take_sublist n l)) mem
  rw [List.length_take] at length
  rw [filter_cut l n k]
  by_cases enough : n ≤ l.length
  · have first : ((l.take n).filter (· ≠ k)).length = n - 1 := by omega
    exact List.take_left' first
  · rw [List.drop_of_length_le (by omega), List.filter_nil, List.append_nil]
    exact List.take_of_length_le (by omega)

/-- Without a key that does not, the first are the same. -/
theorem take_filter_of_not_mem {l : List K} (absent : k ∉ l.take n) {m : Nat} (few : m ≤ n) :
    (l.filter (· ≠ k)).take m = l.take m := by
  have kept : (l.take n).filter (· ≠ k) = l.take n := by
    refine List.filter_eq_self.2 fun other mem => decide_eq_true ?_
    rintro rfl
    exact absent mem
  rw [filter_cut l n k, kept]
  by_cases enough : n ≤ l.length
  · have first : m ≤ (l.take n).length := by
      rw [List.length_take]
      omega
    rw [List.take_append_of_le_length first, List.take_take, Nat.min_eq_left few]
  · rw [List.drop_of_length_le (by omega), List.filter_nil, List.append_nil, List.take_take,
      Nat.min_eq_left few]

/-- A use of one of the `n` last used keys brings it to the front. -/
theorem take_recent_hit (cached : k ∈ (recent history).take n) :
    (recent (k :: history)).take n = k :: ((recent history).take n).filter (· ≠ k) := by
  cases n with
  | zero => cases cached
  | succ n =>
      rw [recent, List.take_succ_cons]
      exact congrArg (k :: ·) (take_filter_of_mem (nodup_recent history) cached)

/-- A use of another key drops the one that was used first. -/
theorem take_recent_miss (missed : k ∉ (recent history).take (n + 1)) :
    (recent (k :: history)).take (n + 1) = k :: ((recent history).take (n + 1)).take n := by
  rw [recent, List.take_succ_cons, take_filter_of_not_mem missed (Nat.le_succ n), List.take_take,
    Nat.min_eq_left (Nat.le_succ n)]

end Enfold.Theory
