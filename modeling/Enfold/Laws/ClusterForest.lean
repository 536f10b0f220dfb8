/-
# Laws.ClusterForest -- the forest of the clustering

Both loops of `find` come to their end in a forest, and `find` changes no class: it points what
it passes at the root that it found (`find_spec`).  `union` moves the class of one root to the
other (`union_spec`).  After any list of unions two facts have one root exactly when the pairs
connect them (`joined_spec`).
-/
import Enfold.Theory.UnionFind
import Enfold.Model.OfflineMerge

namespace Enfold.Laws

open Enfold.Theory Enfold.Model

set_option autoImplicit false

/-! ## Forests -/

/-- Every key points at a key, and leads to a root. -/
structure Rooted (uf : UnionFind) : Prop where
  keys : ∀ x ∈ uf.ids, ∃ y ∈ uf.ids, uf.parent x = some y
  ends : ∀ x ∈ uf.ids, ∃ r, RootOf uf.parent x r

theorem Rooted.closed {uf : UnionFind} (rooted : Rooted uf) :
    ∀ x ∈ uf.ids, ∀ y, uf.parent x = some y → y ∈ uf.ids := by
  intro x mem y edge
  obtain ⟨z, inside, edge'⟩ := rooted.keys x mem
  rw [edge] at edge'
  cases edge'
  exact inside

theorem Rooted.root_mem {uf : UnionFind} (rooted : Rooted uf) {x r : Nat} {n : Nat}
    (leads : Leads uf.parent x n r) (mem : x ∈ uf.ids) : r ∈ uf.ids := by
  induction leads with
  | root _ => exact mem
  | step edge _ _ ih => exact ih (rooted.closed _ mem _ edge)

/-- The structure after a change: a forest over the same keys, in which the roots have moved. -/
structure Moved (uf uf' : UnionFind) (move : Nat → Nat) : Prop where
  ids : uf'.ids = uf.ids
  rooted : Rooted uf'
  roots : ∀ x r, RootOf uf.parent x r → RootOf uf'.parent x (move r)

theorem Moved.trans {first second third : UnionFind} {move move' : Nat → Nat}
    (left : Moved first second move) (right : Moved second third move') :
    Moved first third (move' ∘ move) :=
  ⟨right.ids.trans left.ids, right.rooted,
    fun x r root => right.roots x (move r) (left.roots x r root)⟩

/-- The roots of a forest over the same keys, when pointers have only been changed to keys. -/
theorem moved_of {uf : UnionFind} (rooted : Rooted uf) {parent : Nat → Option Nat} {root : Nat}
    {move : Nat → Nat} (inside : root ∈ uf.ids)
    (pointers : ∀ x, parent x = uf.parent x ∨ parent x = some root)
    (roots : ∀ x r, RootOf uf.parent x r → RootOf parent x (move r)) :
    Moved uf { uf with parent } move := by
  refine ⟨rfl, ⟨fun x mem => ?_, fun x mem => ?_⟩, roots⟩
  · rcases pointers x with same | changed
    · obtain ⟨y, key, edge⟩ := rooted.keys x mem
      exact ⟨y, key, same.trans edge⟩
    · exact ⟨root, inside, changed⟩
  · obtain ⟨r, leads⟩ := rooted.ends x mem
    exact ⟨move r, roots x r leads⟩

/-! ## Find -/

theorem rootLoop_spec {parent : Nat → Option Nat} {x r : Nat} {n rounds : Nat}
    (leads : Leads parent x n r) (enough : n ≤ rounds) :
    UnionFind.rootLoop parent rounds x = some r := by
  induction leads generalizing rounds with
  | root self =>
      rw [UnionFind.rootLoop.eq_def]
      simp [self]
  | @step x y r n edge proper _ ih =>
      cases rounds with
      | zero => exact absurd enough (Nat.not_succ_le_zero n)
      | succ rounds =>
          rw [UnionFind.rootLoop.eq_def]
          simp only [edge, Option.bind_eq_bind, Option.bind_some, if_neg proper]
          exact ih (Nat.le_of_succ_le_succ enough)

/-- The second loop ends, and changes pointers to the root only, and no class. -/
theorem compressLoop_spec {r : Nat} {n : Nat} :
    ∀ {rounds : Nat} {parent : Nat → Option Nat} {x : Nat}, Leads parent x n r → n ≤ rounds →
      ∃ parent', UnionFind.compressLoop r rounds parent x = some parent' ∧
        (∀ y, parent' y = parent y ∨ parent' y = some r) ∧
        ∀ y s, RootOf parent y s → RootOf parent' y s := by
  induction n with
  | zero =>
      intro rounds parent x leads _
      cases leads with
      | root self =>
          refine ⟨parent, ?_, fun y => .inl rfl, fun y s root => root⟩
          rw [UnionFind.compressLoop.eq_def]
          simp [self]
  | succ n ih =>
      intro rounds parent x leads enough
      have whole := leads
      cases leads with
      | @step _ p _ _ edge proper tail =>
          by_cases direct : p = r
          · refine ⟨parent, ?_, fun y => .inl rfl, fun y s root => root⟩
            rw [UnionFind.compressLoop.eq_def]
            simp [edge, direct]
          · cases rounds with
            | zero => exact absurd enough (Nat.not_succ_le_zero n)
            | succ rounds =>
                obtain ⟨parent', done, pointers, roots⟩ :=
                  ih (leads_aside whole tail (Nat.lt_succ_self n))
                    (Nat.le_of_succ_le_succ enough)
                refine ⟨parent', ?_, fun y => ?_, fun y s root => ?_⟩
                · rw [UnionFind.compressLoop.eq_def]
                  simp only [edge, Option.bind_eq_bind, Option.bind_some, if_neg direct]
                  exact done
                · rcases pointers y with same | changed
                  · by_cases here : y = x
                    · subst here
                      rw [Function.update_self] at same
                      exact .inr same
                    · rw [Function.update_of_ne here] at same
                      exact .inl same
                  · exact .inr changed
                · obtain ⟨m, chain⟩ := root
                  exact roots y s (leads_shortcut whole chain)

theorem find_spec {uf : UnionFind} (rooted : Rooted uf) {x : Nat} (mem : x ∈ uf.ids) :
    ∃ r uf', uf.find x = some (r, uf') ∧ RootOf uf.parent x r ∧ r ∈ uf.ids ∧ Moved uf uf' id := by
  obtain ⟨r, n, leads⟩ := rooted.ends x mem
  have enough : n ≤ uf.ids.length := Nat.le_of_lt (leads.lt_length rooted.closed mem)
  have inside := rooted.root_mem leads mem
  obtain ⟨parent, done, pointers, roots⟩ := compressLoop_spec leads enough
  refine ⟨r, { uf with parent }, ?_, leads.rootOf, inside, moved_of rooted inside pointers roots⟩
  rw [UnionFind.find, rootLoop_spec leads enough]
  simp only [Option.bind_eq_bind, Option.bind_some, done]
  rfl

/-! ## Union -/

theorem union_spec {uf : UnionFind} (rooted : Rooted uf) {a b : Nat} (memA : a ∈ uf.ids)
    (memB : b ∈ uf.ids) :
    ∃ uf' ra rb, uf.union a b = some uf' ∧ RootOf uf.parent a ra ∧ RootOf uf.parent b rb ∧
      Moved uf uf' fun r => if r = ra then rb else r := by
  obtain ⟨ra, first, found, rootA, insideA, moved⟩ := find_spec rooted memA
  have memB' : b ∈ first.ids := by rw [moved.ids]; exact memB
  obtain ⟨rb, second, found', rootB', insideB, moved'⟩ := find_spec moved.rooted memB'
  obtain ⟨rb', rootB⟩ := rooted.ends b memB
  obtain rfl : rb = rb' := rootB'.unique (moved.roots b rb' rootB)
  have both : Moved uf second id := moved.trans moved'
  have union : uf.union a b =
      if ra ≠ rb then some { second with parent := Function.update second.parent ra (some rb) }
      else some second := by
    rw [UnionFind.union, found]
    simp only [Option.bind_eq_bind, Option.bind_some, found']
    split <;> rfl
  by_cases apart : ra ≠ rb
  · refine ⟨{ second with parent := Function.update second.parent ra (some rb) }, ra, rb,
      by rw [union, if_pos apart], rootA, rootB, ?_⟩
    obtain ⟨_, lastA⟩ := both.roots a ra rootA
    obtain ⟨_, lastB⟩ := both.roots b rb rootB
    have inside : rb ∈ second.ids := by
      rw [moved'.ids]
      exact insideB
    have linked : Moved second { second with parent := Function.update second.parent ra (some rb) }
        fun r => if r = ra then rb else r := by
      refine moved_of both.rooted inside (fun x => ?_) fun x r root => ?_
      · by_cases here : x = ra
        · subst here
          exact .inr (Function.update_self x (some rb) second.parent)
        · exact .inl (Function.update_of_ne here (some rb) second.parent)
      · obtain ⟨n, leads⟩ := root
        exact leads_link lastA.is_root lastB.is_root apart leads
    exact both.trans linked
  · refine ⟨second, ra, rb, by rw [union, if_neg apart], rootA, rootB, both.ids, both.rooted, ?_⟩
    intro x r root
    have same : (if r = ra then rb else r) = r := by
      by_cases here : r = ra
      · rw [if_pos here, here]
        exact (not_ne_iff.1 apart).symm
      · rw [if_neg here]
    rw [same]
    exact both.roots x r root

/-! ## Any number of unions -/

/-- The loop over the pairs. -/
def unionAll (uf : UnionFind) (pairs : List (Nat × Nat)) : Option UnionFind :=
  pairs.foldlM (fun uf pair => uf.union pair.1 pair.2) uf

/-- Two facts have one root. -/
def SameRoot (uf : UnionFind) (x y : Nat) : Prop := ∃ r, RootOf uf.parent x r ∧ RootOf uf.parent y r

theorem Moved.sameRoot {uf uf' : UnionFind} {move : Nat → Nat} (moved : Moved uf uf' move)
    {x y : Nat} (same : SameRoot uf x y) : SameRoot uf' x y := by
  obtain ⟨r, rootX, rootY⟩ := same
  exact ⟨move r, moved.roots x r rootX, moved.roots y r rootY⟩

/-- The unions join the facts of each pair, and by any relation that relates these and every
fact to its first root, they relate every fact to its last root. -/
theorem unionAll_spec {pairs : List (Nat × Nat)} :
    ∀ {uf : UnionFind}, Rooted uf → (∀ p ∈ pairs, p.1 ∈ uf.ids ∧ p.2 ∈ uf.ids) →
      ∃ uf' move, unionAll uf pairs = some uf' ∧ Moved uf uf' move ∧
        (∀ p ∈ pairs, SameRoot uf' p.1 p.2) ∧
        ∀ E : Nat → Nat → Prop, Equivalence E → (∀ p ∈ pairs, E p.1 p.2) →
          (∀ x ∈ uf.ids, ∀ r, RootOf uf.parent x r → E x r) →
          ∀ x ∈ uf.ids, ∀ r, RootOf uf'.parent x r → E x r := by
  induction pairs with
  | nil =>
      intro uf rooted _
      exact ⟨uf, id, rfl, ⟨rfl, rooted, fun _ _ root => root⟩,
        fun p mem => absurd mem List.not_mem_nil, fun E _ _ before => before⟩
  | cons p pairs ih =>
      intro uf rooted inside
      obtain ⟨memA, memB⟩ := inside p List.mem_cons_self
      obtain ⟨next, ra, rb, joined, rootA, rootB, moved⟩ := union_spec rooted memA memB
      have inside' : ∀ q ∈ pairs, q.1 ∈ next.ids ∧ q.2 ∈ next.ids := by
        rw [moved.ids]
        exact fun q mem => inside q (List.mem_cons_of_mem p mem)
      obtain ⟨last, move, rest, moved', pairwise, coarse⟩ := ih moved.rooted inside'
      refine ⟨last, move ∘ _, ?_, moved.trans moved', fun q mem => ?_, fun E equiv related before => ?_⟩
      · rw [unionAll, List.foldlM_cons, joined]
        exact rest
      · rcases List.mem_cons.1 mem with rfl | later
        · have rootA' := moved.roots q.1 ra rootA
          have rootB' := moved.roots q.2 rb rootB
          have keeps : (if rb = ra then rb else rb) = rb := by split <;> rfl
          rw [if_pos rfl] at rootA'
          rw [keeps] at rootB'
          exact moved'.sameRoot ⟨rb, rootA', rootB'⟩
        · exact pairwise q later
      · have between : ∀ x ∈ next.ids, ∀ r, RootOf next.parent x r → E x r := by
          intro x mem r root
          rw [moved.ids] at mem
          obtain ⟨s, first⟩ := rooted.ends x mem
          obtain rfl := root.unique (moved.roots x s first)
          by_cases here : s = ra
          · subst here
            rw [if_pos rfl]
            have left : E x s := before x mem s first
            have down : E p.1 s := before p.1 memA s rootA
            have paired : E p.1 p.2 := related p List.mem_cons_self
            have up : E p.2 rb := before p.2 memB rb rootB
            exact equiv.trans left (equiv.trans (equiv.symm down) (equiv.trans paired up))
          · rw [if_neg here]
            exact before x mem s first
        have after := coarse E equiv (fun q mem => related q (List.mem_cons_of_mem p mem)) between
        rw [moved.ids] at after
        exact after

theorem rooted_ofIds (ids : List Nat) : Rooted (UnionFind.ofIds ids) := by
  have self : ∀ x ∈ ids, (UnionFind.ofIds ids).parent x = some x := fun x mem => if_pos mem
  exact ⟨fun x mem => ⟨x, mem, self x mem⟩, fun x mem => ⟨x, 0, .root (self x mem)⟩⟩

/-- After the unions two facts have one root exactly when the pairs connect them. -/
theorem joined_spec (ids : List Nat) {pairs : List (Nat × Nat)}
    (inside : ∀ p ∈ pairs, p.1 ∈ ids ∧ p.2 ∈ ids) :
    ∃ uf, unionAll (UnionFind.ofIds ids) pairs = some uf ∧ uf.ids = ids ∧ Rooted uf ∧
      ∀ x ∈ ids, ∀ y ∈ ids,
        SameRoot uf x y ↔ Relation.EqvGen (fun a b => (a, b) ∈ pairs) x y := by
  obtain ⟨uf, move, done, moved, joined, coarse⟩ := unionAll_spec (rooted_ofIds ids) inside
  refine ⟨uf, done, moved.ids, moved.rooted, fun x memX y memY => ⟨?_, ?_⟩⟩
  · rintro ⟨r, rootX, rootY⟩
    have near : ∀ x ∈ ids, ∀ r, RootOf uf.parent x r →
        Relation.EqvGen (fun a b => (a, b) ∈ pairs) x r := by
      refine coarse _ (Relation.EqvGen.is_equivalence _) (fun p mem => .rel _ _ mem) ?_
      rintro x mem r ⟨n, leads⟩
      obtain ⟨-, rfl⟩ := leads.unique (.root (if_pos mem))
      exact .refl _
    exact .trans _ _ _ (near x memX r rootX) (.symm _ _ (near y memY r rootY))
  · intro connected
    have inIds : ∀ {a b}, Relation.EqvGen (fun a b => (a, b) ∈ pairs) a b → (a ∈ ids ↔ b ∈ ids) := by
      intro a b path
      induction path with
      | rel a b mem => exact iff_of_true (inside _ mem).1 (inside _ mem).2
      | refl a => exact Iff.rfl
      | symm a b _ ih => exact ih.symm
      | trans a b c _ _ left right => exact left.trans right
    clear memY
    induction connected with
    | rel a b mem => exact joined (a, b) mem
    | refl a =>
        obtain ⟨r, root⟩ := moved.rooted.ends a (moved.ids ▸ memX)
        exact ⟨r, root, root⟩
    | symm a b path ih =>
        obtain ⟨r, rootA, rootB⟩ := ih ((inIds path).2 memX)
        exact ⟨r, rootB, rootA⟩
    | trans a b c path _ left right =>
        obtain ⟨r, rootA, rootB⟩ := left memX
        obtain ⟨r', rootB', rootC⟩ := right ((inIds path).1 memX)
        obtain rfl := rootB.unique rootB'
        exact ⟨r, rootA, rootC⟩

end Enfold.Laws
