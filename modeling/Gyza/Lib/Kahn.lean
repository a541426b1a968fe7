import Mathlib.Order.WellFoundedSet
import Mathlib.Tactic

/-! Kahn's topological sort with a least-key tie-break.

`topoOrder` is the in-degree loop over a dictionary of parent sets. It is
shown to compute the greedy order, which depends on the set of keys and on the
parent sets only, and to succeed exactly on acyclic graphs. -/

namespace Gyza.Kahn

variable {α : Type} [LinearOrder α]

/-- `indeg`, the heap `ready`, and `order`. -/
structure State (α : Type) where
  indeg : α → Int
  ready : List α
  order : List α

def relax (state : State α) (child : α) : State α :=
  let degree := state.indeg child - 1
  { state with
    indeg := Function.update state.indeg child degree
    ready := if degree = 0 then child :: state.ready else state.ready }

def children (keys : List α) (parents : α → Finset α) (node : α) : List α :=
  keys.filter (fun child => node ∈ parents child)

def pop (keys : List α) (parents : α → Finset α) (state : State α) : Option (State α) :=
  match state.ready.min? with
  | none => none
  | some node =>
      let popped := { state with ready := state.ready.erase node, order := state.order ++ [node] }
      some (((children keys parents node).insertionSort (· ≤ ·)).foldl relax popped)

def loop (keys : List α) (parents : α → Finset α) : Nat → State α → State α
  | 0, state => state
  | fuel + 1, state =>
      match pop keys parents state with
      | none => state
      | some next => loop keys parents fuel next

def initial (keys : List α) (parents : α → Finset α) : State α where
  indeg node := (parents node).card
  ready := keys.filter (fun node => (parents node).card = 0)
  order := []

/-- A key enters `ready` at most once, so as many pops as keys empty the heap. -/
def topoOrder (keys : List α) (parents : α → Finset α) : Option (List α) :=
  let final := loop keys parents keys.length (initial keys parents)
  if final.order.length = keys.length then some final.order else none

/-! The greedy order. -/

def Ready (keys : List α) (parents : α → Finset α) (done : Finset α) (node : α) : Prop :=
  node ∈ keys ∧ node ∉ done ∧ parents node ⊆ done

def Greedy (keys : List α) (parents : α → Finset α) : Finset α → List α → Prop
  | _, [] => True
  | done, node :: rest =>
      IsLeast { key | Ready keys parents done key } node ∧
        Greedy keys parents (insert node done) rest

section Relax

theorem relaxAll_order (nodes : List α) (state : State α) :
    (nodes.foldl relax state).order = state.order := by
  induction nodes generalizing state with
  | nil => rfl
  | cons node nodes ih => rw [List.foldl_cons, ih]; rfl

theorem relaxAll_indeg (nodes : List α) (distinct : nodes.Nodup) (state : State α) (node : α) :
    (nodes.foldl relax state).indeg node = state.indeg node - if node ∈ nodes then 1 else 0 := by
  induction nodes generalizing state with
  | nil => simp
  | cons head nodes ih =>
      rcases List.nodup_cons.mp distinct with ⟨fresh, distinct⟩
      rw [List.foldl_cons, ih distinct]
      by_cases same : node = head
      · subst same
        simp [relax, fresh]
      · simp [relax, same]

theorem mem_relaxAll_ready (nodes : List α) (distinct : nodes.Nodup) (state : State α) (node : α) :
    node ∈ (nodes.foldl relax state).ready ↔
      node ∈ state.ready ∨ node ∈ nodes ∧ state.indeg node = 1 := by
  induction nodes generalizing state with
  | nil => simp
  | cons head nodes ih =>
      rcases List.nodup_cons.mp distinct with ⟨fresh, distinct⟩
      rw [List.foldl_cons, ih distinct]
      have last : state.indeg head - 1 = 0 ↔ state.indeg head = 1 := by omega
      by_cases same : node = head
      · subst same
        simp only [relax, last]
        split_ifs with one <;> simp [fresh, one]
      · simp only [relax]
        split_ifs <;> simp [same]

theorem nodup_relaxAll_ready (nodes : List α) (distinct : nodes.Nodup) (state : State α)
    (readyDistinct : state.ready.Nodup) (apart : ∀ node ∈ nodes, node ∉ state.ready) :
    (nodes.foldl relax state).ready.Nodup := by
  induction nodes generalizing state with
  | nil => exact readyDistinct
  | cons head nodes ih =>
      rcases List.nodup_cons.mp distinct with ⟨fresh, distinct⟩
      rw [List.foldl_cons]
      have headApart := apart head (by simp)
      apply ih distinct
      · simp only [relax]
        split_ifs
        · exact List.nodup_cons.mpr ⟨headApart, readyDistinct⟩
        · exact readyDistinct
      · intro node member
        have other : node ≠ head := fun same => fresh (same ▸ member)
        have nodeApart := apart node (List.mem_cons_of_mem _ member)
        simp only [relax]
        split_ifs
        · simp [other, nodeApart]
        · exact nodeApart

end Relax

section Loop

variable {keys : List α} {parents : α → Finset α}

/-- What the loop knows after popping the nodes of `done`. -/
structure Invariant (keys : List α) (parents : α → Finset α) (done : Finset α)
    (state : State α) : Prop where
  closed : ∀ node ∈ done, parents node ⊆ done
  readyDistinct : state.ready.Nodup
  ready : ∀ node, node ∈ state.ready ↔ Ready keys parents done node
  indeg : ∀ node ∈ keys, state.indeg node = ((parents node \ done).card : Int)

theorem initial_invariant (distinct : keys.Nodup) :
    Invariant keys parents ∅ (initial keys parents) where
  closed := by simp
  readyDistinct := distinct.filter _
  ready := by
    intro node
    simp [initial, Ready]
  indeg := by simp [initial]

/-- The one missing parent of a child with in-degree one is the popped node. -/
private theorem subset_insert_iff {node child : α} {done : Finset α} (fresh : node ∉ done)
    (edge : node ∈ parents child) :
    parents child ⊆ insert node done ↔ ((parents child \ done).card : Int) = 1 := by
  have missing : node ∈ parents child \ done := Finset.mem_sdiff.mpr ⟨edge, fresh⟩
  constructor
  · intro subset
    have single : parents child \ done = {node} := by
      ext other
      constructor
      · intro member
        rcases Finset.mem_sdiff.mp member with ⟨parent, absent⟩
        rcases Finset.mem_insert.mp (subset parent) with same | present
        · simp [same]
        · exact absurd present absent
      · intro member
        rw [Finset.mem_singleton.mp member]
        exact missing
    simp [single]
  · intro one
    have count : (parents child \ done).card = 1 := by exact_mod_cast one
    rcases Finset.card_eq_one.mp count with ⟨only, single⟩
    rw [single, Finset.mem_singleton] at missing
    subst missing
    intro other parent
    by_cases present : other ∈ done
    · exact Finset.mem_insert_of_mem present
    · have member : other ∈ parents child \ done := Finset.mem_sdiff.mpr ⟨parent, present⟩
      rw [single, Finset.mem_singleton] at member
      simp [member]

/-- The children of a popped node, in the order the loop visits them. -/
private theorem mem_sorted_children (keys : List α) (parents : α → Finset α) (node child : α) :
    child ∈ (children keys parents node).insertionSort (· ≤ ·) ↔
      child ∈ keys ∧ node ∈ parents child := by
  rw [(List.perm_insertionSort _ _).mem_iff]
  simp [children]

private theorem ready_after (done : Finset α) (node other : α)
    (ready : Ready keys parents done node) (closed : ∀ node ∈ done, parents node ⊆ done) :
    (other ≠ node ∧ Ready keys parents done other) ∨
        ((other ∈ keys ∧ node ∈ parents other) ∧ ((parents other \ done).card : Int) = 1) ↔
      Ready keys parents (insert node done) other := by
  rcases ready with ⟨_, fresh, subset⟩
  by_cases edge : node ∈ parents other
  · have notDone : other ∉ done := fun present => fresh (closed other present edge)
    have notNode : other ≠ node := by
      rintro rfl
      exact fresh (subset edge)
    have unmet : ¬ parents other ⊆ done := fun within => fresh (within edge)
    rw [← subset_insert_iff fresh edge]
    simp [Ready, notDone, notNode, edge, unmet]
  · have same : parents other ⊆ insert node done ↔ parents other ⊆ done :=
      Finset.subset_insert_iff_of_notMem edge
    simp only [Ready, edge, and_false, false_and, or_false, Finset.mem_insert, not_or, same]
    tauto

private theorem indeg_after (done : Finset α) (node other : α) (fresh : node ∉ done) :
    ((parents other \ done).card : Int) - (if node ∈ parents other then 1 else 0) =
      ((parents other \ insert node done).card : Int) := by
  rw [Finset.sdiff_insert]
  by_cases edge : node ∈ parents other
  · have missing : node ∈ parents other \ done := Finset.mem_sdiff.mpr ⟨edge, fresh⟩
    have count := Finset.card_erase_add_one missing
    simp only [edge, if_true]
    omega
  · simp [edge]

theorem pop_invariant (distinct : keys.Nodup) {done : Finset α} {state next : State α}
    (holds : Invariant keys parents done state) (popped : pop keys parents state = some next) :
    ∃ node, IsLeast { key | Ready keys parents done key } node ∧
      next.order = state.order ++ [node] ∧ Invariant keys parents (insert node done) next := by
  unfold pop at popped
  cases least : state.ready.min? with
  | none => simp [least] at popped
  | some node =>
      simp only [least, Option.some.injEq] at popped
      subst popped
      rcases List.min?_eq_some_iff.mp least with ⟨member, below⟩
      have ready : Ready keys parents done node := (holds.ready node).mp member
      have sortedDistinct : ((children keys parents node).insertionSort (· ≤ ·)).Nodup :=
        (List.perm_insertionSort _ _).nodup_iff.mpr (distinct.filter _)
      refine ⟨node, ⟨ready, ?_⟩, relaxAll_order _ _, ?_, ?_, ?_, ?_⟩
      · intro other otherReady
        exact below other ((holds.ready other).mpr otherReady)
      · intro other present
        rcases Finset.mem_insert.mp present with rfl | present
        · exact ready.2.2.trans (Finset.subset_insert _ _)
        · exact (holds.closed other present).trans (Finset.subset_insert _ _)
      · apply nodup_relaxAll_ready _ sortedDistinct _ (holds.readyDistinct.erase node)
        intro child inSorted inReady
        rcases (mem_sorted_children keys parents node child).mp inSorted with ⟨_, edge⟩
        have childReady := (holds.ready child).mp (List.mem_of_mem_erase inReady)
        exact ready.2.1 (childReady.2.2 edge)
      · intro other
        rw [mem_relaxAll_ready _ sortedDistinct, holds.readyDistinct.mem_erase_iff,
          holds.ready, mem_sorted_children, ← ready_after done node other ready holds.closed]
        constructor
        · rintro (kept | ⟨child, one⟩)
          · exact Or.inl kept
          · exact Or.inr ⟨child, (holds.indeg other child.1) ▸ one⟩
        · rintro (kept | ⟨child, one⟩)
          · exact Or.inl kept
          · exact Or.inr ⟨child, (holds.indeg other child.1).trans one⟩
      · intro other key
        rw [relaxAll_indeg _ sortedDistinct, ← indeg_after done node other ready.2.1]
        simp only [holds.indeg other key, mem_sorted_children, key, true_and]

theorem ready_of_stopped {state : State α} (stopped : pop keys parents state = none) :
    state.ready = [] := by
  cases least : state.ready.min? with
  | none => exact List.min?_eq_none_iff.mp least
  | some node => simp [pop, least] at stopped

theorem pop_eq_none {done : Finset α} {state : State α}
    (holds : Invariant keys parents done state) (stopped : pop keys parents state = none) :
    ∀ node, ¬ Ready keys parents done node := by
  intro node ready
  have member := (holds.ready node).mpr ready
  rw [ready_of_stopped stopped] at member
  cases member

/-- The loop extends `order` greedily, and stops early only when nothing is ready. -/
theorem loop_greedy (distinct : keys.Nodup) (fuel : Nat) (done : Finset α) (state : State α)
    (holds : Invariant keys parents done state) :
    ∃ tail, (loop keys parents fuel state).order = state.order ++ tail ∧
      Greedy keys parents done tail ∧
      (tail.length = fuel ∨ ∀ node, ¬ Ready keys parents (done ∪ tail.toFinset) node) := by
  induction fuel generalizing done state with
  | zero => exact ⟨[], by simp [loop], trivial, Or.inl rfl⟩
  | succ fuel ih =>
      cases popped : pop keys parents state with
      | none =>
          refine ⟨[], by simp [loop, popped], trivial, Or.inr ?_⟩
          simpa using pop_eq_none holds popped
      | some next =>
          rcases pop_invariant distinct holds popped with ⟨node, least, order, nextHolds⟩
          rcases ih (insert node done) next nextHolds with ⟨tail, tailOrder, greedy, ended⟩
          refine ⟨node :: tail, ?_, ⟨least, greedy⟩, ?_⟩
          · simp [loop, popped, tailOrder, order]
          · simpa [Finset.insert_union, Finset.union_insert] using ended

/-- As many pops as there are keys left empty the heap. -/
theorem loop_empties (distinct : keys.Nodup) (fuel : Nat) (done : Finset α) (state : State α)
    (holds : Invariant keys parents done state) (inside : done ⊆ keys.toFinset)
    (enough : keys.length ≤ done.card + fuel) : (loop keys parents fuel state).ready = [] := by
  induction fuel generalizing done state with
  | zero =>
      have count : keys.toFinset.card = keys.length := List.toFinset_card_of_nodup distinct
      have all : done = keys.toFinset := Finset.eq_of_subset_of_card_le inside (by omega)
      rw [loop, List.eq_nil_iff_forall_not_mem]
      intro node member
      rcases (holds.ready node).mp member with ⟨key, fresh, _⟩
      rw [all, List.mem_toFinset] at fresh
      exact fresh key
  | succ fuel ih =>
      cases popped : pop keys parents state with
      | none =>
          rw [loop, popped]
          exact ready_of_stopped popped
      | some next =>
          rcases pop_invariant distinct holds popped with ⟨node, least, _, nextHolds⟩
          rw [loop, popped]
          apply ih (insert node done) next nextHolds
          · intro key member
            rcases Finset.mem_insert.mp member with rfl | member
            · exact List.mem_toFinset.mpr least.1.1
            · exact inside member
          · rw [Finset.card_insert_of_notMem least.1.2.1]
            omega

theorem loop_of_empty {state : State α} (empty : state.ready = []) (fuel : Nat) :
    loop keys parents fuel state = state := by
  cases fuel with
  | zero => rfl
  | succ fuel => simp [loop, pop, empty]

theorem loop_add (fuel more : Nat) (state : State α) :
    loop keys parents (fuel + more) state =
      loop keys parents more (loop keys parents fuel state) := by
  induction fuel generalizing state with
  | zero => rw [Nat.zero_add, loop]
  | succ fuel ih =>
      rw [Nat.succ_add, loop, loop]
      cases popped : pop keys parents state with
      | none => exact (loop_of_empty (ready_of_stopped popped) more).symm
      | some next => exact ih next

/-- The loop comes to rest within as many pops as there are keys. -/
theorem loop_rests (distinct : keys.Nodup) {fuel : Nat} (enough : keys.length ≤ fuel) :
    (loop keys parents fuel (initial keys parents)).ready = [] ∧
      loop keys parents fuel (initial keys parents) =
        loop keys parents keys.length (initial keys parents) := by
  have rest := loop_empties distinct keys.length ∅ _ (@initial_invariant α _ keys parents distinct)
    (Finset.empty_subset _) (by simp)
  obtain ⟨more, rfl⟩ := Nat.exists_eq_add_of_le enough
  have same := @loop_add α _ keys parents keys.length more (initial keys parents)
  rw [loop_of_empty rest] at same
  exact ⟨by rw [same, rest], same⟩

end Loop

section Greedy

variable {keys keys' : List α} {parents parents' : α → Finset α}

theorem greedy_mem {done : Finset α} {order : List α} (greedy : Greedy keys parents done order) :
    ∀ node ∈ order, node ∈ keys ∧ node ∉ done := by
  induction order generalizing done with
  | nil => simp
  | cons head order ih =>
      rcases greedy with ⟨⟨ready, _⟩, rest⟩
      intro node member
      rcases List.mem_cons.mp member with rfl | member
      · exact ⟨ready.1, ready.2.1⟩
      · rcases ih rest node member with ⟨key, fresh⟩
        exact ⟨key, fun present => fresh (Finset.mem_insert_of_mem present)⟩

theorem greedy_nodup {done : Finset α} {order : List α} (greedy : Greedy keys parents done order) :
    order.Nodup := by
  induction order generalizing done with
  | nil => simp
  | cons head order ih =>
      refine List.nodup_cons.mpr ⟨?_, ih greedy.2⟩
      intro member
      exact (greedy_mem greedy.2 head member).2 (Finset.mem_insert_self _ _)

theorem greedy_congr {done : Finset α} {order : List α} (sameKeys : ∀ node, node ∈ keys ↔ node ∈ keys')
    (sameParents : ∀ node ∈ keys, parents node = parents' node) :
    Greedy keys parents done order ↔ Greedy keys' parents' done order := by
  have sameReady : ∀ done node, Ready keys parents done node ↔ Ready keys' parents' done node := by
    intro done node
    simp only [Ready, ← sameKeys]
    constructor <;> rintro ⟨key, rest⟩
    · exact ⟨key, sameParents node key ▸ rest⟩
    · exact ⟨key, (sameParents node key).symm ▸ rest⟩
  induction order generalizing done with
  | nil => exact Iff.rfl
  | cons node order ih => simp only [Greedy, ih, sameReady]

theorem greedy_append {done : Finset α} (front back : List α) :
    Greedy keys parents done (front ++ back) ↔
      Greedy keys parents done front ∧ Greedy keys parents (done ∪ front.toFinset) back := by
  induction front generalizing done with
  | nil => simp [Greedy]
  | cons node front ih =>
      simp only [List.cons_append, Greedy, ih, List.toFinset_cons, Finset.insert_union,
        Finset.union_insert, and_assoc]

theorem greedy_unique {done : Finset α} {order order' : List α}
    (greedy : Greedy keys parents done order) (greedy' : Greedy keys parents done order')
    (sameLength : order.length = order'.length) : order = order' := by
  induction order generalizing done order' with
  | nil => exact (List.length_eq_zero_iff.mp sameLength.symm).symm
  | cons node order ih =>
      cases order' with
      | nil => simp at sameLength
      | cons node' order' =>
          have same : node = node' := greedy.1.unique greedy'.1
          subst same
          rw [ih greedy.2 greedy'.2 (by simpa using sameLength)]

/-- Every node comes after `done` and after its own parents. -/
def Legal (keys : List α) (parents : α → Finset α) : Finset α → List α → Prop
  | _, [] => True
  | done, node :: rest =>
      Ready keys parents done node ∧ Legal keys parents (insert node done) rest

theorem Greedy.legal {done : Finset α} {order : List α} (greedy : Greedy keys parents done order) :
    Legal keys parents done order := by
  induction order generalizing done with
  | nil => trivial
  | cons node order ih => exact ⟨greedy.1.1, ih greedy.2⟩

theorem legal_iff {done : Finset α} {order : List α}
    (listed : order.Nodup) (fresh : ∀ node ∈ order, node ∈ keys ∧ node ∉ done) :
    Legal keys parents done order ↔
      ∀ front node back, order = front ++ node :: back →
        parents node ⊆ done ∪ front.toFinset := by
  induction order generalizing done with
  | nil => simp [Legal]
  | cons head order ih =>
      rcases List.nodup_cons.mp listed with ⟨once, others⟩
      have later : ∀ node ∈ order, node ∈ keys ∧ node ∉ insert head done := by
        intro node member
        rcases fresh node (List.mem_cons_of_mem _ member) with ⟨key, apart⟩
        refine ⟨key, fun present => ?_⟩
        rcases Finset.mem_insert.mp present with rfl | present
        · exact once member
        · exact apart present
      rcases fresh head (by simp) with ⟨key, apart⟩
      rw [Legal, ih others later]
      constructor
      · intro legal front node back split
        cases front with
        | nil =>
            cases split
            simpa using legal.1.2.2
        | cons first front =>
            cases split
            have earlier := legal.2 front node back rfl
            simpa [Finset.insert_union, Finset.union_insert] using earlier
      · intro placed
        refine ⟨⟨key, apart, by simpa using placed [] head order rfl⟩, ?_⟩
        intro front node back split
        have earlier := placed (head :: front) node back (by rw [split, List.cons_append])
        simpa [Finset.insert_union, Finset.union_insert] using earlier

/-- Of all legal orders of one length the greedy one is the least. -/
theorem greedy_least {done : Finset α} {order other : List α}
    (greedy : Greedy keys parents done order) (legal : Legal keys parents done other)
    (sameLength : order.length = other.length) : order = other ∨ order < other := by
  induction order generalizing done other with
  | nil => exact Or.inl (List.length_eq_zero_iff.mp sameLength.symm).symm
  | cons node order ih =>
      cases other with
      | nil => simp at sameLength
      | cons node' other =>
          rcases lt_or_eq_of_le (greedy.1.2 legal.1) with below | same
          · exact Or.inr (List.Lex.rel below)
          · subst same
            rcases ih greedy.2 legal.2 (by simpa using sameLength) with equal | below
            · exact Or.inl (by rw [equal])
            · exact Or.inr (List.Lex.cons below)

/-- A greedy order as long as the keys lists each of them once. -/
theorem greedy_covers {order : List α}
    (greedy : Greedy keys parents ∅ order) (complete : order.length = keys.length) :
    order.Perm keys := by
  have subperm := (greedy_nodup greedy).subperm
    (fun node member => (greedy_mem greedy node member).1)
  exact subperm.perm_of_length_le (by rw [complete])

end Greedy

section Results

variable {keys keys' : List α} {parents parents' : α → Finset α}

/-- A greedy order that nothing continues is the longest one. -/
private theorem greedy_maximal {order longer : List α} (greedy : Greedy keys parents ∅ order)
    (stuck : ∀ node, ¬ Ready keys parents (∅ ∪ order.toFinset) node)
    (other : Greedy keys parents ∅ longer) (length : order.length ≤ longer.length) :
    order = longer := by
  have split := List.take_append_drop order.length longer
  rw [← split, greedy_append] at other
  have front : order = longer.take order.length :=
    greedy_unique greedy other.1 (by simp [length])
  cases rest : longer.drop order.length with
  | nil => rw [← split, rest, List.append_nil, ← front]
  | cons node rest =>
      rw [rest, ← front] at other
      exact absurd other.2.1.1 (stuck node)

/-- The sort returns the greedy order when that order reaches every key. -/
theorem topoOrder_eq_some_iff (distinct : keys.Nodup) (order : List α) :
    topoOrder keys parents = some order ↔
      Greedy keys parents ∅ order ∧ order.length = keys.length := by
  rcases loop_greedy distinct keys.length ∅ _ (@initial_invariant α _ keys parents distinct) with
    ⟨tail, final, greedy, ended⟩
  have order_eq : (loop keys parents keys.length (initial keys parents)).order = tail := by
    simpa [initial] using final
  simp only [topoOrder, order_eq]
  constructor
  · intro found
    split_ifs at found with complete
    cases found
    exact ⟨greedy, complete⟩
  · intro ⟨other, complete⟩
    have bounded : tail.length ≤ order.length := by
      rw [complete]
      exact (greedy_nodup greedy).length_le_of_subset
        (fun node member => (greedy_mem greedy node member).1)
    have same : tail = order := by
      rcases ended with full | stuck
      · exact greedy_unique greedy other (full.trans complete.symm)
      · exact greedy_maximal greedy stuck other bounded
    subst same
    simp [complete]

theorem topoOrder_congr (distinct : keys.Nodup) (permuted : keys.Perm keys')
    (sameParents : ∀ node ∈ keys, parents node = parents' node) :
    topoOrder keys parents = topoOrder keys' parents' := by
  apply Option.ext
  intro order
  rw [topoOrder_eq_some_iff distinct, topoOrder_eq_some_iff (permuted.nodup_iff.mp distinct), permuted.length_eq,
    greedy_congr (fun _ => permuted.mem_iff) sameParents]

/-- `parent` is one of the parents of the key `child`. -/
def Parent (keys : List α) (parents : α → Finset α) (parent child : α) : Prop :=
  child ∈ keys ∧ parent ∈ parents child

def Acyclic (keys : List α) (parents : α → Finset α) : Prop :=
  ∀ node, ¬ Relation.TransGen (Parent keys parents) node node

theorem greedy_acc {done : Finset α} {order : List α} (greedy : Greedy keys parents done order)
    (grounded : ∀ node ∈ done, Acc (Parent keys parents) node) :
    ∀ node ∈ order, Acc (Parent keys parents) node := by
  induction order generalizing done with
  | nil => simp
  | cons head order ih =>
      rcases greedy with ⟨⟨ready, _⟩, rest⟩
      have headAcc : Acc (Parent keys parents) head :=
        Acc.intro head (fun parent edge => grounded parent (ready.2.2 edge.2))
      have grown : ∀ node ∈ insert head done, Acc (Parent keys parents) node := by
        intro node member
        rcases Finset.mem_insert.mp member with rfl | member
        · exact headAcc
        · exact grounded node member
      intro node member
      rcases List.mem_cons.mp member with rfl | member
      · exact headAcc
      · exact ih rest grown node member

omit [LinearOrder α] in
private theorem not_self_of_acc {r : α → α → Prop} {node : α} (grounded : Acc r node) :
    ¬ r node node := by
  induction grounded with
  | intro node _ ih => exact fun self => ih node self self

/-- In an acyclic graph something is ready until every key is done. -/
private theorem exists_ready (acyclic : Acyclic keys parents)
    (closed : ∀ node ∈ keys, ∀ parent ∈ parents node, parent ∈ keys) (done : Finset α)
    (left : ∃ node ∈ keys, node ∉ done) : ∃ node, Ready keys parents done node := by
  let reaches : α → α → Prop := Relation.TransGen (Parent keys parents)
  have order : IsStrictOrder α reaches :=
    { irrefl := acyclic
      trans := fun _ _ _ first second => first.trans second }
  let remaining : Set α := { node | node ∈ keys ∧ node ∉ done }
  have finite : remaining.Finite := keys.toFinset.finite_toSet.subset (by
    intro node member
    simpa using member.1)
  rcases left with ⟨start, startKey, startLeft⟩
  rcases (finite.wellFoundedOn (r := reaches)).has_min
    Set.univ ⟨⟨start, startKey, startLeft⟩, trivial⟩ with ⟨⟨node, key, fresh⟩, _, least⟩
  refine ⟨node, key, fresh, ?_⟩
  intro parent edge
  by_contra absent
  have parentKey := closed node key parent edge
  exact least ⟨parent, parentKey, absent⟩ trivial (Relation.TransGen.single ⟨key, edge⟩)

theorem topoOrder_isSome_iff (distinct : keys.Nodup)
    (closed : ∀ node ∈ keys, ∀ parent ∈ parents node, parent ∈ keys) :
    (∃ order, topoOrder keys parents = some order) ↔ Acyclic keys parents := by
  constructor
  · intro ⟨order, found⟩ node loop
    rcases (topoOrder_eq_some_iff distinct order).mp found with ⟨greedy, complete⟩
    have key : node ∈ keys := by
      rcases Relation.TransGen.tail'_iff.mp loop with ⟨_, _, edge⟩
      exact edge.1
    have grounded := greedy_acc greedy (by simp) node
      ((greedy_covers greedy complete).mem_iff.mpr key)
    exact not_self_of_acc grounded.transGen loop
  · intro acyclic
    rcases loop_greedy distinct keys.length ∅ _ (@initial_invariant α _ keys parents distinct) with
      ⟨tail, final, greedy, ended⟩
    refine ⟨tail, (topoOrder_eq_some_iff distinct tail).mpr ⟨greedy, ?_⟩⟩
    rcases ended with full | stuck
    · exact full
    · have covers : ∀ key ∈ keys, key ∈ tail := by
        by_contra missing
        push Not at missing
        rcases exists_ready acyclic closed (∅ ∪ tail.toFinset) (by
          rcases missing with ⟨key, member, absent⟩
          exact ⟨key, member, by simpa using absent⟩) with ⟨node, ready⟩
        exact stuck node ready
      apply le_antisymm
      · exact (greedy_nodup greedy).length_le_of_subset
          (fun node member => (greedy_mem greedy node member).1)
      · exact distinct.length_le_of_subset covers

/-- A list whose every node has its predecessor as a parent, and only earlier
nodes as parents, is its own order. -/
theorem topoOrder_of_spine (distinct : keys.Nodup)
    (earlier : ∀ front node back, keys = front ++ node :: back → parents node ⊆ front.toFinset)
    (spine : ∀ front previous node back, keys = front ++ previous :: node :: back →
      previous ∈ parents node) :
    topoOrder keys parents = some keys := by
  refine (topoOrder_eq_some_iff distinct keys).mpr ⟨?_, rfl⟩
  have extend : ∀ back front, keys = front ++ back → Greedy keys parents front.toFinset back := by
    intro back
    induction back with
    | nil => intro front _; trivial
    | cons node back ih =>
        intro front split
        have apart := split ▸ distinct
        have fresh : node ∉ front := by
          intro member
          exact List.disjoint_of_nodup_append apart member (by simp)
        refine ⟨⟨⟨by simp [split], by simpa using fresh, earlier front node back split⟩, ?_⟩, ?_⟩
        · intro other ⟨key, otherFresh, otherParents⟩
          rw [split, List.mem_append, List.mem_cons] at key
          rcases key with inFront | same | inBack
          · exact absurd (List.mem_toFinset.mpr inFront) otherFresh
          · exact le_of_eq same.symm
          · -- a later node still waits for its predecessor on the spine
            rcases List.append_of_mem inBack with ⟨before, after, rfl⟩
            rcases (node :: before).eq_nil_or_concat.resolve_left (by simp) with
              ⟨init, previous, ends⟩
            have edge : previous ∈ parents other := by
              apply spine (front ++ init) previous other after
              calc keys = front ++ (node :: before) ++ other :: after := by simp [split]
                _ = (front ++ init) ++ previous :: other :: after := by
                    rw [ends]
                    simp
            have late : previous ∈ node :: (before ++ other :: after) := by
              have inside : previous ∈ node :: before := by simp [ends]
              rw [← List.cons_append]
              exact List.mem_append_left _ inside
            have early := List.mem_toFinset.mp (otherParents edge)
            exact absurd late (List.disjoint_of_nodup_append apart early)
        · have next := ih (front ++ [node]) (by simp [split])
          have grown : (front ++ [node]).toFinset = insert node front.toFinset := by
            ext key
            simp
          rwa [grown] at next
  simpa using extend keys [] rfl

end Results

end Gyza.Kahn
