import Gyza.DagOrder

/-! `_topo_order` of `gyza/icp.py`: Kahn's loop over a dictionary of parent sets.

In-degrees and children are kept as the source keeps them; the loop is shown to be
the library's, so that its answer is the least linearisation of the graph. -/

namespace Gyza

/-- `indeg` and `order`; `ready` lists what is in the heap. -/
structure TopoState where
  indeg : Dict String Int
  ready : List String
  order : List String

inductive TopoError where
  | keyError
  | running
  deriving DecidableEq

/-- `children[p].append(h)` for every `p` of a row; the order of the set does not matter. -/
def appendChild (children : String → List String) (row : String × Finset String) :
    String → List String :=
  fun p => if p ∈ row.2 then children p ++ [row.1] else children p

def childLists (parents : Dict String (Finset String)) : String → List String :=
  parents.rows.foldl appendChild (fun _ => [])

def initialTopo (parents : Dict String (Finset String)) : TopoState where
  indeg := parents.mapValues (fun ps => (ps.card : Int))
  ready := (parents.rows.filter (fun row => row.2.card = 0)).map Prod.fst
  order := []

/-- The body of the inner loop. -/
def countDown (state : TopoState) (c : String) : TopoState :=
  let degree := (state.indeg.lookup c).getD 0 - 1
  { state with
    indeg := state.indeg.set c degree
    ready := if degree = 0 then c :: state.ready else state.ready }

/-- One turn of `while ready`, from `heappop` on. -/
def popReady (children : String → List String) (state : TopoState) : Option TopoState :=
  match state.ready.min? with
  | none => none
  | some h =>
      let popped := { state with ready := state.ready.erase h, order := state.order ++ [h] }
      some (((children h).insertionSort (· ≤ ·)).foldl countDown popped)

/-- `while ready`, for so many turns. -/
def drain (children : String → List String) : Nat → TopoState → TopoState
  | 0, state => state
  | fuel + 1, state =>
      match popReady children state with
      | none => state
      | some next => drain children fuel next

/-- `fuel` bounds the turns of the loop; `running` means that they did not empty the heap. -/
def topoOrder (fuel : Nat) (parents : Dict String (Finset String)) :
    Except TopoError (Option (List String)) :=
  if ∀ row ∈ parents.rows, ∀ p ∈ row.2, p ∈ parents.keys then
    let final := drain (childLists parents) fuel (initialTopo parents)
    if final.ready ≠ [] then .error .running
    else if final.order.length ≠ parents.keys.length then .ok none
    else .ok (some final.order)
  else .error .keyError

/-! What the order is to be. -/

def TopoEdge (parents : Dict String (Finset String)) (p h : String) : Prop :=
  ∃ ps, parents.lookup h = some ps ∧ p ∈ ps

def Cyclic (parents : Dict String (Finset String)) : Prop :=
  ∃ h, Relation.TransGen (TopoEdge parents) h h

/-- The keys, each once and after its parents. -/
structure Linearizes (parents : Dict String (Finset String)) (order : List String) : Prop where
  keys : order.Perm parents.keys
  parentsFirst : ∀ front h back, order = front ++ h :: back → ∀ p, TopoEdge parents p h → p ∈ front

/-! The loop is Kahn's. -/

def parentSet (parents : Dict String (Finset String)) (h : String) : Finset String :=
  (parents.lookup h).getD ∅

structure TopoMirrors (parents : Dict String (Finset String)) (state : TopoState)
    (kahn : Kahn.State String) : Prop where
  indeg : ∀ h ∈ parents.keys, state.indeg.lookup h = some (kahn.indeg h)
  ready : state.ready = kahn.ready
  order : state.order = kahn.order

section Mirror

variable {parents : Dict String (Finset String)}

theorem parentSet_row {row : String × Finset String} (member : row ∈ parents.rows) :
    parentSet parents row.1 = row.2 := by
  rw [parentSet, (Dict.lookup_eq_some parents row.1 row.2).mpr member, Option.getD_some]

theorem mem_parentSet (p h : String) : p ∈ parentSet parents h ↔ TopoEdge parents p h := by
  unfold parentSet TopoEdge
  cases parents.lookup h with
  | none => simp
  | some ps => simp

theorem foldl_appendChild (rows : List (String × Finset String)) (children : String → List String)
    (p : String) :
    rows.foldl appendChild children p =
      children p ++ (rows.filter (fun row => p ∈ row.2)).map Prod.fst := by
  induction rows generalizing children with
  | nil => simp
  | cons row rows ih =>
      rw [List.foldl_cons, ih, appendChild]
      by_cases edge : p ∈ row.2
      · simp [edge]
      · simp [edge]

theorem filter_keys (test : String → Finset String → Bool) :
    (parents.rows.filter (fun row => test row.1 row.2)).map Prod.fst =
      parents.keys.filter (fun h => test h (parentSet parents h)) := by
  rw [Dict.keys, List.filter_map]
  apply congrArg
  apply List.filter_congr
  intro row member
  rw [Function.comp_apply, parentSet_row member]

theorem childLists_eq (p : String) :
    childLists parents p = Kahn.children parents.keys (parentSet parents) p := by
  rw [childLists, foldl_appendChild, List.nil_append, Kahn.children]
  exact filter_keys (fun _ ps => decide (p ∈ ps))

theorem initialTopo_mirrors :
    TopoMirrors parents (initialTopo parents) (Kahn.initial parents.keys (parentSet parents)) where
  indeg := by
    intro h key
    rcases (Dict.mem_keys parents h).mp key with ⟨ps, found⟩
    simp [initialTopo, Kahn.initial, parentSet, found]
  ready := filter_keys (fun _ ps => decide (ps.card = 0))
  order := rfl

theorem countDown_mirrors {state : TopoState} {kahn : Kahn.State String} {c : String}
    (mirrors : TopoMirrors parents state kahn) (key : c ∈ parents.keys) :
    TopoMirrors parents (countDown state c) (Kahn.relax kahn c) := by
  have degree : (state.indeg.lookup c).getD 0 - 1 = kahn.indeg c - 1 := by
    rw [mirrors.indeg c key, Option.getD_some]
  constructor
  · intro h other
    rw [countDown, Kahn.relax, Dict.lookup_set, degree]
    by_cases same : c = h
    · subst same
      simp
    · rw [if_neg same, mirrors.indeg h other]
      exact congrArg some (Function.update_of_ne (Ne.symm same) _ _).symm
  · simp only [countDown, Kahn.relax, degree, mirrors.ready]
  · exact mirrors.order

theorem foldl_countDown_mirrors {state : TopoState} {kahn : Kahn.State String}
    (nodes : List String) (keys : ∀ c ∈ nodes, c ∈ parents.keys)
    (mirrors : TopoMirrors parents state kahn) :
    TopoMirrors parents (nodes.foldl countDown state) (nodes.foldl Kahn.relax kahn) := by
  induction nodes generalizing state kahn with
  | nil => exact mirrors
  | cons c nodes ih =>
      rw [List.foldl_cons, List.foldl_cons]
      exact ih (fun other member => keys other (List.mem_cons_of_mem _ member))
        (countDown_mirrors mirrors (keys c (by simp)))

theorem popReady_mirrors {state : TopoState} {kahn : Kahn.State String}
    (mirrors : TopoMirrors parents state kahn) :
    Option.Rel (TopoMirrors parents) (popReady (childLists parents) state)
      (Kahn.pop parents.keys (parentSet parents) kahn) := by
  unfold popReady Kahn.pop
  rw [mirrors.ready]
  cases kahn.ready.min? with
  | none => exact Option.Rel.none
  | some h =>
      apply Option.Rel.some
      rw [childLists_eq]
      apply foldl_countDown_mirrors
      · intro c member
        rw [(List.perm_insertionSort _ _).mem_iff, Kahn.children] at member
        exact List.mem_of_mem_filter member
      · exact ⟨mirrors.indeg, rfl, congrArg (· ++ [h]) mirrors.order⟩

theorem drain_mirrors (fuel : Nat) {state : TopoState} {kahn : Kahn.State String}
    (mirrors : TopoMirrors parents state kahn) :
    TopoMirrors parents (drain (childLists parents) fuel state)
      (Kahn.loop parents.keys (parentSet parents) fuel kahn) := by
  induction fuel generalizing state kahn with
  | zero => exact mirrors
  | succ fuel ih =>
      have turn := popReady_mirrors mirrors
      rw [drain, Kahn.loop]
      generalize popReady (childLists parents) state = next at turn ⊢
      generalize Kahn.pop parents.keys (parentSet parents) kahn = next' at turn ⊢
      cases turn with
      | none => exact mirrors
      | some after => exact ih after

/-- With as many turns as keys the loop ends, and answers as Kahn's sort does. -/
theorem topoOrder_eq (closed : ∀ row ∈ parents.rows, ∀ p ∈ row.2, p ∈ parents.keys) {fuel : Nat}
    (enough : parents.keys.length ≤ fuel) :
    topoOrder fuel parents = .ok (Kahn.topoOrder parents.keys (parentSet parents)) := by
  have mirrors := drain_mirrors fuel (@initialTopo_mirrors parents)
  rcases @Kahn.loop_rests String _ parents.keys (parentSet parents) (Dict.keys_nodup _) fuel
    enough with ⟨empty, same⟩
  have rests : (drain (childLists parents) fuel (initialTopo parents)).ready = [] :=
    mirrors.ready.trans empty
  have order : (drain (childLists parents) fuel (initialTopo parents)).order =
      (Kahn.loop parents.keys (parentSet parents) parents.keys.length
        (Kahn.initial parents.keys (parentSet parents))).order := by
    rw [mirrors.order, same]
  rw [topoOrder, if_pos closed, Kahn.topoOrder]
  simp only [rests, order, ne_eq, not_true_eq_false, if_false]
  by_cases complete : (Kahn.loop parents.keys (parentSet parents) parents.keys.length
      (Kahn.initial parents.keys (parentSet parents))).order.length = parents.keys.length
  · rw [if_neg (not_not.mpr complete), if_pos complete]
  · rw [if_pos complete, if_neg complete]

theorem acyclic_iff_not_cyclic :
    Kahn.Acyclic parents.keys (parentSet parents) ↔ ¬Cyclic parents := by
  have edge : Kahn.Parent parents.keys (parentSet parents) = TopoEdge parents := by
    funext p h
    rw [Kahn.Parent, mem_parentSet, eq_iff_iff, and_iff_right_iff_imp]
    intro edge
    rcases edge with ⟨ps, found, _⟩
    exact (Dict.mem_keys parents h).mpr ⟨ps, found⟩
  rw [Kahn.Acyclic, edge, Cyclic, not_exists]

theorem linearizes_iff (order : List String) :
    Linearizes parents order ↔
      order.Perm parents.keys ∧ Kahn.Legal parents.keys (parentSet parents) ∅ order := by
  have placed (listed : order.Perm parents.keys) :
      Kahn.Legal parents.keys (parentSet parents) ∅ order ↔
        ∀ front h back, order = front ++ h :: back → ∀ p, TopoEdge parents p h → p ∈ front := by
    rw [Kahn.legal_iff (listed.nodup_iff.mpr (Dict.keys_nodup _))
      (fun h member => ⟨listed.mem_iff.mp member, Finset.notMem_empty h⟩)]
    simp only [Finset.empty_union, Finset.subset_iff, mem_parentSet, List.mem_toFinset]
  constructor
  · intro linearizes
    exact ⟨linearizes.keys, (placed linearizes.keys).mpr linearizes.parentsFirst⟩
  · intro legal
    exact ⟨legal.1, (placed legal.1).mp legal.2⟩

end Mirror

/-- `_topo_order` ends on every closed dependency map, with nothing exactly if the graph
has a cycle and else with the least of its linearisations. -/
theorem topoOrder_least_linearization (parents : Dict String (Finset String))
    (closed : ∀ row ∈ parents.rows, ∀ p ∈ row.2, p ∈ parents.keys) :
    ∃ answer, (∀ fuel, parents.keys.length ≤ fuel → topoOrder fuel parents = .ok answer) ∧
      (answer = none ↔ Cyclic parents) ∧
      ∀ order, answer = some order → Linearizes parents order ∧
        ∀ other, Linearizes parents other → order = other ∨ order < other := by
  have keysClosed : ∀ h ∈ parents.keys, ∀ p ∈ parentSet parents h, p ∈ parents.keys := by
    intro h _ p member
    rcases (mem_parentSet p h).mp member with ⟨ps, found, edge⟩
    exact closed (h, ps) ((Dict.lookup_eq_some parents h ps).mp found) p edge
  have isSome := Kahn.topoOrder_isSome_iff (Dict.keys_nodup parents) keysClosed
  rw [acyclic_iff_not_cyclic] at isSome
  refine ⟨Kahn.topoOrder parents.keys (parentSet parents),
    fun fuel enough => topoOrder_eq closed enough, ?_, ?_⟩
  · rw [← not_iff_not, ← isSome]
    exact Option.ne_none_iff_exists'
  · intro order found
    rcases (Kahn.topoOrder_eq_some_iff (Dict.keys_nodup parents) order).mp found with
      ⟨greedy, complete⟩
    have covers := Kahn.greedy_covers greedy complete
    refine ⟨(linearizes_iff order).mpr ⟨covers, greedy.legal⟩, ?_⟩
    intro other linearizes
    rcases (linearizes_iff other).mp linearizes with ⟨listed, legal⟩
    exact Kahn.greedy_least greedy legal (covers.trans listed.symm).length_eq

namespace Sample

/-- A diamond whose two middle nodes are free of one another. -/
def diamond : Dict String (Finset String) :=
  ⟨[("d", {"b", "c"}), ("c", {"a"}), ("b", {"a"}), ("a", ∅)], by decide⟩

end Sample

theorem topoOrder_least_linearization_sample :
    (∀ row ∈ Sample.diamond.rows, ∀ p ∈ row.2, p ∈ Sample.diamond.keys) ∧
      topoOrder 4 Sample.diamond = .ok (some ["a", "b", "c", "d"]) ∧
        ∀ other, Linearizes Sample.diamond other →
          ["a", "b", "c", "d"] = other ∨ ["a", "b", "c", "d"] < other := by
  have closed : ∀ row ∈ Sample.diamond.rows, ∀ p ∈ row.2, p ∈ Sample.diamond.keys := by decide
  have sorted : topoOrder 4 Sample.diamond = .ok (some ["a", "b", "c", "d"]) := by decide +kernel
  rcases topoOrder_least_linearization Sample.diamond closed with ⟨answer, answers, _, least⟩
  have answered : answer = some ["a", "b", "c", "d"] := by
    have run := answers 4 (by decide)
    rw [sorted] at run
    exact (Except.ok.inj run).symm
  exact ⟨closed, sorted, (least _ answered).2⟩

/-! The order of a DAG of envelopes. -/

theorem distinct_parentRows (held : Dict String ICPEnvelope) (producers : Dict String String) :
    ((held.keys.map (fun h => (h, provenanceParents held producers h))).map Prod.fst).Nodup := by
  have same : (held.keys.map (fun h => (h, provenanceParents held producers h))).map Prod.fst =
      held.keys := by
    rw [List.map_map]
    exact List.map_id _
  rw [same]
  exact Dict.keys_nodup held

/-- `_provenance_parents`, as the dictionary that it returns. -/
def parentRows (held : Dict String ICPEnvelope) (producers : Dict String String) :
    Dict String (Finset String) :=
  ⟨held.keys.map (fun h => (h, provenanceParents held producers h)),
    distinct_parentRows held producers⟩

theorem provenanceParents_held {held : Dict String ICPEnvelope} {parent child : String}
    (edge : parent ∈ provenanceParents held (byOutput held) child) : parent ∈ held.keys := by
  unfold provenanceParents at edge
  split at edge
  · cases edge
  · rcases Finset.mem_union.mp edge with spine | data
    · exact of_decide_eq_true (List.mem_filter.mp (List.mem_toFinset.mp spine)).2
    · rcases List.mem_filter.mp (List.mem_toFinset.mp data) with ⟨produced, _⟩
      rcases List.mem_filterMap.mp produced with ⟨output, _, found⟩
      rcases ((lookup_byOutput held output parent).mp found).1 with ⟨env, stored, _⟩
      exact (Dict.mem_keys held parent).mpr ⟨env, stored⟩

/-- The order that `verify_dag` asks for is that of `_topo_order`. -/
theorem topoOrder_parentRows (held : Dict String ICPEnvelope) {fuel : Nat}
    (enough : held.keys.length ≤ fuel) :
    topoOrder fuel (parentRows held (byOutput held)) = .ok (dagOrder held) := by
  have keys : (parentRows held (byOutput held)).keys = held.keys := by
    rw [Dict.keys, parentRows, List.map_map]
    exact List.map_id _
  have rows : ∀ row ∈ (parentRows held (byOutput held)).rows,
      row.2 = provenanceParents held (byOutput held) row.1 := by
    intro row member
    rcases List.mem_map.mp member with ⟨h, _, rfl⟩
    rfl
  have closed : ∀ row ∈ (parentRows held (byOutput held)).rows, ∀ p ∈ row.2,
      p ∈ (parentRows held (byOutput held)).keys := by
    intro row member p edge
    rw [rows row member] at edge
    rw [keys]
    exact provenanceParents_held edge
  rw [topoOrder_eq closed (by rw [keys]; exact enough), dagOrder, keys]
  apply congrArg
  apply Kahn.topoOrder_congr (Dict.keys_nodup held) (List.Perm.refl _)
  intro h key
  rw [← keys] at key
  rcases List.mem_map.mp key with ⟨row, member, rfl⟩
  rw [parentSet_row member, rows row member]

end Gyza
