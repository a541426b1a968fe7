import Gyza.Subcontract

/-! Trees of budgets that `Budget.child` grows from one root.

Once carved out, a child is a budget of its own. Spending happens at every budget of the
tree, through reservations or by allocating outright, and only a released reservation
is refunded. -/

namespace Gyza

open Wallet (Credits)

/-- A budget with the books over it and what was allocated outright, to be spent. -/
structure BudgetNode where
  budget : Budget
  books : List (Dict String Reservation) := []
  spent : Credits := .zero

inductive BudgetTree where
  | node (root : BudgetNode) (children : List BudgetTree)

inductive BudgetAct where
  | child (amount : Credits)
  | tryAllocate (amount : Credits)
  | openBook
  | book (which : Nat) (call : BookCall)

namespace BudgetTree

def act (step : BudgetAct) : BudgetTree → BudgetTree
  | .node root children =>
      match step with
      | .child amount =>
          match root.budget.child amount with
          | .error _ => .node root children
          | .ok (charged, fresh) =>
              .node { root with budget := charged } (children ++ [.node { budget := fresh } []])
      | .tryAllocate amount =>
          match root.budget.tryAllocate amount with
          | .error _ => .node root children
          | .ok charged => .node { root with budget := charged, spent := root.spent + amount } children
      | .openBook => .node { root with books := root.books ++ [Dict.empty] } children
      | .book which call =>
          match root.books[which]? with
          | none => .node root children
          | some resv =>
              let after := (ReservationBook.call ⟨root.budget, resv⟩ call).2
              .node { root with budget := after.budget, books := root.books.set which after.resv }
                children

/-- An act at the budget that the path leads to; where there is none, nothing happens. -/
def actAt (step : BudgetAct) : List Nat → BudgetTree → BudgetTree
  | [], tree => tree.act step
  | turn :: path, .node root children => .node root (children.modify turn (actAt step path))

def total : BudgetTree → Int
  | .node root _ => root.budget.total.micros

end BudgetTree

def Reservation.paid (reservation : Reservation) : Int :=
  if reservation.state = .settled then reservation.amount.micros else 0

/-- The settled spend of one budget: its settled reservations and its outright allocations. -/
def BudgetNode.settledSpend (node : BudgetNode) : Int :=
  node.spent.micros +
    (node.books.map (fun resv => (resv.values.map Reservation.paid).sum)).sum

mutual
/-- The settled spend over all budgets of the tree; what a child was given is not spent yet. -/
def BudgetTree.settledSpend : BudgetTree → Int
  | .node root children => root.settledSpend + settledSpendAll children
def settledSpendAll : List BudgetTree → Int
  | [] => 0
  | tree :: rest => tree.settledSpend + settledSpendAll rest
end

/-! The accounts of a tree. -/

/-- Every budget has allocated what its books commit, what is spent outright and what its
children got. -/
inductive Accounted : BudgetTree → Prop
  | node {root : BudgetNode} {children : List BudgetTree}
      (positive : ∀ resv ∈ root.books, PositiveAmounts resv) (spent : 0 ≤ root.spent.micros)
      (own : root.budget.allocated.micros = root.spent.micros +
        (root.books.map committedOf).sum + (children.map BudgetTree.total).sum)
      (below : ∀ tree ∈ children, Accounted tree) : Accounted (.node root children)

theorem committedOf_nonneg {resv : Dict String Reservation} (positive : PositiveAmounts resv) :
    0 ≤ committedOf resv :=
  List.sum_nonneg positive.share_nonneg

theorem paid_le_committedOf {resv : Dict String Reservation} (positive : PositiveAmounts resv) :
    (resv.values.map Reservation.paid).sum ≤ committedOf resv := by
  apply List.sum_le_sum
  intro reservation listed
  have amount := positive.of_mem listed
  unfold Reservation.committed Reservation.paid
  cases reservation.state with
  | active => exact amount.le
  | settled => exact le_rfl
  | released => exact le_rfl

theorem BudgetTree.total_nonneg (tree : BudgetTree) : 0 ≤ tree.total := by
  cases tree with
  | node root children =>
      exact root.budget.allocated_nonneg.trans root.budget.allocated_le_total

theorem totals_nonneg (children : List BudgetTree) : 0 ≤ (children.map BudgetTree.total).sum := by
  apply List.sum_nonneg
  intro share member
  rcases List.mem_map.mp member with ⟨tree, _, rfl⟩
  exact tree.total_nonneg

theorem settledSpendAll_le (children : List BudgetTree)
    (each : ∀ tree ∈ children, tree.settledSpend ≤ tree.total) :
    settledSpendAll children ≤ (children.map BudgetTree.total).sum := by
  induction children with
  | nil => exact le_rfl
  | cons tree rest ih =>
      rcases List.forall_mem_cons.mp each with ⟨first, others⟩
      have remaining := ih others
      rw [settledSpendAll, List.map_cons, List.sum_cons]
      omega

/-- A tree whose accounts are in order spends no more than its root was given. -/
theorem Accounted.settledSpend_le {tree : BudgetTree} (accounted : Accounted tree) :
    tree.settledSpend ≤ tree.total := by
  induction accounted with
  | @node root children positive spent own below ih =>
      have books : (root.books.map (fun resv => (resv.values.map Reservation.paid).sum)).sum ≤
          (root.books.map committedOf).sum := by
        apply List.sum_le_sum
        exact fun resv listed => paid_le_committedOf (positive resv listed)
      have subtrees := settledSpendAll_le children ih
      have bound := root.budget.allocated_le_total
      calc
        BudgetTree.settledSpend (.node root children)
            = root.spent.micros +
                (root.books.map (fun resv => (resv.values.map Reservation.paid).sum)).sum +
                settledSpendAll children := by rw [BudgetTree.settledSpend, BudgetNode.settledSpend]
        _ ≤ root.spent.micros + (root.books.map committedOf).sum +
              (children.map BudgetTree.total).sum := by omega
        _ = root.budget.allocated.micros := own.symm
        _ ≤ root.budget.total.micros := bound

/-! Acts keep the accounts. -/

theorem Budget.child_ok {budget charged fresh : Budget} {amount : Credits}
    (ok : budget.child amount = .ok (charged, fresh)) :
    budget.tryAllocate amount = .ok charged ∧ fresh.total = amount ∧ fresh.allocated = .zero := by
  unfold Budget.child at ok
  split at ok
  · cases ok
  next allocation =>
    cases ok
    exact ⟨allocation, rfl, rfl⟩

theorem Accounted.fresh {budget : Budget} (unallocated : budget.allocated = .zero) :
    Accounted (.node { budget := budget } []) := by
  apply Accounted.node
  · intro resv listed
    cases listed
  · exact le_rfl
  · rw [unallocated]
    rfl
  · intro tree member
    cases member

theorem sum_committed_set (books : List (Dict String Reservation)) {which : Nat}
    {resv : Dict String Reservation} (found : books[which]? = some resv)
    (after : Dict String Reservation) :
    ((books.set which after).map committedOf).sum =
      (books.map committedOf).sum - committedOf resv + committedOf after := by
  rcases List.getElem?_eq_some_iff.mp found with ⟨bound, rfl⟩
  have inside : which < (books.map committedOf).length := by rw [List.length_map]; exact bound
  rw [List.map_set, List.sum_set', dif_pos inside, List.getElem_map]
  omega

section Node

variable {root : BudgetNode} {children : List BudgetTree}

/-- A book of an accounted budget is covered by it. -/
theorem Accounted.covered (accounted : Accounted (.node root children))
    {resv : Dict String Reservation} (listed : resv ∈ root.books) :
    Covered ⟨root.budget, resv⟩ := by
  cases accounted with
  | node positive spent own below =>
      refine ⟨positive resv listed, ?_⟩
      have given := totals_nonneg children
      have share : committedOf resv ≤ (root.books.map committedOf).sum := by
        apply List.single_le_sum
        · intro amount member
          rcases List.mem_map.mp member with ⟨other, held, rfl⟩
          exact committedOf_nonneg (positive other held)
        · exact List.mem_map_of_mem listed
      calc
        committedOf resv ≤ (root.books.map committedOf).sum := share
        _ ≤ root.spent.micros + (root.books.map committedOf).sum +
              (children.map BudgetTree.total).sum := by omega
        _ = root.budget.allocated.micros := own.symm

theorem Accounted.child (accounted : Accounted (.node root children)) {charged fresh : Budget}
    {amount : Credits} (ok : root.budget.child amount = .ok (charged, fresh)) :
    Accounted (.node { root with budget := charged }
      (children ++ [.node { budget := fresh } []])) := by
  rcases Budget.child_ok ok with ⟨allocation, granted, unallocated⟩
  rcases Budget.tryAllocate_ok allocation with ⟨_, _, _, allocated⟩
  cases accounted with
  | node positive spent own below =>
      refine Accounted.node positive spent ?_ ?_
      · have grant : BudgetTree.total (.node { budget := fresh } []) = amount.micros :=
          congrArg Wallet.Credits.micros granted
        rw [allocated, Wallet.Credits.micros_add, own, List.map_append, List.sum_append,
          List.map_singleton, List.sum_singleton, grant]
        exact add_assoc _ _ _
      · intro tree member
        rcases List.mem_append.mp member with old | new
        · exact below tree old
        · rw [List.mem_singleton.mp new]
          exact Accounted.fresh unallocated

theorem Accounted.tryAllocate (accounted : Accounted (.node root children)) {charged : Budget}
    {amount : Credits} (ok : root.budget.tryAllocate amount = .ok charged) :
    Accounted (.node { root with budget := charged, spent := root.spent + amount } children) := by
  rcases Budget.tryAllocate_ok ok with ⟨positive, _, _, allocated⟩
  cases accounted with
  | node amounts spent own below =>
      refine Accounted.node amounts ?_ ?_ below
      · rw [Wallet.Credits.micros_add]
        omega
      · simp only [allocated, Wallet.Credits.micros_add, own]
        omega

theorem Accounted.openBook (accounted : Accounted (.node root children)) :
    Accounted (.node { root with books := root.books ++ [Dict.empty] } children) := by
  cases accounted with
  | node positive spent own below =>
      refine Accounted.node ?_ spent ?_ below
      · intro resv member
        rcases List.mem_append.mp member with old | new
        · exact positive resv old
        · rw [List.mem_singleton.mp new]
          intro childWid reservation found
          cases found
      · have empty : committedOf Dict.empty = 0 := rfl
        rw [own, List.map_append, List.sum_append, List.map_singleton, List.sum_singleton, empty,
          add_zero]

theorem Accounted.book (accounted : Accounted (.node root children)) {which : Nat}
    {resv : Dict String Reservation} (found : root.books[which]? = some resv)
    {after : ReservationBook} (moves : Moves ⟨root.budget, resv⟩ after) :
    Accounted (.node { root with budget := after.budget, books := root.books.set which after.resv }
      children) := by
  rcases moves.balanced (accounted.covered (List.mem_of_getElem? found)) with
    ⟨covered, _, uncommitted⟩
  cases accounted with
  | node positive spent own below =>
      refine Accounted.node ?_ spent ?_ below
      · intro other member
        rcases List.mem_or_eq_of_mem_set member with old | rfl
        · exact positive other old
        · exact covered.positive
      · have moved : after.budget.allocated.micros - committedOf after.resv =
            root.budget.allocated.micros - committedOf resv := uncommitted
        have books := sum_committed_set root.books found after.resv
        simp only [books]
        omega

end Node

/-- One act at the root of the tree. -/
theorem Accounted.act {tree : BudgetTree} (accounted : Accounted tree) (step : BudgetAct) :
    Accounted (tree.act step) ∧ (tree.act step).total = tree.total := by
  rcases tree with ⟨root, children⟩
  cases step with
  | child amount =>
      simp only [BudgetTree.act]
      cases ok : root.budget.child amount with
      | error why => exact ⟨accounted, rfl⟩
      | ok outcome =>
          rcases outcome with ⟨charged, fresh⟩
          rcases Budget.tryAllocate_ok (Budget.child_ok ok).1 with ⟨_, _, total, _⟩
          exact ⟨accounted.child ok, congrArg Wallet.Credits.micros total⟩
  | tryAllocate amount =>
      simp only [BudgetTree.act]
      cases ok : root.budget.tryAllocate amount with
      | error why => exact ⟨accounted, rfl⟩
      | ok charged =>
          rcases Budget.tryAllocate_ok ok with ⟨_, _, total, _⟩
          exact ⟨accounted.tryAllocate ok, congrArg Wallet.Credits.micros total⟩
  | openBook => exact ⟨accounted.openBook, rfl⟩
  | book which call =>
      simp only [BudgetTree.act]
      cases found : root.books[which]? with
      | none => exact ⟨accounted, rfl⟩
      | some resv =>
          have moves := (call_moves ⟨root.budget, resv⟩ call).1
          have covered := accounted.covered (List.mem_of_getElem? found)
          rcases moves.balanced covered with ⟨_, total, _⟩
          exact ⟨accounted.book found moves, congrArg Wallet.Credits.micros total⟩

/-- A change below one child that keeps its accounts and its total is invisible above. -/
theorem modify_keeps {change : BudgetTree → BudgetTree}
    (keeps : ∀ tree, Accounted tree → Accounted (change tree) ∧ (change tree).total = tree.total)
    (children : List BudgetTree) (below : ∀ tree ∈ children, Accounted tree) (turn : Nat) :
    (∀ tree ∈ children.modify turn change, Accounted tree) ∧
      ((children.modify turn change).map BudgetTree.total).sum =
        (children.map BudgetTree.total).sum := by
  induction children generalizing turn with
  | nil => simp
  | cons tree rest ih =>
      rcases List.forall_mem_cons.mp below with ⟨first, others⟩
      cases turn with
      | zero =>
          rcases keeps tree first with ⟨changed, total⟩
          rw [List.modify_zero_cons, List.forall_mem_cons, List.map_cons, List.sum_cons,
            List.map_cons, List.sum_cons, total]
          exact ⟨⟨changed, others⟩, rfl⟩
      | succ turn =>
          rcases ih others turn with ⟨changed, totals⟩
          rw [List.modify_succ_cons, List.forall_mem_cons, List.map_cons, List.sum_cons,
            List.map_cons, List.sum_cons, totals]
          exact ⟨⟨first, changed⟩, rfl⟩

/-- One act anywhere in the tree; the induction is on the path. -/
theorem Accounted.actAt {tree : BudgetTree} (accounted : Accounted tree) (step : BudgetAct)
    (path : List Nat) :
    Accounted (tree.actAt step path) ∧ (tree.actAt step path).total = tree.total := by
  induction path generalizing tree with
  | nil => exact accounted.act step
  | cons turn path ih =>
      cases accounted with
      | @node root children positive spent own below =>
          rcases modify_keeps (fun tree kept => ih kept) children below turn with ⟨changed, totals⟩
          refine ⟨Accounted.node positive spent ?_ changed, rfl⟩
          rw [own, totals]

/-! Runs. -/

/-- A step of a run: the path to a budget and what is done there. -/
def treeStep (tree : BudgetTree) (step : List Nat × BudgetAct) : BudgetTree :=
  tree.actAt step.2 step.1

theorem accounted_run {start : BudgetTree} (accounted : Accounted start)
    (steps : List (List Nat × BudgetAct)) :
    Accounted (Run.run treeStep start steps) ∧
      (Run.run treeStep start steps).total = start.total := by
  apply Run.kept_run treeStep (fun tree => Accounted tree ∧ tree.total = start.total)
  · intro tree step holds
    rcases holds with ⟨accounted, totals⟩
    rcases accounted.actAt step.2 step.1 with ⟨next, total⟩
    exact ⟨next, total.trans totals⟩
  · exact ⟨accounted, rfl⟩

/-- Whatever is done anywhere in the tree grown from one budget, in any order, what it settles
altogether stays within that budget's total. -/
theorem settledSpend_le_root (total : Credits) (nonneg : 0 ≤ total.micros)
    (steps : List (List Nat × BudgetAct)) :
    (Run.run treeStep (.node { budget := Budget.new total nonneg } []) steps).settledSpend ≤
      total.micros := by
  have start : Accounted (.node { budget := Budget.new total nonneg } []) := .fresh rfl
  rcases accounted_run start steps with ⟨accounted, same⟩
  calc
    (Run.run treeStep (.node { budget := Budget.new total nonneg } []) steps).settledSpend
        ≤ (Run.run treeStep (.node { budget := Budget.new total nonneg } []) steps).total :=
          accounted.settledSpend_le
    _ = total.micros := same

namespace Sample

/-- A child and a grandchild spend; of the root's two reservations one is paid. -/
def treeSteps : List (List Nat × BudgetAct) :=
  [([], .child ⟨6⟩), ([0], .child ⟨4⟩), ([0, 0], .tryAllocate ⟨3⟩), ([], .openBook),
    ([], .book 0 (.reserve ⟨9⟩ "a" ⟨4⟩)), ([], .book 0 (.release "a")),
    ([], .book 0 (.reserve ⟨9⟩ "b" ⟨2⟩)), ([], .book 0 (.settle "b")), ([0], .tryAllocate ⟨3⟩)]

end Sample

theorem settledSpend_le_root_sample :
    (Run.run treeStep (.node { budget := Budget.new ⟨10⟩ (by decide) } [])
        Sample.treeSteps).settledSpend = 5 ∧
      (Run.run treeStep (.node { budget := Budget.new ⟨10⟩ (by decide) } [])
        Sample.treeSteps).settledSpend ≤ 10 :=
  ⟨by decide, settledSpend_le_root ⟨10⟩ (by decide) Sample.treeSteps⟩

end Gyza
