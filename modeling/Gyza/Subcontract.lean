import Gyza.Lib.Run
import Gyza.Wallet

/-! Budgets and reservations of subcontracts (`gyza/economy/subcontract.py`).

A reservation is a hold against the wallet and an allocation of the task's budget;
settling drops the hold, releasing drops both. The wallet is read through its net
balance, an argument. -/

namespace Gyza

open Wallet (Credits)

/-- What is allocated lies between zero and the total. -/
structure Budget where
  total : Credits
  allocated : Credits
  allocated_nonneg : 0 ≤ allocated.micros
  allocated_le_total : allocated.micros ≤ total.micros
  deriving DecidableEq

inductive AllocationRefused where
  | notPositive
  | exceedsRemaining (amount remaining : Credits)
  deriving DecidableEq

namespace Budget

/-- `Budget(total)`; a negative total raises. -/
def new (total : Credits) (nonneg : 0 ≤ total.micros) : Budget := ⟨total, .zero, le_rfl, nonneg⟩

def remaining (budget : Budget) : Credits := budget.total - budget.allocated

def tryAllocate (budget : Budget) (amount : Credits) : Except AllocationRefused Budget :=
  if positive : amount.micros ≤ 0 then .error .notPositive
  else if room : amount.micros > budget.remaining.micros then
    .error (.exceedsRemaining amount budget.remaining)
  else
    .ok { budget with
      allocated := budget.allocated + amount
      allocated_nonneg := by
        have nonneg := budget.allocated_nonneg
        simp only [Wallet.Credits.micros_add]
        omega
      allocated_le_total := by
        simp only [remaining, Wallet.Credits.micros_sub, gt_iff_lt, not_lt] at room
        simp only [Wallet.Credits.micros_add]
        omega }

/-- The result is clamped at zero. -/
def refund (budget : Budget) (amount : Credits) : Budget :=
  if negative : amount.micros ≤ 0 then budget
  else if below : (budget.allocated - amount).micros < 0 then
    { budget with
      allocated := .zero
      allocated_nonneg := le_rfl
      allocated_le_total := budget.allocated_nonneg.trans budget.allocated_le_total }
  else
    { budget with
      allocated := budget.allocated - amount
      allocated_nonneg := not_lt.mp below
      allocated_le_total := by
        have bound := budget.allocated_le_total
        simp only [Wallet.Credits.micros_sub]
        omega }

theorem tryAllocate_ok {budget charged : Budget} {amount : Credits}
    (ok : budget.tryAllocate amount = .ok charged) :
    0 < amount.micros ∧ amount.micros ≤ budget.remaining.micros ∧ charged.total = budget.total ∧
      charged.allocated = budget.allocated + amount := by
  unfold tryAllocate at ok
  split_ifs at ok with positive room
  cases ok
  exact ⟨not_le.mp positive, not_lt.mp room, rfl, rfl⟩

/-- The budget with the allocation, and the child that it becomes; raises if it does not fit. -/
def child (budget : Budget) (amount : Credits) : Except AllocationRefused (Budget × Budget) :=
  match allocation : budget.tryAllocate amount with
  | .error why => .error why
  | .ok charged => .ok (charged, new amount (tryAllocate_ok allocation).1.le)

@[simp] theorem refund_total (budget : Budget) (amount : Credits) :
    (budget.refund amount).total = budget.total := by
  unfold refund
  split_ifs
  · rfl
  · rfl
  · rfl

/-- A refund of what was allocated is not clamped. -/
theorem refund_allocated {budget : Budget} {amount : Credits} (positive : 0 < amount.micros)
    (within : amount.micros ≤ budget.allocated.micros) :
    (budget.refund amount).allocated = budget.allocated - amount := by
  have above : ¬(budget.allocated - amount).micros < 0 := by
    rw [Wallet.Credits.micros_sub]
    omega
  rw [refund, dif_neg (not_le.mpr positive), dif_neg above]

end Budget

inductive ResvState where
  | active
  | settled
  | released
  deriving DecidableEq

structure Reservation where
  childWorkItemId : String
  amount : Credits
  state : ResvState
  deriving DecidableEq

/-- The `reason` of a refused `reserve`. -/
inductive ReserveRefused where
  | terminal (childWid : String) (state : ResvState)
  | differentAmount (childWid : String) (reserved amount : Credits)
  | notPositive
  | insufficientHeadroom (need available : Credits)
  | budget (why : AllocationRefused)
  deriving DecidableEq

inductive TerminateRefused where
  | noReservation (childWid : String)
  | otherTerminal (childWid : String) (state target : ResvState)
  deriving DecidableEq

/-- What a book over a budget works on. -/
structure ReservationBook where
  budget : Budget
  resv : Dict String Reservation := Dict.empty

namespace ReservationBook

def activeHolds (book : ReservationBook) : Credits :=
  book.resv.values.foldl (fun holds reservation =>
    if reservation.state = .active then holds + reservation.amount else holds) .zero

/-- The wallet's side of the headroom. -/
def walletRoom (book : ReservationBook) (net : Credits) : Credits := net - book.activeHolds

def available (book : ReservationBook) (net : Credits) : Credits :=
  let budgetRoom := book.budget.remaining
  if (book.walletRoom net).micros < budgetRoom.micros then book.walletRoom net else budgetRoom

def canReserve (book : ReservationBook) (net amount : Credits) : Except ReserveRefused Unit :=
  if amount.micros ≤ 0 then .error .notPositive
  else if amount.micros > (book.available net).micros then
    .error (.insufficientHeadroom amount (book.available net))
  else .ok ()

def reserve (book : ReservationBook) (net : Credits) (childWid : String) (amount : Credits) :
    Except ReserveRefused Reservation × ReservationBook :=
  match book.resv.lookup childWid with
  | some existing =>
      if existing.state ≠ .active then (.error (.terminal childWid existing.state), book)
      else if existing.amount = amount then (.ok existing, book)
      else (.error (.differentAmount childWid existing.amount amount), book)
  | none =>
      match book.canReserve net amount with
      | .error why => (.error why, book)
      | .ok () =>
          match book.budget.tryAllocate amount with
          | .error why => (.error (.budget why), book)
          | .ok charged =>
              let reservation : Reservation := ⟨childWid, amount, .active⟩
              (.ok reservation, ⟨charged, book.resv.set childWid reservation⟩)

/-- The flag says whether the reservation really changed its state. -/
def terminate (book : ReservationBook) (childWid : String) (target : ResvState) :
    Except TerminateRefused Bool × ReservationBook :=
  match book.resv.lookup childWid with
  | none => (.error (.noReservation childWid), book)
  | some reservation =>
      if reservation.state = target then (.ok false, book)
      else if reservation.state ≠ .active then
        (.error (.otherTerminal childWid reservation.state target), book)
      else
        (.ok true, { book with
          resv := book.resv.set childWid ⟨childWid, reservation.amount, target⟩ })

def settle (book : ReservationBook) (childWid : String) :
    Except TerminateRefused Unit × ReservationBook :=
  match book.terminate childWid .settled with
  | (.error why, book) => (.error why, book)
  | (.ok _, book) => (.ok (), book)

def release (book : ReservationBook) (childWid : String) :
    Except TerminateRefused Unit × ReservationBook :=
  let existing := book.resv.lookup childWid
  match book.terminate childWid .released with
  | (.error why, book) => (.error why, book)
  | (.ok transitioned, book) =>
      match existing with
      | some reservation =>
          if transitioned then
            (.ok (), { book with budget := book.budget.refund reservation.amount })
          else (.ok (), book)
      | none => (.ok (), book)

end ReservationBook

/-- A call on a book; `net` is what the wallet shows for its owner at that time. -/
inductive BookCall where
  | reserve (net : Credits) (childWid : String) (amount : Credits)
  | settle (childWid : String)
  | release (childWid : String)

/-- Whether the call succeeded, and the book after it. -/
def ReservationBook.call (book : ReservationBook) : BookCall → Bool × ReservationBook
  | .reserve net childWid amount =>
      let outcome := book.reserve net childWid amount
      (outcome.1.isOk, outcome.2)
  | .settle childWid =>
      let outcome := book.settle childWid
      (outcome.1.isOk, outcome.2)
  | .release childWid =>
      let outcome := book.release childWid
      (outcome.1.isOk, outcome.2)

/-! What a call can do. -/

/-- A call leaves the book, or makes, settles or releases one reservation. -/
inductive Moves (book : ReservationBook) : ReservationBook → Prop
  | idle : Moves book book
  | reserved {childWid : String} {amount : Credits} {charged : Budget}
      (fresh : book.resv.lookup childWid = none)
      (allocation : book.budget.tryAllocate amount = .ok charged) :
      Moves book ⟨charged, book.resv.set childWid ⟨childWid, amount, .active⟩⟩
  | settled {childWid : String} {reservation : Reservation}
      (found : book.resv.lookup childWid = some reservation) (active : reservation.state = .active) :
      Moves book { book with resv := book.resv.set childWid ⟨childWid, reservation.amount, .settled⟩ }
  | released {childWid : String} {reservation : Reservation}
      (found : book.resv.lookup childWid = some reservation) (active : reservation.state = .active) :
      Moves book ⟨book.budget.refund reservation.amount,
        book.resv.set childWid ⟨childWid, reservation.amount, .released⟩⟩

theorem reserve_moves (book : ReservationBook) (net : Credits) (childWid : String) (amount : Credits) :
    Moves book (book.reserve net childWid amount).2 ∧
      ((book.reserve net childWid amount).1.isOk = false →
        (book.reserve net childWid amount).2 = book) := by
  unfold ReservationBook.reserve
  cases found : book.resv.lookup childWid with
  | some existing =>
      simp only
      split_ifs
      · exact ⟨.idle, fun _ => rfl⟩
      · exact ⟨.idle, fun _ => rfl⟩
      · exact ⟨.idle, fun _ => rfl⟩
  | none =>
      simp only
      cases book.canReserve net amount with
      | error why => exact ⟨.idle, fun _ => rfl⟩
      | ok allowed =>
          simp only
          cases allocation : book.budget.tryAllocate amount with
          | error why => exact ⟨.idle, fun _ => rfl⟩
          | ok charged => exact ⟨.reserved found allocation, fun failed => by cases failed⟩

/-- `terminate` refuses, repeats, or changes an active reservation. -/
theorem terminate_cases (book : ReservationBook) (childWid : String) (target : ResvState) :
    (∃ why, book.terminate childWid target = (.error why, book)) ∨
      book.terminate childWid target = (.ok false, book) ∨
      ∃ reservation, book.resv.lookup childWid = some reservation ∧ reservation.state = .active ∧
        book.terminate childWid target = (.ok true, { book with
          resv := book.resv.set childWid ⟨childWid, reservation.amount, target⟩ }) := by
  unfold ReservationBook.terminate
  cases found : book.resv.lookup childWid with
  | none => exact Or.inl ⟨_, rfl⟩
  | some reservation =>
      simp only
      split_ifs with same terminal
      · exact Or.inr (Or.inl rfl)
      · exact Or.inl ⟨_, rfl⟩
      · exact Or.inr (Or.inr ⟨reservation, rfl, not_not.mp terminal, rfl⟩)

theorem settle_moves (book : ReservationBook) (childWid : String) :
    Moves book (book.settle childWid).2 ∧
      ((book.settle childWid).1.isOk = false → (book.settle childWid).2 = book) := by
  unfold ReservationBook.settle
  rcases terminate_cases book childWid .settled with
    ⟨why, refused⟩ | again | ⟨reservation, found, active, moved⟩
  · rw [refused]
    exact ⟨.idle, fun _ => rfl⟩
  · rw [again]
    exact ⟨.idle, fun _ => rfl⟩
  · rw [moved]
    exact ⟨.settled found active, fun failed => by cases failed⟩

theorem release_moves (book : ReservationBook) (childWid : String) :
    Moves book (book.release childWid).2 ∧
      ((book.release childWid).1.isOk = false → (book.release childWid).2 = book) := by
  unfold ReservationBook.release
  rcases terminate_cases book childWid .released with
    ⟨why, refused⟩ | again | ⟨reservation, found, active, moved⟩
  · rw [refused]
    exact ⟨.idle, fun _ => rfl⟩
  · rw [again]
    cases book.resv.lookup childWid with
    | none => exact ⟨.idle, fun _ => rfl⟩
    | some reservation => exact ⟨.idle, fun _ => rfl⟩
  · rw [moved, found]
    exact ⟨.released found active, fun failed => by cases failed⟩

theorem call_moves (book : ReservationBook) (call : BookCall) :
    Moves book (book.call call).2 ∧ ((book.call call).1 = false → (book.call call).2 = book) := by
  cases call with
  | reserve net childWid amount => exact reserve_moves book net childWid amount
  | settle childWid => exact settle_moves book childWid
  | release childWid => exact release_moves book childWid

/-! The budget against the reservations. -/

/-- What the reservation takes from the budget. -/
def Reservation.committed (reservation : Reservation) : Int :=
  if reservation.state = .released then 0 else reservation.amount.micros

theorem committed_active {reservation : Reservation} (active : reservation.state = .active) :
    reservation.committed = reservation.amount.micros := by
  rw [Reservation.committed, active]
  rfl

/-- What the reservation takes from the wallet's headroom. -/
def Reservation.hold (reservation : Reservation) : Int :=
  if reservation.state = .active then reservation.amount.micros else 0

/-- The amounts of the reservations that are active or settled. -/
def committedOf (resv : Dict String Reservation) : Int :=
  (resv.values.map Reservation.committed).sum

def ReservationBook.committed (book : ReservationBook) : Int := committedOf book.resv

theorem activeHolds_micros (book : ReservationBook) :
    book.activeHolds.micros = (book.resv.values.map Reservation.hold).sum := by
  have fold (reservations : List Reservation) (start : Credits) :
      (reservations.foldl (fun holds reservation =>
        if reservation.state = .active then holds + reservation.amount else holds) start).micros =
          start.micros + (reservations.map Reservation.hold).sum := by
    induction reservations generalizing start with
    | nil => simp
    | cons reservation rest ih =>
        rw [List.foldl_cons, ih, List.map_cons, List.sum_cons, Reservation.hold]
        split_ifs
        · rw [Wallet.Credits.micros_add, add_assoc]
        · rw [zero_add]
  rw [ReservationBook.activeHolds, fold, Wallet.Credits.micros_zero, zero_add]

def PositiveAmounts (resv : Dict String Reservation) : Prop :=
  ∀ childWid reservation, resv.lookup childWid = some reservation → 0 < reservation.amount.micros

theorem PositiveAmounts.of_mem {resv : Dict String Reservation} (positive : PositiveAmounts resv)
    {reservation : Reservation} (listed : reservation ∈ resv.values) :
    0 < reservation.amount.micros := by
  rcases List.mem_map.mp listed with ⟨⟨key, stored⟩, row, rfl⟩
  exact positive key stored ((Dict.lookup_eq_some _ _ _).mpr row)

theorem PositiveAmounts.share_nonneg {resv : Dict String Reservation}
    (positive : PositiveAmounts resv) :
    ∀ share ∈ resv.values.map Reservation.committed, 0 ≤ share := by
  intro share member
  rcases List.mem_map.mp member with ⟨reservation, listed, rfl⟩
  unfold Reservation.committed
  split_ifs
  · exact le_rfl
  · exact (positive.of_mem listed).le

theorem PositiveAmounts.set {resv : Dict String Reservation} {childWid : String}
    {reservation : Reservation} (positive : PositiveAmounts resv)
    (new : 0 < reservation.amount.micros) : PositiveAmounts (resv.set childWid reservation) := by
  intro other stored found
  rw [Dict.lookup_set] at found
  split_ifs at found
  · cases found
    exact new
  · exact positive other stored found

theorem PositiveAmounts.share_le {resv : Dict String Reservation} (positive : PositiveAmounts resv)
    {childWid : String} {reservation : Reservation}
    (found : resv.lookup childWid = some reservation) :
    reservation.committed ≤ committedOf resv := by
  apply List.single_le_sum positive.share_nonneg
  apply List.mem_map_of_mem
  exact List.mem_map_of_mem ((Dict.lookup_eq_some _ _ _).mp found)

theorem committedOf_set (resv : Dict String Reservation) (childWid : String)
    (reservation : Reservation) :
    committedOf (resv.set childWid reservation) = committedOf resv -
      ((resv.lookup childWid).map Reservation.committed).getD 0 + reservation.committed :=
  Dict.sum_values_set resv Reservation.committed childWid reservation

/-- Reserved amounts are positive, and the budget has allocated what they commit. -/
structure Covered (book : ReservationBook) : Prop where
  positive : PositiveAmounts book.resv
  committed : book.committed ≤ book.budget.allocated.micros

/-- What the reservations do not account for of the budget's allocation. -/
def ReservationBook.uncommitted (book : ReservationBook) : Int :=
  book.budget.allocated.micros - book.committed

/-- Where one reservation changes, the budget has to change by the same amount. -/
theorem Covered.set {book : ReservationBook} (covered : Covered book) {budget : Budget}
    {childWid : String} (reservation : Reservation) (positive : 0 < reservation.amount.micros)
    (charge : budget.allocated.micros - book.budget.allocated.micros = reservation.committed -
      ((book.resv.lookup childWid).map Reservation.committed).getD 0) :
    Covered ⟨budget, book.resv.set childWid reservation⟩ ∧
      ReservationBook.uncommitted ⟨budget, book.resv.set childWid reservation⟩ =
        book.uncommitted := by
  have after := committedOf_set book.resv childWid reservation
  have bound := covered.committed
  simp only [ReservationBook.committed] at bound
  refine ⟨⟨covered.positive.set positive, ?_⟩, ?_⟩
  · simp only [ReservationBook.committed]
    omega
  · simp only [ReservationBook.uncommitted, ReservationBook.committed]
    omega

/-- A move takes from the budget what it commits, and gives back what it frees. -/
theorem Moves.balanced {book after : ReservationBook} (moves : Moves book after)
    (covered : Covered book) :
    Covered after ∧ after.budget.total = book.budget.total ∧
      after.uncommitted = book.uncommitted := by
  cases moves with
  | idle => exact ⟨covered, rfl, rfl⟩
  | @reserved childWid amount charged fresh allocation =>
      rcases Budget.tryAllocate_ok allocation with ⟨positive, _, total, allocated⟩
      have charge : charged.allocated.micros - book.budget.allocated.micros = amount.micros - 0 := by
        rw [allocated, Wallet.Credits.micros_add]
        omega
      rcases covered.set ⟨childWid, amount, .active⟩ positive
        (by rw [fresh]; exact charge) with ⟨next, uncommitted⟩
      exact ⟨next, total, uncommitted⟩
  | @settled childWid reservation found active =>
      have positive := covered.positive childWid reservation found
      have share := committed_active active
      have charge : book.budget.allocated.micros - book.budget.allocated.micros =
          reservation.amount.micros - reservation.committed := by omega
      rcases covered.set ⟨childWid, reservation.amount, .settled⟩ positive
        (by rw [found]; exact charge) with ⟨next, uncommitted⟩
      exact ⟨next, rfl, uncommitted⟩
  | @released childWid reservation found active =>
      have positive := covered.positive childWid reservation found
      have share := committed_active active
      -- the clamp of `refund` is never reached
      have within : reservation.amount.micros ≤ book.budget.allocated.micros :=
        share ▸ (covered.positive.share_le found).trans covered.committed
      have charge : (book.budget.refund reservation.amount).allocated.micros -
          book.budget.allocated.micros = 0 - reservation.committed := by
        rw [Budget.refund_allocated positive within, Wallet.Credits.micros_sub]
        omega
      rcases covered.set ⟨childWid, reservation.amount, .released⟩ positive
        (by rw [found]; exact charge) with ⟨next, uncommitted⟩
      exact ⟨next, Budget.refund_total _ _, uncommitted⟩

/-! The states of one reservation. -/

/-- What may become of an id in one call. -/
inductive StateMoves (childWid : String) : Option Reservation → Option Reservation → Prop
  | kept (reservation : Option Reservation) : StateMoves childWid reservation reservation
  | reserved (amount : Credits) : StateMoves childWid none (some ⟨childWid, amount, .active⟩)
  | settled {reservation : Reservation} (active : reservation.state = .active) :
      StateMoves childWid (some reservation) (some ⟨childWid, reservation.amount, .settled⟩)
  | released {reservation : Reservation} (active : reservation.state = .active) :
      StateMoves childWid (some reservation) (some ⟨childWid, reservation.amount, .released⟩)

theorem StateMoves.set {resv : Dict String Reservation} {changed : String}
    {reservation : Reservation}
    (moves : StateMoves changed (resv.lookup changed) (some reservation)) (childWid : String) :
    StateMoves childWid (resv.lookup childWid)
      ((resv.set changed reservation).lookup childWid) := by
  rw [Dict.lookup_set]
  split_ifs with same
  · subst same
    exact moves
  · exact .kept _

theorem Moves.state {book after : ReservationBook} (moves : Moves book after) (childWid : String) :
    StateMoves childWid (book.resv.lookup childWid) (after.resv.lookup childWid) := by
  cases moves with
  | idle => exact .kept _
  | @reserved changed amount charged fresh allocation =>
      apply StateMoves.set
      rw [fresh]
      exact .reserved amount
  | @settled changed reservation found active =>
      apply StateMoves.set
      rw [found]
      exact .settled active
  | @released changed reservation found active =>
      apply StateMoves.set
      rw [found]
      exact .released active

theorem StateMoves.terminal {childWid : String} {reservation : Reservation}
    {after : Option Reservation} (moves : StateMoves childWid (some reservation) after)
    (terminal : reservation.state ≠ .active) : after = some reservation := by
  cases moves with
  | kept _ => rfl
  | settled active => exact absurd active terminal
  | released active => exact absurd active terminal

/-! Runs. -/

def bookStep (book : ReservationBook) (call : BookCall) : ReservationBook := (book.call call).2

theorem balanced_run (start : ReservationBook) (covered : Covered start) (calls : List BookCall) :
    Covered (Run.run bookStep start calls) ∧
      (Run.run bookStep start calls).budget.total = start.budget.total ∧
      (Run.run bookStep start calls).uncommitted = start.uncommitted := by
  apply Run.kept_run bookStep (fun book => Covered book ∧ book.budget.total = start.budget.total ∧
    book.uncommitted = start.uncommitted)
  · intro book call holds
    rcases holds with ⟨covered, totals, rests⟩
    rcases (call_moves book call).1.balanced covered with ⟨next, total, uncommitted⟩
    exact ⟨next, total.trans totals, uncommitted.trans rests⟩
  · exact ⟨covered, rfl, rfl⟩

theorem terminal_run (start : ReservationBook) (calls : List BookCall) {childWid : String}
    {reservation : Reservation} (found : start.resv.lookup childWid = some reservation)
    (terminal : reservation.state ≠ .active) :
    (Run.run bookStep start calls).resv.lookup childWid = some reservation := by
  apply Run.kept_run bookStep (fun book => book.resv.lookup childWid = some reservation)
  · intro book call found
    have moves := (call_moves book call).1.state childWid
    rw [found] at moves
    exact moves.terminal terminal
  · exact found

/-- Settling an active reservation frees the hold that its payment uses up. -/
theorem settle_walletRoom {book : ReservationBook} {childWid : String} {reservation : Reservation}
    (found : book.resv.lookup childWid = some reservation) (active : reservation.state = .active)
    (net : Credits) :
    (book.settle childWid).1 = .ok () ∧
      (book.settle childWid).2.walletRoom (net - reservation.amount) = book.walletRoom net := by
  have settled : book.settle childWid = (.ok (), { book with
      resv := book.resv.set childWid ⟨childWid, reservation.amount, .settled⟩ }) := by
    simp [ReservationBook.settle, ReservationBook.terminate, found, active]
  have before : reservation.hold = reservation.amount.micros := if_pos active
  have after : Reservation.hold ⟨childWid, reservation.amount, .settled⟩ = 0 := rfl
  have holds := Dict.sum_values_set book.resv Reservation.hold childWid
    ⟨childWid, reservation.amount, .settled⟩
  rw [found, Option.map_some, Option.getD_some, before, after, add_zero] at holds
  rw [settled]
  refine ⟨rfl, Wallet.Credits.ext ?_⟩
  simp only [ReservationBook.walletRoom, Wallet.Credits.micros_sub, activeHolds_micros, holds]
  omega

/-- A book over a budget of its own, after any calls: the budget has allocated what is active
or settled, a failed call changes nothing, each id moves from active to one terminal state and
stays there, and a settlement that the wallet shows leaves the wallet's headroom. -/
theorem reservation_accounting (total : Credits) (nonneg : 0 ≤ total.micros)
    (calls : List BookCall) (book : ReservationBook)
    (reached : book = Run.run bookStep { budget := Budget.new total nonneg } calls) :
    book.budget.allocated.micros = book.committed ∧ book.budget.total = total ∧
      (0 ≤ book.budget.allocated.micros ∧ book.budget.allocated.micros ≤ total.micros) ∧
      (∀ call, (book.call call).1 = false → (book.call call).2 = book) ∧
      (∀ call childWid, StateMoves childWid (book.resv.lookup childWid)
        ((book.call call).2.resv.lookup childWid)) ∧
      (∀ later childWid reservation, book.resv.lookup childWid = some reservation →
        reservation.state ≠ .active →
          (Run.run bookStep book later).resv.lookup childWid = some reservation) ∧
      ∀ childWid reservation net, book.resv.lookup childWid = some reservation →
        reservation.state = .active → (book.settle childWid).1 = .ok () ∧
          (book.settle childWid).2.walletRoom (net - reservation.amount) = book.walletRoom net := by
  have start : Covered { budget := Budget.new total nonneg } := by
    refine ⟨?_, le_rfl⟩
    intro childWid reservation found
    cases found
  rcases balanced_run _ start calls with ⟨_, totals, uncommitted⟩
  rw [← reached] at totals uncommitted
  have fresh : ReservationBook.uncommitted { budget := Budget.new total nonneg } = 0 := rfl
  rw [fresh, ReservationBook.uncommitted, sub_eq_zero] at uncommitted
  have bounded := book.budget.allocated_le_total
  rw [totals] at bounded
  refine ⟨uncommitted, totals, ⟨book.budget.allocated_nonneg, bounded⟩, ?_, ?_, ?_, ?_⟩
  · exact fun call => (call_moves book call).2
  · exact fun call childWid => (call_moves book call).1.state childWid
  · exact fun later childWid reservation => terminal_run book later
  · exact fun childWid reservation net found active => settle_walletRoom found active net

namespace Sample

/-- Of two reservations one is paid and one is abandoned; repeats and a conflict come between. -/
def bookCalls : List BookCall :=
  [.reserve ⟨9⟩ "a" ⟨4⟩, .reserve ⟨9⟩ "a" ⟨4⟩, .reserve ⟨9⟩ "b" ⟨3⟩, .reserve ⟨9⟩ "b" ⟨2⟩,
    .settle "a", .release "a", .release "b", .release "b"]

def bookAfter : ReservationBook :=
  Run.run bookStep { budget := Budget.new ⟨10⟩ (by decide) } bookCalls

end Sample

theorem reservation_accounting_sample :
    Sample.bookAfter.budget.allocated = ⟨4⟩ ∧
      Sample.bookAfter.budget.allocated.micros = Sample.bookAfter.committed :=
  ⟨by decide, (reservation_accounting ⟨10⟩ (by decide) Sample.bookCalls Sample.bookAfter rfl).1⟩

end Gyza
