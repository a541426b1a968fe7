import Gyza.MarketRuns

/-! How often the market bonds one signed assertion.

Duplicates are looked up in the escrow of the open tasks, and the signed nonce is
recorded nowhere, so a task that was resolved or cancelled has forgotten its bonds. -/

namespace Gyza.Market

open BondedMarket

/-- What the signature covers. -/
def signedContent (a : Assertion) : String × String × String × ℚ × String :=
  (a.agentPubkey, a.taskId, a.claim, a.stake, a.nonce)

/-- The `stake` entries that a call appended. -/
def stakesAppended (before after : BondedMarket) : List CapitalEntry :=
  (after.entries.drop before.entries.length).filter (fun e => e.reason = .stake)

/-- A market with the assertions submitted so far that were bonded, each beside the
`stake` entry it caused. -/
structure Watched where
  market : BondedMarket
  caused : List (Assertion × CapitalEntry)

namespace Watched

def opening (initialCapital : Dict String ℚ) : Watched := ⟨start initialCapital, []⟩

def step (verify : Assertion → Bool) (watched : Watched) (call : MarketCall) : Watched :=
  let after := watched.market.step verify call
  match call with
  | .submit a =>
      ⟨after, watched.caused ++ (stakesAppended watched.market after).map fun e => (a, e)⟩
  | _ => ⟨after, watched.caused⟩

/-- How many `stake` entries the signed content of `a` has caused. -/
def stakings (watched : Watched) (a : Assertion) : Nat :=
  watched.caused.countP fun entry => signedContent entry.1 = signedContent a

/-- No signed assertion is bonded more than once. -/
def BondedOnce (watched : Watched) : Prop := ∀ a, watched.stakings a ≤ 1

/-- The call is not the replay of a bonded assertion whose bond is gone: a verified
assertion that was bonded before, and that its agent can cover, still is in escrow. -/
def NoReplay (verify : Assertion → Bool) (watched : Watched) : MarketCall → Prop
  | .submit a =>
      verify a = true → a.stake ≤ watched.market.capitalOf a.agentPubkey →
        watched.stakings a ≠ 0 →
          a.agentPubkey ∈ (watched.market.escrowOf a.taskId).keys
  | _ => True

end Watched

variable {verify : Assertion → Bool}

theorem submit_accepts_iff (market : BondedMarket) (a : Assertion) :
    (market.submit verify a).2 = true ↔ verify a = true ∧
      a.agentPubkey ∉ (market.escrowOf a.taskId).keys ∧
        a.stake ≤ market.capitalOf a.agentPubkey := by
  unfold BondedMarket.submit
  split_ifs with refused bonded poor
  · simp [refused]
  · simp [bonded]
  · simp [not_le.mpr poor]
  · exact iff_of_true rfl ⟨by simpa using refused, bonded, not_lt.mp poor⟩

/-- An accepted submission charges its stake, and appends nothing else. -/
theorem stakesAppended_submit (market : BondedMarket) (a : Assertion) :
    stakesAppended market (market.submit verify a).1 =
      if (market.submit verify a).2 then
        [⟨market.entries.length, a.agentPubkey, -a.stake, .stake, some a.taskId⟩]
      else [] := by
  unfold BondedMarket.submit
  split_ifs with refused bonded poor <;> simp_all [stakesAppended, credit]

theorem creditAll_entries (market : BondedMarket) (amounts : List (String × ℚ))
    (delta : String × ℚ → ℚ) (reason : Reason) (taskId : Option String) :
    ∃ added, (market.creditAll amounts delta reason taskId).entries = market.entries ++ added ∧
      ∀ e ∈ added, e.reason = reason := by
  induction amounts generalizing market with
  | nil => exact ⟨[], by simp [creditAll]⟩
  | cons row rest ih =>
      obtain ⟨added, entries, reasons⟩ := ih (market.credit row.1 (delta row) reason taskId)
      refine ⟨⟨market.entries.length, row.1, delta row, reason, taskId⟩ :: added, ?_, ?_⟩
      · calc
          _ = (market.credit row.1 (delta row) reason taskId).entries ++ added := entries
          _ = _ := by simp [credit]
      · intro e member
        rcases List.mem_cons.mp member with rfl | later
        · rfl
        · exact reasons e later

/-- Closing a task stakes nothing. -/
theorem stakesAppended_creditAll (market : BondedMarket) (taskId : String)
    (amounts : List (String × ℚ)) (delta : String × ℚ → ℚ) {reason : Reason}
    (other : reason ≠ .stake) :
    stakesAppended market ((market.close taskId).creditAll amounts delta reason (some taskId)) =
      [] := by
  obtain ⟨added, entries, reasons⟩ :=
    creditAll_entries (market.close taskId) amounts delta reason (some taskId)
  rw [stakesAppended, entries, close, List.drop_left, List.filter_eq_nil_iff]
  intro e member
  simp [reasons e member, other]

theorem stakesAppended_close (market : BondedMarket) {call : MarketCall}
    (closes : ∀ a, call ≠ .submit a) : stakesAppended market (market.step verify call) = [] := by
  cases call with
  | submit a => exact absurd rfl (closes a)
  | resolve taskId truth =>
      simp only [BondedMarket.step, BondedMarket.resolve]
      split_ifs
      · exact stakesAppended_creditAll _ _ _ _ (by decide)
      · exact stakesAppended_creditAll _ _ _ _ (by decide)
  | cancel taskId => exact stakesAppended_creditAll _ _ _ _ (by decide)

theorem step_entries (market : BondedMarket) (call : MarketCall) :
    ∃ added, (market.step verify call).entries = market.entries ++ added := by
  have closing : ∀ taskId amounts delta reason, ∃ added,
      ((market.close taskId).creditAll amounts delta reason (some taskId)).entries =
        market.entries ++ added := by
    intro taskId amounts delta reason
    obtain ⟨added, entries, _⟩ :=
      creditAll_entries (market.close taskId) amounts delta reason (some taskId)
    exact ⟨added, entries⟩
  cases call with
  | submit a =>
      simp only [BondedMarket.step, BondedMarket.submit]
      split_ifs
      · exact ⟨[], (List.append_nil _).symm⟩
      · exact ⟨[], (List.append_nil _).symm⟩
      · exact ⟨[], (List.append_nil _).symm⟩
      · exact ⟨_, rfl⟩
  | resolve taskId truth =>
      simp only [BondedMarket.step, BondedMarket.resolve]
      split_ifs
      · exact closing _ _ _ _
      · exact closing _ _ _ _
  | cancel taskId => exact closing _ _ _ _

namespace Watched

theorem stakings_submit (watched : Watched) (a b : Assertion) :
    (watched.step verify (.submit a)).stakings b = watched.stakings b +
      if (watched.market.submit verify a).2 ∧ signedContent a = signedContent b then 1 else 0 := by
  simp only [step, BondedMarket.step, stakesAppended_submit, stakings, List.countP_append]
  by_cases accepted : (watched.market.submit verify a).2 = true
  · by_cases same : signedContent a = signedContent b
    · simp [accepted, same]
    · simp [accepted, same]
  · simp [accepted]

theorem step_bondedOnce_iff (watched : Watched) (call : MarketCall) (once : watched.BondedOnce) :
    (watched.step verify call).BondedOnce ↔ watched.NoReplay verify call := by
  cases call with
  | resolve taskId truth => exact iff_of_true once trivial
  | cancel taskId => exact iff_of_true once trivial
  | submit a =>
      have accepts := @submit_accepts_iff verify watched.market a
      constructor
      · intro after verified covered bonded
        by_contra free
        have accepted := accepts.mpr ⟨verified, free, covered⟩
        have twice := after a
        rw [stakings_submit, if_pos ⟨accepted, rfl⟩] at twice
        omega
      · intro allowed b
        rw [stakings_submit]
        split_ifs with bonds
        · obtain ⟨accepted, same⟩ := bonds
          obtain ⟨verified, free, covered⟩ := accepts.mp accepted
          have none : watched.stakings a = 0 := by
            by_contra bonded
            exact free (allowed verified covered bonded)
          have counted : watched.stakings b = watched.stakings a := by
            simp only [stakings, same]
          omega
        · exact once b

/-- Every `stake` entry of the market is the one that a bonded assertion caused. -/
theorem caused_entries (initialCapital : Dict String ℚ) (calls : List MarketCall) :
    (Run.run (step verify) (opening initialCapital) calls).caused.map Prod.snd =
      (Run.run (step verify) (opening initialCapital) calls).market.entries.filter
        (fun e => e.reason = .stake) := by
  apply Run.kept_run (step verify) (fun watched => watched.caused.map Prod.snd =
    watched.market.entries.filter fun e => e.reason = .stake)
  · intro watched call same
    obtain ⟨added, entries⟩ := @step_entries verify watched.market call
    have appended : (watched.market.step verify call).entries.filter (fun e => e.reason = .stake) =
        watched.caused.map Prod.snd ++
          stakesAppended watched.market (watched.market.step verify call) := by
      rw [stakesAppended, entries, List.drop_left, List.filter_append, same]
    cases call with
    | submit a => simp [step, appended, Function.comp_def]
    | resolve taskId truth =>
        have none := @stakesAppended_close verify watched.market (.resolve taskId truth) (by simp)
        simp only [step, appended, none, List.append_nil]
    | cancel taskId =>
        have none := @stakesAppended_close verify watched.market (.cancel taskId) (by simp)
        simp only [step, appended, none, List.append_nil]
  · obtain ⟨added, entries, reasons⟩ :=
      creditAll_entries empty initialCapital.rows Prod.snd .seed none
    have seeds : (start initialCapital).entries = [] ++ added := entries
    symm
    rw [opening, seeds, List.nil_append, List.map_nil, List.filter_eq_nil_iff]
    intro e member
    simp [reasons e member]

end Watched

/-- The market bonds no signed assertion twice exactly when no bonded assertion is
submitted again after its task was closed. -/
theorem bonded_once_iff (crypto : Crypto) (stakeText : ℚ → List Char)
    (initialCapital : Dict String ℚ) (calls : List MarketCall) :
    (∀ front back, calls = front ++ back →
      (Run.run (Watched.step (verifyAssertion crypto stakeText)) (Watched.opening initialCapital)
        front).BondedOnce) ↔
      Run.Admissible (Watched.step (verifyAssertion crypto stakeText))
        (Watched.NoReplay (verifyAssertion crypto stakeText)) (Watched.opening initialCapital)
        calls :=
  Run.invariant_iff_admissible _ _ _
    (fun watched call once => watched.step_bondedOnce_iff call once) _ calls
    (fun _ => Nat.zero_le _)

end Gyza.Market

namespace Gyza.Sample

open Market

def purse : Dict String ℚ := Dict.empty.set (compositor 1).pubkeyHex 10

/-- The bond comes back with the task's cancellation, and the old signature bonds again. -/
def replayed : List MarketCall :=
  [.submit (pledge 1 "yes" 2), .cancel "task-1", .submit (pledge 1 "yes" 2)]

end Gyza.Sample

namespace Gyza.Market

theorem assertion_bonded_twice :
    ¬(Run.run (Watched.step (verifyAssertion Sample.crypto Sample.stakeText))
      (Watched.opening Sample.purse) Sample.replayed).BondedOnce := by
  have twice : (Run.run (Watched.step (verifyAssertion Sample.crypto Sample.stakeText))
      (Watched.opening Sample.purse) Sample.replayed).stakings (Sample.pledge 1 "yes" 2) = 2 := by
    decide +kernel
  intro once
  have most := once (Sample.pledge 1 "yes" 2)
  omega

end Gyza.Market
