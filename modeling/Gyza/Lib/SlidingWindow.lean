import Mathlib.Tactic

/-! How many stamps fall into a window of fixed width, wherever it opens.

A limiter that looks back from a check bounds the windows that end at a check.
Where each stamp is taken no earlier than the check it passed, that is enough. -/

namespace Gyza.SlidingWindow

variable {α : Type} [AddCommGroup α] [LinearOrder α] [IsOrderedAddMonoid α]

/-- The stamp lies after the opening of the window, and not after its close. -/
def Inside (opens width stamp : α) : Prop := opens < stamp ∧ stamp ≤ opens + width

instance (opens width stamp : α) : Decidable (Inside opens width stamp) :=
  inferInstanceAs (Decidable (_ ∧ _))

/-- No window of the width holds more stamps than the cap. -/
def Capped (width : α) (cap : Nat) (stamps : List α) : Prop :=
  ∀ opens, stamps.countP (fun stamp => Inside opens width stamp) ≤ cap

omit [IsOrderedAddMonoid α] in
theorem capped_nil (width : α) (cap : Nat) : Capped width cap [] := by
  intro opens
  simp

/-- What the look-back of a check finds bounds every window that the next stamp closes. -/
theorem Capped.append {width : α} {cap : Nat} {stamps : List α} (capped : Capped width cap stamps)
    {check stamp : α} (later : check ≤ stamp)
    (room : stamps.countP (fun old => check - width ≤ old) < cap) :
    Capped width cap (stamps ++ [stamp]) := by
  intro opens
  rw [List.countP_append, List.countP_singleton]
  by_cases inside : Inside opens width stamp
  · have back : stamps.countP (fun old => Inside opens width old) ≤
        stamps.countP (fun old => check - width ≤ old) := by
      apply List.countP_mono_left
      intro old _ held
      have opened : opens < old := (of_decide_eq_true held).1
      have reach : check - width ≤ opens := sub_le_iff_le_add.mpr (later.trans inside.2)
      exact decide_eq_true (reach.trans opened.le)
    simp only [inside, decide_true, if_true]
    omega
  · simp only [inside, decide_false, Bool.false_eq_true, if_false, Nat.add_zero]
    exact capped opens

/-! Bursts of stamps, the latest first, with more than the width of a window between them. -/

section Bursts

variable {width : α} {cap : Nat}

/-- The stamp lies in the window, its ends included. -/
def Within (opens width stamp : α) : Prop := opens ≤ stamp ∧ stamp ≤ opens + width

instance (opens width stamp : α) : Decidable (Within opens width stamp) :=
  inferInstanceAs (Decidable (_ ∧ _))

/-- The latest `current` stamps come more than the width after all others, of which no window
holds more than the cap. -/
structure Bursts (width : α) (cap : Nat) (stamps : List α) (current : Nat) : Prop where
  bounded : current ≤ cap
  begun : current = 0 → stamps = []
  apart : ∀ stamp ∈ stamps.take current, ∀ old ∈ stamps.drop current, old + width < stamp
  others : ∀ opens, (stamps.drop current).countP (fun stamp => Within opens width stamp) ≤ cap

omit [IsOrderedAddMonoid α] in
theorem bursts_nil : Bursts width cap ([] : List α) 0 := by
  refine ⟨Nat.zero_le cap, fun _ => rfl, ?_, ?_⟩
  · intro stamp member
    cases member
  · intro opens
    exact Nat.zero_le cap

/-- A window that reaches into the latest burst holds nothing of the others. -/
theorem Bursts.countP_le {stamps : List α} {current : Nat}
    (bursts : Bursts width cap stamps current) (opens : α) :
    stamps.countP (fun stamp => Within opens width stamp) ≤ cap := by
  have split := congrArg (List.countP fun stamp => Within opens width stamp)
    (List.take_append_drop current stamps)
  rw [List.countP_append] at split
  by_cases reached : ∃ stamp ∈ stamps.take current, Within opens width stamp
  · obtain ⟨stamp, member, inside⟩ := reached
    have none_older : (stamps.drop current).countP (fun old => Within opens width old) = 0 := by
      rw [List.countP_eq_zero]
      intro old older within
      have held := of_decide_eq_true within
      have beyond : old + width < opens + width :=
        lt_of_lt_of_le (bursts.apart stamp member old older) inside.2
      exact absurd held.1 (not_le.mpr (lt_of_add_lt_add_right beyond))
    have few : (stamps.take current).countP (fun stamp => Within opens width stamp) ≤ current :=
      List.countP_le_length.trans (List.length_take_le _ _)
    have bounded := bursts.bounded
    omega
  · have none_latest :
        (stamps.take current).countP (fun stamp => Within opens width stamp) = 0 := by
      rw [List.countP_eq_zero]
      intro stamp member within
      exact reached ⟨stamp, member, of_decide_eq_true within⟩
    have others := bursts.others opens
    omega

omit [IsOrderedAddMonoid α] in
/-- One more in the burst. -/
theorem Bursts.grow {stamps : List α} {current : Nat} (bursts : Bursts width cap stamps current)
    {stamp : α} (later : ∀ old ∈ stamps, old ≤ stamp) (room : current < cap) :
    Bursts width cap (stamp :: stamps) (current + 1) := by
  refine ⟨room, fun none => absurd none (Nat.succ_ne_zero current), ?_, bursts.others⟩
  intro newer member old older
  obtain rfl | earlier := List.mem_cons.mp member
  · cases stamps with
    | nil =>
        rw [List.drop_succ_cons, List.drop_nil] at older
        cases older
    | cons first rest =>
        cases current with
        | zero => cases bursts.begun rfl
        | succ current =>
            exact lt_of_lt_of_le (bursts.apart first List.mem_cons_self old older)
              (later first List.mem_cons_self)
  · exact bursts.apart newer earlier old older

/-- The first of the next burst. -/
theorem Bursts.next {stamps : List α} {current : Nat} (bursts : Bursts width cap stamps current)
    {stamp : α} (gap : ∀ old ∈ stamps, old + width < stamp) (room : 0 < cap) :
    Bursts width cap (stamp :: stamps) 1 := by
  refine ⟨room, fun none => absurd none Nat.one_ne_zero, ?_, bursts.countP_le⟩
  intro newer member old older
  obtain rfl := List.mem_singleton.mp member
  exact gap old older

end Bursts

end Gyza.SlidingWindow
