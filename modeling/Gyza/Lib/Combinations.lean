import Mathlib.Tactic

/-! The sublists of a given length, in lexicographic order of their positions.

Over a block of consecutive numbers each one comes from the one before it by raising the
last number that has room, and continuing from there without gaps. -/

namespace Gyza.Combinations

variable {α : Type}

def combinations : List α → Nat → List (List α)
  | _, 0 => [[]]
  | [], _ + 1 => []
  | first :: rest, k + 1 => (combinations rest k).map (first :: ·) ++ combinations rest (k + 1)

theorem mem_combinations {items chosen : List α} {k : Nat} :
    chosen ∈ combinations items k ↔ chosen.Sublist items ∧ chosen.length = k := by
  induction items generalizing chosen k with
  | nil =>
      cases k with
      | zero => simp [combinations]
      | succ k =>
          rw [combinations, List.sublist_nil]
          constructor
          · intro member
            cases member
          · rintro ⟨rfl, length⟩
            cases length
  | cons first rest ih =>
      cases k with
      | zero =>
          rw [combinations, List.mem_singleton, List.length_eq_zero_iff]
          constructor
          · rintro rfl
            exact ⟨List.nil_sublist _, rfl⟩
          · exact And.right
      | succ k =>
          rw [combinations, List.mem_append, List.mem_map, List.sublist_cons_iff, ih]
          constructor
          · rintro (⟨tail, member, rfl⟩ | ⟨sublist, length⟩)
            · obtain ⟨sublist, length⟩ := ih.mp member
              exact ⟨Or.inr ⟨tail, rfl, sublist⟩, by rw [List.length_cons, length]⟩
            · exact ⟨Or.inl sublist, length⟩
          · rintro ⟨sublist | ⟨tail, rfl, sublist⟩, length⟩
            · exact Or.inr ⟨sublist, length⟩
            · exact Or.inl ⟨tail, ih.mpr ⟨sublist, Nat.succ.inj length⟩, rfl⟩

theorem combinations_nodup {items : List α} (distinct : items.Nodup) (k : Nat) :
    (combinations items k).Nodup := by
  induction items generalizing k with
  | nil => cases k <;> simp [combinations]
  | cons first rest ih =>
      obtain ⟨fresh, later⟩ := List.nodup_cons.mp distinct
      cases k with
      | zero => exact List.nodup_singleton _
      | succ k =>
          have starts : Function.Injective (first :: · : List α → List α) :=
            fun _ _ same => (List.cons.inj same).2
          refine List.nodup_append.mpr ⟨(ih later k).map starts, ih later (k + 1), ?_⟩
          rintro chosen member other member' rfl
          obtain ⟨tail, -, rfl⟩ := List.mem_map.mp member
          obtain ⟨sublist, -⟩ := mem_combinations.mp member'
          exact fresh (sublist.subset List.mem_cons_self)

theorem length_combinations (items : List α) (k : Nat) :
    (combinations items k).length = items.length.choose k := by
  induction items generalizing k with
  | nil => cases k <;> rfl
  | cons first rest ih =>
      cases k with
      | zero => rfl
      | succ k =>
          rw [combinations, List.length_append, List.length_map, ih, ih, List.length_cons,
            Nat.choose_succ_succ]

theorem filter_of_sublist [DecidableEq α] {items chosen : List α} (distinct : items.Nodup)
    (sublist : chosen.Sublist items) : items.filter (· ∈ chosen) = chosen := by
  induction sublist with
  | slnil => rfl
  | @cons chosen items item sublist ih =>
      obtain ⟨fresh, later⟩ := List.nodup_cons.mp distinct
      have out : item ∉ chosen := fun member => fresh (sublist.subset member)
      rw [List.filter_cons_of_neg (by simpa using out), ih later]
  | @cons_cons chosen items item sublist ih =>
      obtain ⟨fresh, later⟩ := List.nodup_cons.mp distinct
      have same : items.filter (· ∈ item :: chosen) = items.filter (· ∈ chosen) := by
        refine List.filter_congr fun other member => ?_
        have differs : other ≠ item := fun equal => fresh (equal ▸ member)
        simp [differs]
      rw [List.filter_cons_of_pos (by simp), same, ih later]

/-! Blocks of numbers. -/

/-- The last number with room below `limit` is raised, and the rest follow it. -/
def Next (limit : Nat) (chosen next : List Nat) : Prop :=
  ∃ front value k, value + k + 1 < limit ∧
    chosen = front ++ value :: List.range' (limit - k) k ∧
      next = front ++ List.range' (value + 1) (k + 1)

theorem Next.cons {limit : Nat} {chosen next : List Nat} (first : Nat)
    (step : Next limit chosen next) : Next limit (first :: chosen) (first :: next) := by
  obtain ⟨front, value, k, room, rfl, rfl⟩ := step
  exact ⟨first :: front, value, k, room, rfl, rfl⟩

/-- The combinations of a block start gapless at its start, each leads to the next, and the
last ends the block. -/
structure Enumerates (start limit k : Nat) (listed : List (List Nat)) : Prop where
  first : listed.head? = some (List.range' start k)
  steps : listed.IsChain (Next limit)
  last : listed.getLast? = some (List.range' (limit - k) k)

theorem enumerates_combinations (start size : Nat) {k : Nat} (fits : k ≤ size) :
    Enumerates start (start + size) k (combinations (List.range' start size) k) := by
  induction size generalizing start k with
  | zero =>
      obtain rfl := Nat.le_zero.mp fits
      exact ⟨rfl, List.isChain_singleton _, rfl⟩
  | succ size ih =>
      cases k with
      | zero => exact ⟨rfl, List.isChain_singleton _, rfl⟩
      | succ k =>
          have limit : start + 1 + size = start + (size + 1) := by omega
          have inner := ih (start + 1) (Nat.succ_le_succ_iff.mp fits)
          rw [limit] at inner
          have first : ((combinations (List.range' (start + 1) size) k).map (start :: ·)).head? =
              some (List.range' start (k + 1)) := by
            rw [List.head?_map, inner.first]
            rfl
          have steps : ((combinations (List.range' (start + 1) size) k).map
              (start :: ·)).IsChain (Next (start + (size + 1))) := by
            rw [List.isChain_map]
            exact inner.steps.imp fun _ _ step => step.cons start
          have last : ((combinations (List.range' (start + 1) size) k).map
              (start :: ·)).getLast? =
                some (start :: List.range' (start + (size + 1) - k) k) := by
            rw [List.getLast?_map, inner.last]
            rfl
          rw [List.range'_succ, combinations]
          by_cases more : k + 1 ≤ size
          · have outer := ih (start + 1) more
            rw [limit] at outer
            refine ⟨by rw [List.head?_append, first]; rfl, ?_, ?_⟩
            · refine steps.append outer.steps fun chosen ends next begins => ?_
              cases last.symm.trans ends
              cases outer.first.symm.trans begins
              exact ⟨[], start, k, by omega, rfl, rfl⟩
            · rw [List.getLast?_append, outer.last]
              rfl
          · -- the block has just the numbers that are needed
            have exhausted : combinations (List.range' (start + 1) size) (k + 1) = [] := by
              rw [← List.length_eq_zero_iff, length_combinations, List.length_range']
              exact Nat.choose_eq_zero_of_lt (by omega)
            obtain rfl : k = size := by omega
            rw [exhausted, List.append_nil]
            refine ⟨first, steps, last.trans ?_⟩
            rw [List.range'_succ]
            congr 3 <;> omega

end Gyza.Combinations
