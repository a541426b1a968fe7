import Mathlib.Tactic

/-! Scans that take the first item of each key.

The key of an item is marked before the item is used, so an item that turns out
to be of no use still hides every later item of its key. -/

namespace Gyza.Dedup

variable {α κ β : Type} [DecidableEq κ] (key : α → κ) (use : α → Option β)

structure Scan (κ β : Type) where
  seen : List κ
  kept : List β

def Scan.empty : Scan κ β := { seen := [], kept := [] }

def next (scan : Scan κ β) (item : α) : Scan κ β :=
  if key item ∈ scan.seen then scan
  else { seen := key item :: scan.seen, kept := scan.kept ++ (use item).toList }

/-- The first item of a key. -/
def first (items : List α) (wanted : κ) : Option α := items.find? fun item => key item = wanted

theorem first_cons_of_eq (item : α) (rest : List α) :
    first key (item :: rest) (key item) = some item := by
  simp [first]

theorem first_cons_of_ne {item : α} {wanted : κ} (other : key item ≠ wanted) (rest : List α) :
    first key (item :: rest) wanted = first key rest wanted := by
  simp [first, other]

theorem key_of_first {items : List α} {wanted : κ} {item : α}
    (found : first key items wanted = some item) : key item = wanted := by
  simpa using List.find?_some found

theorem mem_of_first {items : List α} {wanted : κ} {item : α}
    (found : first key items wanted = some item) : item ∈ items :=
  List.mem_of_find?_eq_some found

/-- A scan keeps what it kept, and what the first item of each new key gives. -/
theorem mem_kept_iff (items : List α) (start : Scan κ β) (result : β) :
    result ∈ (items.foldl (next key use) start).kept ↔
      result ∈ start.kept ∨
        ∃ wanted item, wanted ∉ start.seen ∧ first key items wanted = some item ∧
          use item = some result := by
  induction items generalizing start with
  | nil => simp [first]
  | cons item rest ih =>
      rw [List.foldl_cons, ih]
      by_cases marked : key item ∈ start.seen
      · rw [next, if_pos marked]
        apply or_congr_right
        constructor
        · rintro ⟨wanted, other, unseen, found, used⟩
          have differs : key item ≠ wanted := fun same => unseen (same ▸ marked)
          exact ⟨wanted, other, unseen, by rw [first_cons_of_ne key differs, found], used⟩
        · rintro ⟨wanted, other, unseen, found, used⟩
          have differs : key item ≠ wanted := fun same => unseen (same ▸ marked)
          rw [first_cons_of_ne key differs] at found
          exact ⟨wanted, other, unseen, found, used⟩
      · rw [next, if_neg marked]
        simp only [List.mem_append, Option.mem_toList, List.mem_cons, not_or]
        constructor
        · rintro ((kept | now) | ⟨wanted, other, ⟨differs, unseen⟩, found, used⟩)
          · exact Or.inl kept
          · exact Or.inr ⟨key item, item, marked, first_cons_of_eq key item rest, now⟩
          · refine Or.inr ⟨wanted, other, unseen, ?_, used⟩
            rw [first_cons_of_ne key (Ne.symm differs), found]
        · rintro (kept | ⟨wanted, other, unseen, found, used⟩)
          · exact Or.inl (Or.inl kept)
          · by_cases same : key item = wanted
            · subst same
              rw [first_cons_of_eq, Option.some.injEq] at found
              subst found
              exact Or.inl (Or.inr used)
            · rw [first_cons_of_ne key same] at found
              exact Or.inr ⟨wanted, other, ⟨Ne.symm same, unseen⟩, found, used⟩

variable (keyOf : β → κ)

/-- No two results of a scan have one key. -/
theorem kept_nodup (named : ∀ item result, use item = some result → keyOf result = key item)
    (items : List α) (start : Scan κ β)
    (marked : ∀ result ∈ start.kept, keyOf result ∈ start.seen)
    (distinct : (start.kept.map keyOf).Nodup) :
    ((items.foldl (next key use) start).kept.map keyOf).Nodup := by
  induction items generalizing start with
  | nil => exact distinct
  | cons item rest ih =>
      rw [List.foldl_cons]
      by_cases seen : key item ∈ start.seen
      · rw [next, if_pos seen]
        exact ih start marked distinct
      · rw [next, if_neg seen]
        apply ih
        · intro result member
          rcases List.mem_append.mp member with kept | now
          · exact List.mem_cons_of_mem _ (marked result kept)
          · rw [named item result (by simpa using now)]
            exact List.mem_cons_self
        · rw [List.map_append, List.nodup_append]
          refine ⟨distinct, ?_, ?_⟩
          · cases use item <;> simp
          · rintro old member new added rfl
            rcases List.mem_map.mp member with ⟨result, kept, rfl⟩
            rcases List.mem_map.mp added with ⟨other, now, same⟩
            rw [named item other (by simpa using now)] at same
            exact seen (same ▸ marked result kept)

end Gyza.Dedup
