import Mathlib.Tactic

/-! Tables with a primary key.

Rows are listed in storage order. The primary-key constraint is a field, so a
table with two rows under one key cannot be built; every statement below is an
operation of a relational store, described by what `get?` returns afterwards. -/

namespace Gyza

/-- Integers a store binds as a parameter; outside this range binding raises. -/
def FitsInt64 (value : Int) : Prop := -2 ^ 63 ≤ value ∧ value < 2 ^ 63

instance (value : Int) : Decidable (FitsInt64 value) := inferInstanceAs (Decidable (_ ∧ _))

structure Table {κ ρ : Type} (key : ρ → κ) where
  rows : List ρ
  distinct : (rows.map key).Nodup

namespace Table

variable {κ ρ : Type} [DecidableEq κ] {key : ρ → κ}

omit [DecidableEq κ] in
theorem ext {table other : Table key} (same : table.rows = other.rows) : table = other := by
  cases table with
  | mk rows distinct =>
      cases other with
      | mk rows' distinct' => exact (mk.injEq _ _ _ _).mpr same

def empty : Table key := ⟨[], by simp⟩

def get? (table : Table key) (k : κ) : Option ρ :=
  table.rows.find? (fun row => key row = k)

theorem get?_eq_some (table : Table key) (k : κ) (row : ρ) :
    table.get? k = some row ↔ row ∈ table.rows ∧ key row = k := by
  constructor
  · intro found
    exact ⟨List.mem_of_find?_eq_some found, by simpa using List.find?_some found⟩
  · rintro ⟨member, rfl⟩
    cases found : table.get? (key row) with
    | none =>
        have absent := List.find?_eq_none.mp found row member
        simp at absent
    | some other =>
        have present := List.mem_of_find?_eq_some found
        have same : key other = key row := by simpa using List.find?_some found
        rw [List.inj_on_of_nodup_map table.distinct present member same]

theorem get?_eq_none (table : Table key) (k : κ) :
    table.get? k = none ↔ k ∉ table.rows.map key := by
  simp [get?, List.find?_eq_none]

theorem mem_rows (table : Table key) (row : ρ) :
    row ∈ table.rows ↔ table.get? (key row) = some row := by
  simp [get?_eq_some]

def append (table : Table key) (row : ρ) (fresh : table.get? (key row) = none) : Table key :=
  ⟨table.rows ++ [row], by
    rw [List.map_append, List.nodup_append]
    refine ⟨table.distinct, by simp, ?_⟩
    intro k member other single same
    simp only [List.map_cons, List.map_nil, List.mem_singleton] at single
    exact (get?_eq_none table (key row)).mp fresh (single ▸ same ▸ member)⟩

theorem get?_append (table : Table key) (row : ρ) (fresh : table.get? (key row) = none) (k : κ) :
    (table.append row fresh).get? k = if key row = k then some row else table.get? k := by
  simp only [get?, append, List.find?_append]
  by_cases same : key row = k
  · subst same
    have absent : table.rows.find? (fun old => key old = key row) = none := fresh
    simp [absent]
  · simp [same]

/-- `UPDATE ... SET change WHERE holds`; the change may not touch the key. -/
def update (table : Table key) (holds : ρ → Bool) (change : ρ → ρ)
    (keeps : ∀ row, key (change row) = key row) : Table key :=
  ⟨table.rows.map (fun row => if holds row then change row else row), by
    have same : (table.rows.map (fun row => if holds row then change row else row)).map key =
        table.rows.map key := by
      rw [List.map_map]
      apply List.map_congr_left
      intro row _
      simp only [Function.comp]
      split <;> simp [keeps]
    rw [same]
    exact table.distinct⟩

omit [DecidableEq κ] in
theorem update_eq_self (table : Table key) (holds : ρ → Bool) (change : ρ → ρ)
    (keeps : ∀ row, key (change row) = key row) (unmatched : ∀ row ∈ table.rows, holds row = false) :
    table.update holds change keeps = table := by
  have same : table.rows.map (fun row => if holds row then change row else row) =
      table.rows.map id := by
    apply List.map_congr_left
    intro row member
    simp [unmatched row member]
  rw [List.map_id] at same
  exact ext same

theorem get?_update (table : Table key) (holds : ρ → Bool) (change : ρ → ρ)
    (keeps : ∀ row, key (change row) = key row) (k : κ) :
    (table.update holds change keeps).get? k =
      (table.get? k).map (fun row => if holds row then change row else row) := by
  have keyed : ∀ row, key (if holds row then change row else row) = key row := by
    intro row
    split <;> simp [keeps]
  simp only [get?, update, List.find?_map, Function.comp_def, keyed]

/-- One stored row is changed in place and every other key is left alone. -/
structure Rewrites (before after : Table key) (row changed : ρ) : Prop where
  stored : before.get? (key row) = some row
  after_get? : ∀ k, after.get? k = if key row = k then some changed else before.get? k

theorem rewrites_update (table : Table key) (holds : ρ → Bool) (change : ρ → ρ)
    (keeps : ∀ row, key (change row) = key row) (row : ρ)
    (stored : table.get? (key row) = some row) (met : holds row = true)
    (only : ∀ other, holds other = true → key other = key row) :
    Rewrites table (table.update holds change keeps) row (change row) := by
  constructor
  · exact stored
  · intro k
    rw [get?_update]
    by_cases same : key row = k
    · subst same
      simp [stored, met]
    · cases found : table.get? k with
      | none => simp [same]
      | some other =>
          have keyed : key other = k := ((get?_eq_some table k other).mp found).2
          have spared : holds other = false := by
            apply Bool.eq_false_iff.mpr
            intro holding
            exact same ((only other holding).symm.trans keyed)
          simp [same, spared]

/-- Every row keeps its place, changed at most as the relation allows. -/
def Reworked (R : ρ → ρ → Prop) (before after : Table key) : Prop :=
  ∃ change : ρ → ρ, (∀ row, R row (change row)) ∧ after.rows = before.rows.map change

section Reworked

variable {R : ρ → ρ → Prop} {before after : Table key}

omit [DecidableEq κ] in
theorem Reworked.refl (same : ∀ row, R row row) (table : Table key) : Reworked R table table :=
  ⟨id, same, (List.map_id _).symm⟩

omit [DecidableEq κ] in
theorem Reworked.trans {last : Table key}
    (joins : ∀ first second third, R first second → R second third → R first third)
    (earlier : Reworked R before after) (later : Reworked R after last) :
    Reworked R before last := by
  rcases earlier with ⟨first, changed, rows⟩
  rcases later with ⟨second, changed', rows'⟩
  refine ⟨second ∘ first, fun row => joins _ _ _ (changed row) (changed' (first row)), ?_⟩
  rw [rows', rows, List.map_map]

omit [DecidableEq κ] in
theorem reworked_update (same : ∀ row, R row row) (table : Table key) (holds : ρ → Bool)
    (change : ρ → ρ) (keeps : ∀ row, key (change row) = key row) (changed : ∀ row, R row (change row)) :
    Reworked R table (table.update holds change keeps) := by
  refine ⟨fun row => if holds row then change row else row, ?_, rfl⟩
  intro row
  dsimp only
  split
  · exact changed row
  · exact same row

omit [DecidableEq κ] in
theorem Reworked.map_column {γ : Type} (reworked : Reworked R before after) (column : ρ → γ)
    (same : ∀ row changed, R row changed → column changed = column row) :
    after.rows.map column = before.rows.map column := by
  rcases reworked with ⟨change, changed, rows⟩
  rw [rows, List.map_map]
  exact List.map_congr_left fun row _ => same row (change row) (changed row)

/-- Where the keys stay, a key finds what became of the row it found. -/
theorem Reworked.get? (reworked : Reworked R before after)
    (keyed : ∀ row changed, R row changed → key changed = key row) :
    ∃ change : ρ → ρ, (∀ row, R row (change row)) ∧
      ∀ k, after.get? k = (before.get? k).map change := by
  rcases reworked with ⟨change, changed, rows⟩
  refine ⟨change, changed, ?_⟩
  intro k
  have same : ∀ row, key (change row) = key row := fun row => keyed row _ (changed row)
  simp only [Table.get?, rows, List.find?_map, Function.comp_def, same]

end Reworked

/-- `INSERT OR IGNORE`. -/
def insertOrIgnore (table : Table key) (row : ρ) : Table key :=
  if fresh : table.get? (key row) = none then table.append row fresh else table

theorem get?_insertOrIgnore (table : Table key) (row : ρ) (k : κ) :
    (table.insertOrIgnore row).get? k =
      if key row = k then some ((table.get? k).getD row) else table.get? k := by
  by_cases fresh : table.get? (key row) = none
  · simp only [insertOrIgnore, dif_pos fresh, get?_append]
    by_cases same : key row = k
    · subst same
      simp [fresh]
    · simp [same]
  · simp only [insertOrIgnore, dif_neg fresh]
    by_cases same : key row = k
    · subst same
      rcases Option.ne_none_iff_exists'.mp fresh with ⟨old, present⟩
      simp [present]
    · simp [same]

/-- `INSERT ... ON CONFLICT(key) DO UPDATE SET merge`. -/
def upsert (table : Table key) (merge : ρ → ρ → ρ)
    (keeps : ∀ old new, key (merge old new) = key old) (row : ρ) : Table key :=
  if fresh : table.get? (key row) = none then table.append row fresh
  else table.update (fun old => key old = key row) (fun old => merge old row)
    (fun old => keeps old row)

theorem get?_upsert (table : Table key) (merge : ρ → ρ → ρ)
    (keeps : ∀ old new, key (merge old new) = key old) (row : ρ) (k : κ) :
    (table.upsert merge keeps row).get? k =
      if key row = k then some (((table.get? k).map (fun old => merge old row)).getD row)
      else table.get? k := by
  by_cases fresh : table.get? (key row) = none
  · simp only [upsert, dif_pos fresh, get?_append]
    by_cases same : key row = k
    · subst same
      simp [fresh]
    · simp [same]
  · simp only [upsert, dif_neg fresh, get?_update]
    by_cases same : key row = k
    · subst same
      rcases Option.ne_none_iff_exists'.mp fresh with ⟨old, present⟩
      have keyed : key old = key row := ((get?_eq_some table (key row) old).mp present).2
      simp [present, keyed]
    · cases found : table.get? k with
      | none => simp [same]
      | some old =>
          have keyed : key old = k := ((get?_eq_some table k old).mp found).2
          have other : key old ≠ key row := fun equal => same (equal ▸ keyed)
          simp [same, other]

/-- The rows after an upsert: those of other keys, and the inserted or merged one. -/
theorem mem_upsert (table : Table key) (merge : ρ → ρ → ρ)
    (keeps : ∀ old new, key (merge old new) = key old) (row stored : ρ) :
    stored ∈ (table.upsert merge keeps row).rows ↔
      (stored ∈ table.rows ∧ key stored ≠ key row) ∨
        stored = ((table.get? (key row)).map (fun old => merge old row)).getD row := by
  have keyed : key (((table.get? (key row)).map (fun old => merge old row)).getD row) = key row := by
    cases found : table.get? (key row) with
    | none => rfl
    | some old => exact (keeps old row).trans ((get?_eq_some table (key row) old).mp found).2
  rw [mem_rows, get?_upsert]
  by_cases same : key row = key stored
  · rw [if_pos same, ← same]
    constructor
    · intro found
      exact Or.inr (Option.some.inj found).symm
    · intro choice
      rcases choice with ⟨_, other⟩ | rfl
      · exact absurd rfl other
      · rfl
  · rw [if_neg same, ← mem_rows]
    constructor
    · intro member
      exact Or.inl ⟨member, Ne.symm same⟩
    · intro choice
      rcases choice with ⟨member, _⟩ | rfl
      · exact member
      · exact absurd keyed.symm same

/-- A column that neither the new row shows nor the merge changes reads as before. -/
theorem filterMap_upsert {γ : Type} (table : Table key) (merge : ρ → ρ → ρ)
    (keeps : ∀ old new, key (merge old new) = key old) (row : ρ) (column : ρ → Option γ)
    (absent : table.get? (key row) = none → column row = none)
    (present : ∀ old, table.get? (key row) = some old → column (merge old row) = column old) :
    (table.upsert merge keeps row).rows.filterMap column = table.rows.filterMap column := by
  by_cases fresh : table.get? (key row) = none
  · simp [upsert, fresh, append, absent fresh]
  · simp only [upsert, dif_neg fresh, update, List.filterMap_map]
    apply List.filterMap_congr
    intro old member
    by_cases same : key old = key row
    · have stored : table.get? (key row) = some old :=
        (get?_eq_some table (key row) old).mpr ⟨member, same⟩
      simp [same, present old stored]
    · simp [same]

/-- `INSERT OR REPLACE`: a conflicting row is deleted and the new one appended. -/
def insertOrReplace (table : Table key) (row : ρ) : Table key :=
  ⟨table.rows.filter (fun old => key old ≠ key row) ++ [row], by
    rw [List.map_append, List.nodup_append]
    refine ⟨table.distinct.sublist (List.filter_sublist.map key), by simp, ?_⟩
    intro k member other single same
    simp only [List.map_cons, List.map_nil, List.mem_singleton] at single
    rcases List.mem_map.mp member with ⟨old, kept, rfl⟩
    exact absurd (same.trans single) (by simpa using (List.mem_filter.mp kept).2)⟩

theorem rows_insertOrReplace (table : Table key) (row : ρ) (fresh : table.get? (key row) = none) :
    (table.insertOrReplace row).rows = table.rows ++ [row] := by
  have kept : table.rows.filter (fun old => key old ≠ key row) = table.rows := by
    rw [List.filter_eq_self]
    intro old member
    have other : key old ≠ key row := by
      intro same
      exact (get?_eq_none table (key row)).mp fresh (List.mem_map.mpr ⟨old, member, same⟩)
    simpa using other
  simp only [insertOrReplace, kept]

theorem mem_insertOrReplace (table : Table key) (row stored : ρ) :
    stored ∈ (table.insertOrReplace row).rows ↔
      stored = row ∨ stored ∈ table.rows ∧ key stored ≠ key row := by
  simp [insertOrReplace, or_comm]

theorem get?_insertOrReplace (table : Table key) (row : ρ) (k : κ) :
    (table.insertOrReplace row).get? k = if key row = k then some row else table.get? k := by
  simp only [get?, insertOrReplace, List.find?_append, List.find?_filter]
  by_cases same : key row = k
  · subst same
    have absent : table.rows.find? (fun _ => false) = none := by simp [List.find?_eq_none]
    simp [absent]
  · have filtered : (fun old => decide (decide (key old ≠ key row) = true ∧
        decide (key old = k) = true)) = (fun old => decide (key old = k)) := by
      funext old
      by_cases keyed : key old = k
      · simp [keyed, Ne.symm same]
      · simp [keyed]
    rw [filtered]
    simp [same]

/-- The primary key leaves at most one row to a key. -/
theorem filter_key_eq (table : Table key) (k : κ) :
    table.rows.filter (fun row => key row = k) = (table.get? k).toList := by
  unfold get?
  rcases table with ⟨rows, distinct⟩
  induction rows with
  | nil => rfl
  | cons row rest ih =>
      rw [List.map_cons, List.nodup_cons] at distinct
      by_cases same : key row = k
      · have others : rest.filter (fun row => key row = k) = [] := by
          apply List.filter_eq_nil_iff.mpr
          intro other member keyed
          apply distinct.1
          rw [same, ← of_decide_eq_true keyed]
          exact List.mem_map_of_mem member
        simp [same, others]
      · simpa [same] using ih distinct.2

/-- A replacement trades the row it replaces for the new one in every count. -/
theorem countP_insertOrReplace (table : Table key) (row : ρ) (counted : ρ → Bool) :
    (table.insertOrReplace row).rows.countP counted +
        (table.get? (key row)).toList.countP counted =
      table.rows.countP counted + [row].countP counted := by
  have parts := List.countP_eq_countP_filter_add table.rows counted
    fun old => decide (key old = key row)
  have replaced : table.rows.filter (fun old => !decide (key old = key row)) =
      table.rows.filter fun old => decide (key old ≠ key row) := by
    apply List.filter_congr
    intro old _
    simp
  rw [filter_key_eq] at parts
  simp only [insertOrReplace, List.countP_append]
  rw [replaced] at parts
  omega

end Table

end Gyza
