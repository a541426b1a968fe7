import Gyza.Lib.Table

/-! Insertion-ordered dictionaries, as tables of key-value pairs.

Assigning to a present key keeps its place; `setdefault` keeps its value. -/

namespace Gyza

abbrev Dict (κ ν : Type) := Table (Prod.fst : κ × ν → κ)

namespace Dict

variable {κ ν ι : Type} [DecidableEq κ]

def empty : Dict κ ν := Table.empty

def lookup (dict : Dict κ ν) (k : κ) : Option ν := (dict.get? k).map Prod.snd

def keys (dict : Dict κ ν) : List κ := dict.rows.map Prod.fst

/-- `dict[k] = value`. -/
def set (dict : Dict κ ν) (k : κ) (value : ν) : Dict κ ν :=
  dict.upsert (fun old new => (old.1, new.2)) (fun _ _ => rfl) (k, value)

/-- `dict[k] = dict.get(k, 0) + amount`. -/
def add [Add ν] [Zero ν] (dict : Dict κ ν) (k : κ) (amount : ν) : Dict κ ν :=
  dict.set k ((dict.lookup k).getD 0 + amount)

def setdefault (dict : Dict κ ν) (k : κ) (value : ν) : Dict κ ν := dict.insertOrIgnore (k, value)

/-- `dict.pop(k, None)`, for what it leaves. -/
def pop (dict : Dict κ ν) (k : κ) : Dict κ ν :=
  ⟨dict.rows.filter (fun row => row.1 ≠ k), dict.distinct.sublist (List.filter_sublist.map Prod.fst)⟩

/-- The entries whose value is kept; the others are deleted. -/
def filterValues (dict : Dict κ ν) (keep : ν → Bool) : Dict κ ν :=
  ⟨dict.rows.filter (fun row => keep row.2), dict.distinct.sublist (List.filter_sublist.map Prod.fst)⟩

def values (dict : Dict κ ν) : List ν := dict.rows.map Prod.snd

theorem lookup_eq_some (dict : Dict κ ν) (k : κ) (value : ν) :
    dict.lookup k = some value ↔ (k, value) ∈ dict.rows := by
  rw [Table.mem_rows]
  constructor
  · intro found
    rcases Option.map_eq_some_iff.mp found with ⟨⟨key, stored⟩, present, rfl⟩
    have same : key = k := ((Table.get?_eq_some dict k _).mp present).2
    exact same ▸ present
  · intro present
    simp only [lookup, present, Option.map_some]

theorem mem_keys (dict : Dict κ ν) (k : κ) : k ∈ dict.keys ↔ ∃ value, dict.lookup k = some value := by
  simp [keys, lookup_eq_some]

omit [DecidableEq κ] in
theorem keys_nodup (dict : Dict κ ν) : dict.keys.Nodup := dict.distinct

theorem lookup_set (dict : Dict κ ν) (k : κ) (value : ν) (other : κ) :
    (dict.set k value).lookup other = if k = other then some value else dict.lookup other := by
  simp only [lookup, set, Table.get?_upsert]
  split_ifs
  · cases dict.get? other <;> rfl
  · rfl

theorem rows_set_absent (dict : Dict κ ν) (k : κ) (value : ν) (absent : k ∉ dict.keys) :
    (dict.set k value).rows = dict.rows ++ [(k, value)] := by
  have fresh : dict.get? (k, value).1 = none := by
    rw [Table.get?_eq_none]
    exact absent
  rw [set, Table.upsert, dif_pos fresh, Table.append]

/-! Changing every value. -/

omit [DecidableEq κ] in
theorem distinct_mapValues {μ : Type} (change : ν → μ) (dict : Dict κ ν) :
    ((dict.rows.map (fun row => (row.1, change row.2))).map Prod.fst).Nodup := by
  rw [List.map_map]
  exact dict.distinct

def mapValues {μ : Type} (change : ν → μ) (dict : Dict κ ν) : Dict κ μ :=
  ⟨dict.rows.map (fun row => (row.1, change row.2)), distinct_mapValues change dict⟩

omit [DecidableEq κ] in
@[simp] theorem keys_mapValues {μ : Type} (change : ν → μ) (dict : Dict κ ν) :
    (dict.mapValues change).keys = dict.keys := by
  rw [keys, mapValues, List.map_map]
  rfl

theorem get?_mapValues {μ : Type} (change : ν → μ) (dict : Dict κ ν) (k : κ) :
    (dict.mapValues change).get? k = (dict.get? k).map (fun row => (row.1, change row.2)) := by
  rw [Table.get?, mapValues, List.find?_map]
  rfl

@[simp] theorem lookup_mapValues {μ : Type} (change : ν → μ) (dict : Dict κ ν) (k : κ) :
    (dict.mapValues change).lookup k = (dict.lookup k).map change := by
  rw [lookup, get?_mapValues, lookup, Option.map_map, Option.map_map]
  rfl

theorem mapValues_set {μ : Type} (change : ν → μ) (dict : Dict κ ν) (k : κ) (value : ν) :
    (dict.set k value).mapValues change = (dict.mapValues change).set k (change value) := by
  apply Table.ext
  by_cases fresh : dict.get? (k, value).1 = none
  · have fresh' : (dict.mapValues change).get? (k, change value).1 = none := by
      rw [get?_mapValues, fresh]
      rfl
    rw [set, set, Table.upsert, Table.upsert, dif_pos fresh, dif_pos fresh']
    simp [mapValues, Table.append]
  · have held : ¬(dict.mapValues change).get? (k, change value).1 = none := by
      rw [get?_mapValues]
      simpa using fresh
    rw [set, set, Table.upsert, Table.upsert, dif_neg fresh, dif_neg held]
    simp only [mapValues, Table.update, List.map_map]
    apply List.map_congr_left
    intro row _
    by_cases same : row.1 = k <;> simp [same]

theorem lookup_setdefault (dict : Dict κ ν) (k : κ) (value : ν) (other : κ) :
    (dict.setdefault k value).lookup other =
      if k = other then some ((dict.lookup other).getD value) else dict.lookup other := by
  simp only [lookup, setdefault, Table.get?_insertOrIgnore]
  split_ifs
  · cases dict.get? other <;> rfl
  · rfl

theorem lookup_setdefault_eq_some (dict : Dict κ ν) (k : κ) (value : ν) (other : κ) (found : ν) :
    (dict.setdefault k value).lookup other = some found ↔
      dict.lookup other = some found ∨ (dict.lookup other = none ∧ k = other ∧ value = found) := by
  rw [lookup_setdefault]
  cases dict.lookup other with
  | none => split_ifs with same <;> simp [same]
  | some stored => split_ifs with same <;> simp

theorem lookup_pop (dict : Dict κ ν) (k other : κ) :
    (dict.pop k).lookup other = if k = other then none else dict.lookup other := by
  simp only [lookup, pop, Table.get?, List.find?_filter]
  by_cases same : k = other
  · have absent : ∀ row ∈ dict.rows, ¬(decide (row.1 ≠ k) = true ∧ decide (row.1 = other) = true) := by
      intro row _ kept
      simp only [decide_eq_true_eq] at kept
      exact kept.1 (kept.2.trans same.symm)
    rw [if_pos same, List.find?_eq_none.mpr (by simpa using absent)]
    rfl
  · have kept : (fun row : κ × ν => decide (decide (row.1 ≠ k) = true ∧ decide (row.1 = other) = true)) =
        (fun row => decide (row.1 = other)) := by
      funext row
      by_cases keyed : row.1 = other
      · simp [keyed, Ne.symm same]
      · simp [keyed]
    rw [if_neg same, kept]

theorem lookup_filterValues (dict : Dict κ ν) (keep : ν → Bool) (k : κ) :
    (dict.filterValues keep).lookup k = (dict.lookup k).filter keep := by
  apply Option.ext
  intro value
  rw [lookup_eq_some, Option.filter_eq_some_iff, lookup_eq_some]
  exact List.mem_filter

/-- A sum over the rows is a sum over any set of keys that covers the dictionary. -/
theorem sum_rows {M : Type} [AddCommMonoid M] (dict : Dict κ ν) (weight : κ → ν → M) (ids : Finset κ)
    (covered : ∀ k value, dict.lookup k = some value → k ∈ ids) :
    (dict.rows.map fun row => weight row.1 row.2).sum =
      ∑ k ∈ ids, ((dict.lookup k).map (weight k)).getD 0 := by
  have subset : dict.keys.toFinset ⊆ ids := by
    intro k member
    rcases (mem_keys dict k).mp (List.mem_toFinset.mp member) with ⟨value, found⟩
    exact covered k value found
  have outside : ∀ k ∈ ids, k ∉ dict.keys.toFinset →
      ((dict.lookup k).map (weight k)).getD 0 = 0 := by
    intro k _ absent
    cases found : dict.lookup k with
    | none => rfl
    | some value =>
        exact absurd (List.mem_toFinset.mpr ((mem_keys dict k).mpr ⟨value, found⟩)) absent
  have rows : (dict.rows.map fun row => weight row.1 row.2) =
      dict.keys.map (fun k => ((dict.lookup k).map (weight k)).getD 0) := by
    rw [keys, List.map_map]
    apply List.map_congr_left
    intro row member
    have found := (lookup_eq_some dict row.1 row.2).mpr member
    simp [found]
  rw [← Finset.sum_subset subset outside, rows, List.sum_toFinset _ dict.keys_nodup]

/-- Assigning to a key puts the new value's share in place of the old one's. -/
theorem sum_rows_set {M : Type} [AddCommGroup M] (dict : Dict κ ν) (weight : κ → ν → M) (k : κ)
    (value : ν) :
    ((dict.set k value).rows.map fun row => weight row.1 row.2).sum =
      (dict.rows.map fun row => weight row.1 row.2).sum -
        ((dict.lookup k).map (weight k)).getD 0 + weight k value := by
  have covered : ∀ other stored, dict.lookup other = some stored →
      other ∈ insert k dict.keys.toFinset := by
    intro other stored found
    exact Finset.mem_insert_of_mem (List.mem_toFinset.mpr ((mem_keys dict other).mpr ⟨stored, found⟩))
  have coveredAfter : ∀ other stored, (dict.set k value).lookup other = some stored →
      other ∈ insert k dict.keys.toFinset := by
    intro other stored found
    rw [lookup_set] at found
    split_ifs at found with same
    · exact same ▸ Finset.mem_insert_self _ _
    · exact covered other stored found
  rw [sum_rows dict weight _ covered, sum_rows (dict.set k value) weight _ coveredAfter,
    ← Finset.add_sum_erase _ _ (Finset.mem_insert_self k _),
    ← Finset.add_sum_erase _ _ (Finset.mem_insert_self k dict.keys.toFinset)]
  have others : ∀ other ∈ (insert k dict.keys.toFinset).erase k,
      (((dict.set k value).lookup other).map (weight other)).getD 0 =
        ((dict.lookup other).map (weight other)).getD 0 := by
    intro other member
    rw [lookup_set, if_neg (Ne.symm (Finset.ne_of_mem_erase member))]
  rw [Finset.sum_congr rfl others, lookup_set, if_pos rfl, Option.map_some, Option.getD_some]
  abel

theorem sum_rows_pop {M : Type} [AddCommGroup M] (dict : Dict κ ν) (weight : κ → ν → M) (k : κ) :
    ((dict.pop k).rows.map fun row => weight row.1 row.2).sum =
      (dict.rows.map fun row => weight row.1 row.2).sum -
        ((dict.lookup k).map (weight k)).getD 0 := by
  have covered : ∀ other stored, dict.lookup other = some stored → other ∈ dict.keys.toFinset := by
    intro other stored found
    exact List.mem_toFinset.mpr ((mem_keys dict other).mpr ⟨stored, found⟩)
  have coveredAfter : ∀ other stored, (dict.pop k).lookup other = some stored →
      other ∈ dict.keys.toFinset.erase k := by
    intro other stored found
    rw [lookup_pop] at found
    split_ifs at found with same
    exact Finset.mem_erase.mpr ⟨Ne.symm same, covered other stored found⟩
  have others : ∀ other ∈ dict.keys.toFinset.erase k,
      (((dict.pop k).lookup other).map (weight other)).getD 0 =
        ((dict.lookup other).map (weight other)).getD 0 := by
    intro other member
    rw [lookup_pop, if_neg (Ne.symm (Finset.ne_of_mem_erase member))]
  rw [sum_rows dict weight _ covered, sum_rows (dict.pop k) weight _ coveredAfter,
    Finset.sum_congr rfl others]
  by_cases present : k ∈ dict.keys.toFinset
  · rw [← Finset.add_sum_erase _ _ present]
    abel
  · have absent : dict.lookup k = none := by
      cases found : dict.lookup k with
      | none => rfl
      | some stored => exact absurd (covered k stored found) present
    rw [Finset.erase_eq_of_notMem present, absent, Option.map_none, Option.getD_none, sub_zero]

/-! The same sums where a value's share does not depend on its key. -/

omit [DecidableEq κ] in
theorem map_values {M : Type} (dict : Dict κ ν) (weight : ν → M) :
    dict.values.map weight = dict.rows.map fun row => weight row.2 := by
  rw [values, List.map_map]
  rfl

theorem sum_values {M : Type} [AddCommMonoid M] (dict : Dict κ ν) (weight : ν → M) (ids : Finset κ)
    (covered : ∀ k value, dict.lookup k = some value → k ∈ ids) :
    (dict.values.map weight).sum = ∑ k ∈ ids, ((dict.lookup k).map weight).getD 0 := by
  rw [map_values]
  exact sum_rows dict (fun _ => weight) ids covered

theorem sum_values_set {M : Type} [AddCommGroup M] (dict : Dict κ ν) (weight : ν → M) (k : κ)
    (value : ν) :
    ((dict.set k value).values.map weight).sum =
      (dict.values.map weight).sum - ((dict.lookup k).map weight).getD 0 + weight value := by
  rw [map_values, map_values]
  exact sum_rows_set dict (fun _ => weight) k value

theorem sum_values_pop {M : Type} [AddCommGroup M] (dict : Dict κ ν) (weight : ν → M) (k : κ) :
    ((dict.pop k).values.map weight).sum =
      (dict.values.map weight).sum - ((dict.lookup k).map weight).getD 0 := by
  rw [map_values, map_values]
  exact sum_rows_pop dict (fun _ => weight) k

/-- Adding one item after the other adds, under each key, the amounts of its items. -/
theorem lookup_foldl_add [AddCommMonoid ν] (key : ι → κ) (amount : ι → ν) (items : List ι)
    (start : Dict κ ν) (k : κ) :
    ((items.foldl (fun dict item => dict.add (key item) (amount item)) start).lookup k).getD 0 =
      (start.lookup k).getD 0 + ((items.filter (fun item => key item = k)).map amount).sum := by
  induction items using List.reverseRecOn with
  | nil => simp
  | append_singleton items item ih =>
      rw [List.foldl_append, List.foldl_cons, List.foldl_nil, add, lookup_set, List.filter_append,
        List.map_append, List.sum_append, ← add_assoc, ← ih]
      by_cases same : key item = k
      · simp [same]
      · simp [same]

/-- All amounts added are there, under whichever key. -/
theorem sum_values_foldl_add [AddCommGroup ν] (key : ι → κ) (amount : ι → ν) (items : List ι)
    (start : Dict κ ν) :
    (items.foldl (fun dict item => dict.add (key item) (amount item)) start).values.sum =
      start.values.sum + (items.map amount).sum := by
  induction items generalizing start with
  | nil => simp
  | cons item rest ih =>
      have added := sum_values_set start id (key item) ((start.lookup (key item)).getD 0 + amount item)
      simp only [List.map_id, Option.map_id_fun, id_eq] at added
      calc
        _ = (start.add (key item) (amount item)).values.sum + (rest.map amount).sum := ih _
        _ = start.values.sum + amount item + (rest.map amount).sum := by
          rw [add, added]
          abel
        _ = _ := by rw [List.map_cons, List.sum_cons, add_assoc]

/-- Assigning one item after the other leaves the last item of each key. -/
theorem lookup_foldl_set (key : ι → κ) (value : ι → ν) (items : List ι) (k : κ) :
    (items.foldl (fun dict item => dict.set (key item) (value item)) empty).lookup k =
      (items.reverse.find? (fun item => key item = k)).map value := by
  induction items using List.reverseRecOn with
  | nil => rfl
  | append_singleton items item ih =>
      rw [List.foldl_append, List.foldl_cons, List.foldl_nil, lookup_set, ih, List.reverse_concat,
        List.find?_cons]
      by_cases same : key item = k <;> simp [same]

/-- `setdefault` over the items leaves the first item of each key. -/
theorem lookup_foldl_setdefault (key : ι → κ) (value : ι → ν) (items : List ι) (k : κ) :
    (items.foldl (fun dict item => dict.setdefault (key item) (value item)) empty).lookup k =
      (items.find? (fun item => key item = k)).map value := by
  induction items using List.reverseRecOn with
  | nil => rfl
  | append_singleton items item ih =>
      rw [List.foldl_append, List.foldl_cons, List.foldl_nil, lookup_setdefault, ih,
        List.find?_append]
      by_cases same : key item = k
      · cases items.find? (fun item => key item = k) <;> simp [same]
      · cases items.find? (fun item => key item = k) <;> simp [same]

/-- Collecting items under their keys leaves, under each key, its items. -/
theorem lookup_foldl_insert {μ : Type} [DecidableEq μ] (key : ι → κ) (shown : ι → μ)
    (items : List ι) (k : κ) :
    (items.foldl (fun dict item => dict.set (key item)
      (insert (shown item) ((dict.lookup (key item)).getD ∅))) empty).lookup k =
      if items.filter (fun item => key item = k) = [] then none
      else some ((items.filter fun item => key item = k).map shown).toFinset := by
  induction items using List.reverseRecOn with
  | nil => rfl
  | append_singleton items item ih =>
      rw [List.foldl_append, List.foldl_cons, List.foldl_nil, lookup_set, List.filter_append]
      by_cases same : key item = k
      · rw [same, ih]
        by_cases first : items.filter (fun item => key item = k) = []
        · simp [same, first]
        · simp [same, first, Finset.union_comm]
      · simp [same, ih]

theorem mem_keys_foldl_set (key : ι → κ) (value : ι → ν) (items : List ι) (k : κ) :
    k ∈ (items.foldl (fun dict item => dict.set (key item) (value item)) empty).keys ↔
      ∃ item ∈ items, key item = k := by
  rw [mem_keys]
  simp only [lookup_foldl_set, Option.map_eq_some_iff]
  constructor
  · rintro ⟨_, item, found, rfl⟩
    exact ⟨item, List.mem_reverse.mp (List.mem_of_find?_eq_some found),
      by simpa using List.find?_some found⟩
  · intro ⟨item, member, same⟩
    have present : (items.reverse.find? (fun item => key item = k)).isSome := by
      rw [List.find?_isSome]
      exact ⟨item, List.mem_reverse.mpr member, by simpa using same⟩
    rcases Option.isSome_iff_exists.mp present with ⟨last, found⟩
    exact ⟨value last, last, found, rfl⟩

/-- With distinct keys the rows are the items in order. -/
theorem rows_foldl_set (key : ι → κ) (value : ι → ν) (items : List ι)
    (distinct : (items.map key).Nodup) :
    (items.foldl (fun dict item => dict.set (key item) (value item)) empty).rows =
      items.map (fun item => (key item, value item)) := by
  induction items using List.reverseRecOn with
  | nil => rfl
  | append_singleton items item ih =>
      rw [List.map_append, List.map_singleton, List.nodup_append] at distinct
      rcases distinct with ⟨front, _, apart⟩
      have rows := ih front
      have fresh : key item ∉
          (items.foldl (fun dict item => dict.set (key item) (value item)) empty).keys := by
        rw [keys, rows, List.map_map]
        intro member
        exact apart (key item) member (key item) (by simp) rfl
      rw [List.foldl_append, List.foldl_cons, List.foldl_nil, rows_set_absent _ _ _ fresh, rows,
        List.map_append, List.map_singleton]

end Dict

end Gyza
