import Gyza.Lib.CanonJson
import Gyza.Lib.PyValue

/-! The order of keys: what a JSON value becomes on its way through sorted text.

Sorting the keys of an object moves its fields and loses none, so every lookup
answers as before, with what it finds sorted in turn. -/

namespace Gyza.CanonJson.Doc

variable {α β φ : Type}

/-! Sorting one object. -/

theorem lastOfEach_map (change : α → β) (fields : List (String × α)) :
    lastOfEach (fields.map (fun field => (field.1, change field.2))) =
      (lastOfEach fields).map (fun field => (field.1, change field.2)) := by
  induction fields with
  | nil => rfl
  | cons field rest ih =>
      simp only [lastOfEach, List.map_cons, List.foldr_cons] at ih ⊢
      rw [ih]
      simp only [List.any_map, Function.comp_def]
      split_ifs
      · rfl
      · rfl

theorem sortFields_map (change : α → β) (fields : List (String × α)) :
    sortFields (fields.map (fun field => (field.1, change field.2))) =
      (sortFields fields).map (fun field => (field.1, change field.2)) := by
  rw [sortFields, lastOfEach_map, sortFields]
  symm
  apply List.map_insertionSort
  intro first _ second _
  rfl

theorem lastOfEach_nodup {fields : List (String × α)} (distinct : (fields.map Prod.fst).Nodup) :
    lastOfEach fields = fields := by
  induction fields with
  | nil => rfl
  | cons field rest ih =>
      have parts := List.nodup_cons.mp distinct
      have kept : lastOfEach rest = rest := ih parts.2
      have fresh : rest.any (fun other => other.1 = field.1) = false := by
        rw [List.any_eq_false]
        intro other member same
        exact parts.1 (List.mem_map.mpr ⟨other, member, of_decide_eq_true same⟩)
      calc
        lastOfEach (field :: rest) =
            if (lastOfEach rest).any (fun other => other.1 = field.1) then lastOfEach rest
            else field :: lastOfEach rest := rfl
        _ = field :: rest := by rw [kept, fresh]; rfl

theorem sortFields_perm {fields : List (String × α)} (distinct : (fields.map Prod.fst).Nodup) :
    (sortFields fields).Perm fields := by
  rw [sortFields, lastOfEach_nodup distinct]
  exact List.perm_insertionSort _ _

theorem mem_lookup {fields : List (String × α)} (distinct : (fields.map Prod.fst).Nodup)
    (key : String) (value : α) : fields.lookup key = some value ↔ (key, value) ∈ fields := by
  induction fields with
  | nil => simp
  | cons field rest ih =>
      obtain ⟨name, held⟩ := field
      have parts := List.nodup_cons.mp distinct
      rw [List.lookup_cons, List.mem_cons]
      by_cases same : key = name
      · subst same
        have absent : (key, value) ∉ rest := by
          intro member
          exact parts.1 (List.mem_map.mpr ⟨_, member, rfl⟩)
        simp [absent, eq_comm]
      · have unequal : (key == name) = false := by simpa using same
        simp only [unequal, ih parts.2, Prod.mk.injEq, same, false_and, false_or]

theorem lookup_perm {fields other : List (String × α)} (distinct : (fields.map Prod.fst).Nodup)
    (perm : other.Perm fields) (key : String) : other.lookup key = fields.lookup key := by
  have distinct' : (other.map Prod.fst).Nodup := (perm.map Prod.fst).nodup_iff.mpr distinct
  apply Option.ext
  intro value
  rw [mem_lookup distinct', mem_lookup distinct, perm.mem_iff]

theorem lookup_sortFields {fields : List (String × α)} (distinct : (fields.map Prod.fst).Nodup)
    (key : String) : (sortFields fields).lookup key = fields.lookup key :=
  lookup_perm distinct (sortFields_perm distinct) key

/-- A lookup succeeds for the keys of the list. -/
theorem isSome_lookup (fields : List (String × α)) (key : String) :
    (fields.lookup key).isSome = decide (key ∈ fields.map Prod.fst) := by
  induction fields with
  | nil => rfl
  | cons field rest ih =>
      obtain ⟨name, value⟩ := field
      rw [List.lookup_cons, List.map_cons]
      by_cases same : key = name
      · simp [same]
      · have apart : (key == name) = false := by simpa using same
        rw [apart]
        simp only [ih, List.mem_cons, same, false_or]

/-! Sorting twice. -/

theorem nodup_lastOfEach (fields : List (String × α)) :
    ((lastOfEach fields).map Prod.fst).Nodup := by
  induction fields with
  | nil => exact List.nodup_nil
  | cons field rest ih =>
      have unfolded : lastOfEach (field :: rest) =
          if (lastOfEach rest).any (fun other => other.1 = field.1) then lastOfEach rest
          else field :: lastOfEach rest := rfl
      rw [unfolded]
      split_ifs with held
      · exact ih
      · rw [List.map_cons, List.nodup_cons]
        refine ⟨?_, ih⟩
        intro member
        obtain ⟨other, present, same⟩ := List.mem_map.mp member
        exact held (List.any_eq_true.mpr ⟨other, present, decide_eq_true same⟩)

theorem sortFields_sortFields (fields : List (String × α)) :
    sortFields (sortFields fields) = sortFields fields := by
  have perm : (sortFields fields).Perm (lastOfEach fields) := List.perm_insertionSort _ _
  have distinct : ((sortFields fields).map Prod.fst).Nodup :=
    (perm.map Prod.fst).nodup_iff.mpr (nodup_lastOfEach fields)
  have sorted : (sortFields fields).Pairwise (fun first second => first.1 ≤ second.1) :=
    List.pairwise_insertionSort _ _
  calc
    sortFields (sortFields fields) =
        (sortFields fields).insertionSort (fun first second => first.1 ≤ second.1) := by
      rw [sortFields, lastOfEach_nodup distinct]
    _ = sortFields fields := sorted.insertionSort_eq

/-! What a sorted object keeps: under each name, the last of the fields given. -/

theorem lookup_lastOfEach (fields : List (String × α)) (key : String) :
    (lastOfEach fields).lookup key = fields.reverse.lookup key := by
  induction fields with
  | nil => rfl
  | cons field rest ih =>
      obtain ⟨name, value⟩ := field
      have unfolded : lastOfEach ((name, value) :: rest) =
          if (lastOfEach rest).any (fun other => other.1 = name) then lastOfEach rest
          else (name, value) :: lastOfEach rest := rfl
      have held : (lastOfEach rest).any (fun other => other.1 = name) =
          ((lastOfEach rest).lookup name).isSome := by
        rw [isSome_lookup]
        simp [List.any_eq]
      rw [unfolded, held, List.reverse_cons, List.lookup_append, ← ih]
      by_cases same : key = name
      · subst same
        cases found : (lastOfEach rest).lookup key with
        | none => simp
        | some last => simp [found]
      · have apart : (key == name) = false := by simpa using same
        split_ifs
        · simp [List.lookup_cons, apart]
        · simp [List.lookup_cons, apart]

theorem sortFields_eq_iff (fields other : List (String × α)) :
    sortFields fields = sortFields other ↔
      ∀ key, fields.reverse.lookup key = other.reverse.lookup key := by
  have perm (given : List (String × α)) : (sortFields given).Perm (lastOfEach given) :=
    List.perm_insertionSort _ _
  have lookup (given : List (String × α)) (key : String) :
      (sortFields given).lookup key = given.reverse.lookup key := by
    rw [lookup_perm (nodup_lastOfEach given) (perm given), lookup_lastOfEach]
  have distinct (given : List (String × α)) : ((sortFields given).map Prod.fst).Nodup :=
    ((perm given).map Prod.fst).nodup_iff.mpr (nodup_lastOfEach given)
  have sorted (given : List (String × α)) :
      (sortFields given).Pairwise (fun first second => first.1 ≤ second.1) :=
    List.pairwise_insertionSort _ _
  constructor
  · intro same key
    rw [← lookup, ← lookup, same]
  · intro agree
    have members : ∀ field, field ∈ sortFields fields ↔ field ∈ sortFields other := by
      intro field
      rw [← mem_lookup (distinct fields), ← mem_lookup (distinct other), lookup, lookup, agree]
    have moved : (sortFields fields).Perm (sortFields other) :=
      (List.perm_ext_iff_of_nodup (List.Nodup.of_map _ (distinct fields))
        (List.Nodup.of_map _ (distinct other))).mpr members
    apply moved.eq_of_pairwise _ (sorted fields) (sorted other)
    intro first second present present' below above
    have name : first.1 = second.1 := le_antisymm below above
    have held := (mem_lookup (distinct other) first.1 first.2).mpr ((members first).mp present)
    have held' := (mem_lookup (distinct other) second.1 second.2).mpr present'
    rw [name, held'] at held
    exact Prod.ext name (Option.some.inj held).symm

theorem normalFields_eq_map (fields : List (String × Doc φ)) :
    normalFields fields = fields.map (fun field => (field.1, normal field.2)) := by
  induction fields with
  | nil => rfl
  | cons field rest ih => rw [normalFields, ih, List.map_cons]

mutual
theorem normal_normal (document : Doc φ) : document.normal.normal = document.normal := by
  match document with
  | .null => rfl
  | .bool _ => rfl
  | .int _ => rfl
  | .float _ => rfl
  | .str _ => rfl
  | .arr items =>
      rw [normal, normal, normalItems_normalItems items]
  | .obj fields =>
      rw [normal, normal, normalFields_eq_map (sortFields _), ← sortFields_map,
        ← normalFields_eq_map, normalFields_normalFields fields, sortFields_sortFields]
theorem normalItems_normalItems (items : List (Doc φ)) :
    normalItems (normalItems items) = normalItems items := by
  match items with
  | [] => rfl
  | item :: rest =>
      rw [normalItems, normalItems, normal_normal item, normalItems_normalItems rest]
theorem normalFields_normalFields (fields : List (String × Doc φ)) :
    normalFields (normalFields fields) = normalFields fields := by
  match fields with
  | [] => rfl
  | (name, value) :: rest =>
      rw [normalFields, normalFields, normal_normal value, normalFields_normalFields rest]
end

end Gyza.CanonJson.Doc

/-! Values. -/

namespace Gyza.PyValue.Value

open CanonJson (Doc)

mutual
/-- What `json.loads` makes of the text that `json.dumps(value, sort_keys=True)` writes. -/
def sorted : Value → Value
  | .collection kind items => .collection kind (sortedItems items)
  | .dict fields => .dict (Doc.sortFields (sortedFields fields))
  | value => value
def sortedItems : List Value → List Value
  | [] => []
  | item :: rest => sorted item :: sortedItems rest
def sortedFields : Fields → Fields
  | [] => []
  | (name, value) :: rest => (name, sorted value) :: sortedFields rest
end

mutual
/-- A value that a JSON text holds: lists for arrays, finite floats, no key twice. -/
def isJson : Value → Bool
  | .float value => value.isFinite
  | .collection .list items => itemsJson items
  | .collection _ _ => false
  | .dict fields => decide (fields.map Prod.fst).Nodup && fieldsJson fields
  | _ => true
def itemsJson : List Value → Bool
  | [] => true
  | item :: rest => isJson item && itemsJson rest
def fieldsJson : Fields → Bool
  | [] => true
  | (_, value) :: rest => isJson value && fieldsJson rest
end

/-- The fields of a sorted dictionary. -/
def sortedDict (fields : Fields) : Fields := Doc.sortFields (sortedFields fields)

@[simp] theorem sorted_dict (fields : Fields) :
    (Value.dict fields).sorted = .dict (sortedDict fields) := rfl

theorem sortedItems_eq_map (items : List Value) : sortedItems items = items.map sorted := by
  induction items with
  | nil => rfl
  | cons item rest ih => rw [sortedItems, ih, List.map_cons]

theorem sortedFields_eq_map (fields : Fields) :
    sortedFields fields = fields.map (fun field => (field.1, sorted field.2)) := by
  induction fields with
  | nil => rfl
  | cons field rest ih => rw [sortedFields, ih, List.map_cons]

theorem itemsJson_iff (items : List Value) :
    itemsJson items = true ↔ ∀ item ∈ items, item.isJson = true := by
  induction items with
  | nil => simp [itemsJson]
  | cons item rest ih => simp [itemsJson, ih]

theorem fieldsJson_iff (fields : Fields) :
    fieldsJson fields = true ↔ ∀ field ∈ fields, field.2.isJson = true := by
  induction fields with
  | nil => simp [fieldsJson]
  | cons field rest ih =>
      rw [fieldsJson, Bool.and_eq_true, ih, List.forall_mem_cons]

theorem isJson_dict_iff (fields : Fields) :
    (Value.dict fields).isJson = true ↔
      (fields.map Prod.fst).Nodup ∧ ∀ field ∈ fields, field.2.isJson = true := by
  rw [isJson, Bool.and_eq_true, decide_eq_true_eq, fieldsJson_iff]

theorem nodup_sortedFields {fields : Fields} (distinct : (fields.map Prod.fst).Nodup) :
    ((sortedFields fields).map Prod.fst).Nodup := by
  rw [sortedFields_eq_map, List.map_map]
  exact distinct

theorem lookup_map {α β : Type} (change : α → β) (fields : List (String × α)) (key : String) :
    (fields.map (fun field => (field.1, change field.2))).lookup key =
      (fields.lookup key).map change := by
  induction fields with
  | nil => rfl
  | cons field rest ih =>
      obtain ⟨name, value⟩ := field
      rw [List.map_cons, List.lookup_cons, List.lookup_cons, ih]
      cases key == name with
      | true => rfl
      | false => rfl

theorem lookup_sorted {fields : Fields} (distinct : (fields.map Prod.fst).Nodup) (key : String) :
    (sortedDict fields).lookup key = (fields.lookup key).map sorted := by
  rw [sortedDict, Doc.lookup_sortFields (nodup_sortedFields distinct), sortedFields_eq_map, lookup_map]

theorem dictGet_sorted {fields : Fields} (distinct : (fields.map Prod.fst).Nodup) (key : String)
    (default : Value) :
    dictGet (sortedDict fields) key default.sorted =
      (dictGet fields key default).sorted := by
  rw [dictGet, dictGet, lookup_sorted distinct]
  cases fields.lookup key with
  | none => rfl
  | some value => rfl

theorem isJson_dictGet {fields : Fields} (json : (Value.dict fields).isJson = true) (key : String)
    {default : Value} (plain : default.isJson = true) :
    (dictGet fields key default).isJson = true := by
  have parts := (isJson_dict_iff fields).mp json
  cases found : fields.lookup key with
  | none =>
      rw [dictGet, found]
      exact plain
  | some value =>
      rw [dictGet, found]
      exact parts.2 (key, value) ((Doc.mem_lookup parts.1 key value).mp found)

theorem sortedDict_perm {fields : Fields} (distinct : (fields.map Prod.fst).Nodup) :
    (sortedDict fields).Perm (fields.map (fun field => (field.1, sorted field.2))) := by
  rw [← sortedFields_eq_map]
  exact Doc.sortFields_perm (nodup_sortedFields distinct)

mutual
/-- Sorting its keys leaves a JSON value one. -/
theorem isJson_sorted (value : Value) (json : value.isJson = true) : value.sorted.isJson = true := by
  match value with
  | .none => rfl
  | .bool _ => rfl
  | .int _ => rfl
  | .str _ => rfl
  | .float _ => exact json
  | .collection .list items =>
      rw [isJson] at json
      rw [sorted, isJson]
      exact itemsJson_sorted items json
  | .dict fields =>
      rw [isJson, Bool.and_eq_true, decide_eq_true_eq] at json
      have perm := Doc.sortFields_perm (nodup_sortedFields json.1)
      rw [sorted_dict, isJson_dict_iff]
      refine ⟨(perm.map Prod.fst).nodup_iff.mpr (nodup_sortedFields json.1), ?_⟩
      intro field member
      exact (fieldsJson_iff _).mp (fieldsJson_sorted fields json.2) field (perm.mem_iff.mp member)
theorem itemsJson_sorted (items : List Value) (json : itemsJson items = true) :
    itemsJson (sortedItems items) = true := by
  match items with
  | [] => rfl
  | item :: rest =>
      rw [itemsJson, Bool.and_eq_true] at json
      rw [sortedItems, itemsJson, isJson_sorted item json.1, itemsJson_sorted rest json.2]
      rfl
theorem fieldsJson_sorted (fields : Fields) (json : fieldsJson fields = true) :
    fieldsJson (sortedFields fields) = true := by
  match fields with
  | [] => rfl
  | (name, value) :: rest =>
      rw [fieldsJson, Bool.and_eq_true] at json
      rw [sortedFields, fieldsJson, isJson_sorted value json.1, fieldsJson_sorted rest json.2]
      rfl
end

theorem isEmpty_sorted {fields : Fields} (distinct : (fields.map Prod.fst).Nodup) :
    (sortedDict fields).isEmpty = fields.isEmpty := by
  have length := (sortedDict_perm distinct).length_eq
  rw [List.length_map] at length
  cases fields with
  | nil => rfl
  | cons field rest =>
      cases shown : sortedDict (field :: rest) with
      | nil =>
          rw [shown] at length
          cases length
      | cons _ _ => rfl

theorem truthy_sorted {value : Value} (json : value.isJson = true) :
    value.sorted.truthy = value.truthy := by
  cases value with
  | collection kind items =>
      rw [sorted, truthy, truthy, sortedItems_eq_map, List.isEmpty_map]
  | dict fields =>
      rw [sorted_dict, truthy, truthy, isEmpty_sorted ((isJson_dict_iff fields).mp json).1]
  | _ => rfl

theorem positiveInt_sorted (value : Value) : value.sorted.positiveInt = value.positiveInt := by
  cases value with
  | collection kind items => rfl
  | dict fields => rfl
  | _ => rfl

end Gyza.PyValue.Value
