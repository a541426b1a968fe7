import Gyza.Lib.KeyOrder
import Gyza.Lib.PyObject

/-! Canonical comparison (`gyza/canon.py`): equality of values, and their order-stable
serialization.

Python's equality takes a boolean for a number and a key for every key of its worth. The
serialization keeps booleans apart from numbers, and writes each key as `str` does. -/

namespace Gyza.CanonicalForm

open CanonJson (Doc FloatText)
open PyNumber (Number FloatFormat)
open PyObject (Scalar Sequence Value Entries)

/-- Floats of equal worth are the same float, apart from the two zeros. -/
structure FiniteFloats (φ : Type) extends FloatFormat φ where
  value_cancel : ∀ first second, value first = value second → value first ≠ 0 → first = second

variable {φ : Type} (floats : FiniteFloats φ)

/-- No finite float is a NaN, so the comparison is `==`. -/
def valuesEqual (left right : Value φ) : Bool :=
  left.eq (Number.exactValue floats.toFloatFormat) right

/-- `str(key)`. -/
def keyText : Scalar φ → String
  | .none => "None"
  | .bool true => "True"
  | .bool false => "False"
  | .number (.int value) => value.repr
  | .number (.float value) => String.ofList (floats.repr value)
  | .str text => text

/-- A float without a fraction is written as its integer. -/
def normalizeScalar : Scalar φ → Doc φ
  | .none => .null
  | .bool value => .bool value
  | .number (.int value) => .int value
  | .number (.float value) =>
      if (floats.value value).isInt then .int (floats.value value).num else .float value
  | .str text => .str text

def sortedTexts (texts : List String) : List String :=
  texts.insertionSort (fun first second => first ≤ second)

mutual
/-- `_normalize`. Serializing keeps the last entry of each key text, and sorts them. -/
def normalize : Value φ → Doc φ
  | .scalar value => normalizeScalar floats value
  | .dict entries => .obj (normalizeEntries entries)
  | .set members => .obj [("__set__", .arr ((sortedTexts (memberForms members)).map Doc.str))]
  | .sequence _ items => .arr (normalizeItems items)
def normalizeItems : List (Value φ) → List (Doc φ)
  | [] => []
  | item :: items => normalize item :: normalizeItems items
def normalizeEntries : Entries φ → List (String × Doc φ)
  | [] => []
  | (key, value) :: entries => (keyText floats key, normalize value) :: normalizeEntries entries
def memberForms : List (Value φ) → List String
  | [] => []
  | member :: members => (normalize member).normal.dumps floats.repr :: memberForms members
end

def canonicalForm (value : Value φ) : String := (normalize floats value).normal.dumps floats.repr

/-! When two values are written alike. -/

def AlikeScalar : Scalar φ → Scalar φ → Prop
  | .none, .none => True
  | .bool left, .bool right => left = right
  | .number left, .number right =>
      left.exactValue floats.toFloatFormat = right.exactValue floats.toFloatFormat
  | .str left, .str right => left = right
  | _, _ => False

/-- The entry inserted last of those whose keys are written as the text. -/
def lastEntry (text : String) (entries : Entries φ) : Option (Value φ) :=
  (entries.reverse.find? (fun entry => text = keyText floats entry.1)).map Prod.snd

/-- The texts of a set's members, as a list of them. -/
def setTexts (members : List (Value φ)) : List (Value φ) :=
  (sortedTexts (members.map (canonicalForm floats))).map Value.str

/-- Booleans face booleans and numbers face numbers; the items of sequences correspond, and
so do the members of sets, in some order; under each key text, the last entries correspond. -/
inductive Alike : Value φ → Value φ → Prop where
  | scalar {left right : Scalar φ} (same : AlikeScalar floats left right) :
      Alike (.scalar left) (.scalar right)
  | sequence {kind other : Sequence} {items others : List (Value φ)}
      (same : List.Forall₂ Alike items others) :
      Alike (.sequence kind items) (.sequence other others)
  | dict {entries others : Entries φ}
      (same : ∀ text, Option.Rel Alike (lastEntry floats text entries)
        (lastEntry floats text others)) : Alike (.dict entries) (.dict others)
  | set {members paired others : List (Value φ)} (same : List.Forall₂ Alike members paired)
      (order : paired.Perm others) : Alike (.set members) (.set others)
  /-- A dictionary can be written as a set is. -/
  | setDict {kind : Sequence} {members : List (Value φ)} {entries : Entries φ}
      (texts : lastEntry floats "__set__" entries = some (.sequence kind (setTexts floats members)))
      (alone : ∀ text ≠ "__set__", lastEntry floats text entries = none) :
      Alike (.set members) (.dict entries)
  | dictSet {kind : Sequence} {members : List (Value φ)} {entries : Entries φ}
      (texts : lastEntry floats "__set__" entries = some (.sequence kind (setTexts floats members)))
      (alone : ∀ text ≠ "__set__", lastEntry floats text entries = none) :
      Alike (.dict entries) (.set members)

/-! What each kind of value is written as. -/

/-- The document that is written. -/
abbrev written (value : Value φ) : Doc φ := (normalize floats value).normal

theorem canonicalForm_inj {left right : Value φ} :
    canonicalForm floats left = canonicalForm floats right ↔
      written floats left = written floats right :=
  (Doc.dumps_injective floats.toFloatText).eq_iff

theorem written_scalar (value : Scalar φ) :
    written floats (.scalar value) = normalizeScalar floats value := by
  rw [written, normalize, normalizeScalar.eq_def]
  split
  · rfl
  · rfl
  · rfl
  · split_ifs
    · rfl
    · rfl
  · rfl

theorem written_sequence (kind : Sequence) (items : List (Value φ)) :
    written floats (.sequence kind items) = .arr (items.map (written floats)) := by
  have each : ∀ given : List (Value φ), Doc.normalItems (normalizeItems floats given) =
      given.map (written floats) := by
    intro given
    induction given with
    | nil => rfl
    | cons item rest ih => rw [normalizeItems, Doc.normalItems, ih, List.map_cons]
  rw [written, normalize, Doc.normal, each]

theorem written_dict (entries : Entries φ) :
    written floats (.dict entries) = .obj (Doc.sortFields
      (entries.map (fun entry => (keyText floats entry.1, written floats entry.2)))) := by
  have each : Doc.normalFields (normalizeEntries floats entries) =
      entries.map (fun entry => (keyText floats entry.1, written floats entry.2)) := by
    induction entries with
    | nil => rfl
    | cons entry rest ih =>
        obtain ⟨key, value⟩ := entry
        rw [normalizeEntries, Doc.normalFields, ih, List.map_cons]
  rw [written, normalize, Doc.normal, each]

theorem written_set (members : List (Value φ)) :
    written floats (.set members) = .obj (Doc.sortFields
      [("__set__", .arr ((sortedTexts (members.map (canonicalForm floats))).map Doc.str))]) := by
  have forms : memberForms floats members = members.map (canonicalForm floats) := by
    induction members with
    | nil => rfl
    | cons member rest ih =>
        rw [memberForms, ih, List.map_cons]
        rfl
  have texts : ∀ given : List String,
      Doc.normalItems (given.map (Doc.str : String → Doc φ)) = given.map Doc.str := by
    intro given
    induction given with
    | nil => rfl
    | cons text rest ih =>
        rw [List.map_cons, Doc.normalItems, ih]
        rfl
  rw [written, normalize, Doc.normal, Doc.normalFields, Doc.normalFields, Doc.normal, texts, forms]

/-- Looking a text up among the written entries finds the last entry written under it. -/
theorem lookup_written (text : String) (entries : Entries φ) :
    ((entries.map (fun entry => (keyText floats entry.1, written floats entry.2))).reverse).lookup
      text = (lastEntry floats text entries).map (written floats) := by
  rw [← List.map_reverse, lastEntry]
  induction entries.reverse with
  | nil => rfl
  | cons entry rest ih =>
      rw [List.map_cons, List.lookup_cons, List.find?_cons, ih]
      by_cases same : text = keyText floats entry.1
      · simp [same]
      · have apart : (text == keyText floats entry.1) = false := by simpa using same
        simp [apart, same]

theorem mem_of_lastEntry {text : String} {entries : Entries φ} {value : Value φ}
    (found : lastEntry floats text entries = some value) : ∃ entry ∈ entries, entry.2 = value := by
  rcases Option.map_eq_some_iff.mp found with ⟨entry, first, same⟩
  exact ⟨entry, List.mem_reverse.mp (List.mem_of_find?_eq_some first), same⟩

/-! Alike is written alike, kind by kind. -/

/-- The integer a number is written as, if it has no fraction. -/
theorem normalizeScalar_number (number : Number φ) (value : Int) :
    normalizeScalar floats (.number number) = .int value ↔
      number.exactValue floats.toFloatFormat = value := by
  cases number with
  | int own => simp [normalizeScalar, Number.exactValue]
  | float own =>
      rw [normalizeScalar, Number.exactValue]
      split_ifs with whole
      · have exact : ((floats.value own).num : ℚ) = floats.value own :=
          Rat.coe_int_num_of_den_eq_one (by simpa [Rat.isInt] using whole)
        rw [Doc.int.injEq, ← exact, Int.cast_inj, exact]
      · simp only [false_iff]
        intro same
        rw [same] at whole
        exact whole (by simp [Rat.isInt])

/-- Otherwise it is a float, written as itself. -/
theorem normalizeScalar_fraction {number : Number φ}
    (fraction : ∀ value : Int, number.exactValue floats.toFloatFormat ≠ value) :
    ∃ own, number = .float own ∧ normalizeScalar floats (.number number) = .float own := by
  cases number with
  | int own => exact absurd rfl (fraction own)
  | float own =>
      refine ⟨own, rfl, ?_⟩
      rw [normalizeScalar, if_neg]
      intro whole
      have exact : ((floats.value own).num : ℚ) = floats.value own :=
        Rat.coe_int_num_of_den_eq_one (by simpa [Rat.isInt] using whole)
      exact fraction (floats.value own).num exact.symm

theorem normalizeScalar_number_iff (left right : Number φ) :
    normalizeScalar floats (.number left) = normalizeScalar floats (.number right) ↔
      left.exactValue floats.toFloatFormat = right.exactValue floats.toFloatFormat := by
  by_cases whole : ∃ value : Int, right.exactValue floats.toFloatFormat = value
  · obtain ⟨value, exact⟩ := whole
    rw [(normalizeScalar_number floats right value).mpr exact, normalizeScalar_number, exact]
  · have fraction : ∀ value : Int, right.exactValue floats.toFloatFormat ≠ value :=
      fun value exact => whole ⟨value, exact⟩
    obtain ⟨own, rfl, self⟩ := normalizeScalar_fraction floats fraction
    constructor
    · intro same
      rw [self] at same
      cases left with
      | int other => cases same
      | float other =>
          rw [normalizeScalar] at same
          split_ifs at same
          cases same
          rfl
    · intro exact
      have fraction' : ∀ value : Int, left.exactValue floats.toFloatFormat ≠ value :=
        fun value held => fraction value (exact.symm.trans held)
      obtain ⟨other, rfl, self'⟩ := normalizeScalar_fraction floats fraction'
      have nonzero : floats.value other ≠ 0 := by
        have zero := fraction' 0
        simpa [Number.exactValue] using zero
      rw [floats.value_cancel other own exact nonzero]

theorem normalizeScalar_numeral (number : Number φ) :
    (∃ value, normalizeScalar floats (.number number) = .int value) ∨
      ∃ value, normalizeScalar floats (.number number) = .float value := by
  by_cases whole : ∃ value : Int, number.exactValue floats.toFloatFormat = value
  · obtain ⟨value, exact⟩ := whole
    exact Or.inl ⟨value, (normalizeScalar_number floats number value).mpr exact⟩
  · obtain ⟨own, -, self⟩ := normalizeScalar_fraction floats (not_exists.mp whole)
    exact Or.inr ⟨own, self⟩

theorem normalizeScalar_eq_iff (left right : Scalar φ) :
    normalizeScalar floats left = normalizeScalar floats right ↔ AlikeScalar floats left right := by
  cases left with
  | number left =>
      cases right with
      | number right => exact normalizeScalar_number_iff floats left right
      | _ =>
        rcases normalizeScalar_numeral floats left with ⟨value, same⟩ | ⟨value, same⟩
        · rw [same]
          simp [normalizeScalar, AlikeScalar]
        · rw [same]
          simp [normalizeScalar, AlikeScalar]
  | _ =>
    cases right with
    | number right =>
        rcases normalizeScalar_numeral floats right with ⟨value, same⟩ | ⟨value, same⟩
        · rw [same]
          simp [normalizeScalar, AlikeScalar]
        · rw [same]
          simp [normalizeScalar, AlikeScalar]
    | _ => simp [normalizeScalar, AlikeScalar]

/-- A scalar is written neither as a list nor as an object. -/
theorem normalizeScalar_flat (value : Scalar φ) :
    (∀ items, normalizeScalar floats value ≠ .arr items) ∧
      ∀ fields, normalizeScalar floats value ≠ .obj fields := by
  cases value with
  | number number =>
      rcases normalizeScalar_numeral floats number with ⟨value, same⟩ | ⟨value, same⟩
      · simp [same]
      · simp [same]
  | _ => simp [normalizeScalar]

theorem sortedTexts_eq_iff (texts others : List String) :
    sortedTexts texts = sortedTexts others ↔ texts.Perm others := by
  have perm (given : List String) : (sortedTexts given).Perm given := List.perm_insertionSort _ _
  constructor
  · intro same
    exact (perm texts).symm.trans (same ▸ perm others)
  · intro moved
    apply ((perm texts).trans (moved.trans (perm others).symm)).eq_of_pairwise
      (fun first second _ _ below above => le_antisymm below above)
    · exact List.pairwise_insertionSort _ _
    · exact List.pairwise_insertionSort _ _

variable {floats}

/-- Items written alike correspond, given that each is written alike exactly where it
corresponds. -/
theorem written_items_iff {items : List (Value φ)}
    (each : ∀ item ∈ items, ∀ other, written floats item = written floats other ↔
      Alike floats item other) (others : List (Value φ)) :
    items.map (written floats) = others.map (written floats) ↔
      List.Forall₂ (Alike floats) items others := by
  induction items generalizing others with
  | nil => cases others <;> simp
  | cons item rest ih =>
      cases others with
      | nil => simp
      | cons other others =>
          rw [List.map_cons, List.map_cons, List.cons.injEq, List.forall₂_cons,
            each item List.mem_cons_self, ih fun given member => each given
              (List.mem_cons_of_mem item member)]

/-- Members whose forms are the same texts can be paired off. -/
theorem written_members_iff {members : List (Value φ)}
    (each : ∀ member ∈ members, ∀ other, written floats member = written floats other ↔
      Alike floats member other) (others : List (Value φ)) :
    (members.map (canonicalForm floats)).Perm (others.map (canonicalForm floats)) ↔
      ∃ paired, List.Forall₂ (Alike floats) members paired ∧ paired.Perm others := by
  have forms (paired : List (Value φ)) :
      members.map (canonicalForm floats) = paired.map (canonicalForm floats) ↔
        List.Forall₂ (Alike floats) members paired := by
    rw [← written_items_iff each]
    have injective := Doc.dumps_injective floats.toFloatText
    have composed : canonicalForm floats = Doc.dumps floats.repr ∘ written floats := rfl
    rw [composed, ← List.map_map, ← List.map_map]
    exact (List.map_injective_iff.mpr injective).eq_iff
  calc
    (members.map (canonicalForm floats)).Perm (others.map (canonicalForm floats)) ↔
        ∃ paired : List (Value φ), members.map (canonicalForm floats) =
          paired.map (canonicalForm floats) ∧ paired.Perm others :=
      (iff_of_eq (congrFun₂ (List.eq_map_comp_perm (canonicalForm floats))
        (members.map (canonicalForm floats)) others)).symm
    _ ↔ ∃ paired, List.Forall₂ (Alike floats) members paired ∧ paired.Perm others :=
      exists_congr fun paired => and_congr_left fun _ => forms paired

theorem written_lastEntry_iff {entries : Entries φ}
    (each : ∀ entry ∈ entries, ∀ other, written floats entry.2 = written floats other ↔
      Alike floats entry.2 other) (others : Entries φ) (text : String) :
    (lastEntry floats text entries).map (written floats) =
        (lastEntry floats text others).map (written floats) ↔
      Option.Rel (Alike floats) (lastEntry floats text entries) (lastEntry floats text others) := by
  cases found : lastEntry floats text entries with
  | none =>
      cases lastEntry floats text others with
      | none => simp
      | some other => simp
  | some value =>
      obtain ⟨entry, member, rfl⟩ := mem_of_lastEntry floats found
      cases lastEntry floats text others with
      | none => simp
      | some other => simp [each entry member]

theorem written_str_iff (value : Value φ) (text : String) :
    written floats value = .str text ↔ value = .str text := by
  cases value with
  | scalar value =>
      have self : normalizeScalar floats (.str text) = .str text := rfl
      rw [written_scalar, ← self, normalizeScalar_eq_iff]
      cases value <;> simp [AlikeScalar]
  | sequence kind items => simp [written_sequence]
  | dict entries => simp [written_dict]
  | set members => simp [written_set]

theorem written_texts_iff (value : Value φ) (texts : List String) :
    written floats value = .arr (texts.map Doc.str) ↔
      ∃ kind, value = .sequence kind (texts.map Value.str) := by
  cases value with
  | scalar value =>
      have flat := (normalizeScalar_flat floats value).1 (texts.map Doc.str)
      simp [written_scalar, flat]
  | sequence kind items =>
      rw [written_sequence, Doc.arr.injEq]
      have each : items.map (written floats) = texts.map Doc.str ↔ items = texts.map Value.str := by
        induction items generalizing texts with
        | nil => cases texts <;> simp
        | cons item rest ih =>
            cases texts with
            | nil => simp
            | cons text others => simp [written_str_iff, ih]
      simp [each]
  | dict entries => simp [written_dict]
  | set members => simp [written_set]

/-- A dictionary is written as a set is exactly if it has the one key text of a set, and
under it the texts of the members. -/
theorem written_set_dict_iff (members : List (Value φ)) (entries : Entries φ) :
    written floats (.set members) = written floats (.dict entries) ↔
      (∃ kind, lastEntry floats "__set__" entries =
        some (.sequence kind (setTexts floats members))) ∧
          ∀ text ≠ "__set__", lastEntry floats text entries = none := by
  have texts (value : Value φ) : written floats value =
      .arr ((sortedTexts (members.map (canonicalForm floats))).map Doc.str) ↔
        ∃ kind, value = .sequence kind (setTexts floats members) := written_texts_iff value _
  rw [written_set, written_dict, Doc.obj.injEq, Doc.sortFields_eq_iff]
  simp only [lookup_written]
  constructor
  · intro same
    constructor
    · have held := same "__set__"
      simp only [List.reverse_singleton, List.lookup_cons, beq_self_eq_true] at held
      rcases Option.map_eq_some_iff.mp held.symm with ⟨value, found, given⟩
      obtain ⟨kind, rfl⟩ := (texts value).mp given
      exact ⟨kind, found⟩
    · intro text other
      have absent := same text
      have apart : (text == "__set__") = false := by simpa using other
      simp only [List.reverse_singleton, List.lookup_cons, apart, List.lookup_nil] at absent
      exact Option.map_eq_none_iff.mp absent.symm
  · intro given
    rcases given with ⟨⟨kind, found⟩, alone⟩
    intro text
    by_cases same : text = "__set__"
    · subst same
      rw [found, Option.map_some, (texts _).mpr ⟨kind, rfl⟩]
      simp
    · have apart : (text == "__set__") = false := by simpa using same
      simp [alone text same, List.lookup_cons, apart]

theorem written_sets_iff (members others : List (Value φ)) :
    written floats (.set members) = written floats (.set others) ↔
      sortedTexts (members.map (canonicalForm floats)) =
        sortedTexts (others.map (canonicalForm floats)) := by
  have texts : Function.Injective (Doc.str : String → Doc φ) := fun _ _ => Doc.str.inj
  rw [written_set, written_set, Doc.obj.injEq, Doc.sortFields, Doc.sortFields]
  simp [Doc.lastOfEach, texts.list_map.eq_iff]

/-! What alike values are, kind by kind. -/

theorem alike_scalar_iff {left right : Scalar φ} :
    Alike floats (.scalar left) (.scalar right) ↔ AlikeScalar floats left right := by
  constructor
  · intro alike
    cases alike with
    | scalar same => exact same
  · exact .scalar

theorem alike_sequence_iff {kind other : Sequence} {items others : List (Value φ)} :
    Alike floats (.sequence kind items) (.sequence other others) ↔
      List.Forall₂ (Alike floats) items others := by
  constructor
  · intro alike
    cases alike with
    | sequence same => exact same
  · exact .sequence

theorem alike_dict_iff {entries others : Entries φ} :
    Alike floats (.dict entries) (.dict others) ↔
      ∀ text, Option.Rel (Alike floats) (lastEntry floats text entries)
        (lastEntry floats text others) := by
  constructor
  · intro alike
    cases alike with
    | dict same => exact same
  · exact .dict

theorem alike_set_iff {members others : List (Value φ)} :
    Alike floats (.set members) (.set others) ↔
      ∃ paired, List.Forall₂ (Alike floats) members paired ∧ paired.Perm others := by
  constructor
  · intro alike
    cases alike with
    | set same order => exact ⟨_, same, order⟩
  · rintro ⟨paired, same, order⟩
    exact .set same order

theorem alike_setDict_iff {members : List (Value φ)} {entries : Entries φ} :
    Alike floats (.set members) (.dict entries) ↔
      (∃ kind, lastEntry floats "__set__" entries =
        some (.sequence kind (setTexts floats members))) ∧
          ∀ text ≠ "__set__", lastEntry floats text entries = none := by
  constructor
  · intro alike
    cases alike with
    | setDict texts alone => exact ⟨⟨_, texts⟩, alone⟩
  · rintro ⟨⟨kind, texts⟩, alone⟩
    exact .setDict texts alone

theorem alike_dictSet_iff {entries : Entries φ} {members : List (Value φ)} :
    Alike floats (.dict entries) (.set members) ↔ Alike floats (.set members) (.dict entries) := by
  constructor
  · intro alike
    cases alike with
    | dictSet texts alone => exact .setDict texts alone
  · intro alike
    cases alike with
    | setDict texts alone => exact .dictSet texts alone

/-- The canonical form tells values apart exactly where they are not alike. -/
theorem written_eq_iff (left right : Value φ) :
    written floats left = written floats right ↔ Alike floats left right := by
  induction left using Value.induct generalizing right with
  | scalar left =>
      cases right with
      | scalar right =>
          rw [written_scalar, written_scalar, normalizeScalar_eq_iff, alike_scalar_iff]
      | sequence kind items =>
          rw [written_scalar, written_sequence]
          exact ⟨fun same => absurd same ((normalizeScalar_flat floats left).1 _), nofun⟩
      | dict entries =>
          rw [written_scalar, written_dict]
          exact ⟨fun same => absurd same ((normalizeScalar_flat floats left).2 _), nofun⟩
      | set members =>
          rw [written_scalar, written_set]
          exact ⟨fun same => absurd same ((normalizeScalar_flat floats left).2 _), nofun⟩
  | sequence kind items ih =>
      cases right with
      | scalar right =>
          rw [written_scalar, written_sequence]
          exact ⟨fun same => absurd same.symm ((normalizeScalar_flat floats right).1 _), nofun⟩
      | sequence other others =>
          rw [written_sequence, written_sequence, Doc.arr.injEq, written_items_iff ih,
            alike_sequence_iff]
      | dict entries =>
          rw [written_sequence, written_dict]
          exact ⟨nofun, nofun⟩
      | set members =>
          rw [written_sequence, written_set]
          exact ⟨nofun, nofun⟩
  | dict entries ih =>
      cases right with
      | scalar right =>
          rw [written_scalar, written_dict]
          exact ⟨fun same => absurd same.symm ((normalizeScalar_flat floats right).2 _), nofun⟩
      | sequence other others =>
          rw [written_sequence, written_dict]
          exact ⟨nofun, nofun⟩
      | dict others =>
          rw [written_dict, written_dict, Doc.obj.injEq, Doc.sortFields_eq_iff, alike_dict_iff]
          simp only [lookup_written, written_lastEntry_iff ih]
      | set members => rw [eq_comm, written_set_dict_iff, alike_dictSet_iff, alike_setDict_iff]
  | set members ih =>
      cases right with
      | scalar right =>
          rw [written_scalar, written_set]
          exact ⟨fun same => absurd same.symm ((normalizeScalar_flat floats right).2 _), nofun⟩
      | sequence other others =>
          rw [written_sequence, written_set]
          exact ⟨nofun, nofun⟩
      | dict entries => rw [written_set_dict_iff, alike_setDict_iff]
      | set others =>
          rw [written_sets_iff, sortedTexts_eq_iff, written_members_iff ih, alike_set_iff]

/-! Values without booleans, with texts for keys. -/

variable (floats) in
/-- The members of a set and the keys of a dictionary are hashable and differ. -/
inductive Plain : Value φ → Prop where
  | scalar {value : Scalar φ} (number : ∀ truth, value ≠ .bool truth) : Plain (.scalar value)
  | sequence {kind : Sequence} {items : List (Value φ)} (each : ∀ item ∈ items, Plain item) :
      Plain (.sequence kind items)
  | dict {entries : Entries φ} (keys : ∀ entry ∈ entries, ∃ text, entry.1 = .str text)
      (distinct : (entries.map Prod.fst).Nodup) (each : ∀ entry ∈ entries, Plain entry.2) :
      Plain (.dict entries)
  | set {members : List (Value φ)} (hashable : ∀ member ∈ members, member.Hashable)
      (distinct : members.Pairwise (fun first second => valuesEqual floats first second = false))
      (each : ∀ member ∈ members, Plain member) : Plain (.set members)

theorem forall₂_of_mem {α β : Type} {R S : α → β → Prop} {items : List α} {others : List β}
    (related : List.Forall₂ R items others)
    (carries : ∀ item ∈ items, ∀ other ∈ others, R item other → S item other) :
    List.Forall₂ S items others := by
  refine List.forall₂_iff_zip.mpr ⟨related.length_eq, fun pair => ?_⟩
  have inside := List.of_mem_zip pair
  exact carries _ inside.1 _ inside.2 (List.forall₂_zip related pair)

theorem exists_of_forall₂ {α β : Type} {R : α → β → Prop} {items : List α} {others : List β}
    (related : List.Forall₂ R items others) {item : α} (member : item ∈ items) :
    ∃ other ∈ others, R item other := by
  induction related with
  | nil => cases member
  | cons first _ ih =>
      rcases List.mem_cons.mp member with same | later
      · exact ⟨_, List.mem_cons_self, same ▸ first⟩
      · rcases ih later with ⟨other, inside, holds⟩
        exact ⟨other, List.mem_cons_of_mem _ inside, holds⟩

theorem eq_of_alikeScalar {left right : Scalar φ} (alike : AlikeScalar floats left right) :
    left.eq (Number.exactValue floats.toFloatFormat) right = true := by
  cases left <;> cases right <;> simp_all [AlikeScalar, Scalar.eq, Scalar.identity]

theorem alikeScalar_of_eq {left right : Scalar φ} (plain : ∀ truth, left ≠ .bool truth)
    (plain' : ∀ truth, right ≠ .bool truth)
    (equal : left.eq (Number.exactValue floats.toFloatFormat) right = true) :
    AlikeScalar floats left right := by
  cases left <;> cases right <;> simp_all [AlikeScalar, Scalar.eq, Scalar.identity]

/-- Hashable values that are alike are equal: no list is among them. -/
theorem equal_of_alike {left right : Value φ} (alike : Alike floats left right)
    (hashable : left.Hashable) (hashable' : right.Hashable) :
    valuesEqual floats left right = true := by
  induction left using Value.induct generalizing right with
  | scalar left =>
      cases alike with
      | scalar same =>
          rw [valuesEqual, Value.eq]
          exact eq_of_alikeScalar same
  | sequence kind items ih =>
      cases alike with
      | sequence same =>
          cases hashable with
          | tuple each =>
              cases hashable' with
              | tuple each' =>
                  rw [valuesEqual, Value.eq, Bool.and_eq_true, Value.eqItems_iff]
                  exact ⟨by simp, forall₂_of_mem same fun item member other member' held =>
                    ih item member held (each item member) (each' other member')⟩
  | dict entries ih => cases hashable
  | set members ih =>
      cases alike with
      | set same order =>
          cases hashable with
          | set each =>
              cases hashable' with
              | set each' =>
                  rw [valuesEqual, Value.eq, Bool.and_eq_true, Value.eqMembers_iff]
                  refine ⟨by simp [same.length_eq, order.length_eq], fun member inside => ?_⟩
                  rcases exists_of_forall₂ same inside with ⟨other, paired, held⟩
                  have inside' := order.mem_iff.mp paired
                  exact ⟨other, inside', ih member inside held (each member inside)
                    (each' other inside')⟩
      | setDict => cases hashable'

/-- Two sets of as many members, of which each of the first has an alike one in the second,
can be paired off if the first has no two alike members. -/
theorem alike_sets {members others : List (Value φ)} (length : members.length = others.length)
    (distinct : members.Pairwise (fun first second => ¬Alike floats first second))
    (each : ∀ member ∈ members, ∃ other ∈ others, Alike floats member other) :
    Alike floats (.set members) (.set others) := by
  have form (first second : Value φ) : canonicalForm floats first = canonicalForm floats second ↔
      Alike floats first second := (canonicalForm_inj floats).trans (written_eq_iff first second)
  have nodup : (members.map (canonicalForm floats)).Nodup := by
    apply List.pairwise_map.mpr
    exact distinct.imp fun unalike same => unalike ((form _ _).mp same)
  have inside : members.map (canonicalForm floats) ⊆ others.map (canonicalForm floats) := by
    intro text member
    rcases List.mem_map.mp member with ⟨value, held, rfl⟩
    rcases each value held with ⟨other, present, alike⟩
    exact List.mem_map.mpr ⟨other, present, ((form value other).mpr alike).symm⟩
  have order : (members.map (canonicalForm floats)).Perm (others.map (canonicalForm floats)) :=
    (List.subperm_of_subset nodup inside).perm_of_length_le (by simp [length])
  rcases (written_members_iff (fun member _ other => written_eq_iff member other) others).mp order
    with ⟨paired, same, moved⟩
  exact .set same moved

/-- Among entries of different keys, a test that only one key passes finds its entry. -/
theorem find_entry_iff {entries : Entries φ} (distinct : (entries.map Prod.fst).Nodup)
    (key : Scalar φ) {holds : Scalar φ × Value φ → Bool}
    (only : ∀ entry ∈ entries, holds entry = true ↔ entry.1 = key) (value : Value φ) :
    (entries.find? holds).map Prod.snd = some value ↔ (key, value) ∈ entries := by
  constructor
  · intro found
    rcases Option.map_eq_some_iff.mp found with ⟨entry, first, rfl⟩
    have member := List.mem_of_find?_eq_some first
    have named : entry.1 = key := (only entry member).mp (List.find?_some first)
    rwa [← named]
  · intro member
    cases found : entries.find? holds with
    | none =>
        have passes := (only (key, value) member).mpr rfl
        exact absurd passes (by simpa using List.find?_eq_none.mp found _ member)
    | some entry =>
        have inside := List.mem_of_find?_eq_some found
        have named : entry.1 = key := (only entry inside).mp (List.find?_some found)
        have same : entry = (key, value) :=
          List.inj_on_of_nodup_map distinct inside member named
        rw [same, Option.map_some]

section TextKeys

variable {entries : Entries φ} (keys : ∀ entry ∈ entries, ∃ text, entry.1 = .str text)
  (distinct : (entries.map Prod.fst).Nodup)

include keys distinct

theorem lastEntry_iff (text : String) (value : Value φ) :
    lastEntry floats text entries = some value ↔ (.str text, value) ∈ entries := by
  have distinct' : (entries.reverse.map Prod.fst).Nodup := by
    rw [List.map_reverse]
    exact List.nodup_reverse.mpr distinct
  rw [lastEntry, find_entry_iff distinct' (.str text), List.mem_reverse]
  intro entry member
  rcases keys entry (List.mem_reverse.mp member) with ⟨own, named⟩
  simp [named, keyText, eq_comm]

theorem get_text_iff (text : String) (value : Value φ) :
    PyObject.get (Number.exactValue floats.toFloatFormat) entries (.str text) = some value ↔
      (.str text, value) ∈ entries := by
  rw [PyObject.get, find_entry_iff distinct (.str text)]
  intro entry member
  rcases keys entry member with ⟨own, named⟩
  simp [named, Scalar.eq, Scalar.identity, eq_comm]

end TextKeys

/-- Dictionaries with as many entries, of which each in the first has one with an alike value
in the second. -/
theorem alike_dicts {entries others : Entries φ}
    (keys : ∀ entry ∈ entries, ∃ text, entry.1 = .str text)
    (keys' : ∀ entry ∈ others, ∃ text, entry.1 = .str text)
    (distinct : (entries.map Prod.fst).Nodup) (distinct' : (others.map Prod.fst).Nodup)
    (length : entries.length = others.length)
    (each : ∀ entry ∈ entries, ∃ other, (entry.1, other) ∈ others ∧ Alike floats entry.2 other) :
    Alike floats (.dict entries) (.dict others) := by
  have inside : entries.map Prod.fst ⊆ others.map Prod.fst := by
    intro key member
    rcases List.mem_map.mp member with ⟨entry, held, rfl⟩
    rcases each entry held with ⟨other, present, -⟩
    exact List.mem_map.mpr ⟨_, present, rfl⟩
  have order : (entries.map Prod.fst).Perm (others.map Prod.fst) :=
    (List.subperm_of_subset distinct inside).perm_of_length_le (by simp [length])
  refine .dict fun text => ?_
  cases found : lastEntry floats text entries with
  | some value =>
      have member := (lastEntry_iff keys distinct text value).mp found
      rcases each _ member with ⟨other, present, alike⟩
      rw [(lastEntry_iff keys' distinct' text other).mpr present]
      exact .some alike
  | none =>
      cases found' : lastEntry floats text others with
      | none => exact .none
      | some other =>
          have present := (lastEntry_iff keys' distinct' text other).mp found'
          have named : Scalar.str text ∈ others.map Prod.fst := List.mem_map.mpr ⟨_, present, rfl⟩
          rcases List.mem_map.mp (order.mem_iff.mpr named) with ⟨⟨key, value⟩, member, rfl⟩
          rw [(lastEntry_iff keys distinct text value).mpr member] at found
          cases found

/-- Equal values without booleans, with texts for keys, are alike. -/
theorem alike_of_plain {left right : Value φ} (plain : Plain floats left)
    (plain' : Plain floats right) (equal : valuesEqual floats left right = true) :
    Alike floats left right := by
  induction left using Value.induct generalizing right with
  | scalar left =>
      cases right with
      | scalar right =>
          rw [valuesEqual, Value.eq] at equal
          obtain ⟨number⟩ := plain
          obtain ⟨number'⟩ := plain'
          exact .scalar (alikeScalar_of_eq number number' equal)
      | _ => simp [valuesEqual, Value.eq] at equal
  | sequence kind items ih =>
      cases right with
      | sequence other others =>
          rw [valuesEqual, Value.eq, Bool.and_eq_true, Value.eqItems_iff] at equal
          obtain ⟨-, same⟩ := equal
          obtain _ | each := plain
          obtain _ | each' := plain'
          apply Alike.sequence
          apply forall₂_of_mem same
          intro item member other member' held
          exact ih item member (each item member) (each' other member') held
      | _ => simp [valuesEqual, Value.eq] at equal
  | dict entries ih =>
      cases right with
      | dict others =>
          rw [valuesEqual, Value.eq, Bool.and_eq_true, Value.eqEntries_iff] at equal
          obtain ⟨sized, held⟩ := equal
          obtain _ | _ | ⟨keys, distinct, each⟩ := plain
          obtain _ | _ | ⟨keys', distinct', each'⟩ := plain'
          apply alike_dicts keys keys' distinct distinct' (by simpa using sized)
          intro entry member
          obtain ⟨other, found, same⟩ := held entry member
          obtain ⟨text, named⟩ := keys entry member
          rw [named, get_text_iff keys' distinct'] at found
          exact ⟨other, named ▸ found, ih entry member (each entry member) (each' _ found) same⟩
      | _ => simp [valuesEqual, Value.eq] at equal
  | set members ih =>
      cases right with
      | set others =>
          rw [valuesEqual, Value.eq, Bool.and_eq_true, Value.eqMembers_iff] at equal
          obtain ⟨sized, held⟩ := equal
          obtain _ | _ | _ | ⟨hashable, distinct, each⟩ := plain
          obtain _ | _ | _ | ⟨hashable', distinct', each'⟩ := plain'
          apply alike_sets (by simpa using sized)
          · refine distinct.imp_of_mem fun {first second} member member' unequal alike => ?_
            rw [equal_of_alike alike (hashable _ member) (hashable _ member')] at unequal
            cases unequal
          · intro member inside
            obtain ⟨other, present, same⟩ := held member inside
            exact ⟨other, present, ih member inside (each member inside) (each' other present) same⟩
      | _ => simp [valuesEqual, Value.eq] at equal

/-- The values for which equality is enough. -/
theorem canonicalForm_eq_of_plain {left right : Value φ} (plain : Plain floats left)
    (plain' : Plain floats right) (equal : valuesEqual floats left right = true) :
    canonicalForm floats left = canonicalForm floats right :=
  (canonicalForm_inj floats).mpr ((written_eq_iff left right).mpr
    (alike_of_plain plain plain' equal))

theorem canonical_form_agrees_iff (floats : FiniteFloats φ) (left right : Value φ) :
    (valuesEqual floats left right = true →
        canonicalForm floats left = canonicalForm floats right) ↔
      valuesEqual floats left right = false ∨ Alike floats left right := by
  rw [canonicalForm_inj, written_eq_iff]
  cases valuesEqual floats left right with
  | false => simp
  | true => simp

namespace Sample

/-- Floats without a fraction. -/
def wholeFloats : FiniteFloats Int where
  toFloatFormat := PyNumber.wholeFormat
  value_cancel _ _ same _ := Int.cast_injective same

def numberedFields : Value Int :=
  .dict [(.number (.int 1), .str "a"), (.str "1", .str "b")]

def reorderedFields : Value Int :=
  .dict [(.str "1", .str "b"), (.number (.int 1), .str "a")]

end Sample

/-- `True == 1`, and a dictionary equals itself in another order. -/
theorem canonical_form_disagrees :
    (valuesEqual Sample.wholeFloats (.bool true) (.int 1) = true ∧
      canonicalForm Sample.wholeFloats (.bool true) ≠ canonicalForm Sample.wholeFloats (.int 1)) ∧
    (valuesEqual Sample.wholeFloats Sample.numberedFields Sample.reorderedFields = true ∧
      canonicalForm Sample.wholeFloats Sample.numberedFields ≠
        canonicalForm Sample.wholeFloats Sample.reorderedFields) := by
  decide +kernel

end Gyza.CanonicalForm
