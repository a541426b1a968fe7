import Gyza.Lib.PyNumber

/-! Python data compared by `==`, with scalars as keys of dictionaries.

What a number is worth is left open: `worth` gives it in some type, and equal worth is
all that comparing, hashing and looking up a number can see. -/

namespace Gyza.PyObject

open PyNumber (Number)

inductive Scalar (φ : Type) where
  | none
  | bool (value : Bool)
  | number (value : Number φ)
  | str (text : String)
  deriving DecidableEq

inductive Sequence where
  | list
  | tuple
  deriving DecidableEq

/-- A dictionary lists its entries as they were inserted, a set its members as it is
iterated. -/
inductive Value (φ : Type) where
  | scalar (value : Scalar φ)
  | sequence (kind : Sequence) (items : List (Value φ))
  | dict (entries : List (Scalar φ × Value φ))
  | set (members : List (Value φ))

abbrev Entries (φ : Type) := List (Scalar φ × Value φ)

namespace Value

variable {φ : Type}

abbrev none : Value φ := .scalar .none

abbrev str (text : String) : Value φ := .scalar (.str text)

abbrev int (value : Int) : Value φ := .scalar (.number (.int value))

abbrev bool (value : Bool) : Value φ := .scalar (.bool value)

/-- Induction over a value and the values in it. -/
theorem induct {motive : Value φ → Prop} (scalar : ∀ value, motive (.scalar value))
    (sequence : ∀ kind items, (∀ item ∈ items, motive item) → motive (.sequence kind items))
    (dict : ∀ entries, (∀ entry ∈ entries, motive entry.2) → motive (.dict entries))
    (set : ∀ members, (∀ member ∈ members, motive member) → motive (.set members))
    (value : Value φ) : motive value := by
  match value with
  | .scalar value => exact scalar value
  | .sequence kind items =>
      exact sequence kind items fun item _ => induct scalar sequence dict set item
  | .dict entries =>
      refine dict entries fun entry member => ?_
      have smaller : sizeOf entry.2 < sizeOf (Value.dict entries) := by
        have inside := List.sizeOf_lt_of_mem member
        have field : sizeOf entry = 1 + sizeOf entry.1 + sizeOf entry.2 := by cases entry; rfl
        simp only [Value.dict.sizeOf_spec]
        omega
      exact induct scalar sequence dict set entry.2
  | .set members =>
      exact set members fun member _ => induct scalar sequence dict set member
termination_by sizeOf value
decreasing_by
  · have inside := List.sizeOf_lt_of_mem ‹_›
    simp only [Value.sequence.sizeOf_spec]
    omega
  · exact smaller
  · have inside := List.sizeOf_lt_of_mem ‹_›
    simp only [Value.set.sizeOf_spec]
    omega

end Value

section Equality

variable {φ κ : Type} [DecidableEq κ] (worth : Number φ → κ)

/-- What comparing and hashing see of a scalar: a boolean is the number 0 or 1. -/
def Scalar.identity : Scalar φ → Option (String ⊕ κ)
  | .none => Option.none
  | .bool value => some (.inr (worth (.int value.toNat)))
  | .number value => some (.inr (worth value))
  | .str text => some (.inl text)

/-- `left == right`. -/
def Scalar.eq (left right : Scalar φ) : Bool := left.identity worth = right.identity worth

/-- `d.get(key)`. -/
def get (entries : Entries φ) (key : Scalar φ) : Option (Value φ) :=
  (entries.find? (fun entry => key.eq worth entry.1)).map Prod.snd

namespace Value

mutual
/-- `left == right`. A list is never a tuple, and dictionaries and sets compare without
regard to their order. -/
def eq : Value φ → Value φ → Bool
  | .scalar left, .scalar right => left.eq worth right
  | .sequence kind items, .sequence other others => kind = other && eqItems items others
  | .dict entries, .dict others =>
      entries.length = others.length && eqEntries entries others
  | .set members, .set others => members.length = others.length && eqMembers members others
  | _, _ => false
def eqItems : List (Value φ) → List (Value φ) → Bool
  | [], [] => true
  | item :: items, other :: others => eq item other && eqItems items others
  | _, _ => false
/-- Every entry is found with an equal value. -/
def eqEntries : Entries φ → Entries φ → Bool
  | [], _ => true
  | (key, value) :: entries, others =>
      (match get worth others key with
        | some other => eq value other
        | Option.none => false) && eqEntries entries others
/-- Every member is found. -/
def eqMembers : List (Value φ) → List (Value φ) → Bool
  | [], _ => true
  | member :: members, others => others.any (eq member) && eqMembers members others
end

theorem eqItems_iff (items others : List (Value φ)) :
    eqItems worth items others = true ↔
      List.Forall₂ (fun item other => eq worth item other = true) items others := by
  induction items generalizing others with
  | nil => cases others <;> simp [eqItems]
  | cons item rest ih =>
      cases others with
      | nil => simp [eqItems]
      | cons other others => rw [eqItems, Bool.and_eq_true, ih, List.forall₂_cons]

theorem eqEntries_iff (entries others : Entries φ) :
    eqEntries worth entries others = true ↔ ∀ entry ∈ entries, ∃ other,
      get worth others entry.1 = some other ∧ eq worth entry.2 other = true := by
  induction entries with
  | nil => simp [eqEntries]
  | cons entry rest ih =>
      obtain ⟨key, value⟩ := entry
      rw [eqEntries, Bool.and_eq_true, ih, List.forall_mem_cons]
      cases get worth others key with
      | none => simp
      | some other => simp

theorem eqMembers_iff (members others : List (Value φ)) :
    eqMembers worth members others = true ↔
      ∀ member ∈ members, ∃ other ∈ others, eq worth member other = true := by
  induction members with
  | nil => simp [eqMembers]
  | cons member rest ih =>
      rw [eqMembers, Bool.and_eq_true, ih, List.forall_mem_cons, List.any_eq_true]

/-- What a set or a key can hold: scalars, tuples and frozen sets of these. -/
inductive Hashable : Value φ → Prop where
  | scalar (value : Scalar φ) : Hashable (.scalar value)
  | tuple {items : List (Value φ)} (each : ∀ item ∈ items, Hashable item) :
      Hashable (.sequence .tuple items)
  | set {members : List (Value φ)} (each : ∀ member ∈ members, Hashable member) :
      Hashable (.set members)

end Value

end Equality

end Gyza.PyObject
