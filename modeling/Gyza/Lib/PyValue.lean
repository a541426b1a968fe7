import Mathlib.Tactic

/-! Untyped Python data, as `json.loads` and literals build it. -/

namespace Gyza.PyValue

inductive Collection where
  | list
  | tuple
  | set
  | frozenset
  deriving DecidableEq

/-- Dictionaries have text keys, each at most once. -/
inductive Value where
  | none
  | bool (value : Bool)
  | int (value : Int)
  | float (value : Float)
  | str (value : String)
  | collection (kind : Collection) (items : List Value)
  | dict (fields : List (String × Value))

abbrev Fields := List (String × Value)

/-- `d.get(key, default)`. -/
def dictGet (fields : Fields) (key : String) (default : Value) : Value :=
  (fields.lookup key).getD default

/-- `d.get(key, {}) if isinstance(d.get(key), dict) else {}`. -/
def subDict (fields : Fields) (key : String) : Fields :=
  match fields.lookup key with
  | some (.dict inner) => inner
  | _ => []

namespace Value

def emptyList : Value := .collection .list []

/-- The items of a dictionary; a value that is none has none. -/
def fields : Value → Fields
  | .dict fields => fields
  | _ => []

/-- `bool(value)`. -/
def truthy : Value → Bool
  | .none => false
  | .bool value => value
  | .int value => value ≠ 0
  | .float value => value != 0
  | .str value => value ≠ ""
  | .collection _ items => !items.isEmpty
  | .dict fields => !fields.isEmpty

/-- What `for item in value` visits: the items of a collection, the keys of a
dictionary, the characters of a text. `none` is a `TypeError`. -/
def iterate : Value → Option (List Value)
  | .collection _ items => some items
  | .dict fields => some (fields.map (fun field => .str field.1))
  | .str text => some (text.toList.map (fun c => .str (String.singleton c)))
  | _ => Option.none

/-- `len(value)`. `none` is a `TypeError`. -/
def len : Value → Option Nat
  | .collection _ items => some items.length
  | .dict fields => some fields.length
  | .str text => some text.length
  | _ => Option.none

/-- `isinstance(value, (list, tuple, set, frozenset))`. -/
def isCollection : Value → Bool
  | .collection _ _ => true
  | _ => false

/-- `value if isinstance(value, int) and value > 0 else None`; `True` is the integer 1. -/
def positiveInt : Value → Option Int
  | .int value => if 0 < value then some value else Option.none
  | .bool true => some 1
  | _ => Option.none

theorem positiveInt_pos {value : Value} {count : Int} (given : value.positiveInt = some count) :
    0 < count := by
  unfold positiveInt at given
  split at given
  · split_ifs at given with positive
    cases given
    exact positive
  · cases given
    decide
  · cases given

end Value

end Gyza.PyValue
