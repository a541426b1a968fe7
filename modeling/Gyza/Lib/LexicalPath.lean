import Mathlib.Data.List.DropRight
import Mathlib.Tactic

/-! Paths resolved by their text alone.

Repeated slashes and `.` name nothing, `..` goes to the parent, and the parent of the root
is the root. Nothing is looked up: a path leads where its names say. -/

namespace Gyza.LexicalPath

def namesOf (chars : List Char) : List String :=
  ((chars.splitOn '/').map String.ofList).filter fun name => name ≠ "" && name ≠ "."

def names (text : String) : List String := namesOf text.toList

/-- Where names lead from a place. -/
def walk : List String → List String → List String
  | place, [] => place
  | place, name :: rest =>
      if name = ".." then walk place.dropLast rest else walk (place ++ [name]) rest

def resolve (text : String) : List String := walk [] (names text)

def isAbsolute (text : String) : Prop := text.toList.head? = some '/'

/-- A relative path is known to lie below the root only. -/
def Beneath (store path : String) : Prop :=
  (isAbsolute path ∨ resolve store = []) ∧ resolve store <+: resolve path

/-- Whether names that start at a height over some place leave it for its parent. -/
def climbs : Nat → List String → Bool
  | _, [] => false
  | height, name :: rest =>
      if name = ".." then height = 0 || climbs (height - 1) rest else climbs (height + 1) rest

/-- `text.rstrip("/")`. -/
def rstrip (text : String) : String := String.ofList (text.toList.rdropWhile (· = '/'))

theorem walk_append (place front back : List String) :
    walk place (front ++ back) = walk (walk place front) back := by
  induction front generalizing place with
  | nil => rfl
  | cons name rest ih =>
      rw [List.cons_append, walk, walk, ih, ih]
      split_ifs
      · rfl
      · rfl

/-- A walk that does not climb ends at or below its start. -/
theorem prefix_walk {base below rest : List String} (stays : climbs below.length rest = false) :
    base <+: walk (base ++ below) rest := by
  induction rest generalizing below with
  | nil => exact List.prefix_append base below
  | cons name rest ih =>
      rw [climbs] at stays
      rw [walk]
      split_ifs at stays ⊢ with parent
      · rw [Bool.or_eq_false_iff, decide_eq_false_iff_not] at stays
        have inner : below ≠ [] := fun empty => stays.1 (by rw [empty]; rfl)
        rw [List.dropLast_append_of_ne_nil inner]
        exact ih (by rw [List.length_dropLast]; exact stays.2)
      · rw [List.append_assoc]
        exact ih (by rw [List.length_append]; exact stays)

theorem prefix_walk_start {base rest : List String} (stays : climbs 0 rest = false) :
    base <+: walk base rest := by
  have below := @prefix_walk base [] rest stays
  rwa [List.append_nil] at below

theorem namesOf_slash (front back : List Char) :
    namesOf (front ++ '/' :: back) = namesOf front ++ namesOf back := by
  rw [namesOf, List.splitOn_append_cons_self, List.map_append, List.filter_append]
  rfl

theorem namesOf_nil : namesOf [] = [] := by decide

theorem namesOf_slashes (chars slashes : List Char) (only : ∀ c ∈ slashes, c = '/') :
    namesOf (chars ++ slashes) = namesOf chars := by
  induction slashes generalizing chars with
  | nil => rw [List.append_nil]
  | cons c rest ih =>
      have slash : c = '/' := only c List.mem_cons_self
      have empty := ih [] fun other member => only other (List.mem_cons_of_mem c member)
      rw [List.nil_append, namesOf_nil] at empty
      rw [slash, namesOf_slash, empty, List.append_nil]

/-- Trailing slashes name nothing. -/
theorem names_rstrip (text : String) : names (rstrip text) = names text := by
  have split := List.rdropWhile_append_rtakeWhile (p := (· = '/')) (l := text.toList)
  have slashes : ∀ c ∈ text.toList.rtakeWhile (· = '/'), c = '/' := by
    intro c member
    simpa only [decide_eq_true_eq] using List.mem_rtakeWhile_imp member
  calc
    names (rstrip text) = namesOf (text.toList.rdropWhile (· = '/')) := by
      rw [names, rstrip, String.toList_ofList]
    _ = namesOf (text.toList.rdropWhile (· = '/') ++ text.toList.rtakeWhile (· = '/')) :=
      (namesOf_slashes _ _ slashes).symm
    _ = names text := by rw [split, names]

theorem resolve_rstrip (text : String) : resolve (rstrip text) = resolve text := by
  rw [resolve, names_rstrip, resolve]

/-- What remains of a stripped text is the front of it. -/
theorem rstrip_prefix (text : String) : (rstrip text).toList <+: text.toList := by
  rw [rstrip, String.toList_ofList]
  exact List.rdropWhile_prefix _ _

theorem head_rstrip {text : String} (left : rstrip text ≠ "") :
    (rstrip text).toList.head? = text.toList.head? := by
  obtain ⟨rest, split⟩ := rstrip_prefix text
  rw [← split]
  cases chars : (rstrip text).toList with
  | nil => exact absurd (String.toList_eq_nil_iff.mp chars) left
  | cons c front => rfl

theorem resolve_slashes {text : String} (nothing : rstrip text = "") : resolve text = [] := by
  rw [← resolve_rstrip, nothing]
  rfl

end Gyza.LexicalPath
