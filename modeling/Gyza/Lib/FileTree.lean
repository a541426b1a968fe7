import Gyza.Lib.Dict

/-! A tree of directories and files, without links.

A location is the list of names from the root. Looking up a path visits its names
one after the other, as the operating system does: each step starts in an existing
directory, and `..` goes to the parent, which for the root is the root itself. -/

namespace Gyza

abbrev Location := List String

inductive Node where
  | file (data : List UInt8) (mtime : Int)
  | dir
  deriving DecidableEq

/-- Every node but the root is listed, and lies in a directory. -/
structure FileTree where
  nodes : Dict Location Node
  rooted : ∀ place node, nodes.lookup place = some node →
    place ≠ [] ∧ (place.dropLast = [] ∨ nodes.lookup place.dropLast = some .dir)

inductive PathError where
  | notFound
  | notADirectory
  | isADirectory
  | fileExists
  | embeddedNull
  deriving DecidableEq

namespace FileTree

variable (tree : FileTree)

theorem rooted_empty (place : Location) (node : Node)
    (listed : (Dict.empty : Dict Location Node).lookup place = some node) :
    place ≠ [] ∧ (place.dropLast = [] ∨
      (Dict.empty : Dict Location Node).lookup place.dropLast = some .dir) := by
  simp [Dict.lookup, Dict.empty, Table.get?, Table.empty] at listed

/-- The root alone. -/
def empty : FileTree where
  nodes := Dict.empty
  rooted := rooted_empty

def node? (place : Location) : Option Node :=
  if place = [] then some .dir else tree.nodes.lookup place

/-- Where a path leads from a location. The last name need not exist. -/
def walk : Location → List String → Except PathError Location
  | place, [] => .ok place
  | place, name :: rest =>
      match tree.node? place with
      | none => .error .notFound
      | some (.file _ _) => .error .notADirectory
      | some .dir =>
          if name = ".." then walk place.dropLast rest else walk (place ++ [name]) rest

def hasNull (names : List String) : Bool := names.any fun name => name.toList.contains '\x00'

theorem hasNull_append (front back : List String) :
    hasNull (front ++ back) = (hasNull front || hasNull back) := List.any_append

/-- `stat`: where a path leads, and what is there. -/
def find (names : List String) : Except PathError (Location × Node) :=
  if hasNull names then .error .embeddedNull
  else
    match walk tree [] names with
    | .error error => .error error
    | .ok place =>
        match tree.node? place with
        | none => .error .notFound
        | some node => .ok (place, node)

/-- A node can be put here: in a directory, and never in place of one. -/
def Takes (place : Location) (node : Node) : Prop :=
  place ≠ [] ∧ tree.node? place.dropLast = some .dir ∧ (tree.node? place = some .dir → node = .dir)

instance (place : Location) (node : Node) : Decidable (tree.Takes place node) :=
  inferInstanceAs (Decidable (_ ∧ _ ∧ _))

theorem node?_of_ne {place : Location} (inside : place ≠ []) :
    tree.node? place = tree.nodes.lookup place := if_neg inside

theorem dropLast_ne_self {place : Location} (inside : place ≠ []) : place.dropLast ≠ place := by
  intro same
  have length := congrArg List.length same
  have positive := List.length_pos_iff.mpr inside
  rw [List.length_dropLast] at length
  omega

/-- The parent of a node, below the root, is a listed directory. -/
theorem parent_of_node {place : Location} {node : Node}
    (listed : tree.nodes.lookup place = some node) (inner : place.dropLast ≠ []) :
    tree.nodes.lookup place.dropLast = some .dir :=
  (tree.rooted place node listed).2.resolve_left inner

theorem rooted_put {place : Location} {node : Node} (takes : tree.Takes place node)
    (other : Location) (found : Node)
    (listed : (tree.nodes.set place node).lookup other = some found) :
    other ≠ [] ∧ (other.dropLast = [] ∨
      (tree.nodes.set place node).lookup other.dropLast = some .dir) := by
  obtain ⟨inside, parent, kept⟩ := takes
  rw [Dict.lookup_set] at listed
  split_ifs at listed with same
  · subst same
    refine ⟨inside, or_iff_not_imp_left.mpr fun inner => ?_⟩
    rw [Dict.lookup_set, if_neg (dropLast_ne_self inside).symm, ← node?_of_ne tree inner]
    exact parent
  · obtain ⟨inside', _⟩ := tree.rooted other found listed
    refine ⟨inside', or_iff_not_imp_left.mpr fun inner => ?_⟩
    have above := tree.parent_of_node listed inner
    rw [Dict.lookup_set]
    split_ifs with under
    · have dir : tree.node? place = some .dir := by rw [node?_of_ne tree inside, under, above]
      rw [kept dir]
    · exact above

/-- A node put where it cannot be put changes nothing. -/
def put (place : Location) (node : Node) : FileTree :=
  if takes : tree.Takes place node then
    { nodes := tree.nodes.set place node, rooted := tree.rooted_put takes }
  else tree

def isFile (place : Location) : Bool :=
  match tree.nodes.lookup place with
  | some (.file _ _) => true
  | _ => false

theorem isFile_iff (place : Location) : tree.isFile place = true ↔
    ∃ data mtime, tree.nodes.lookup place = some (.file data mtime) := by
  unfold isFile
  split
  · rename_i data mtime held
    simp [held]
  · rename_i other
    simp only [Bool.false_eq_true, false_iff]
    rintro ⟨data, mtime, held⟩
    exact other data mtime held

theorem rooted_unlink {place : Location} (isFile : tree.isFile place = true) (other : Location) (found : Node)
    (listed : (tree.nodes.pop place).lookup other = some found) :
    other ≠ [] ∧ (other.dropLast = [] ∨ (tree.nodes.pop place).lookup other.dropLast = some .dir) := by
  rw [Dict.lookup_pop] at listed
  split_ifs at listed with same
  refine ⟨(tree.rooted other found listed).1, or_iff_not_imp_left.mpr fun inner => ?_⟩
  have above := tree.parent_of_node listed inner
  rw [Dict.lookup_pop, if_neg ?_, above]
  rintro rfl
  obtain ⟨data, mtime, held⟩ := (tree.isFile_iff _).mp isFile
  rw [above] at held
  cases held

/-- Only a file is unlinked. -/
def unlink (place : Location) : FileTree :=
  if isFile : tree.isFile place = true then
    { nodes := tree.nodes.pop place, rooted := tree.rooted_unlink isFile }
  else tree

/-- `mkdir` of every name that is missing, from a location on. -/
def makeDirs : FileTree → Location → List String → Except PathError FileTree
  | tree, _, [] => .ok tree
  | tree, place, name :: rest =>
      match tree.node? (place ++ [name]) with
      | some .dir => makeDirs tree (place ++ [name]) rest
      | some (.file _ _) => .error (if rest = [] then .fileExists else .notADirectory)
      | none => makeDirs (tree.put (place ++ [name]) .dir) (place ++ [name]) rest

/-- Strictly below a location. -/
def isBelow (base place : Location) : Bool := base.isPrefixOf place && base ≠ place

/-- `rglob("*")`: everything strictly below a location. -/
def below (base : Location) : List (Location × Node) :=
  tree.nodes.rows.filter fun row => isBelow base row.1

/-! What each operation leaves. -/

variable {tree}

theorem lookup_put {place : Location} {node : Node} (takes : tree.Takes place node)
    (other : Location) : (tree.put place node).nodes.lookup other =
      if place = other then some node else tree.nodes.lookup other := by
  rw [put, dif_pos takes]
  exact Dict.lookup_set _ _ _ _

theorem node?_put {place : Location} {node : Node} (takes : tree.Takes place node)
    (other : Location) :
    (tree.put place node).node? other = if place = other then some node else tree.node? other := by
  unfold node?
  split_ifs with root same same
  · exact absurd (same.trans root) takes.1
  · rfl
  · rw [lookup_put takes, if_pos same]
  · rw [lookup_put takes, if_neg same]

theorem put_of_not_takes {place : Location} {node : Node} (refused : ¬tree.Takes place node) :
    tree.put place node = tree := dif_neg refused

theorem node?_put_of_ne {place other : Location} (apart : place ≠ other) (node : Node) :
    (tree.put place node).node? other = tree.node? other := by
  by_cases takes : tree.Takes place node
  · rw [node?_put takes, if_neg apart]
  · rw [put_of_not_takes takes]

theorem lookup_unlink {place : Location} (isFile : tree.isFile place = true) (other : Location) :
    (tree.unlink place).nodes.lookup other =
      if place = other then none else tree.nodes.lookup other := by
  rw [unlink, dif_pos isFile]
  exact Dict.lookup_pop _ _ _

theorem isFile_of_node {place : Location} {data : List UInt8} {mtime : Int}
    (held : tree.node? place = some (.file data mtime)) : tree.isFile place = true := by
  by_cases root : place = []
  · rw [node?, if_pos root] at held
    cases held
  · rw [node?_of_ne tree root] at held
    exact (tree.isFile_iff place).mpr ⟨data, mtime, held⟩

theorem isFile_iff_node {place : Location} :
    tree.isFile place = true ↔ ∃ data mtime, tree.node? place = some (.file data mtime) := by
  constructor
  · intro isFile
    obtain ⟨data, mtime, held⟩ := (tree.isFile_iff place).mp isFile
    exact ⟨data, mtime, by rw [node?_of_ne tree (tree.rooted place _ held).1, held]⟩
  · rintro ⟨data, mtime, held⟩
    exact isFile_of_node held

theorem ne_nil_of_isFile {place : Location} (isFile : tree.isFile place = true) : place ≠ [] := by
  obtain ⟨data, mtime, held⟩ := (tree.isFile_iff place).mp isFile
  exact (tree.rooted place _ held).1

theorem node?_unlink {place : Location} (isFile : tree.isFile place = true) (other : Location) :
    (tree.unlink place).node? other = if place = other then none else tree.node? other := by
  unfold node?
  split_ifs with root same same
  · exact absurd (same.trans root) (ne_nil_of_isFile isFile)
  · rfl
  · rw [lookup_unlink isFile, if_pos same]
  · rw [lookup_unlink isFile, if_neg same]

/-- Without `..` a path leads nowhere but to its own names. -/
theorem walk_plain {names : List String} (plain : ".." ∉ names) {start place : Location}
    (walked : tree.walk start names = .ok place) : place = start ++ names := by
  induction names generalizing start with
  | nil =>
      cases walked
      exact (List.append_nil _).symm
  | cons name rest ih =>
      rw [List.mem_cons, not_or] at plain
      unfold walk at walked
      split at walked
      · cases walked
      · cases walked
      · rw [if_neg (Ne.symm plain.1)] at walked
        rw [ih plain.2 walked, List.append_assoc, List.singleton_append]

theorem find_ok_iff {names : List String} {place : Location} {node : Node} :
    tree.find names = .ok (place, node) ↔
      hasNull names = false ∧
        tree.walk [] names = .ok place ∧ tree.node? place = some node := by
  unfold find
  by_cases null : hasNull names = true
  · rw [if_pos null]
    simp [null]
  · have clean : hasNull names = false := by simpa using null
    rw [if_neg null]
    cases walked : tree.walk [] names with
    | error error => simp
    | ok reached =>
        dsimp only
        cases held : tree.node? reached with
        | none =>
            constructor
            · intro found
              cases found
            · rintro ⟨-, same, there⟩
              cases same
              rw [held] at there
              cases there
        | some found =>
            constructor
            · intro same
              cases same
              exact ⟨clean, rfl, held⟩
            · rintro ⟨-, same, there⟩
              cases same
              rw [held] at there
              cases there
              rfl

/-- A path without `..` is found where its names say. -/
theorem find_plain {names : List String} (plain : ".." ∉ names) {place : Location} {node : Node}
    (found : tree.find names = .ok (place, node)) : place = names := by
  have walked := (find_ok_iff.mp found).2.1
  rw [walk_plain plain walked, List.nil_append]

theorem isBelow_iff {base place : Location} :
    isBelow base place = true ↔ ∃ rest, rest ≠ [] ∧ place = base ++ rest := by
  rw [isBelow, Bool.and_eq_true, List.isPrefixOf_iff_prefix]
  constructor
  · rintro ⟨⟨rest, rfl⟩, apart⟩
    refine ⟨rest, ?_, rfl⟩
    rintro rfl
    simp at apart
  · rintro ⟨rest, inner, rfl⟩
    exact ⟨List.prefix_append _ _, by simpa using inner⟩

/-- Every ancestor of a node is a directory. -/
theorem node?_prefix (front back : Location) (inner : back ≠ []) {node : Node}
    (held : tree.node? (front ++ back) = some node) : tree.node? front = some .dir := by
  induction back using List.reverseRecOn generalizing node with
  | nil => exact absurd rfl inner
  | append_singleton rest last ih =>
      have inside : front ++ (rest ++ [last]) ≠ [] := by simp
      have parent : (front ++ (rest ++ [last])).dropLast = front ++ rest := by
        rw [← List.append_assoc, List.dropLast_concat]
      rw [node?_of_ne tree inside] at held
      have above : tree.node? (front ++ rest) = some .dir := by
        unfold node?
        split_ifs with root
        · rfl
        · rw [← parent]
          exact tree.parent_of_node held (by rw [parent]; exact root)
      by_cases direct : rest = []
      · rw [direct, List.append_nil] at above
        exact above
      · exact ih direct above

/-- What exists is found under its own names. -/
theorem walk_of_node {front back : Location} (plain : ".." ∉ back)
    (dirs : ∀ part rest, back = part ++ rest → rest ≠ [] → tree.node? (front ++ part) = some .dir) :
    tree.walk front back = .ok (front ++ back) := by
  induction back generalizing front with
  | nil => simp [walk]
  | cons name rest ih =>
      rw [List.mem_cons, not_or] at plain
      have here := dirs [] (name :: rest) rfl (List.cons_ne_nil _ _)
      rw [List.append_nil] at here
      unfold walk
      simp only [here, if_neg (Ne.symm plain.1)]
      rw [ih plain.2, List.append_assoc, List.singleton_append]
      intro part tail split inner
      rw [List.append_assoc, List.singleton_append]
      exact dirs (name :: part) tail (by rw [split, List.cons_append]) inner

theorem find_of_node {names : Location} (plain : ".." ∉ names)
    (clean : hasNull names = false) {node : Node}
    (held : tree.node? names = some node) : tree.find names = .ok (names, node) := by
  refine find_ok_iff.mpr ⟨clean, ?_, held⟩
  rw [walk_of_node plain, List.nil_append]
  intro part rest split inner
  rw [List.nil_append]
  exact node?_prefix part rest inner (split ▸ held)

theorem takes_missing {place : Location} {name : String} {node : Node}
    (parent : tree.node? place = some .dir) (missing : tree.node? (place ++ [name]) = none) :
    tree.Takes (place ++ [name]) node := by
  refine ⟨by simp, ?_, ?_⟩
  · rw [List.dropLast_concat]
    exact parent
  · intro held
    rw [missing] at held
    cases held

/-- Making directories adds directories, up to the last of the names. -/
theorem node?_makeDirs {names : List String} {start : Location} {made : FileTree}
    (parent : tree.node? start = some .dir) (done : makeDirs tree start names = .ok made) :
    made.node? (start ++ names) = some .dir ∧ ∀ other, made.node? other = tree.node? other ∨
      other <+: start ++ names ∧ tree.node? other = none ∧ made.node? other = some .dir := by
  induction names generalizing tree start with
  | nil =>
      cases done
      exact ⟨by rw [List.append_nil]; exact parent, fun other => Or.inl rfl⟩
  | cons name rest ih =>
      unfold makeDirs at done
      rw [List.append_cons]
      split at done
      · rename_i here
        exact ih here done
      · cases done
      · rename_i missing
        have takes : tree.Takes (start ++ [name]) .dir := takes_missing parent missing
        have here : (tree.put (start ++ [name]) .dir).node? (start ++ [name]) = some .dir := by
          rw [node?_put takes, if_pos rfl]
        obtain ⟨last, others⟩ := ih here done
        refine ⟨last, fun other => ?_⟩
        rcases others other with same | ⟨within, before, after⟩
        · rw [node?_put takes] at same
          split_ifs at same with place
          · exact Or.inr ⟨place ▸ List.prefix_append _ _, place ▸ missing, same⟩
          · exact Or.inl same
        · rw [node?_put takes] at before
          split_ifs at before with place
          exact Or.inr ⟨within, before, after⟩

/-! Sums over the nodes. -/

def total (weight : Location → Node → Int) (tree : FileTree) : Int :=
  (tree.nodes.rows.map fun row => weight row.1 row.2).sum

variable (weight : Location → Node → Int)

theorem total_put {place : Location} {node : Node} (takes : tree.Takes place node) :
    total weight (tree.put place node) =
      total weight tree - ((tree.nodes.lookup place).map (weight place)).getD 0 +
        weight place node := by
  rw [put, dif_pos takes]
  exact Dict.sum_rows_set _ weight place node

/-- A node that weighs nothing, where nothing weighs anything, changes no sum. -/
theorem total_put_light {place : Location} (light : ∀ node, weight place node = 0) (node : Node) :
    total weight (tree.put place node) = total weight tree := by
  by_cases takes : tree.Takes place node
  · rw [total_put weight takes, light]
    cases tree.nodes.lookup place with
    | none => simp
    | some old => simp [light]
  · rw [put_of_not_takes takes]

theorem total_unlink {place : Location} (isFile : tree.isFile place = true) :
    total weight (tree.unlink place) =
      total weight tree - ((tree.nodes.lookup place).map (weight place)).getD 0 := by
  rw [unlink, dif_pos isFile]
  exact Dict.sum_rows_pop _ weight place

/-- Directories that weigh nothing change no sum. -/
theorem total_makeDirs (light : ∀ place, weight place .dir = 0) {names : List String}
    {start : Location} {made : FileTree} (parent : tree.node? start = some .dir)
    (done : makeDirs tree start names = .ok made) : total weight made = total weight tree := by
  induction names generalizing tree start with
  | nil =>
      cases done
      rfl
  | cons name rest ih =>
      unfold makeDirs at done
      split at done
      · rename_i here
        exact ih here done
      · cases done
      · rename_i missing
        have takes : tree.Takes (start ++ [name]) .dir := takes_missing parent missing
        have here : (tree.put (start ++ [name]) .dir).node? (start ++ [name]) = some .dir := by
          rw [node?_put takes, if_pos rfl]
        have unlisted : tree.nodes.lookup (start ++ [name]) = none := by
          rw [← node?_of_ne tree (by simp)]
          exact missing
        rw [ih here done, total_put weight takes, unlisted, light]
        simp

end FileTree

end Gyza
