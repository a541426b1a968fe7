import Gyza.Crypto
import Gyza.Lib.FileTree

/-! The content-addressed store of `gyza/network/artifact_store.py`: how a hash becomes a
path, and what its lookups do to the file system. -/

namespace Gyza

open Hex (Bytes)

/-! `pathlib`: empty components and `.` are dropped, `..` is kept. -/

def pathParts (text : String) : List String :=
  ((text.toList.splitOn '/').map String.ofList).filter fun part => part ≠ "" && part ≠ "."

/-- `path / text`; an absolute right operand replaces the left. -/
def joinPath (path : List String) (text : String) : List String :=
  if text.toList.head? = some '/' then pathParts text else path ++ pathParts text

/-- `base` is the absolute location of the store's directory. -/
structure ArtifactStore where
  base : Location
  maxBytes : Option Int
  evictWhenFull : Bool
  resolved : ".." ∉ base
  clean : FileTree.hasNull base = false

inductive Access where
  | stat
  | read
  | delete
  deriving DecidableEq

/-- What a call returns or raises, the file system it leaves, and what it touched. -/
structure StoreEffect (α : Type) where
  result : Except PathError α
  tree : FileTree
  touched : List (Access × Location)

/-- `hash_hex[:2]`. -/
def shard (hashHex : String) : String := String.ofList (hashHex.toList.take 2)

namespace ArtifactStore

variable (store : ArtifactStore)

/-- `_path`. -/
def path (hashHex : String) : List String := joinPath (joinPath store.base (shard hashHex)) hashHex

section Lookups

variable (crypto : Crypto) (directorySize : Location → Nat) (tree : FileTree) (hashHex : String)

/-- `get`. -/
def get : StoreEffect (Option Bytes) :=
  match tree.find (store.path hashHex) with
  | .error _ => ⟨.ok none, tree, []⟩
  | .ok (place, .dir) => ⟨.error .isADirectory, tree, [(.stat, place), (.read, place)]⟩
  | .ok (place, .file data _) =>
      if crypto.hexdigest data ≠ hashHex then
        ⟨.ok none, tree.unlink place, [(.stat, place), (.read, place), (.delete, place)]⟩
      else ⟨.ok (some data), tree, [(.stat, place), (.read, place)]⟩

/-- `exists`. -/
def contains : StoreEffect Bool :=
  match tree.find (store.path hashHex) with
  | .error _ => ⟨.ok false, tree, []⟩
  | .ok (place, _) => ⟨.ok true, tree, [(.stat, place)]⟩

/-- `st_size`. -/
def statSize (place : Location) : Node → Nat
  | .dir => directorySize place
  | .file data _ => data.length

/-- `size_bytes`. -/
def sizeBytes : StoreEffect (Option Nat) :=
  match tree.find (store.path hashHex) with
  | .error .notFound => ⟨.ok none, tree, []⟩
  | .error error => ⟨.error error, tree, []⟩
  | .ok (place, node) => ⟨.ok (some (statSize directorySize place node)), tree, [(.stat, place)]⟩

end Lookups

/-! Which lookups stay inside. -/

/-- Where the artifact of a hash lies. -/
def artifactAt (hashHex : String) : Location := store.base ++ [shard hashHex, hashHex]

end ArtifactStore

/-- A 64-character hex name. -/
def IsHexName (name : String) : Prop :=
  name.toList.length = 64 ∧ ∀ c ∈ name.toList, (Hex.digitValue c).isSome = true

instance (name : String) : Decidable (IsHexName name) := inferInstanceAs (Decidable (_ ∧ _))

/-- A call under a hash touches only the artifact of that hash, deletes it only when
its bytes hash to another name, and changes nothing else. -/
structure Confined {α : Type} (crypto : Crypto) (store : ArtifactStore) (tree : FileTree)
    (hashHex : String) (effect : StoreEffect α) : Prop where
  touches : ∀ access place, (access, place) ∈ effect.touched →
    IsHexName hashHex ∧ place = store.artifactAt hashHex
  deletes : ∀ place, (.delete, place) ∈ effect.touched →
    ∃ data mtime, tree.node? place = some (.file data mtime) ∧ crypto.hexdigest data ≠ hashHex
  unchanged : ∀ place, effect.tree.node? place = tree.node? place ∨
    (.delete, place) ∈ effect.touched ∧ effect.tree.node? place = none

section Names

theorem pathParts_of_plain {text : String} (slashless : '/' ∉ text.toList) (nonempty : text ≠ "")
    (named : text ≠ ".") : pathParts text = [text] := by
  have split : text.toList.splitOn '/' = [text.toList] := by
    apply List.splitOnP_eq_singleton
    intro c member
    simpa using fun same : c = '/' => slashless (same ▸ member)
  rw [pathParts, split, List.map_singleton, String.ofList_toList, List.filter_cons_of_pos,
    List.filter_nil]
  simp [nonempty, named]

theorem joinPath_of_plain (path : List String) {text : String} (slashless : '/' ∉ text.toList)
    (nonempty : text ≠ "") (named : text ≠ ".") : joinPath path text = path ++ [text] := by
  rw [joinPath, if_neg, pathParts_of_plain slashless nonempty named]
  intro head
  exact slashless (List.mem_of_mem_head? (by rw [head]; rfl))

variable {name : String}

/-- What a hex name, or the front of one, does not contain. -/
theorem not_mem_of_digits {text : List Char} (digits : ∀ c ∈ text, (Hex.digitValue c).isSome = true)
    {c : Char} (other : Hex.digitValue c = none) : c ∉ text := by
  intro member
  have digit := digits c member
  rw [other] at digit
  cases digit

theorem ne_of_digits {text : List Char} (digits : ∀ c ∈ text, (Hex.digitValue c).isSome = true)
    (nonempty : text ≠ []) {word : String}
    (other : ∀ c ∈ word.toList, Hex.digitValue c = none) : String.ofList text ≠ word := by
  rintro rfl
  rw [String.toList_ofList] at other
  obtain ⟨c, member⟩ := List.exists_mem_of_ne_nil _ nonempty
  exact not_mem_of_digits digits (other c member) member

theorem IsHexName.shard_digits (hex : IsHexName name) :
    ∀ c ∈ name.toList.take 2, (Hex.digitValue c).isSome = true :=
  fun c member => hex.2 c (List.mem_of_mem_take member)

theorem IsHexName.ne_nil (hex : IsHexName name) : name.toList ≠ [] := by
  intro empty
  have length := hex.1
  rw [empty] at length
  cases length

theorem IsHexName.take_ne_nil (hex : IsHexName name) : name.toList.take 2 ≠ [] := by
  intro empty
  have length := congrArg List.length empty
  rw [List.length_take, hex.1] at length
  cases length

theorem IsHexName.ne_word (hex : IsHexName name) {word : String}
    (other : ∀ c ∈ word.toList, Hex.digitValue c = none) : name ≠ word := by
  have apart := ne_of_digits hex.2 hex.ne_nil other
  rwa [String.ofList_toList] at apart

theorem dot_no_digit : Hex.digitValue '.' = none := by decide

theorem IsHexName.path_eq (hex : IsHexName name) (store : ArtifactStore) :
    store.path name = store.artifactAt name := by
  have dots : ∀ c ∈ ".".toList, Hex.digitValue c = none := by simp [dot_no_digit]
  have first : joinPath store.base (shard name) = store.base ++ [shard name] := by
    apply joinPath_of_plain
    · rw [shard, String.toList_ofList]
      exact not_mem_of_digits hex.shard_digits (by decide)
    · exact ne_of_digits hex.shard_digits hex.take_ne_nil (by simp)
    · exact ne_of_digits hex.shard_digits hex.take_ne_nil dots
  rw [ArtifactStore.path, first, joinPath_of_plain _ (not_mem_of_digits hex.2 (by decide))
    (hex.ne_word (by simp)) (hex.ne_word dots), ArtifactStore.artifactAt, List.append_assoc,
    List.singleton_append]

/-- The location of an artifact has no `..` in it. -/
theorem IsHexName.artifactAt_plain (hex : IsHexName name) (store : ArtifactStore) :
    ".." ∉ store.artifactAt name := by
  have dots : ∀ c ∈ "..".toList, Hex.digitValue c = none := by simp [dot_no_digit]
  rw [ArtifactStore.artifactAt, List.mem_append, not_or]
  refine ⟨store.resolved, ?_⟩
  simp only [List.mem_cons, List.not_mem_nil, or_false, not_or]
  exact ⟨(ne_of_digits hex.shard_digits hex.take_ne_nil dots).symm, (hex.ne_word dots).symm⟩

theorem IsHexName.artifactAt_clean (hex : IsHexName name) (store : ArtifactStore) :
    FileTree.hasNull (store.artifactAt name) = false := by
  have shard_clean : '\x00' ∉ name.toList.take 2 := not_mem_of_digits hex.shard_digits (by decide)
  have name_clean : '\x00' ∉ name.toList := not_mem_of_digits hex.2 (by decide)
  rw [ArtifactStore.artifactAt, FileTree.hasNull_append, store.clean, FileTree.hasNull]
  simp [shard, shard_clean, name_clean]

/-- A digest of 32 bytes is a hex name. -/
theorem isHexName_hexdigest (crypto : Crypto) {data : Bytes}
    (sized : (crypto.blake3 data).length = 32) : IsHexName (crypto.hexdigest data) := by
  rw [Crypto.hexdigest, Hex.encode, IsHexName, String.toList_ofList]
  generalize crypto.blake3 data = digest at sized
  constructor
  · simp [Hex.encodeChars, List.length_flatMap, sized]
  · intro c member
    obtain ⟨byte, -, listed⟩ := List.mem_flatMap.mp member
    have bound : byte.toNat < 256 := byte.toNat_lt
    simp only [List.mem_cons, List.not_mem_nil, or_false] at listed
    rcases listed with rfl | rfl
    · rw [Hex.digitValue_digitChar _ (by omega)]
      rfl
    · rw [Hex.digitValue_digitChar _ (by omega)]
      rfl

end Names

section Confinement

variable {crypto : Crypto} {store : ArtifactStore} {directorySize : Location → Nat} {tree : FileTree}
  {hashHex : String}

/-- A hex name is found, if at all, where its artifact lies. -/
theorem IsHexName.place_eq (hex : IsHexName hashHex) {place : Location} {node : Node}
    (found : tree.find (store.path hashHex) = .ok (place, node)) :
    place = store.artifactAt hashHex := by
  rw [hex.path_eq] at found
  exact FileTree.find_plain (hex.artifactAt_plain store) found

/-- A call that touches nothing is confined. -/
theorem Confined.of_untouched {α : Type} {effect : StoreEffect α} (untouched : effect.touched = [])
    (kept : effect.tree = tree) : Confined crypto store tree hashHex effect where
  touches := by
    intro access place touched
    rw [untouched] at touched
    cases touched
  deletes := by
    intro place touched
    rw [untouched] at touched
    cases touched
  unchanged := fun place => Or.inl (by rw [kept])

/-- A call that only looks is confined under a hex name. -/
theorem Confined.of_kept {α : Type} {effect : StoreEffect α} {place : Location} {node : Node}
    (hex : IsHexName hashHex) (found : tree.find (store.path hashHex) = .ok (place, node))
    (there : ∀ touch ∈ effect.touched, touch = (.stat, place) ∨ touch = (.read, place))
    (kept : effect.tree = tree) : Confined crypto store tree hashHex effect where
  touches := by
    intro access other touched
    refine ⟨hex, ?_⟩
    rcases there _ touched with same | same <;> cases same <;> exact hex.place_eq found
  deletes := by
    intro other touched
    rcases there _ touched with same | same <;> cases same
  unchanged := fun other => Or.inl (by rw [kept])

/-- Whatever is touched is touched under a hex name. -/
theorem Confined.hex {α : Type} {effect : StoreEffect α}
    (confined : Confined crypto store tree hashHex effect) {access : Access} {place : Location}
    (touched : (access, place) ∈ effect.touched) : IsHexName hashHex :=
  (confined.touches access place touched).1

theorem get_confined_of_hex (hex : IsHexName hashHex) :
    Confined crypto store tree hashHex (store.get crypto tree hashHex) := by
  unfold ArtifactStore.get
  split
  · exact Confined.of_untouched rfl rfl
  · rename_i place found
    refine Confined.of_kept hex found ?_ rfl
    simp
  · rename_i place data mtime found
    have held := (FileTree.find_ok_iff.mp found).2.2
    split_ifs with mismatch
    · refine ⟨?_, ?_, fun other => ?_⟩
      · intro access other touched
        simp only [List.mem_cons, Prod.mk.injEq, List.not_mem_nil, or_false] at touched
        refine ⟨hex, ?_⟩
        rcases touched with ⟨-, rfl⟩ | ⟨-, rfl⟩ | ⟨-, rfl⟩ <;> exact hex.place_eq found
      · intro other touched
        simp only [List.mem_cons, Prod.mk.injEq, reduceCtorEq, false_and, false_or,
          List.not_mem_nil, or_false, true_and] at touched
        exact ⟨data, mtime, touched ▸ held, mismatch⟩
      · rw [FileTree.node?_unlink (FileTree.isFile_of_node held)]
        by_cases same : place = other
        · rw [if_pos same]
          exact Or.inr ⟨by simp [same], rfl⟩
        · rw [if_neg same]
          exact Or.inl rfl
    · refine Confined.of_kept hex found ?_ rfl
      simp

/-- What a path that leads somewhere touches. -/
theorem contains_touched {found : Location × Node} (here : tree.find (store.path hashHex) = .ok found) :
    (.stat, found.1) ∈ (store.contains tree hashHex).touched := by
  unfold ArtifactStore.contains
  rw [here]
  exact List.mem_singleton_self _

/-- The three lookups are confined exactly when the hash is a hex name, or names nothing
that exists. -/
theorem lookups_confined_iff (crypto : Crypto) (store : ArtifactStore)
    (directorySize : Location → Nat) (tree : FileTree) (hashHex : String) :
    Confined crypto store tree hashHex (store.get crypto tree hashHex) ∧
        Confined crypto store tree hashHex (store.contains tree hashHex) ∧
        Confined crypto store tree hashHex (store.sizeBytes directorySize tree hashHex) ↔
      IsHexName hashHex ∨ ∀ found, tree.find (store.path hashHex) ≠ .ok found := by
  constructor
  · rintro ⟨-, confined, -⟩
    refine or_iff_not_imp_right.mpr fun names => ?_
    push Not at names
    obtain ⟨found, here⟩ := names
    exact confined.hex (contains_touched here)
  · rintro (hex | nowhere)
    · refine ⟨get_confined_of_hex hex, ?_, ?_⟩
      · unfold ArtifactStore.contains
        split
        · exact Confined.of_untouched rfl rfl
        · rename_i found
          exact Confined.of_kept hex found (by simp) rfl
      · unfold ArtifactStore.sizeBytes
        split
        · exact Confined.of_untouched rfl rfl
        · exact Confined.of_untouched rfl rfl
        · rename_i found
          exact Confined.of_kept hex found (by simp) rfl
    · obtain ⟨error, missing⟩ : ∃ error, tree.find (store.path hashHex) = .error error := by
        cases result : tree.find (store.path hashHex) with
        | error error => exact ⟨error, rfl⟩
        | ok found => exact absurd result (nowhere found)
      refine ⟨?_, ?_, ?_⟩
      · unfold ArtifactStore.get
        rw [missing]
        exact Confined.of_untouched rfl rfl
      · unfold ArtifactStore.contains
        rw [missing]
        exact Confined.of_untouched rfl rfl
      · unfold ArtifactStore.sizeBytes
        rw [missing]
        split
        · exact Confined.of_untouched rfl rfl
        · exact Confined.of_untouched rfl rfl
        · cases ‹Except.error error = _›

end Confinement

namespace Sample

def artifactStore : ArtifactStore where
  base := ["cas"]
  maxBytes := some 10
  evictWhenFull := true
  resolved := by decide
  clean := by decide

/-- An empty store beside a file of the system. -/
def systemTree : FileTree :=
  ((FileTree.empty.put ["cas"] .dir).put ["etc"] .dir).put ["etc", "passwd"] (.file [1, 2, 3] 0)

end Sample

/-- A peer's hash that is an absolute path reads a file outside the store and deletes it. -/
theorem absolute_hash_deletes :
    Sample.systemTree.node? ["etc", "passwd"] = some (.file [1, 2, 3] 0) ∧
      (Sample.artifactStore.get Sample.crypto Sample.systemTree "/etc/passwd").tree.node?
        ["etc", "passwd"] = none ∧
      ¬Confined Sample.crypto Sample.artifactStore Sample.systemTree "/etc/passwd"
        (Sample.artifactStore.get Sample.crypto Sample.systemTree "/etc/passwd") := by
  refine ⟨by decide +kernel, by decide +kernel, fun confined => ?_⟩
  have touched : (.delete, ["etc", "passwd"]) ∈ (Sample.artifactStore.get Sample.crypto
      Sample.systemTree "/etc/passwd").touched := by
    decide +kernel
  exact absurd (confined.hex touched) (by decide +kernel)

end Gyza
