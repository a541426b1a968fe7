import Gyza.ArtifactStore
import Gyza.Lib.CanonJson
import Gyza.Lib.Lines
import Gyza.Lib.Run

/-! Storing with a capacity: `store`, `evict_to_fit` and the tombstone log of
`gyza/network/artifact_store.py`, over every order of calls. -/

namespace Gyza

open Hex (Bytes utf8)
open Lines (Complete fileLines)

/-! What counts as an artifact. -/

/-- Neither a dotfile nor a temporary file. -/
def isArtifactName (name : String) : Bool :=
  name.toList.head? ≠ some '.' && !decide (".tmp.".toList <:+: name.toList)

structure StoredFile where
  place : Location
  size : Nat
  mtime : Int

def artifactFile (row : Location × Node) : Option StoredFile :=
  match row.2 with
  | .dir => none
  | .file data mtime =>
      if isArtifactName (row.1.getLastD "") then some ⟨row.1, data.length, mtime⟩ else none

/-- `sum(f[1] for f in files)`. -/
def bytesIn (files : List StoredFile) : Int := (files.map fun file => (file.size : Int)).sum

/-- The order in which `rglob` visits the files is the file system's own. -/
structure Scan where
  order : List StoredFile → List StoredFile
  perm : ∀ files, (order files).Perm files

/-- One call of `store`: its data, what it is given by the system, and the times at
which it logs an eviction and writes the file. -/
structure StoreCall where
  data : Bytes
  scan : Scan
  loggedNs : Location → Int
  now : Int

inductive ArtifactError where
  | fullAfterEvicting (freed current : Int) (size : Nat) (maxBytes : Int)
  | full (current : Int) (size : Nat) (maxBytes : Int)
  | path (error : PathError)

/-- `ArtifactStoreFull`. -/
def ArtifactError.isFull : ArtifactError → Bool
  | .path _ => false
  | .fullAfterEvicting _ _ _ _ => true
  | .full _ _ _ => true

/-- The line of a tombstone, `json.dumps` with its default separators. -/
def tombstoneLine (hashHex : String) (size : Nat) (evictedAtNs : Int) : String :=
  "\x7b\"hash\": " ++ String.ofList (CanonJson.quote hashHex) ++ ", \"bytes\": " ++ Int.repr size ++
    ", \"evicted_at_ns\": " ++ evictedAtNs.repr ++ "\x7d"

namespace ArtifactStore

variable (crypto : Crypto) (store : ArtifactStore)

def listing (tree : FileTree) : List StoredFile :=
  (tree.below store.base).filterMap artifactFile

def totalSizeBytes (tree : FileTree) : Int := bytesIn (store.listing tree)

/-! The tombstone log. -/

def tombstoneLog : Location := store.base ++ [".tombstones.jsonl"]

/-- `_record_tombstone`; an `OSError` is swallowed. -/
def recordTombstone (tree : FileTree) (file : StoredFile) (evictedAtNs : Int) : FileTree :=
  let line := utf8 (tombstoneLine (file.place.getLastD "") file.size evictedAtNs ++ "\n")
  match tree.node? store.tombstoneLog with
  | none => tree.put store.tombstoneLog (.file line evictedAtNs)
  | some (.file data _) => tree.put store.tombstoneLog (.file (data ++ line) evictedAtNs)
  | some .dir => tree

inductive LogError where
  | isADirectory
  | undecodable
  deriving DecidableEq

/-- `bytes.decode`, as UTF-8. -/
def decodeText (data : Bytes) : Option String := String.fromUTF8? data.toByteArray

/-- `evicted_bytes`. `bytesOf` is `int(json.loads(line)["bytes"])`, nothing where it raises. -/
def evictedBytes (bytesOf : String → Option Int) (tree : FileTree) : Except LogError Int :=
  match tree.find store.tombstoneLog with
  | .error _ => .ok 0
  | .ok (_, .dir) => .error .isADirectory
  | .ok (_, .file data _) =>
      match decodeText data with
      | none => .error .undecodable
      | some text =>
          .ok (((fileLines text.toList).map fun line => (bytesOf (String.ofList line)).getD 0).sum)

/-! Eviction. -/

/-- One eviction. -/
def evict (loggedNs : Location → Int) (tree : FileTree) (file : StoredFile) : FileTree :=
  store.recordTombstone (tree.unlink file.place) file (loggedNs file.place)

/-- The loop of `evict_to_fit`, with the bytes still stored and the bytes freed. -/
def evictLoop (target : Int) (loggedNs : Location → Int) :
    FileTree → Int → Int → List StoredFile → FileTree × Int
  | tree, _, freed, [] => (tree, freed)
  | tree, total, freed, file :: rest =>
      if total ≤ target then (tree, freed)
      else
        evictLoop target loggedNs (store.evict loggedNs tree file) (total - file.size)
          (freed + file.size) rest

/-- The files in the order of eviction. -/
def oldestFirst (scan : Scan) (tree : FileTree) : List StoredFile :=
  (scan.order (store.listing tree)).insertionSort fun first second => first.mtime ≤ second.mtime

def evictToFit (tree : FileTree) (incomingBytes : Int) (scan : Scan) (loggedNs : Location → Int) :
    FileTree × Int :=
  match store.maxBytes with
  | none => (tree, 0)
  | some maxBytes =>
      if maxBytes - incomingBytes < 0 then (tree, 0)
      else
        let files := store.oldestFirst scan tree
        store.evictLoop (maxBytes - incomingBytes) loggedNs tree (bytesIn files) 0 files

/-- The capacity check of `store`: the file system it leaves, and what it raises. -/
def makeRoom (tree : FileTree) (call : StoreCall) : FileTree × Option ArtifactError :=
  match store.maxBytes with
  | none => (tree, none)
  | some maxBytes =>
      let size := call.data.length
      let current := store.totalSizeBytes tree
      if maxBytes < current + size then
        if store.evictWhenFull then
          let evicted := store.evictToFit tree size call.scan call.loggedNs
          let current := store.totalSizeBytes evicted.1
          if maxBytes < current + size then
            (evicted.1, some (.fullAfterEvicting evicted.2 current size maxBytes))
          else (evicted.1, none)
        else (tree, some (.full current size maxBytes))
      else (tree, none)

/-- `store`. A temporary file and a rename leave the file or nothing. -/
def storeData (tree : FileTree) (call : StoreCall) : FileTree × Except ArtifactError String :=
  let hashHex := crypto.hexdigest call.data
  let place := store.path hashHex
  if (store.contains tree hashHex).result = .ok true then (tree, .ok hashHex)
  else
    match store.makeRoom tree call with
    | (room, some error) => (room, .error error)
    | (room, none) =>
        match FileTree.makeDirs room [] place.dropLast with
        | .error error => (room, .error (.path error))
        | .ok made => (made.put place (.file call.data call.now), .ok hashHex)

/-! Runs of one store. -/

inductive Event where
  | store (call : StoreCall)
  | get (hashHex : String)

def step (tree : FileTree) : Event → FileTree
  | .store call => (store.storeData crypto tree call).1
  | .get hashHex => (store.get crypto tree hashHex).tree

/-- The bytes that are still stored once the first `n` files are gone. -/
def sizeAfter (tree : FileTree) (order : List StoredFile) (n : Nat) : Int :=
  store.totalSizeBytes tree - bytesIn (order.take n)

/-- Room was made: the files removed are the shortest prefix of the files, oldest first,
that makes the new bytes fit, and the log grows by their sizes. -/
def MadeRoom (bytesOf : String → Option Int) (maxBytes : Int) (tree : FileTree) (size : Nat)
    (after : FileTree) : Prop :=
  ∃ order n, order.Perm (store.listing tree) ∧
    order.Pairwise (fun first second => first.mtime ≤ second.mtime) ∧
    store.sizeAfter tree order n + size ≤ maxBytes ∧
    (∀ m < n, maxBytes < store.sizeAfter tree order m + size) ∧
    (∀ place, (∃ file ∈ order.take n, file.place = place) ↔
      tree.isFile place = true ∧ after.isFile place = false) ∧
    (0 < n → ∃ before, store.evictedBytes bytesOf tree = .ok before) ∧
    store.evictedBytes bytesOf after =
      (store.evictedBytes bytesOf tree).map (· + bytesIn (order.take n))

/-- What a call of `store` owes: what it returns can be read back, a full store is left
as it was, and otherwise room is made for new data. -/
structure StoreLaw (bytesOf : String → Option Int) (maxBytes : Int) (tree : FileTree)
    (call : StoreCall) : Prop where
  readBack : ∀ hashHex, (store.storeData crypto tree call).2 = .ok hashHex →
    (store.get crypto (store.storeData crypto tree call).1 hashHex).result = .ok (some call.data)
  refusal : ∀ error, (store.storeData crypto tree call).2 = .error error → error.isFull = true →
    (store.storeData crypto tree call).1 = tree
  eviction : (∀ error, (store.storeData crypto tree call).2 = .error error → error.isFull = false) →
    (store.contains tree (crypto.hexdigest call.data)).result = .ok false →
    store.MadeRoom bytesOf maxBytes tree call.data.length (store.storeData crypto tree call).1

/-- The log is absent, or a text file of complete lines. -/
def LogReady (tree : FileTree) : Prop :=
  tree.node? store.tombstoneLog = none ∨ ∃ text mtime,
    tree.node? store.tombstoneLog = some (.file (utf8 text) mtime) ∧ Complete text.toList

/-- Before data is stored, nothing but the data lies under the name of its hash, and the
log is ready where files are removed. -/
structure Ready (maxBytes : Int) (tree : FileTree) (call : StoreCall) : Prop where
  named : ∀ place node, tree.find (store.path (crypto.hexdigest call.data)) = .ok (place, node) →
    ∃ mtime, node = .file call.data mtime
  log : store.evictWhenFull = true → call.data.length ≤ maxBytes →
    maxBytes < store.totalSizeBytes tree + call.data.length →
    (store.contains tree (crypto.hexdigest call.data)).result = .ok false → store.LogReady tree

def Admits (maxBytes : Int) (tree : FileTree) : Event → Prop
  | .store call => store.Ready crypto maxBytes tree call
  | .get _ => True

/-! Artifacts by their places. -/

section Listing

variable {store : ArtifactStore} {tree : FileTree}

theorem mem_listing {file : StoredFile} : file ∈ store.listing tree ↔
    FileTree.isBelow store.base file.place = true ∧ isArtifactName (file.place.getLastD "") = true ∧
      ∃ data, tree.node? file.place = some (.file data file.mtime) ∧ file.size = data.length := by
  have ofBelow : FileTree.isBelow store.base file.place = true →
      tree.node? file.place = tree.nodes.lookup file.place := by
    intro inside
    obtain ⟨rest, inner, split⟩ := FileTree.isBelow_iff.mp inside
    exact tree.node?_of_ne (by rw [split]; simp [inner])
  simp only [listing, FileTree.below, List.mem_filterMap, List.mem_filter]
  constructor
  · rintro ⟨⟨place, node⟩, ⟨listed, inside⟩, kept⟩
    cases node with
    | dir => cases kept
    | file data mtime =>
        simp only [artifactFile] at kept
        split_ifs at kept with named
        cases kept
        refine ⟨inside, named, data, ?_, rfl⟩
        rw [ofBelow inside]
        exact (Dict.lookup_eq_some _ _ _).mpr listed
  · rintro ⟨inside, named, data, held, size⟩
    rw [ofBelow inside] at held
    refine ⟨(file.place, .file data file.mtime), ⟨(Dict.lookup_eq_some _ _ _).mp held, inside⟩, ?_⟩
    simp only [artifactFile, if_pos named]
    cases file
    cases size
    rfl

theorem artifactFile_place {row : Location × Node} {file : StoredFile}
    (kept : artifactFile row = some file) : file.place = row.1 := by
  unfold artifactFile at kept
  split at kept
  · cases kept
  · split_ifs at kept
    cases kept
    rfl

theorem places_sublist (rows : List (Location × Node)) :
    ((rows.filterMap artifactFile).map StoredFile.place).Sublist (rows.map Prod.fst) := by
  induction rows with
  | nil => exact List.Sublist.refl _
  | cons row rest ih =>
      rw [List.filterMap_cons, List.map_cons]
      cases kept : artifactFile row with
      | none => exact List.Sublist.cons _ ih
      | some file =>
          rw [List.map_cons, artifactFile_place kept]
          exact List.Sublist.cons_cons _ ih

/-- The places of the listed files are different. -/
theorem listing_distinct : ((store.listing tree).map StoredFile.place).Nodup :=
  tree.nodes.distinct.sublist ((places_sublist _).trans (List.filter_sublist.map _))

/-- What a place adds to the size of the store. -/
def sizeAt (store : ArtifactStore) (place : Location) (node : Node) : Int :=
  if FileTree.isBelow store.base place then
    ((artifactFile (place, node)).map fun file => (file.size : Int)).getD 0
  else 0

theorem totalSizeBytes_eq : store.totalSizeBytes tree = FileTree.total (sizeAt store) tree := by
  unfold totalSizeBytes listing FileTree.below FileTree.total
  induction tree.nodes.rows with
  | nil => rfl
  | cons row rest ih =>
      rw [List.map_cons, List.sum_cons, List.filter_cons, ← ih, sizeAt]
      split_ifs with inside
      · rw [List.filterMap_cons]
        cases artifactFile row <;> simp [bytesIn]
      · simp

theorem sizeAt_dir (place : Location) : sizeAt store place .dir = 0 := by
  simp [sizeAt, artifactFile]

end Listing

/-! The log. -/

section Log

variable {store : ArtifactStore} {tree : FileTree} {bytesOf : String → Option Int}

theorem log_ne_nil : store.tombstoneLog ≠ [] := by simp [tombstoneLog]

theorem log_dropLast : store.tombstoneLog.dropLast = store.base := by
  rw [tombstoneLog, List.dropLast_concat]

theorem log_plain : ".." ∉ store.tombstoneLog := by
  rw [tombstoneLog, List.mem_append, not_or]
  exact ⟨store.resolved, by decide⟩

theorem log_clean : FileTree.hasNull store.tombstoneLog = false := by
  rw [tombstoneLog, FileTree.hasNull_append, store.clean, Bool.false_or]
  decide

theorem log_not_artifact : isArtifactName (store.tombstoneLog.getLastD "") = false := by
  rw [tombstoneLog, List.getLastD_concat]
  decide

theorem ne_log_of_artifact {place : Location} (named : isArtifactName (place.getLastD "") = true) :
    store.tombstoneLog ≠ place := by
  rintro rfl
  rw [log_not_artifact] at named
  cases named

theorem sizeAt_log (node : Node) : sizeAt store store.tombstoneLog node = 0 := by
  cases node with
  | dir => exact sizeAt_dir _
  | file data mtime =>
      simp only [sizeAt, artifactFile, log_not_artifact, Bool.false_eq_true, if_false, Option.map_none,
        Option.getD_none, ite_self]

theorem evictedBytes_none (absent : tree.node? store.tombstoneLog = none) :
    store.evictedBytes bytesOf tree = .ok 0 := by
  unfold evictedBytes
  cases found : tree.find store.tombstoneLog with
  | error error => rfl
  | ok node =>
      obtain ⟨place, node⟩ := node
      have held := (FileTree.find_ok_iff.mp found).2.2
      rw [FileTree.find_plain log_plain found, absent] at held
      cases held

theorem decodeText_utf8 (text : String) : decodeText (utf8 text) = some text := by
  rw [decodeText, Hex.utf8_toByteArray, String.fromUTF8?, dif_pos text.isValidUTF8]
  rfl

/-- What a text file of the log adds up to. -/
theorem evictedBytes_text {text : String} {mtime : Int}
    (held : tree.node? store.tombstoneLog = some (.file (utf8 text) mtime)) :
    store.evictedBytes bytesOf tree =
      .ok (((fileLines text.toList).map fun line => (bytesOf (String.ofList line)).getD 0).sum) := by
  unfold evictedBytes
  rw [FileTree.find_of_node log_plain log_clean held]
  simp only [decodeText_utf8]

theorem evictedBytes_congr {other : FileTree}
    (same : other.node? store.tombstoneLog = tree.node? store.tombstoneLog) :
    store.evictedBytes bytesOf other = store.evictedBytes bytesOf tree := by
  cases held : tree.node? store.tombstoneLog with
  | none => rw [evictedBytes_none held, evictedBytes_none (same.trans held)]
  | some node =>
      unfold evictedBytes
      rw [FileTree.find_of_node log_plain log_clean held,
        FileTree.find_of_node log_plain log_clean (same.trans held)]

theorem LogReady.congr {other : FileTree} (ready : store.LogReady tree)
    (same : other.node? store.tombstoneLog = tree.node? store.tombstoneLog) :
    store.LogReady other := by
  rwa [LogReady, same]

theorem visible_plain {c : Char} (low : ' ' ≤ c) (high : c ≤ '~') : Lines.isBoundary c = false := by
  have low' : 32 ≤ c.toNat := low
  have high' : c.toNat ≤ 126 := high
  rw [Lines.isBoundary, decide_eq_false_iff_not]
  intro boundary
  have code := List.mem_map_of_mem (f := Char.toNat) boundary
  simp only [List.map_cons, List.map_nil, List.mem_cons, List.not_mem_nil, or_false] at code
  rcases code with same | same | same | same | same | same | same | same | same | same <;>
    simp only [same] at low' high' <;> revert low' high' <;> decide

theorem quote_plain (text : String) : ∀ c ∈ CanonJson.quote text, Lines.isBoundary c = false := by
  have digits : ∀ n, Lines.isBoundary (Hex.digitChar (n % 16)) = false := by
    intro n
    have bounded : ∀ value < 16, Lines.isBoundary (Hex.digitChar value) = false := by decide
    exact bounded _ (Nat.mod_lt _ (by decide))
  have unit : ∀ n, ∀ c ∈ CanonJson.escapeUnit n, Lines.isBoundary c = false := by
    intro n c member
    simp only [CanonJson.escapeUnit, List.mem_cons, List.not_mem_nil, or_false] at member
    rcases member with rfl | rfl | rfl | rfl | rfl | rfl
    · decide
    · decide
    all_goals exact digits _
  have escaped : ∀ d, ∀ c ∈ CanonJson.escapeChar d, Lines.isBoundary c = false := by
    intro d c member
    have pair : ∀ first second, Lines.isBoundary first = false → Lines.isBoundary second = false →
        c ∈ [first, second] → Lines.isBoundary c = false := by
      intro first second plain plain' held
      simp only [List.mem_cons, List.not_mem_nil, or_false] at held
      rcases held with rfl | rfl
      · exact plain
      · exact plain'
    unfold CanonJson.escapeChar at member
    split_ifs at member with h₁ h₂ h₃ h₄ h₅ h₆ h₇ visible
    iterate 7 exact pair _ _ (by decide) (by decide) member
    · rw [List.mem_singleton.mp member]
      exact visible_plain visible.1 visible.2
    · exact unit _ c member
    · rcases List.mem_append.mp member with high | low
      · exact unit _ c high
      · exact unit _ c low
  intro c member
  simp only [CanonJson.quote, List.cons_append, List.mem_cons, List.mem_append, List.mem_flatMap,
    List.not_mem_nil, or_false] at member
  rcases member with rfl | ⟨d, -, member⟩ | rfl
  · decide
  · exact escaped d c member
  · decide

theorem repr_plain (value : Int) : ∀ c ∈ value.repr.toList, Lines.isBoundary c = false := by
  intro c member
  rcases CanonJson.repr_digits value c member with digit | rfl
  · have bounds : 48 ≤ c.toNat ∧ c.toNat ≤ 57 := Char.isDigit_iff_toNat.mp digit
    apply visible_plain
    · show 32 ≤ c.toNat
      omega
    · show c.toNat ≤ 126
      omega
  · decide

/-- A tombstone is one line. -/
theorem tombstoneLine_plain (hashHex : String) (size : Nat) (evictedAtNs : Int) :
    ∀ c ∈ (tombstoneLine hashHex size evictedAtNs).toList, Lines.isBoundary c = false := by
  have fixed : ∀ word ∈ ["\x7b\"hash\": ", ", \"bytes\": ", ", \"evicted_at_ns\": ", "\x7d"],
      ∀ c ∈ word.toList, ' ' ≤ c ∧ c ≤ '~' := by
    simp
  have plain : ∀ word ∈ ["\x7b\"hash\": ", ", \"bytes\": ", ", \"evicted_at_ns\": ", "\x7d"],
      ∀ c ∈ word.toList, Lines.isBoundary c = false :=
    fun word listed c member => visible_plain (fixed word listed c member).1 (fixed word listed c member).2
  intro c member
  simp only [tombstoneLine, String.toList_append, String.toList_ofList, List.mem_append] at member
  rcases member with (((((word | name) | word) | number) | word) | number) | word
  · exact plain _ (by simp) c word
  · exact quote_plain hashHex c name
  · exact plain _ (by simp) c word
  · exact repr_plain size c number
  · exact plain _ (by simp) c word
  · exact repr_plain evictedAtNs c number
  · exact plain _ (by simp) c word

theorem utf8_append (text more : String) : utf8 (text ++ more) = utf8 text ++ utf8 more := by
  simp [utf8, String.toList_append]

/-- The sum over the lines of a text. -/
def loggedBytes (bytesOf : String → Option Int) (text : String) : Int :=
  ((fileLines text.toList).map fun line => (bytesOf (String.ofList line)).getD 0).sum

/-- A log that has got one more line. -/
theorem log_appended {text line : String} {mtime : Int} (complete : Complete text.toList)
    (plain : ∀ c ∈ line.toList, Lines.isBoundary c = false)
    (held : tree.node? store.tombstoneLog = some (.file (utf8 (text ++ (line ++ "\n"))) mtime)) :
    store.evictedBytes bytesOf tree =
        .ok (loggedBytes bytesOf text + (bytesOf line).getD 0) ∧ store.LogReady tree := by
  have chars : (text ++ (line ++ "\n")).toList = text.toList ++ (line.toList ++ ['\n']) := by
    rw [String.toList_append, String.toList_append]
    rfl
  constructor
  · rw [evictedBytes_text held, chars, Lines.fileLines_append complete plain, List.map_append,
      List.sum_append, List.map_singleton, List.sum_singleton, String.ofList_toList]
    rfl
  · refine Or.inr ⟨_, _, held, ?_⟩
    rw [chars]
    exact Lines.complete_line _ _

/-- One eviction's record: the log stays readable, and holds the size. -/
theorem recordTombstone_log (reads : ∀ hashHex (size : Nat) evictedAtNs,
      bytesOf (tombstoneLine hashHex size evictedAtNs) = some (size : Int))
    (based : tree.node? store.base = some .dir) (ready : store.LogReady tree) (file : StoredFile)
    (evictedAtNs : Int) : ∃ before, store.evictedBytes bytesOf tree = .ok before ∧
      store.evictedBytes bytesOf (store.recordTombstone tree file evictedAtNs) =
        .ok (before + file.size) ∧
      store.LogReady (store.recordTombstone tree file evictedAtNs) := by
  have written : ∀ data, tree.node? store.tombstoneLog ≠ some .dir →
      (tree.put store.tombstoneLog (.file data evictedAtNs)).node? store.tombstoneLog =
        some (.file data evictedAtNs) := by
    intro data isText
    have takes : tree.Takes store.tombstoneLog (.file data evictedAtNs) :=
      ⟨log_ne_nil, by rw [log_dropLast]; exact based, fun dir => absurd dir isText⟩
    rw [FileTree.node?_put takes, if_pos rfl]
  have plain := tombstoneLine_plain (file.place.getLastD "") file.size evictedAtNs
  have size := reads (file.place.getLastD "") file.size evictedAtNs
  unfold recordTombstone
  generalize tombstoneLine (file.place.getLastD "") file.size evictedAtNs = line at plain size
  dsimp only
  rcases ready with absent | ⟨text, mtime, held, complete⟩
  · rw [absent]
    dsimp only
    have after := written (utf8 (line ++ "\n")) (by rw [absent]; simp)
    rw [← String.empty_append (s := line ++ "\n")] at after ⊢
    obtain ⟨sum, ready⟩ := @log_appended _ _ bytesOf _ _ _ (Or.inl rfl) plain after
    rw [size] at sum
    exact ⟨0, evictedBytes_none absent, sum, ready⟩
  · rw [held]
    dsimp only
    have after := written (utf8 text ++ utf8 (line ++ "\n")) (by rw [held]; simp)
    rw [← utf8_append] at after ⊢
    obtain ⟨sum, ready⟩ := @log_appended _ _ bytesOf _ _ _ complete plain after
    rw [size] at sum
    exact ⟨_, evictedBytes_text held, sum, ready⟩

theorem recordTombstone_node? (file : StoredFile) (evictedAtNs : Int) {place : Location}
    (apart : store.tombstoneLog ≠ place) :
    (store.recordTombstone tree file evictedAtNs).node? place = tree.node? place := by
  unfold recordTombstone
  dsimp only
  split
  · exact FileTree.node?_put_of_ne apart _
  · exact FileTree.node?_put_of_ne apart _
  · rfl

theorem total_recordTombstone (file : StoredFile) (evictedAtNs : Int) :
    store.totalSizeBytes (store.recordTombstone tree file evictedAtNs) = store.totalSizeBytes tree := by
  rw [totalSizeBytes_eq, totalSizeBytes_eq]
  unfold recordTombstone
  dsimp only
  split
  · exact FileTree.total_put_light _ sizeAt_log _
  · exact FileTree.total_put_light _ sizeAt_log _
  · rfl

end Log

/-! Eviction. -/

section Eviction

variable {store : ArtifactStore} {tree : FileTree} {bytesOf : String → Option Int}

theorem bytesIn_cons (file : StoredFile) (files : List StoredFile) :
    bytesIn (file :: files) = file.size + bytesIn files := by
  rw [bytesIn, List.map_cons, List.sum_cons, bytesIn]

/-- The loop removes the shortest prefix that brings the size down to the target, or all. -/
theorem evictLoop_eq (target : Int) (loggedNs : Location → Int) (files : List StoredFile)
    (tree : FileTree) (total freed : Int) : ∃ n ≤ files.length,
      store.evictLoop target loggedNs tree total freed files =
        ((files.take n).foldl (store.evict loggedNs) tree, freed + bytesIn (files.take n)) ∧
      (total - bytesIn (files.take n) ≤ target ∨ n = files.length) ∧
      ∀ m < n, target < total - bytesIn (files.take m) := by
  induction files generalizing tree total freed with
  | nil => exact ⟨0, le_refl 0, by simp [evictLoop, bytesIn], Or.inr rfl, by simp⟩
  | cons file rest ih =>
      unfold evictLoop
      split_ifs with enough
      · refine ⟨0, Nat.zero_le _, by simp [bytesIn], Or.inl ?_, by simp⟩
        simpa [bytesIn] using enough
      · obtain ⟨n, within, result, stops, needed⟩ := ih (store.evict loggedNs tree file)
          (total - file.size) (freed + file.size)
        refine ⟨n + 1, Nat.succ_le_succ within, ?_, ?_, ?_⟩
        · rw [result, List.take_succ_cons, List.foldl_cons, bytesIn_cons, Int.add_assoc]
        · rw [List.take_succ_cons, bytesIn_cons, List.length_cons]
          rcases stops with fits | all
          · exact Or.inl (by omega)
          · exact Or.inr (by omega)
        · intro m before
          cases m with
          | zero =>
              rw [List.take_zero, bytesIn, List.map_nil, List.sum_nil]
              omega
          | succ m =>
              have still := needed m (by omega)
              rw [List.take_succ_cons, bytesIn_cons]
              omega

/-- What is left once files have been evicted. -/
structure Evicted (store : ArtifactStore) (bytesOf : String → Option Int) (tree : FileTree)
    (files : List StoredFile) (room : FileTree) : Prop where
  gone : ∀ file ∈ files, room.node? file.place = none
  kept : ∀ place, place ≠ store.tombstoneLog → (∀ file ∈ files, file.place ≠ place) →
    room.node? place = tree.node? place
  log : tree.isFile store.tombstoneLog = true → room.isFile store.tombstoneLog = true
  size : store.totalSizeBytes room = store.totalSizeBytes tree - bytesIn files
  ready : store.LogReady tree → store.LogReady room
  logged : store.LogReady tree → store.evictedBytes bytesOf room =
    (store.evictedBytes bytesOf tree).map (· + bytesIn files)

theorem evictedBytes_of_ready (ready : store.LogReady tree) :
    ∃ before, store.evictedBytes bytesOf tree = .ok before := by
  rcases ready with absent | ⟨text, mtime, held, -⟩
  · exact ⟨0, evictedBytes_none absent⟩
  · exact ⟨_, evictedBytes_text held⟩

theorem recordTombstone_isFile (file : StoredFile) (evictedAtNs : Int)
    (present : tree.isFile store.tombstoneLog = true) :
    (store.recordTombstone tree file evictedAtNs).isFile store.tombstoneLog = true := by
  obtain ⟨data, mtime, held⟩ := FileTree.isFile_iff_node.mp present
  unfold recordTombstone
  rw [held]
  dsimp only
  rw [FileTree.isFile_iff_node]
  by_cases takes : tree.Takes store.tombstoneLog
      (.file (data ++ utf8 (tombstoneLine (file.place.getLastD "") file.size evictedAtNs ++ "\n"))
        evictedAtNs)
  · rw [FileTree.node?_put takes, if_pos rfl]
    exact ⟨_, _, rfl⟩
  · rw [FileTree.put_of_not_takes takes]
    exact ⟨data, mtime, held⟩

theorem Evicted.nil : Evicted store bytesOf tree [] tree where
  gone := by simp
  kept := fun _ _ _ => rfl
  log := id
  size := by simp [bytesIn]
  ready := id
  logged := by
    intro ready
    obtain ⟨before, sum⟩ := @evictedBytes_of_ready _ _ bytesOf ready
    rw [sum]
    simp [bytesIn, Except.map]

variable {file : StoredFile}

theorem listed_isFile (listed : file ∈ store.listing tree) : tree.isFile file.place = true := by
  obtain ⟨-, -, data, held, -⟩ := mem_listing.mp listed
  exact FileTree.isFile_of_node held

theorem listed_ne_log (listed : file ∈ store.listing tree) : store.tombstoneLog ≠ file.place :=
  ne_log_of_artifact (mem_listing.mp listed).2.1

/-- The base of a store that holds a file is a directory. -/
theorem base_of_listed (listed : file ∈ store.listing tree) : tree.node? store.base = some .dir := by
  obtain ⟨inside, -, data, held, -⟩ := mem_listing.mp listed
  obtain ⟨rest, inner, split⟩ := FileTree.isBelow_iff.mp inside
  rw [split] at held
  exact FileTree.node?_prefix _ _ inner held

theorem sizeAt_file {place : Location} (inside : FileTree.isBelow store.base place = true)
    (named : isArtifactName (place.getLastD "") = true) (data : Bytes) (mtime : Int) :
    sizeAt store place (.file data mtime) = data.length := by
  simp only [sizeAt, artifactFile, if_pos inside, if_pos named, Option.map_some, Option.getD_some]

/-- What a listed file adds to the size. -/
theorem sizeAt_listed (listed : file ∈ store.listing tree) :
    ((tree.nodes.lookup file.place).map (sizeAt store file.place)).getD 0 = file.size := by
  obtain ⟨inside, named, data, held, size⟩ := mem_listing.mp listed
  rw [tree.node?_of_ne (FileTree.ne_nil_of_isFile (listed_isFile listed))] at held
  rw [held, Option.map_some, Option.getD_some, sizeAt_file inside named, size]

/-- One eviction removes one file, and logs it. -/
theorem Evicted.one (reads : ∀ hashHex (size : Nat) evictedAtNs,
      bytesOf (tombstoneLine hashHex size evictedAtNs) = some (size : Int))
    (loggedNs : Location → Int) (listed : file ∈ store.listing tree) :
    Evicted store bytesOf tree [file] (store.evict loggedNs tree file) := by
  have isFile := listed_isFile listed
  have apart := listed_ne_log listed
  have unlinked : ∀ place, place ≠ file.place →
      (tree.unlink file.place).node? place = tree.node? place := by
    intro place other
    rw [FileTree.node?_unlink isFile, if_neg other.symm]
  have base : (tree.unlink file.place).node? store.base = some .dir := by
    rw [unlinked, base_of_listed listed]
    intro same
    obtain ⟨-, -, data, held, -⟩ := mem_listing.mp listed
    rw [← same, base_of_listed listed] at held
    cases held
  have log := unlinked store.tombstoneLog apart
  refine ⟨?_, ?_, ?_, ?_, ?_, ?_⟩
  · intro other member
    rw [List.mem_singleton.mp member, evict, recordTombstone_node? _ _ apart,
      FileTree.node?_unlink isFile, if_pos rfl]
  · intro place other elsewhere
    rw [evict, recordTombstone_node? _ _ other.symm]
    exact unlinked place (elsewhere file (List.mem_singleton_self _)).symm
  · intro present
    apply recordTombstone_isFile
    rwa [FileTree.isFile_iff_node, log, ← FileTree.isFile_iff_node]
  · rw [evict, total_recordTombstone, totalSizeBytes_eq, totalSizeBytes_eq,
      FileTree.total_unlink _ isFile, sizeAt_listed listed, bytesIn, List.map_singleton,
      List.sum_singleton]
  · intro ready
    obtain ⟨-, -, -, later⟩ := recordTombstone_log reads base (ready.congr log) file (loggedNs file.place)
    exact later
  · intro ready
    obtain ⟨before, sum, added, -⟩ := recordTombstone_log reads base (ready.congr log) file
      (loggedNs file.place)
    rw [evictedBytes_congr log] at sum
    rw [evict, added, sum, bytesIn, List.map_singleton, List.sum_singleton]
    rfl

theorem Evicted.cons {files : List StoredFile} {mid room : FileTree}
    (first : Evicted store bytesOf tree [file] mid) (later : Evicted store bytesOf mid files room)
    (apart : store.tombstoneLog ≠ file.place) (others : ∀ other ∈ files, other.place ≠ file.place) :
    Evicted store bytesOf tree (file :: files) room where
  gone := by
    intro other member
    rcases List.mem_cons.mp member with rfl | member
    · rw [later.kept _ apart.symm others]
      exact first.gone other (List.mem_singleton_self _)
    · exact later.gone other member
  kept := by
    intro place other elsewhere
    rw [later.kept place other fun old member => elsewhere old (List.mem_cons_of_mem _ member)]
    apply first.kept place other
    intro old member
    rw [List.mem_singleton.mp member]
    exact elsewhere file List.mem_cons_self
  log := fun present => later.log (first.log present)
  size := by
    rw [later.size, first.size, bytesIn_cons, bytesIn_cons]
    simp only [bytesIn, List.map_nil, List.sum_nil]
    omega
  ready := fun ready => later.ready (first.ready ready)
  logged := by
    intro ready
    obtain ⟨before, sum⟩ := @evictedBytes_of_ready _ _ bytesOf ready
    rw [later.logged (first.ready ready), first.logged ready, sum, bytesIn_cons, bytesIn_cons]
    simp only [Except.map, bytesIn, List.map_nil, List.sum_nil, Except.ok.injEq]
    omega

/-- A file that is not removed stays listed. -/
theorem Evicted.listed {files : List StoredFile} {room : FileTree}
    (evicted : Evicted store bytesOf tree files room) (listed : file ∈ store.listing tree)
    (others : ∀ other ∈ files, other.place ≠ file.place) : file ∈ store.listing room := by
  obtain ⟨inside, named, data, held, size⟩ := mem_listing.mp listed
  rw [← evicted.kept _ (listed_ne_log listed).symm others] at held
  exact mem_listing.mpr ⟨inside, named, data, held, size⟩

/-- Evicting listed files, one after the other. -/
theorem evicted_foldl (reads : ∀ hashHex (size : Nat) evictedAtNs,
      bytesOf (tombstoneLine hashHex size evictedAtNs) = some (size : Int))
    (loggedNs : Location → Int) (files : List StoredFile)
    (listed : ∀ file ∈ files, file ∈ store.listing tree)
    (distinct : (files.map StoredFile.place).Nodup) :
    Evicted store bytesOf tree files (files.foldl (store.evict loggedNs) tree) := by
  induction files generalizing tree with
  | nil => exact Evicted.nil
  | cons file rest ih =>
      rw [List.map_cons, List.nodup_cons] at distinct
      have here := listed file List.mem_cons_self
      have others : ∀ other ∈ rest, other.place ≠ file.place := by
        intro other member same
        exact distinct.1 (same ▸ List.mem_map_of_mem member)
      have first : Evicted store bytesOf tree [file] (store.evict loggedNs tree file) :=
        Evicted.one reads loggedNs here
      refine first.cons (ih ?_ distinct.2) (listed_ne_log here) others
      intro other member
      apply first.listed (listed other (List.mem_cons_of_mem _ member))
      intro removed same
      rw [List.mem_singleton.mp same]
      exact (others other member).symm

theorem oldestFirst_perm (scan : Scan) : (store.oldestFirst scan tree).Perm (store.listing tree) :=
  (List.perm_insertionSort _ _).trans (scan.perm _)

theorem oldestFirst_sorted (scan : Scan) : (store.oldestFirst scan tree).Pairwise
    fun first second => first.mtime ≤ second.mtime := by
  have total : Std.Total fun first second : StoredFile => first.mtime ≤ second.mtime :=
    ⟨fun first second => le_total first.mtime second.mtime⟩
  have trans : IsTrans StoredFile fun first second => first.mtime ≤ second.mtime :=
    ⟨fun _ _ _ => le_trans⟩
  exact List.pairwise_insertionSort _ _

theorem bytesIn_perm {files others : List StoredFile} (perm : files.Perm others) :
    bytesIn files = bytesIn others := (perm.map _).sum_eq

/-- Evicting a prefix of the files in their order of eviction. -/
theorem evicted_take (reads : ∀ hashHex (size : Nat) evictedAtNs,
      bytesOf (tombstoneLine hashHex size evictedAtNs) = some (size : Int))
    (loggedNs : Location → Int) (scan : Scan) (n : Nat) :
    Evicted store bytesOf tree ((store.oldestFirst scan tree).take n)
      (((store.oldestFirst scan tree).take n).foldl (store.evict loggedNs) tree) := by
  apply evicted_foldl reads
  · intro file member
    exact (oldestFirst_perm scan).mem_iff.mp (List.mem_of_mem_take member)
  · have distinct := ((oldestFirst_perm scan).map StoredFile.place).nodup_iff.mpr
      (@listing_distinct store tree)
    exact distinct.sublist ((List.take_sublist _ _).map _)

/-- An eviction that can help removes a shortest prefix that makes the data fit. -/
theorem evictToFit_eq {maxBytes : Int} (capped : store.maxBytes = some maxBytes)
    (reads : ∀ hashHex (size : Nat) evictedAtNs,
      bytesOf (tombstoneLine hashHex size evictedAtNs) = some (size : Int))
    (tree : FileTree) (scan : Scan) (loggedNs : Location → Int) {incoming : Int}
    (small : incoming ≤ maxBytes) : ∃ n room freed,
      store.evictToFit tree incoming scan loggedNs = (room, freed) ∧
      Evicted store bytesOf tree ((store.oldestFirst scan tree).take n) room ∧
      store.sizeAfter tree (store.oldestFirst scan tree) n + incoming ≤ maxBytes ∧
      (∀ m < n, maxBytes < store.sizeAfter tree (store.oldestFirst scan tree) m + incoming) ∧
      (n = 0 → room = tree) := by
  have sizes : bytesIn (store.oldestFirst scan tree) = store.totalSizeBytes tree :=
    bytesIn_perm (oldestFirst_perm scan)
  obtain ⟨n, -, result, stops, needed⟩ := store.evictLoop_eq (maxBytes - incoming) loggedNs
    (store.oldestFirst scan tree) tree (bytesIn (store.oldestFirst scan tree)) 0
  rw [sizes] at stops needed
  refine ⟨n, _, 0 + bytesIn ((store.oldestFirst scan tree).take n), ?_,
    evicted_take reads loggedNs scan n, ?_, ?_, ?_⟩
  · unfold evictToFit
    rw [capped]
    dsimp only
    rw [if_neg (by omega)]
    exact result
  · rw [sizeAfter]
    rcases stops with fits | all
    · omega
    · rw [all, List.take_length, sizes]
      omega
  · intro m before
    have still := needed m before
    rw [sizeAfter]
    omega
  · rintro rfl
    rfl

/-- The capacity check refuses and leaves everything, or removes a shortest prefix. -/
theorem makeRoom_cases {maxBytes : Int} (capped : store.maxBytes = some maxBytes)
    (reads : ∀ hashHex (size : Nat) evictedAtNs,
      bytesOf (tombstoneLine hashHex size evictedAtNs) = some (size : Int))
    (tree : FileTree) (call : StoreCall) :
    (∃ error, store.makeRoom tree call = (tree, some error) ∧ error.isFull = true) ∨
      ∃ n room, store.makeRoom tree call = (room, none) ∧
        Evicted store bytesOf tree ((store.oldestFirst call.scan tree).take n) room ∧
        store.sizeAfter tree (store.oldestFirst call.scan tree) n + call.data.length ≤ maxBytes ∧
        (∀ m < n, maxBytes <
          store.sizeAfter tree (store.oldestFirst call.scan tree) m + call.data.length) ∧
        (n = 0 → room = tree) ∧
        (0 < n → store.evictWhenFull = true ∧ call.data.length ≤ maxBytes) := by
  unfold makeRoom
  rw [capped]
  dsimp only
  by_cases full : maxBytes < store.totalSizeBytes tree + call.data.length
  · rw [if_pos full]
    by_cases evicting : store.evictWhenFull = true
    · rw [if_pos evicting]
      by_cases small : (call.data.length : Int) ≤ maxBytes
      · obtain ⟨n, room, freed, result, evicted, fits, needed, kept⟩ :=
          evictToFit_eq capped reads tree call.scan call.loggedNs small
        have left : store.totalSizeBytes room + call.data.length ≤ maxBytes := by
          rw [evicted.size]
          exact fits
        rw [result]
        dsimp only
        rw [if_neg (by omega)]
        exact Or.inr ⟨n, room, rfl, evicted, fits, needed, kept, fun _ => ⟨evicting, small⟩⟩
      · have unable : store.evictToFit tree call.data.length call.scan call.loggedNs = (tree, 0) := by
          unfold evictToFit
          rw [capped]
          dsimp only
          rw [if_pos (by omega)]
        rw [unable]
        dsimp only
        rw [if_pos full]
        exact Or.inl ⟨_, rfl, rfl⟩
    · rw [if_neg evicting]
      exact Or.inl ⟨_, rfl, rfl⟩
  · rw [if_neg full]
    refine Or.inr ⟨0, tree, rfl, Evicted.nil, ?_, by simp, fun _ => rfl, by simp⟩
    rw [sizeAfter, List.take_zero, bytesIn, List.map_nil, List.sum_nil]
    omega

end Eviction

/-! Writing an artifact. -/

section Writing

variable {store : ArtifactStore} {tree room made : FileTree} {bytesOf : String → Option Int}
  {hashHex : String}

theorem hexName_isArtifact (hex : IsHexName hashHex) : isArtifactName hashHex = true := by
  have dotless := @not_mem_of_digits _ hex.2 '.' (by decide)
  rw [isArtifactName, Bool.and_eq_true, decide_eq_true_eq, Bool.not_eq_true', decide_eq_false_iff_not]
  constructor
  · intro head
    exact dotless (List.mem_of_mem_head? (by rw [head]; rfl))
  · intro inside
    exact dotless (inside.subset (by decide))

theorem artifactAt_dropLast : (store.artifactAt hashHex).dropLast = store.base ++ [shard hashHex] := by
  rw [artifactAt, List.append_cons, List.dropLast_concat]

/-- An artifact that does not exist is nowhere in the tree. -/
theorem node?_absent (hex : IsHexName hashHex)
    (absent : (store.contains tree hashHex).result = .ok false) :
    tree.node? (store.artifactAt hashHex) = none := by
  cases held : tree.node? (store.artifactAt hashHex) with
  | none => rfl
  | some node =>
      unfold contains at absent
      rw [hex.path_eq, FileTree.find_of_node (hex.artifactAt_plain store) (hex.artifactAt_clean store)
        held] at absent
      cases absent

theorem log_not_above (hex : IsHexName hashHex) :
    ¬store.tombstoneLog <+: store.base ++ [shard hashHex] := by
  intro within
  have same := within.eq_of_length (by simp [tombstoneLog])
  rw [tombstoneLog, List.append_cancel_left_eq, List.cons_eq_cons] at same
  have dotless := @not_mem_of_digits _ hex.shard_digits '.' (by decide)
  rw [← String.toList_ofList (l := hashHex.toList.take 2), ← shard, ← same.1] at dotless
  exact dotless (by decide)

/-- What writing an artifact leaves, with the directories it needs. -/
structure Written (store : ArtifactStore) (hashHex : String) (call : StoreCall)
    (room after : FileTree) : Prop where
  held : after.node? (store.artifactAt hashHex) = some (.file call.data call.now)
  others : ∀ place, place ≠ store.artifactAt hashHex → after.node? place = room.node? place ∨
    place <+: store.base ++ [shard hashHex] ∧ room.node? place = none ∧ after.node? place = some .dir
  size : store.totalSizeBytes after = store.totalSizeBytes room + call.data.length

variable {call : StoreCall}

theorem written (hex : IsHexName hashHex) (absent : room.node? (store.artifactAt hashHex) = none)
    (done : FileTree.makeDirs room [] (store.base ++ [shard hashHex]) = .ok made) :
    Written store hashHex call room
      (made.put (store.artifactAt hashHex) (.file call.data call.now)) := by
  obtain ⟨parent, others⟩ := FileTree.node?_makeDirs (by rfl) done
  rw [List.nil_append] at parent others
  have missing : made.node? (store.artifactAt hashHex) = none := by
    rcases others (store.artifactAt hashHex) with same | ⟨within, -, -⟩
    · rw [same, absent]
    · have length := within.length_le
      simp [artifactAt] at length
  have location : store.artifactAt hashHex = (store.base ++ [shard hashHex]) ++ [hashHex] := by
    rw [artifactAt, List.append_cons]
  have takes : made.Takes (store.artifactAt hashHex) (.file call.data call.now) := by
    rw [location] at missing ⊢
    exact FileTree.takes_missing parent missing
  refine ⟨?_, ?_, ?_⟩
  · rw [FileTree.node?_put takes, if_pos rfl]
  · intro place other
    rw [FileTree.node?_put_of_ne other.symm]
    exact others place
  · have inside : FileTree.isBelow store.base (store.artifactAt hashHex) = true :=
      FileTree.isBelow_iff.mpr ⟨_, List.cons_ne_nil _ _, rfl⟩
    have named : isArtifactName ((store.artifactAt hashHex).getLastD "") = true := by
      rw [location, List.getLastD_concat]
      exact hexName_isArtifact hex
    rw [made.node?_of_ne takes.1] at missing
    rw [totalSizeBytes_eq, FileTree.total_put _ takes, missing, sizeAt_file inside named,
      FileTree.total_makeDirs _ sizeAt_dir (by rfl) done, totalSizeBytes_eq]
    simp

/-- Once written, the data is read back. -/
theorem Written.read_back {crypto : Crypto} {after : FileTree} (hex : IsHexName hashHex)
    (named : crypto.hexdigest call.data = hashHex)
    (written : Written store hashHex call room after) :
    (store.get crypto after hashHex).result = .ok (some call.data) := by
  unfold get
  rw [hex.path_eq, FileTree.find_of_node (hex.artifactAt_plain store) (hex.artifactAt_clean store)
    written.held]
  dsimp only
  rw [if_neg (not_not.mpr named)]

theorem Written.log {after : FileTree} (hex : IsHexName hashHex)
    (written : Written store hashHex call room after) :
    after.node? store.tombstoneLog = room.node? store.tombstoneLog := by
  have apart : store.tombstoneLog ≠ store.artifactAt hashHex := by
    intro same
    have length := congrArg List.length same
    simp [tombstoneLog, artifactAt] at length
  rcases written.others _ apart with same | ⟨within, -, -⟩
  · exact same
  · exact absurd within (log_not_above hex)

theorem Written.isFile {after : FileTree} (written : Written store hashHex call room after)
    {place : Location} (other : place ≠ store.artifactAt hashHex) :
    after.isFile place = room.isFile place := by
  rw [Bool.eq_iff_iff, FileTree.isFile_iff_node, FileTree.isFile_iff_node]
  rcases written.others place other with same | ⟨-, before, now⟩
  · rw [same]
  · simp [before, now]

end Writing

/-! One call of `store`. -/

section Storing

variable {crypto : Crypto} {store : ArtifactStore} {tree : FileTree} {bytesOf : String → Option Int}
  {maxBytes : Int} {call : StoreCall}

/-- What a call of `store` does about data that is not there. -/
theorem storeData_cases (capped : store.maxBytes = some maxBytes)
    (reads : ∀ hashHex (size : Nat) evictedAtNs,
      bytesOf (tombstoneLine hashHex size evictedAtNs) = some (size : Int))
    (hex : IsHexName (crypto.hexdigest call.data))
    (absent : (store.contains tree (crypto.hexdigest call.data)).result = .ok false) :
    (∃ error, store.storeData crypto tree call = (tree, .error error) ∧ error.isFull = true) ∨
      ∃ n room, Evicted store bytesOf tree ((store.oldestFirst call.scan tree).take n) room ∧
        store.sizeAfter tree (store.oldestFirst call.scan tree) n + call.data.length ≤ maxBytes ∧
        (∀ m < n, maxBytes <
          store.sizeAfter tree (store.oldestFirst call.scan tree) m + call.data.length) ∧
        (n = 0 → room = tree) ∧
        (0 < n → store.evictWhenFull = true ∧ call.data.length ≤ maxBytes) ∧
        ((∃ error, store.storeData crypto tree call = (room, .error (.path error))) ∨
          ∃ after, store.storeData crypto tree call = (after, .ok (crypto.hexdigest call.data)) ∧
            Written store (crypto.hexdigest call.data) call room after) := by
  have nowhere := node?_absent hex absent
  unfold storeData
  dsimp only
  rw [absent, if_neg (by simp)]
  rcases makeRoom_cases capped reads tree call with
    ⟨error, refused, full⟩ | ⟨n, room, made, evicted, fits, needed, kept, evicting⟩
  · rw [refused]
    exact Or.inl ⟨error, rfl, full⟩
  · rw [made]
    dsimp only
    refine Or.inr ⟨n, room, evicted, fits, needed, kept, evicting, ?_⟩
    have missing : room.node? (store.artifactAt (crypto.hexdigest call.data)) = none := by
      by_cases removed : ∃ file ∈ (store.oldestFirst call.scan tree).take n,
          file.place = store.artifactAt (crypto.hexdigest call.data)
      · obtain ⟨file, member, same⟩ := removed
        rw [← same]
        exact evicted.gone file member
      · push Not at removed
        rw [evicted.kept _ ?_ removed, nowhere]
        intro same
        have length := congrArg List.length same
        simp [tombstoneLog, artifactAt] at length
    rw [hex.path_eq, artifactAt_dropLast]
    cases dirs : FileTree.makeDirs room [] (store.base ++ [shard (crypto.hexdigest call.data)]) with
    | error error => exact Or.inl ⟨error, rfl⟩
    | ok made => exact Or.inr ⟨_, rfl, written hex missing dirs⟩

/-- What `exists` answers. -/
theorem contains_cases (tree : FileTree) (hashHex : String) :
    (store.contains tree hashHex).result = .ok false ∨
      (store.contains tree hashHex).result = .ok true ∧
        ∃ place node, tree.find (store.path hashHex) = .ok (place, node) := by
  unfold contains
  cases found : tree.find (store.path hashHex) with
  | error error => exact Or.inl rfl
  | ok row => exact Or.inr ⟨rfl, row.1, row.2, rfl⟩

theorem storeData_present (present : (store.contains tree (crypto.hexdigest call.data)).result = .ok true) :
    store.storeData crypto tree call = (tree, .ok (crypto.hexdigest call.data)) := by
  unfold storeData
  dsimp only
  rw [if_pos present]

/-- A call of `store` never takes the store over its capacity. -/
theorem storeData_size (capped : store.maxBytes = some maxBytes)
    (reads : ∀ hashHex (size : Nat) evictedAtNs,
      bytesOf (tombstoneLine hashHex size evictedAtNs) = some (size : Int))
    (hex : IsHexName (crypto.hexdigest call.data)) (fits : store.totalSizeBytes tree ≤ maxBytes) :
    store.totalSizeBytes (store.storeData crypto tree call).1 ≤ maxBytes := by
  rcases @contains_cases store tree (crypto.hexdigest call.data) with absent | ⟨present, -⟩
  · rcases storeData_cases capped reads hex absent with
      ⟨error, refused, -⟩ | ⟨n, room, evicted, small, -, -, -, result⟩
    · rw [refused]
      exact fits
    · have left := evicted.size
      rw [sizeAfter] at small
      rcases result with ⟨error, failed⟩ | ⟨after, stored, written⟩
      · rw [failed]
        dsimp only
        omega
      · have grown := written.size
        rw [stored]
        dsimp only
        omega
  · rw [storeData_present present]
    exact fits

theorem sizeAt_nonneg (place : Location) (node : Node) : 0 ≤ sizeAt store place node := by
  unfold sizeAt
  split_ifs
  · cases artifactFile (place, node) with
    | none => exact le_refl 0
    | some file => exact Int.natCast_nonneg _
  · exact le_refl 0

/-- `get` removes at most one file. -/
theorem get_size (hashHex : String) :
    store.totalSizeBytes (store.get crypto tree hashHex).tree ≤ store.totalSizeBytes tree := by
  unfold get
  split
  · exact le_refl _
  · exact le_refl _
  · rename_i place data mtime found
    split_ifs with mismatch
    · have isFile := FileTree.isFile_of_node (FileTree.find_ok_iff.mp found).2.2
      rw [totalSizeBytes_eq, totalSizeBytes_eq, FileTree.total_unlink _ isFile]
      cases tree.nodes.lookup place with
      | none => simp
      | some node =>
          have weight := @sizeAt_nonneg store place node
          simpa using weight
    · exact le_refl _

/-- Every step keeps the capacity. -/
theorem step_size (sized : ∀ data, (crypto.blake3 data).length = 32)
    (capped : store.maxBytes = some maxBytes)
    (reads : ∀ hashHex (size : Nat) evictedAtNs,
      bytesOf (tombstoneLine hashHex size evictedAtNs) = some (size : Int))
    (fits : store.totalSizeBytes tree ≤ maxBytes) (event : Event) :
    store.totalSizeBytes (store.step crypto tree event) ≤ maxBytes := by
  cases event with
  | store call => exact storeData_size capped reads (isHexName_hexdigest crypto (sized call.data)) fits
  | get hashHex => exact (get_size hashHex).trans fits

/-- The files an eviction removed are the ones that are gone once the data is written. -/
theorem removed_iff {n : Nat} {room after : FileTree}
    (evicted : Evicted store bytesOf tree ((store.oldestFirst call.scan tree).take n) room)
    {fresh : Location} (missing : tree.node? fresh = none)
    (settled : ∀ place, place ≠ fresh → after.isFile place = room.isFile place) (place : Location) :
    (∃ file ∈ (store.oldestFirst call.scan tree).take n, file.place = place) ↔
      tree.isFile place = true ∧ after.isFile place = false := by
  have known : tree.isFile place = true → place ≠ fresh := by
    rintro isFile rfl
    obtain ⟨data, mtime, held⟩ := FileTree.isFile_iff_node.mp isFile
    rw [missing] at held
    cases held
  constructor
  · rintro ⟨file, member, rfl⟩
    have listed := (oldestFirst_perm call.scan).mem_iff.mp (List.mem_of_mem_take member)
    have isFile := listed_isFile listed
    refine ⟨isFile, ?_⟩
    rw [settled _ (known isFile), Bool.eq_false_iff]
    intro still
    obtain ⟨data, mtime, held⟩ := FileTree.isFile_iff_node.mp still
    rw [evicted.gone file member] at held
    cases held
  · rintro ⟨isFile, gone⟩
    rw [settled _ (known isFile)] at gone
    by_contra others
    push Not at others
    by_cases log : place = store.tombstoneLog
    · rw [log] at isFile gone
      rw [evicted.log isFile] at gone
      cases gone
    · rw [Bool.eq_false_iff, Ne, FileTree.isFile_iff_node, evicted.kept place log others,
        ← FileTree.isFile_iff_node] at gone
      exact gone isFile

/-- What the log holds once the data is written. -/
theorem logged_of_ready {n : Nat} {room after : FileTree}
    (ready : store.Ready crypto maxBytes tree call)
    (absent : (store.contains tree (crypto.hexdigest call.data)).result = .ok false)
    (evicted : Evicted store bytesOf tree ((store.oldestFirst call.scan tree).take n) room)
    (needed : ∀ m < n, maxBytes <
      store.sizeAfter tree (store.oldestFirst call.scan tree) m + call.data.length)
    (kept : n = 0 → room = tree)
    (evicting : 0 < n → store.evictWhenFull = true ∧ call.data.length ≤ maxBytes)
    (log : after.node? store.tombstoneLog = room.node? store.tombstoneLog) :
    (0 < n → ∃ before, store.evictedBytes bytesOf tree = .ok before) ∧
      store.evictedBytes bytesOf after = (store.evictedBytes bytesOf tree).map
        (· + bytesIn ((store.oldestFirst call.scan tree).take n)) := by
  rw [evictedBytes_congr log]
  rcases n.eq_zero_or_pos with rfl | some_gone
  · refine ⟨fun positive => absurd positive (lt_irrefl 0), ?_⟩
    rw [kept rfl, List.take_zero, bytesIn, List.map_nil, List.sum_nil]
    cases store.evictedBytes bytesOf tree <;> simp [Except.map]
  · have full := needed 0 some_gone
    rw [sizeAfter, List.take_zero, bytesIn, List.map_nil, List.sum_nil, Int.sub_zero] at full
    obtain ⟨evicts, small⟩ := evicting some_gone
    have log := ready.log evicts small full absent
    exact ⟨fun _ => evictedBytes_of_ready log, evicted.logged log⟩

/-- Data that is there already. -/
theorem storeLaw_present (ready : store.Ready crypto maxBytes tree call)
    (present : (store.contains tree (crypto.hexdigest call.data)).result = .ok true)
    {place : Location} {node : Node}
    (found : tree.find (store.path (crypto.hexdigest call.data)) = .ok (place, node)) :
    store.StoreLaw crypto bytesOf maxBytes tree call := by
  have result := storeData_present present
  obtain ⟨mtime, held⟩ := ready.named place node found
  refine ⟨?_, ?_, ?_⟩
  · intro hashHex stored
    rw [result] at stored ⊢
    cases stored
    unfold get
    rw [found, held]
    dsimp only
    rw [if_neg (not_not.mpr rfl)]
  · intro error refused
    rw [result] at refused
    cases refused
  · intro _ absent
    rw [present] at absent
    cases absent

/-- What `store` owes when it is ready, it does. -/
theorem storeLaw (sized : ∀ data, (crypto.blake3 data).length = 32)
    (capped : store.maxBytes = some maxBytes)
    (reads : ∀ hashHex (size : Nat) evictedAtNs,
      bytesOf (tombstoneLine hashHex size evictedAtNs) = some (size : Int))
    (ready : store.Ready crypto maxBytes tree call) :
    store.StoreLaw crypto bytesOf maxBytes tree call := by
  have hex := isHexName_hexdigest crypto (sized call.data)
  rcases @contains_cases store tree (crypto.hexdigest call.data) with
    absent | ⟨present, place, node, found⟩
  · have missing := node?_absent hex absent
    rcases storeData_cases capped reads hex absent with
      ⟨error, refused, full⟩ | ⟨n, room, evicted, fits, needed, kept, evicting, result⟩
    · refine ⟨?_, ?_, ?_⟩
      · intro hashHex stored
        rw [refused] at stored
        cases stored
      · intro _ _ _
        rw [refused]
      · intro free _
        rw [free error (by rw [refused])] at full
        cases full
    · have room_made : ∀ after, (∀ place, place ≠ store.artifactAt (crypto.hexdigest call.data) →
            after.isFile place = room.isFile place) →
          after.node? store.tombstoneLog = room.node? store.tombstoneLog →
          store.MadeRoom bytesOf maxBytes tree call.data.length after := by
        intro after settled log
        exact ⟨store.oldestFirst call.scan tree, n, oldestFirst_perm _, oldestFirst_sorted _, fits,
          needed, removed_iff evicted missing settled,
          logged_of_ready ready absent evicted needed kept evicting log⟩
      rcases result with ⟨error, failed⟩ | ⟨after, stored, written⟩
      · refine ⟨?_, ?_, ?_⟩
        · intro hashHex stored
          rw [failed] at stored
          cases stored
        · intro other refused full
          rw [failed] at refused
          cases refused
          cases full
        · intro _ _
          rw [failed]
          exact room_made room (fun _ _ => rfl) rfl
      · refine ⟨?_, ?_, ?_⟩
        · intro hashHex result
          rw [stored] at result ⊢
          cases result
          exact written.read_back hex rfl
        · intro other refused
          rw [stored] at refused
          cases refused
        · intro _ _
          rw [stored]
          exact room_made after (fun place other => written.isFile other) (written.log hex)
  · exact storeLaw_present ready present found

end Storing

end ArtifactStore

/-- In every run whose calls of `store` are ready, the store stays within its capacity
and every call of `store` does what it owes. -/
theorem store_within_capacity (crypto : Crypto) (sized : ∀ data, (crypto.blake3 data).length = 32)
    (store : ArtifactStore) (maxBytes : Int) (capped : store.maxBytes = some maxBytes)
    (bytesOf : String → Option Int)
    (reads : ∀ hashHex (size : Nat) evictedAtNs,
      bytesOf (tombstoneLine hashHex size evictedAtNs) = some (size : Int))
    (tree : FileTree) (fits : store.totalSizeBytes tree ≤ maxBytes)
    (events : List ArtifactStore.Event)
    (ready : Run.Admissible (store.step crypto) (store.Admits crypto maxBytes) tree events)
    (front back : List ArtifactStore.Event) (split : events = front ++ back) :
    store.totalSizeBytes (Run.run (store.step crypto) tree front) ≤ maxBytes ∧
      ∀ call rest, back = .store call :: rest →
        store.StoreLaw crypto bytesOf maxBytes (Run.run (store.step crypto) tree front) call := by
  constructor
  · apply Run.kept_run (store.step crypto) fun state => store.totalSizeBytes state ≤ maxBytes
    · intro state event within
      exact ArtifactStore.step_size sized capped reads within event
    · exact fits
  · rintro call rest rfl
    exact ArtifactStore.storeLaw sized capped reads
      ((Run.admissible_iff_steps _ _ _ _).mp ready front (.store call) rest split)

namespace Sample

/-- A hash of 32 bytes: the data, cut or filled up. -/
def paddedCrypto : Crypto where
  blake3 data := (data ++ List.replicate 32 0).take 32
  ed25519Verify _ _ _ := false

/-- The number before the last key of the line. -/
def tombstoneBytes (line : String) : Option Int :=
  let behind := ((line.toList.reverse.drop 1).dropWhile CanonJson.isNumeral).drop 19
  some (Nat.ofDigitChars 10 (behind.takeWhile Char.isDigit).reverse 0)

/-- Read from its end, a line is the time, the last key, and the number. -/
theorem tombstoneLine_reverse (hashHex : String) (size : Nat) (evictedAtNs : Int) : ∃ rest,
    (tombstoneLine hashHex size evictedAtNs).toList.reverse = '\x7d' ::
      (evictedAtNs.repr.toList.reverse ++ (" :\"sn_ta_detcive\" ,".toList ++
        ((Nat.toDigits 10 size).reverse ++ ' ' :: rest))) := by
  have size_chars : (Int.repr (size : Int)).toList = Nat.toDigits 10 size := by
    simp [Int.repr, Nat.repr]
  have key : ", \"evicted_at_ns\": ".toList.reverse = " :\"sn_ta_detcive\" ,".toList := by decide
  have key' : ", \"bytes\": ".toList.reverse = ' ' :: ":\"setyb\" ,".toList := by decide
  have last : "\x7d".toList.reverse = ['\x7d'] := by decide
  rw [tombstoneLine]
  simp only [String.toList_append, List.reverse_append, size_chars, key, key', last,
    List.cons_append, List.nil_append]
  exact ⟨_, rfl⟩

theorem tombstoneBytes_line (hashHex : String) (size : Nat) (evictedAtNs : Int) :
    tombstoneBytes (tombstoneLine hashHex size evictedAtNs) = some (size : Int) := by
  obtain ⟨rest, line⟩ := tombstoneLine_reverse hashHex size evictedAtNs
  have numeral : ∀ c ∈ evictedAtNs.repr.toList.reverse, CanonJson.isNumeral c = true := by
    intro c member
    exact CanonJson.repr_numeral _ c (List.mem_reverse.mp member)
  have digits : ∀ c ∈ (Nat.toDigits 10 size).reverse, c.isDigit = true := by
    intro c member
    exact Nat.isDigit_of_mem_toDigits (by decide) (by decide) (List.mem_reverse.mp member)
  have blank : (' ' :: rest).takeWhile Char.isDigit = [] := rfl
  rw [tombstoneBytes, line, List.drop_one, List.tail_cons, List.dropWhile_append_of_pos numeral]
  generalize tail : (Nat.toDigits 10 size).reverse ++ ' ' :: rest = behind
  have stop : ((" :\"sn_ta_detcive\" ,".toList ++ behind).dropWhile CanonJson.isNumeral).drop 19 =
      behind := rfl
  rw [stop, ← tail, List.takeWhile_append_of_pos digits, blank, List.append_nil,
    List.reverse_reverse, Nat.ofDigitChars_ten_toDigits]

/-- One stored artifact of six bytes, and room for four more. -/
def keptArtifact : FileTree :=
  let hashHex := paddedCrypto.hexdigest [1, 2, 3, 4, 5, 6]
  ((FileTree.empty.put ["cas"] .dir).put ["cas", shard hashHex] .dir).put
    (artifactStore.artifactAt hashHex) (.file [1, 2, 3, 4, 5, 6] 1)

def firstCall : StoreCall := ⟨[7, 7, 7, 7, 7], ⟨id, fun _ => List.Perm.refl _⟩, fun _ => 2, 2⟩

def secondCall : StoreCall := ⟨[8, 8, 8, 8, 8, 8], ⟨id, fun _ => List.Perm.refl _⟩, fun _ => 3, 3⟩

/-- A corrupted file under the name of the hash of other data. -/
def corruptArtifact : FileTree :=
  let hashHex := paddedCrypto.hexdigest [7, 7, 7, 7, 7]
  ((FileTree.empty.put ["cas"] .dir).put ["cas", shard hashHex] .dir).put
    (artifactStore.artifactAt hashHex) (.file [9] 1)

end Sample

theorem store_within_capacity_sample :
    Sample.artifactStore.totalSizeBytes (Run.run (Sample.artifactStore.step Sample.paddedCrypto)
        Sample.keptArtifact [.store Sample.firstCall]) ≤ 10 ∧
      Sample.artifactStore.StoreLaw Sample.paddedCrypto Sample.tombstoneBytes 10
        (Run.run (Sample.artifactStore.step Sample.paddedCrypto) Sample.keptArtifact
          [.store Sample.firstCall]) Sample.secondCall := by
  have first : Sample.artifactStore.Ready Sample.paddedCrypto 10 Sample.keptArtifact
      Sample.firstCall := by
    refine ⟨?_, fun _ _ _ _ => Or.inl (by decide +kernel)⟩
    intro place node found
    have absent : Sample.keptArtifact.find (Sample.artifactStore.path (Sample.paddedCrypto.hexdigest
        Sample.firstCall.data)) = .error .notFound := by
      decide +kernel
    rw [absent] at found
    cases found
  have second : Sample.artifactStore.Ready Sample.paddedCrypto 10
      (Sample.artifactStore.step Sample.paddedCrypto Sample.keptArtifact (.store Sample.firstCall))
      Sample.secondCall := by
    refine ⟨?_, fun _ _ _ _ => Or.inr ⟨tombstoneLine (Sample.paddedCrypto.hexdigest
      [1, 2, 3, 4, 5, 6]) 6 2 ++ "\n", 2, by decide +kernel, Or.inr ⟨(tombstoneLine
        (Sample.paddedCrypto.hexdigest [1, 2, 3, 4, 5, 6]) 6 2).toList, by decide +kernel⟩⟩⟩
    intro place node found
    have absent : (Sample.artifactStore.step Sample.paddedCrypto Sample.keptArtifact
        (.store Sample.firstCall)).find (Sample.artifactStore.path (Sample.paddedCrypto.hexdigest
          Sample.secondCall.data)) = .error .notFound := by
      decide +kernel
    rw [absent] at found
    cases found
  have along := store_within_capacity Sample.paddedCrypto (by simp [Sample.paddedCrypto])
    Sample.artifactStore 10 rfl Sample.tombstoneBytes Sample.tombstoneBytes_line Sample.keptArtifact
    (by decide +kernel) [.store Sample.firstCall, .store Sample.secondCall] ⟨first, second, trivial⟩
    [.store Sample.firstCall] [.store Sample.secondCall] rfl
  exact ⟨along.1, along.2 _ _ rfl⟩

/-- `store` answers with the hash of data it does not hold: `get` finds the corrupted file
and deletes it. -/
theorem corrupted_artifact_kept :
    Sample.artifactStore.totalSizeBytes Sample.corruptArtifact ≤ 10 ∧
      (Sample.artifactStore.storeData Sample.paddedCrypto Sample.corruptArtifact
        Sample.firstCall).2 = .ok (Sample.paddedCrypto.hexdigest Sample.firstCall.data) ∧
      (Sample.artifactStore.get Sample.paddedCrypto (Sample.artifactStore.storeData
        Sample.paddedCrypto Sample.corruptArtifact Sample.firstCall).1
          (Sample.paddedCrypto.hexdigest Sample.firstCall.data)).result = .ok none ∧
      ¬Sample.artifactStore.StoreLaw Sample.paddedCrypto Sample.tombstoneBytes 10
        Sample.corruptArtifact Sample.firstCall := by
  have returned : (Sample.artifactStore.storeData Sample.paddedCrypto Sample.corruptArtifact
      Sample.firstCall).2 = .ok (Sample.paddedCrypto.hexdigest Sample.firstCall.data) := by
    rw [ArtifactStore.storeData_present (by decide +kernel)]
  have lost : (Sample.artifactStore.get Sample.paddedCrypto (Sample.artifactStore.storeData
      Sample.paddedCrypto Sample.corruptArtifact Sample.firstCall).1
        (Sample.paddedCrypto.hexdigest Sample.firstCall.data)).result = .ok none := by
    decide +kernel
  refine ⟨by decide +kernel, returned, lost, fun law => ?_⟩
  have read := law.readBack _ returned
  rw [lost] at read
  cases read

end Gyza
