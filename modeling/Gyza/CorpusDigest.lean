import Gyza.Crypto
import Gyza.Lib.PrefixCode
import Gyza.Lib.KeyedSort

/-! The digest of a retrieval corpus: `corpus_snapshot_digest` of `gyza/verification/respec.py`.

The items are sorted by their ids alone, and Python's sort keeps items with the same id in the
order in which they came. -/

namespace Gyza.CorpusDigest

open Hex (Bytes)
open PrefixCode (PrefixFree)

structure Item (Vec : Type) where
  eid : String
  vec : Vec
  ok : Bool

/-- `struct.pack(">I", n)`, which raises for a number of more than four bytes. -/
def packI (n : Nat) : Option Bytes :=
  if n < 2 ^ 32 then some (PrefixCode.bigEndian 4 n) else none

/-- What the hash is updated with for one item: tags, lengths and bytes. -/
def updates (bytes : Bytes × Bytes × Bool) : Option Bytes :=
  match PrefixCode.block packI bytes.1, PrefixCode.block packI bytes.2.1 with
  | some idb, some b => some (0x49 :: (idb ++ 0x56 :: (b ++ [0x53, if bytes.2.2 then 1 else 0])))
  | _, _ => none

section Digest

/-! `float32Bytes` is `np.asarray(vec, dtype=np.float32).tobytes()`. -/

variable (crypto : Crypto) {Vec : Type} (float32Bytes : Vec → Bytes)

/-- The id, the vector and the flag of an item as bytes. -/
def triple (item : Item Vec) : Bytes × Bytes × Bool :=
  (Hex.utf8 item.eid, float32Bytes item.vec, item.ok)

/-- The bytes that are hashed. -/
def preimage (items : List (Item Vec)) : Option Bytes :=
  (KeyedSort.sortBy Item.eid items).foldlM
    (fun h item => (updates (triple float32Bytes item)).map (h ++ ·)) []

def corpusSnapshotDigest (items : List (Item Vec)) : Option String :=
  (preimage float32Bytes items).map crypto.hexdigest

structure Fits (item : Item Vec) : Prop where
  id : (Hex.utf8 item.eid).length < 2 ^ 32
  vec : (float32Bytes item.vec).length < 2 ^ 32

end Digest

theorem packI_some {n : Nat} {header : Bytes} (packed : packI n = some header) :
    n < 256 ^ 4 ∧ header = PrefixCode.bigEndian 4 n := by
  rw [packI] at packed
  split_ifs at packed with small
  exact ⟨small, (Option.some.inj packed).symm⟩

theorem packI_prefixFree : PrefixFree packI := by
  apply PrefixCode.prefixFree_of_length 4
  · intro n header packed
    rw [(packI_some packed).2, PrefixCode.length_bigEndian]
  · intro n other header packed packed'
    obtain ⟨small, rfl⟩ := packI_some packed
    obtain ⟨small', same⟩ := packI_some packed'
    exact PrefixCode.bigEndian_injective small small' same

theorem block_packI {content : Bytes} (small : content.length < 2 ^ 32) :
    PrefixCode.block packI content =
      some (PrefixCode.bigEndian 4 content.length ++ content) := by
  rw [PrefixCode.block, packI, if_pos small, Option.map_some]

theorem updates_some {bytes : Bytes × Bytes × Bool} {text : Bytes}
    (written : updates bytes = some text) :
    ∃ idb b, PrefixCode.block packI bytes.1 = some idb ∧
      PrefixCode.block packI bytes.2.1 = some b ∧
        text = 0x49 :: (idb ++ 0x56 :: (b ++ [0x53, if bytes.2.2 then 1 else 0])) := by
  rw [updates] at written
  split at written
  next idb b first second => exact ⟨idb, b, first, second, (Option.some.inj written).symm⟩
  next => cases written

theorem updates_prefixFree : PrefixFree updates := by
  intro item other text text' rest rest' written written' same
  obtain ⟨idb, b, first, second, rfl⟩ := updates_some written
  obtain ⟨idb', b', first', second', rfl⟩ := updates_some written'
  simp only [List.cons_append, List.append_assoc, List.cons.injEq, true_and] at same
  obtain ⟨ids, vectors⟩ := packI_prefixFree.block first first' same
  obtain ⟨contents, flags⟩ := packI_prefixFree.block second second' (List.cons.inj vectors).2
  simp only [List.nil_append, List.cons.injEq, true_and] at flags
  have same_flag : item.2.2 = other.2.2 := by
    cases left : item.2.2 <;> cases right : other.2.2 <;> simp_all
  exact ⟨Prod.ext ids (Prod.ext contents same_flag), flags.2⟩

theorem updates_ne_nil (bytes : Bytes × Bytes × Bool) : updates bytes ≠ some [] := by
  intro written
  obtain ⟨idb, b, -, -, empty⟩ := updates_some written
  cases empty

section Corpus

variable (crypto : Crypto) {Vec : Type} (float32Bytes : Vec → Bytes)

theorem preimage_eq (items : List (Item Vec)) :
    preimage float32Bytes items = PrefixCode.encodeAll updates
      ((KeyedSort.sortBy Item.eid items).map (triple float32Bytes)) := by
  have written := PrefixCode.foldlM_append updates
    ((KeyedSort.sortBy Item.eid items).map (triple float32Bytes)) []
  rw [List.foldlM_map] at written
  rw [preimage, written]
  simp

theorem preimage_isSome {items : List (Item Vec)} (fits : ∀ item ∈ items, Fits float32Bytes item) :
    (preimage float32Bytes items).isSome := by
  rw [preimage_eq]
  apply PrefixCode.encodeAll_isSome
  intro bytes member
  obtain ⟨item, inside, rfl⟩ := List.mem_map.mp member
  have small := fits item ((KeyedSort.sortBy_perm _ _).mem_iff.mp inside)
  rw [updates, triple, block_packI small.id, block_packI small.vec]
  rfl

/-- The bytes show the sorted items. -/
theorem preimage_eq_iff {items others : List (Item Vec)}
    (fits : ∀ item ∈ items, Fits float32Bytes item) :
    preimage float32Bytes items = preimage float32Bytes others ↔
      (KeyedSort.sortBy Item.eid items).map (triple float32Bytes) =
        (KeyedSort.sortBy Item.eid others).map (triple float32Bytes) := by
  obtain ⟨whole, written⟩ := Option.isSome_iff_exists.mp (preimage_isSome float32Bytes fits)
  constructor
  · intro same
    have written' := same.symm.trans written
    rw [preimage_eq] at written written'
    exact PrefixCode.encodeAll_injective updates_prefixFree updates_ne_nil written written'
  · intro same
    rw [preimage_eq, preimage_eq, same]

/-- Items with one id have the same vector and the same flag. -/
def Consistent (items : List (Item Vec)) : Prop :=
  ∀ left ∈ items, ∀ right ∈ items, left.eid = right.eid →
    float32Bytes left.vec = float32Bytes right.vec ∧ left.ok = right.ok

variable {float32Bytes}

theorem Consistent.alike {items : List (Item Vec)} (consistent : Consistent float32Bytes items) :
    ∀ left ∈ items, ∀ right ∈ items, left.eid = right.eid →
      triple float32Bytes left = triple float32Bytes right := by
  intro left inside right inside' same
  obtain ⟨vectors, flags⟩ := consistent left inside right inside' same
  rw [triple, triple, same, vectors, flags]

theorem Consistent.sorted_eq {items others : List (Item Vec)}
    (consistent : Consistent float32Bytes items)
    (moved : (items.map (triple float32Bytes)).Perm (others.map (triple float32Bytes))) :
    (KeyedSort.sortBy Item.eid items).map (triple float32Bytes) =
      (KeyedSort.sortBy Item.eid others).map (triple float32Bytes) := by
  have shows : ∀ item : Item Vec, Function.invFun Hex.utf8 (triple float32Bytes item).1 =
      item.eid := fun item => Function.leftInverse_invFun Hex.utf8_injective item.eid
  exact KeyedSort.map_sortBy_eq Item.eid (triple float32Bytes)
    (fun bytes => Function.invFun Hex.utf8 bytes.1) shows consistent.alike moved

/-- If only the multiset of the items matters, then items with one id are alike. -/
theorem consistent_of_permuted {items : List (Item Vec)}
    (same : ∀ first second, first.Perm items → second.Perm items →
      (KeyedSort.sortBy Item.eid first).map (triple float32Bytes) =
        (KeyedSort.sortBy Item.eid second).map (triple float32Bytes)) :
    Consistent float32Bytes items := by
  intro left inside right inside' ids
  obtain ⟨front, back, rfl⟩ := List.append_of_mem inside
  have first : (front ++ left :: back).Perm (left :: (front ++ back)) := List.perm_middle
  obtain rfl | other : right = left ∨ right ∈ front ++ back := by
    simpa [or_left_comm] using inside'
  · exact ⟨rfl, rfl⟩
  · obtain ⟨before, after, split⟩ := List.append_of_mem other
    have second : (left :: (front ++ back)).Perm (left :: right :: (before ++ after)) := by
      rw [split]
      exact List.perm_middle.cons left
    have whole := (first.trans second).symm
    have agree := KeyedSort.view_of_swap Item.eid (triple float32Bytes) ids (before ++ after)
      (same _ _ whole ((List.Perm.swap _ _ _).trans whole))
    simp only [triple, Prod.mk.injEq] at agree
    exact agree.2

/-- The digest stands for the corpus just when items with one id are alike. -/
theorem corpusSnapshotDigest_identifies_iff (items : List (Item Vec))
    (fits : ∀ item ∈ items, Fits float32Bytes item) :
    ((∀ others, others.Perm items →
        corpusSnapshotDigest crypto float32Bytes others =
          corpusSnapshotDigest crypto float32Bytes items) ∧
      ∀ others, (∀ item ∈ others, Fits float32Bytes item) →
        (preimage float32Bytes items = preimage float32Bytes others ↔
          (items.map (triple float32Bytes)).Perm (others.map (triple float32Bytes)))) ↔
      Consistent float32Bytes items := by
  constructor
  · intro identifies
    apply consistent_of_permuted
    have sorted : ∀ others, others.Perm items →
        (KeyedSort.sortBy Item.eid items).map (triple float32Bytes) =
          (KeyedSort.sortBy Item.eid others).map (triple float32Bytes) := by
      intro others moved
      have fits' : ∀ item ∈ others, Fits float32Bytes item :=
        fun item member => fits item (moved.mem_iff.mp member)
      exact (preimage_eq_iff float32Bytes fits).mp
        ((identifies.2 others fits').mpr (moved.symm.map _))
    intro first second moved moved'
    rw [← sorted first moved, ← sorted second moved']
  · intro consistent
    have unmoved : ∀ others, (items.map (triple float32Bytes)).Perm
        (others.map (triple float32Bytes)) →
          preimage float32Bytes items = preimage float32Bytes others :=
      fun others moved => (preimage_eq_iff float32Bytes fits).mpr (consistent.sorted_eq moved)
    constructor
    · intro others moved
      rw [corpusSnapshotDigest, corpusSnapshotDigest, unmoved others (moved.symm.map _)]
    · intro others _
      constructor
      · intro same
        have sorted := (preimage_eq_iff float32Bytes fits).mp same
        have items_perm := (KeyedSort.sortBy_perm Item.eid items).map (triple float32Bytes)
        have others_perm := (KeyedSort.sortBy_perm Item.eid others).map (triple float32Bytes)
        rw [sorted] at items_perm
        exact items_perm.symm.trans others_perm
      · exact unmoved others

end Corpus

/-! One episode, in a corpus with another one and in a corpus with itself. -/

section Episodes

def succeeded : Item Bytes := ⟨"ep", [0, 0, 128, 63], true⟩

def failed : Item Bytes := ⟨"ep", [0, 0, 128, 63], false⟩

def another : Item Bytes := ⟨"eq", [0, 0, 0, 64], false⟩

theorem two_episodes_identified :
    corpusSnapshotDigest Sample.crypto id [another, succeeded] =
      corpusSnapshotDigest Sample.crypto id [succeeded, another] := by
  have fits : ∀ item ∈ [succeeded, another], Fits id item := by
    simp only [List.forall_mem_cons]
    exact ⟨⟨by decide, by decide⟩, ⟨by decide, by decide⟩, by simp⟩
  have consistent : Consistent id [succeeded, another] := by
    simp only [Consistent, List.forall_mem_cons]
    simp [succeeded, another]
  exact ((corpusSnapshotDigest_identifies_iff Sample.crypto _ fits).mpr consistent).1 _
    (List.Perm.swap _ _ _)

/-- With two outcomes under one id, a corpus and its reverse have different digests. -/
theorem repeated_order_matters :
    [failed, succeeded].Perm [succeeded, failed] ∧
      (∀ item ∈ [succeeded, failed], Fits id item) ∧
      preimage id [failed, succeeded] ≠ preimage id [succeeded, failed] ∧
      corpusSnapshotDigest Sample.crypto id [failed, succeeded] ≠
        corpusSnapshotDigest Sample.crypto id [succeeded, failed] := by
  refine ⟨List.Perm.swap _ _ _, ?_, by decide +kernel, by decide +kernel⟩
  simp only [List.forall_mem_cons]
  exact ⟨⟨by decide, by decide⟩, ⟨by decide, by decide⟩, by simp⟩

end Episodes

end Gyza.CorpusDigest
