import Gyza.Lib.Combinations
import Mathlib.Data.List.GetD

/-! Buckets near a bucket: `HammingNeighbors` of `netd/internal/dht/lsh.go` and
`neighbor_buckets` of `gyza/demand.py`.

Both list the masks of one bit, of two bits and so on. The node raises an array of bit
positions in place; Python goes through `itertools.combinations`. -/

namespace Gyza.HammingNeighbors

open Combinations (combinations Next)

def lshBits : Nat := 64

/-! The loops of the node. The array of positions is as long as the radius, and its first
`k` entries are in use. -/

section Indices

variable (k : Nat)

def resetIndices (indices : List Nat) : List Nat :=
  (List.range k).foldl (fun indices i => indices.set i i) indices

def maskOf (indices : List Nat) : BitVec 64 :=
  (List.range k).foldl (fun mask i => mask ||| 1#64 <<< indices.getD i 0) 0#64

/-- `for pos >= 0 && indices[pos] == LSHBits-(k-pos)`, with the positions still to look at. -/
def carryPos (indices : List Nat) : Nat → Option Nat
  | 0 => none
  | pos + 1 =>
      if indices.getD pos 0 = lshBits - (k - pos) then carryPos indices pos else some pos

/-- The positions `from`, `from + 1` and so on, each set to one more than the one before. -/
def refill (indices : List Nat) (start count : Nat) : List Nat :=
  (List.range' start count).foldl
    (fun indices j => indices.set j (indices.getD (j - 1) 0 + 1)) indices

def advance (indices : List Nat) : Option (List Nat) :=
  (carryPos k indices k).map fun pos =>
    refill (indices.set pos (indices.getD pos 0 + 1)) (pos + 1) (k - (pos + 1))

/-- The masks of `k` bits; without fuel there is no answer. -/
def sizeLoop (bucket : BitVec 64) :
    Nat → List Nat → List (BitVec 64) → Option (List Nat × List (BitVec 64))
  | 0, _, _ => none
  | fuel + 1, indices, out =>
      let out := out ++ [bucket ^^^ maskOf k indices]
      match advance k indices with
      | none => some (indices, out)
      | some next => sizeLoop bucket fuel next out

end Indices

def sizesLoop (fuel : Nat) (bucket : BitVec 64) :
    List Nat → List Nat → List (BitVec 64) → Option (List (BitVec 64))
  | [], _, out => some out
  | k :: sizes, indices, out =>
      match sizeLoop k bucket fuel (resetIndices k indices) out with
      | none => none
      | some (indices, out) => sizesLoop fuel bucket sizes indices out

def hammingNeighbors (fuel : Nat) (bucket : BitVec 64) (radius : Int) :
    Option (List (BitVec 64)) :=
  if radius < 0 then some []
  else
    let radius := if (lshBits : Int) < radius then lshBits else radius.toNat
    if radius = 0 then some [bucket]
    else sizesLoop fuel bucket (List.range' 1 radius) (List.replicate radius 0) [bucket]

/-! The enumeration in Python, over integers. -/

def pythonMask (positions : List Nat) : Nat :=
  positions.foldl (fun mask p => mask ||| 1 <<< p) 0

def neighborBuckets (bucket : Nat) (radius : Int) : Except String (List Nat) :=
  if radius < 0 then .error s!"radius must be >= 0, got {radius}"
  else
    let radius := if (lshBits : Int) < radius then lshBits else radius.toNat
    .ok (bucket :: (List.range' 1 radius).flatMap fun r =>
      (combinations (List.range lshBits) r).map fun positions => bucket ^^^ pythonMask positions)

/-- The bit positions in which two buckets differ. -/
def hammingDistance (left right : BitVec 64) : Nat :=
  (List.range 64).countP fun i => left.getLsbD i != right.getLsbD i

/-! The array, with `front` in its first places. -/

theorem getD_at (front back : List Nat) (value : Nat) :
    (front ++ value :: back).getD front.length 0 = value := by simp

theorem set_at (front back : List Nat) (old new : Nat) :
    (front ++ old :: back).set front.length new = front ++ new :: back := by simp

theorem resetIndices_eq {k : Nat} {indices : List Nat} (fits : k ≤ indices.length) :
    resetIndices k indices = List.range k ++ indices.drop k := by
  induction k with
  | zero => rfl
  | succ k ih =>
      have step : resetIndices (k + 1) indices = (resetIndices k indices).set k k := by
        rw [resetIndices, List.range_succ, List.foldl_append]
        rfl
      have place := set_at (List.range k) (indices.drop (k + 1)) (indices[k]) k
      rw [List.length_range] at place
      rw [step, ih (Nat.le_of_succ_le fits), List.drop_eq_getElem_cons fits, place,
        List.range_succ, List.append_assoc]
      rfl

/-- A mask of positions, in any order. -/
def wordMask (positions : List Nat) : BitVec 64 :=
  positions.foldl (fun mask p => mask ||| 1#64 <<< p) 0#64

theorem maskOf_eq (chosen rest : List Nat) :
    maskOf chosen.length (chosen ++ rest) = wordMask chosen := by
  induction chosen using List.reverseRecOn generalizing rest with
  | nil => rfl
  | append_singleton front value ih =>
      have inner := ih (value :: rest)
      rw [maskOf] at inner
      rw [List.length_append, List.length_singleton, maskOf, List.range_succ, List.foldl_append,
        List.append_assoc, List.singleton_append, inner, wordMask, wordMask, List.foldl_append,
        List.foldl_cons, List.foldl_nil, List.foldl_cons, List.foldl_nil, getD_at]

/-! One step of the array. -/

section Step

variable (front : List Nat) {k : Nat}

/-- The places that have no room left are skipped. -/
theorem carryPos_skip (rest : List Nat) {used : Nat} (within : used ≤ k) (bits : k ≤ lshBits) :
    carryPos (front.length + k) (front ++ List.range' (lshBits - k) k ++ rest)
      (front.length + used) =
        carryPos (front.length + k) (front ++ List.range' (lshBits - k) k ++ rest)
          front.length := by
  induction used with
  | zero => rfl
  | succ used ih =>
      have found : (front ++ List.range' (lshBits - k) k ++ rest).getD (front.length + used) 0 =
          lshBits - (front.length + k - (front.length + used)) := by
        rw [List.append_assoc, List.getD_append_right _ _ _ _ (Nat.le_add_right _ _),
          Nat.add_sub_cancel_left, List.getD_append _ _ _ _ (by rw [List.length_range']; omega),
          List.getD_eq_getElem _ _ (by rw [List.length_range']; omega), List.getElem_range']
        omega
      rw [← Nat.add_assoc, carryPos, if_pos found, ih (Nat.le_of_succ_le within)]

theorem refill_succ (indices : List Nat) (start count : Nat) :
    refill indices start (count + 1) =
      refill (indices.set start (indices.getD (start - 1) 0 + 1)) (start + 1) count := by
  rw [refill, List.range'_succ, List.foldl_cons, refill]

theorem refill_eq (old rest : List Nat) (value length : Nat) :
    refill (front ++ List.range' value (length + 1) ++ (old ++ rest)) (front.length + length + 1)
      old.length = front ++ List.range' value (length + 1 + old.length) ++ rest := by
  induction old generalizing length with
  | nil => rfl
  | cons first others ih =>
      have split : List.range' value (length + 2) =
          List.range' value (length + 1) ++ [value + (length + 1)] := by
        rw [List.range'_concat, Nat.one_mul]
      have before : front ++ List.range' value (length + 1) =
          (front ++ List.range' value length) ++ [value + length] := by
        rw [List.range'_concat, Nat.one_mul, List.append_assoc]
      have reached : (front ++ List.range' value length).length = front.length + length := by
        rw [List.length_append, List.length_range']
      have read : (front ++ List.range' value (length + 1) ++ (first :: others ++ rest)).getD
          (front.length + length) 0 = value + length := by
        rw [before, List.append_assoc, ← reached]
        exact getD_at _ _ _
      have place : (front ++ List.range' value (length + 1)).length =
          front.length + length + 1 := by
        rw [List.length_append, List.length_range', Nat.add_assoc]
      have written : (front ++ List.range' value (length + 1) ++ (first :: others ++ rest)).set
          (front.length + length + 1) (value + length + 1) =
            front ++ List.range' value (length + 2) ++ (others ++ rest) := by
        rw [← place, split, List.cons_append, set_at, List.append_assoc, List.append_assoc,
          List.append_assoc]
        rfl
      calc
        refill (front ++ List.range' value (length + 1) ++ (first :: others ++ rest))
            (front.length + length + 1) (others.length + 1)
          = refill (front ++ List.range' value (length + 2) ++ (others ++ rest))
              (front.length + (length + 1) + 1) others.length := by
            rw [refill_succ, Nat.add_sub_cancel, read, written, Nat.add_assoc front.length]
        _ = front ++ List.range' value (length + 1 + 1 + others.length) ++ rest := ih (length + 1)
        _ = front ++ List.range' value (length + 1 + (others.length + 1)) ++ rest := by
            rw [Nat.add_assoc (length + 1), Nat.add_comm 1]

theorem advance_last (rest : List Nat) (bits : k ≤ lshBits) :
    advance k (List.range' (lshBits - k) k ++ rest) = none := by
  have skipped := carryPos_skip [] rest (Nat.le_refl k) bits
  simp only [List.length_nil, List.nil_append, Nat.zero_add] at skipped
  rw [advance, skipped]
  rfl

theorem advance_next {chosen next : List Nat} (step : Next lshBits chosen next)
    (rest : List Nat) : advance chosen.length (chosen ++ rest) = some (next ++ rest) := by
  obtain ⟨front, value, k, room, rfl, rfl⟩ := step
  have length : (front ++ value :: List.range' (lshBits - k) k).length =
      front.length + 1 + k := by
    rw [List.length_append, List.length_cons, List.length_range']
    omega
  have gathered : front ++ value :: List.range' (lshBits - k) k =
      (front ++ [value]) ++ List.range' (lshBits - k) k := by simp
  have skipped := carryPos_skip (front ++ [value]) rest (Nat.le_refl k) (by omega)
  rw [← gathered, List.length_append, List.length_singleton] at skipped
  have read : (front ++ value :: List.range' (lshBits - k) k ++ rest).getD front.length 0 =
      value := by
    rw [List.append_assoc]
    exact getD_at _ _ _
  have raised : carryPos (front.length + 1 + k)
      (front ++ value :: List.range' (lshBits - k) k ++ rest) (front.length + 1) =
        some front.length := by
    rw [carryPos, read, if_neg (by omega)]
  have written : (front ++ value :: List.range' (lshBits - k) k ++ rest).set front.length
      (value + 1) = front ++ List.range' (value + 1) (0 + 1) ++
        (List.range' (lshBits - k) k ++ rest) := by
    rw [List.append_assoc, List.cons_append, set_at]
    simp
  have filled := refill_eq front (List.range' (lshBits - k) k) rest (value + 1) 0
  rw [List.length_range', Nat.add_zero, Nat.zero_add, Nat.add_comm 1] at filled
  rw [advance, length, skipped, raised, Option.map_some, read, written,
    Nat.add_sub_cancel_left, filled]

end Step

/-! A run over one size. -/

section Loop

variable (bucket : BitVec 64)

theorem sizeLoop_eq {k fuel : Nat} (bits : k ≤ lshBits) {listed : List (List Nat)}
    {chosen : List Nat} (steps : (chosen :: listed).IsChain (Next lshBits))
    (last : (chosen :: listed).getLast? = some (List.range' (lshBits - k) k))
    (sized : ∀ positions ∈ chosen :: listed, positions.length = k)
    (enough : listed.length < fuel) (rest : List Nat) (out : List (BitVec 64)) :
    sizeLoop k bucket fuel (chosen ++ rest) out =
      some (List.range' (lshBits - k) k ++ rest,
        out ++ (chosen :: listed).map fun positions => bucket ^^^ wordMask positions) := by
  induction listed generalizing chosen fuel out with
  | nil =>
      obtain ⟨fuel, rfl⟩ := Nat.exists_eq_add_of_lt enough
      cases last
      have mask := maskOf_eq (List.range' (lshBits - k) k) rest
      rw [List.length_range'] at mask
      rw [sizeLoop, mask, advance_last rest bits]
      rfl
  | cons next listed ih =>
      cases fuel with
      | zero => cases enough
      | succ fuel =>
          obtain ⟨step, later⟩ := List.isChain_cons_cons.mp steps
          have length : chosen.length = k := sized chosen List.mem_cons_self
          have mask := maskOf_eq chosen rest
          have moved := advance_next step rest
          rw [length] at mask moved
          rw [List.getLast?_cons_cons] at last
          have run := ih later last (fun positions member =>
            sized positions (List.mem_cons_of_mem _ member)) (Nat.lt_of_succ_lt_succ enough)
            (out ++ [bucket ^^^ wordMask chosen])
          rw [sizeLoop, mask, moved]
          simp only [run, List.map_cons, List.append_assoc, List.singleton_append]

/-- Every mask of `k` bits, after which the array is as long as before. -/
theorem sizeLoop_combinations {k fuel : Nat} (bits : k ≤ lshBits) (enough : 2 ^ lshBits ≤ fuel)
    {indices : List Nat} (fits : k ≤ indices.length) (out : List (BitVec 64)) :
    ∃ left, left.length = indices.length ∧
      sizeLoop k bucket fuel (resetIndices k indices) out = some (left, out ++
        (combinations (List.range lshBits) k).map fun positions =>
          bucket ^^^ wordMask positions) := by
  have listing := Combinations.enumerates_combinations 0 lshBits bits
  rw [Nat.zero_add, ← List.range_eq_range'] at listing
  obtain ⟨listed, first⟩ := List.head?_eq_some_iff.mp listing.first
  rw [← List.range_eq_range'] at first
  have sized : ∀ positions ∈ List.range k :: listed, positions.length = k := by
    intro positions member
    rw [← first] at member
    exact (Combinations.mem_combinations.mp member).2
  have few : (List.range k :: listed).length ≤ 2 ^ lshBits := by
    rw [← first, Combinations.length_combinations, List.length_range]
    exact Nat.choose_le_two_pow _ _
  have run := sizeLoop_eq bucket bits (first ▸ listing.steps) (first ▸ listing.last) sized
    (Nat.lt_of_lt_of_le few enough) (indices.drop k) out
  refine ⟨_, ?_, by rw [resetIndices_eq fits, run, first]⟩
  rw [List.length_append, List.length_range', List.length_drop]
  omega

theorem sizesLoop_eq {fuel : Nat} (enough : 2 ^ lshBits ≤ fuel) {sizes indices : List Nat}
    (bits : ∀ k ∈ sizes, k ≤ lshBits ∧ k ≤ indices.length) (out : List (BitVec 64)) :
    sizesLoop fuel bucket sizes indices out = some (out ++ sizes.flatMap fun k =>
      (combinations (List.range lshBits) k).map fun positions =>
        bucket ^^^ wordMask positions) := by
  induction sizes generalizing indices out with
  | nil => rw [sizesLoop, List.flatMap_nil, List.append_nil]
  | cons k sizes ih =>
      obtain ⟨within, fits⟩ := bits k List.mem_cons_self
      obtain ⟨left, kept, run⟩ := sizeLoop_combinations bucket within enough fits out
      have remaining : ∀ size ∈ sizes, size ≤ lshBits ∧ size ≤ left.length :=
        fun size member => kept ▸ bits size (List.mem_cons_of_mem _ member)
      rw [sizesLoop, run]
      simp only [ih remaining, List.flatMap_cons, List.append_assoc]

end Loop

/-! The bits of a mask. -/

theorem wordMask_append (positions : List Nat) (p : Nat) :
    wordMask (positions ++ [p]) = wordMask positions ||| 1#64 <<< p := by
  rw [wordMask, List.foldl_append]
  rfl

theorem getLsbD_wordMask (positions : List Nat) {i : Nat} (bit : i < 64) :
    (wordMask positions).getLsbD i = decide (i ∈ positions) := by
  induction positions using List.reverseRecOn with
  | nil => simp [wordMask]
  | append_singleton positions p ih =>
      have single : (1#64 <<< p).getLsbD i = decide (i = p) := by
        rw [BitVec.getLsbD_shiftLeft, BitVec.getLsbD_one, Bool.eq_iff_iff]
        simp only [Bool.and_eq_true, Bool.not_eq_true', decide_eq_true_eq, decide_eq_false_iff_not]
        omega
      rw [wordMask_append, BitVec.getLsbD_or, ih, single, Bool.eq_iff_iff]
      simp only [Bool.or_eq_true, decide_eq_true_eq, List.mem_append, List.mem_singleton]

theorem toNat_wordMask {positions : List Nat} (bits : ∀ p ∈ positions, p < 64) :
    (wordMask positions).toNat = pythonMask positions := by
  induction positions using List.reverseRecOn with
  | nil => rfl
  | append_singleton positions p ih =>
      have bit : p < 64 := bits p (List.mem_append_right _ List.mem_cons_self)
      have single : (1#64 <<< p).toNat = 1 <<< p := by
        have small : 1 <<< p < 2 ^ 64 := by
          rw [Nat.one_shiftLeft]
          exact Nat.pow_lt_pow_right (by decide) bit
        rw [BitVec.toNat_shiftLeft]
        exact Nat.mod_eq_of_lt small
      rw [wordMask_append, BitVec.toNat_or, ih fun q member =>
        bits q (List.mem_append_left _ member), single, pythonMask, pythonMask, List.foldl_append]
      rfl

theorem hammingDistance_xor (bucket : BitVec 64) {positions : List Nat}
    (sublist : positions.Sublist (List.range lshBits)) :
    hammingDistance bucket (bucket ^^^ wordMask positions) = positions.length := by
  have flipped : ∀ i ∈ List.range 64,
      (bucket.getLsbD i != (bucket ^^^ wordMask positions).getLsbD i) =
        decide (i ∈ positions) := by
    intro i member
    rw [BitVec.getLsbD_xor, getLsbD_wordMask _ (List.mem_range.mp member)]
    cases bucket.getLsbD i <;> simp
  calc
    hammingDistance bucket (bucket ^^^ wordMask positions)
      = (List.range 64).countP fun i => decide (i ∈ positions) :=
        List.countP_congr fun i member => by rw [flipped i member]
    _ = ((List.range 64).filter (· ∈ positions)).length := List.countP_eq_length_filter
    _ = positions.length :=
        congrArg List.length (Combinations.filter_of_sublist List.nodup_range sublist)

theorem hammingDistance_le (left right : BitVec 64) : hammingDistance left right ≤ 64 := by
  have most := List.countP_le_length (p := fun i => left.getLsbD i != right.getLsbD i)
    (l := List.range 64)
  rwa [List.length_range] at most

/-- Each value is the bucket with the bits flipped in which they differ. -/
theorem exists_positions (bucket value : BitVec 64) :
    ∃ positions, positions.Sublist (List.range lshBits) ∧
      bucket ^^^ wordMask positions = value := by
  refine ⟨_, List.filter_sublist (p := fun i => bucket.getLsbD i != value.getLsbD i), ?_⟩
  apply BitVec.eq_of_getLsbD_eq
  intro i bit
  have listed : i ∈ List.range lshBits := List.mem_range.mpr bit
  rw [BitVec.getLsbD_xor, getLsbD_wordMask _ bit]
  cases left : bucket.getLsbD i <;> cases right : value.getLsbD i <;>
    simp [left, right, listed]

theorem wordMask_injective {left right : List Nat}
    (first : left.Sublist (List.range lshBits)) (second : right.Sublist (List.range lshBits))
    (same : wordMask left = wordMask right) : left = right := by
  rw [← Combinations.filter_of_sublist List.nodup_range first,
    ← Combinations.filter_of_sublist List.nodup_range second]
  refine List.filter_congr fun i member => ?_
  have bit : i < 64 := List.mem_range.mp member
  rw [← getLsbD_wordMask left bit, ← getLsbD_wordMask right bit, same]

/-! The whole listing. -/

def chosenPositions (radius : Nat) : List (List Nat) :=
  (List.range (radius + 1)).flatMap (combinations (List.range lshBits))

theorem mem_chosenPositions {radius : Nat} {positions : List Nat} :
    positions ∈ chosenPositions radius ↔
      positions.Sublist (List.range lshBits) ∧ positions.length ≤ radius := by
  rw [chosenPositions, List.mem_flatMap]
  constructor
  · rintro ⟨k, member, chosen⟩
    obtain ⟨sublist, rfl⟩ := Combinations.mem_combinations.mp chosen
    exact ⟨sublist, Nat.lt_succ_iff.mp (List.mem_range.mp member)⟩
  · rintro ⟨sublist, within⟩
    exact ⟨_, List.mem_range.mpr (Nat.lt_succ_of_le within),
      Combinations.mem_combinations.mpr ⟨sublist, rfl⟩⟩

theorem chosenPositions_nodup (radius : Nat) : (chosenPositions radius).Nodup := by
  refine List.nodup_flatMap.mpr
    ⟨fun k _ => Combinations.combinations_nodup List.nodup_range k, ?_⟩
  refine List.nodup_range.imp fun {left right} differ positions first second => ?_
  have length := (Combinations.mem_combinations.mp first).2
  exact differ (length.symm.trans (Combinations.mem_combinations.mp second).2)

theorem chosenPositions_eq (radius : Nat) :
    chosenPositions radius =
      [] :: (List.range' 1 radius).flatMap (combinations (List.range lshBits)) := by
  have sizes : List.range (radius + 1) = 0 :: List.range' 1 radius := by
    rw [List.range_eq_range', List.range'_succ]
  rw [chosenPositions, sizes, List.flatMap_cons]
  rfl

def neighborsWithin (bucket : BitVec 64) (radius : Nat) : List (BitVec 64) :=
  (chosenPositions radius).map fun positions => bucket ^^^ wordMask positions

section Neighbors

variable (bucket : BitVec 64)

theorem neighborsWithin_nodup (radius : Nat) : (neighborsWithin bucket radius).Nodup := by
  refine List.Nodup.map_on ?_ (chosenPositions_nodup radius)
  intro left first right second same
  exact wordMask_injective (mem_chosenPositions.mp first).1 (mem_chosenPositions.mp second).1
    ((BitVec.xor_right_inj _).mp same)

theorem mem_neighborsWithin {radius : Nat} {value : BitVec 64} :
    value ∈ neighborsWithin bucket radius ↔ hammingDistance bucket value ≤ radius := by
  obtain ⟨flipped, sublist, rfl⟩ := exists_positions bucket value
  rw [hammingDistance_xor bucket sublist, neighborsWithin, List.mem_map]
  constructor
  · rintro ⟨positions, member, same⟩
    obtain ⟨chosen, within⟩ := mem_chosenPositions.mp member
    rwa [← wordMask_injective chosen sublist ((BitVec.xor_right_inj _).mp same)]
  · intro within
    exact ⟨flipped, mem_chosenPositions.mpr ⟨sublist, within⟩, rfl⟩

theorem clamp_eq (radius : Int) :
    (if (lshBits : Int) < radius then lshBits else radius.toNat) = min radius.toNat lshBits := by
  split <;> omega

theorem hammingNeighbors_eq {fuel : Nat} (enough : 2 ^ lshBits ≤ fuel) {radius : Int}
    (valid : 0 ≤ radius) :
    hammingNeighbors fuel bucket radius =
      some (neighborsWithin bucket (min radius.toNat lshBits)) := by
  have listing : ∀ r, neighborsWithin bucket r =
      [bucket] ++ (List.range' 1 r).flatMap fun k =>
        (combinations (List.range lshBits) k).map fun positions =>
          bucket ^^^ wordMask positions := by
    intro r
    rw [neighborsWithin, chosenPositions_eq, List.map_cons, List.map_flatMap, wordMask,
      List.foldl_nil, BitVec.xor_zero]
    rfl
  rw [hammingNeighbors, if_neg (Int.not_lt.mpr valid)]
  simp only [clamp_eq]
  by_cases still : min radius.toNat lshBits = 0
  · rw [if_pos still, still, listing]
    rfl
  · rw [if_neg still, listing, sizesLoop_eq bucket enough]
    intro k member
    rw [List.length_replicate]
    have bounds := List.mem_range'_1.mp member
    omega

example : (hammingNeighbors 65 5#64 1).map (List.take 3) = some [5#64, 4#64, 7#64] := by
  decide +kernel

/-- Over integers Python lists the same values in the same order. -/
theorem neighborBuckets_eq {radius : Int} (valid : 0 ≤ radius) :
    neighborBuckets bucket.toNat radius =
      .ok ((neighborsWithin bucket (min radius.toNat lshBits)).map BitVec.toNat) := by
  have masks : ∀ k, ∀ positions ∈ combinations (List.range lshBits) k,
      (bucket ^^^ wordMask positions).toNat = bucket.toNat ^^^ pythonMask positions := by
    intro k positions member
    have sublist := (Combinations.mem_combinations.mp member).1
    rw [BitVec.toNat_xor, toNat_wordMask fun p chosen =>
      List.mem_range.mp (sublist.subset chosen)]
  rw [neighborBuckets, if_neg (Int.not_lt.mpr valid), neighborsWithin, chosenPositions_eq,
    List.map_cons, List.map_cons, List.map_flatMap, List.map_flatMap, wordMask, List.foldl_nil,
    BitVec.xor_zero]
  simp only [clamp_eq]
  refine congrArg (fun later => Except.ok (bucket.toNat :: later)) ?_
  refine List.flatMap_congr fun k _ => ?_
  rw [List.map_map]
  exact List.map_congr_left fun positions member => (masks k positions member).symm

theorem hammingNeighbors_wide (fuel : Nat) {radius : Int} (wide : 64 < radius) :
    hammingNeighbors fuel bucket radius = hammingNeighbors fuel bucket 64 := by
  have clamped : min radius.toNat lshBits = min (64 : Int).toNat lshBits := by
    rw [lshBits]
    omega
  have positive : ¬ radius < 0 := by omega
  have bounded : ¬ (64 : Int) < 0 := by decide
  rw [hammingNeighbors, hammingNeighbors, if_neg positive, if_neg bounded]
  simp only [clamp_eq, clamped]

end Neighbors

theorem hammingNeighbors_complete (bucket : BitVec 64) (radius : Int) :
    ∃ neighbors : List (BitVec 64),
      (∀ fuel, 2 ^ 64 ≤ fuel → hammingNeighbors fuel bucket radius = some neighbors) ∧
        neighbors.Nodup ∧
        (∀ value, value ∈ neighbors ↔ (hammingDistance bucket value : Int) ≤ radius) ∧
        (0 ≤ radius → neighbors.head? = some bucket ∧
          neighborBuckets bucket.toNat radius = .ok (neighbors.map BitVec.toNat)) ∧
        (64 < radius → ∀ fuel,
          hammingNeighbors fuel bucket radius = hammingNeighbors fuel bucket 64) := by
  by_cases valid : 0 ≤ radius
  · refine ⟨_, fun fuel enough => hammingNeighbors_eq bucket enough valid,
      neighborsWithin_nodup bucket _, fun value => ?_,
      fun _ => ⟨?_, neighborBuckets_eq bucket valid⟩,
      fun wide fuel => hammingNeighbors_wide bucket fuel wide⟩
    · have most := hammingDistance_le bucket value
      rw [mem_neighborsWithin, lshBits]
      omega
    · rw [neighborsWithin, chosenPositions_eq, List.map_cons, List.head?_cons, wordMask,
        List.foldl_nil, BitVec.xor_zero]
  · have rejected : ∀ fuel, hammingNeighbors fuel bucket radius = some [] := by
      intro fuel
      rw [hammingNeighbors, if_pos (Int.not_le.mp valid)]
    refine ⟨[], fun fuel _ => rejected fuel, List.nodup_nil, fun value => ?_,
      fun nonneg => absurd nonneg valid, fun wide => absurd wide (by omega)⟩
    constructor
    · intro member
      cases member
    · intro near
      omega

end Gyza.HammingNeighbors
