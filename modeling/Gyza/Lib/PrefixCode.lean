import Mathlib.Tactic

/-! Codes that can be split off the front of a longer text, and what is written with them.

A code may refuse an item: a length may be too large for its field. -/

namespace Gyza.PrefixCode

variable {α β : Type}

/-- No code of an item can be read as the code of another and something more. -/
def PrefixFree (encode : α → Option (List β)) : Prop :=
  ∀ ⦃item other text text' rest rest'⦄, encode item = some text → encode other = some text' →
    text ++ rest = text' ++ rest' → item = other ∧ rest = rest'

theorem prefixFree_of_length {encode : α → Option (List β)} (width : Nat)
    (sized : ∀ item text, encode item = some text → text.length = width)
    (injective : ∀ item other text, encode item = some text → encode other = some text →
      item = other) : PrefixFree encode := by
  intro item other text text' rest rest' written written' same
  have lengths : text.length = text'.length :=
    (sized item text written).trans (sized other text' written').symm
  obtain ⟨rfl, tails⟩ := List.append_inj same lengths
  exact ⟨injective item other text written written', tails⟩

/-- The length, and then what has this length. -/
def block (length : Nat → Option (List β)) (content : List β) : Option (List β) :=
  (length content.length).map (· ++ content)

theorem PrefixFree.block {length : Nat → Option (List β)} (free : PrefixFree length) :
    PrefixFree (block length) := by
  intro content other text text' rest rest' written written' same
  obtain ⟨header, counted, rfl⟩ := Option.map_eq_some_iff.mp written
  obtain ⟨header', counted', rfl⟩ := Option.map_eq_some_iff.mp written'
  rw [List.append_assoc, List.append_assoc] at same
  obtain ⟨lengths, bodies⟩ := free counted counted' same
  exact List.append_inj bodies lengths

/-! Items one after the other. -/

def encodeAll (encode : α → Option (List β)) : List α → Option (List β)
  | [] => some []
  | item :: items => (encode item).bind fun text => (encodeAll encode items).map (text ++ ·)

theorem encodeAll_cons {encode : α → Option (List β)} {item : α} {items : List α}
    {whole : List β} (written : encodeAll encode (item :: items) = some whole) :
    ∃ text later, encode item = some text ∧ encodeAll encode items = some later ∧
      whole = text ++ later := by
  obtain ⟨text, first, rest⟩ := Option.bind_eq_some_iff.mp written
  obtain ⟨later, second, rfl⟩ := Option.map_eq_some_iff.mp rest
  exact ⟨text, later, first, second, rfl⟩

theorem encodeAll_isSome {encode : α → Option (List β)} {items : List α}
    (each : ∀ item ∈ items, (encode item).isSome) : (encodeAll encode items).isSome := by
  induction items with
  | nil => rfl
  | cons item items ih =>
      obtain ⟨text, first⟩ := Option.isSome_iff_exists.mp (each item List.mem_cons_self)
      obtain ⟨later, second⟩ := Option.isSome_iff_exists.mp
        (ih fun other member => each other (List.mem_cons_of_mem _ member))
      rw [encodeAll, first, Option.bind_some, second]
      rfl

/-- The whole text has one reading when no code is empty. -/
theorem encodeAll_injective {encode : α → Option (List β)} (free : PrefixFree encode)
    (nonempty : ∀ item, encode item ≠ some []) {items others : List α} {whole : List β}
    (written : encodeAll encode items = some whole)
    (written' : encodeAll encode others = some whole) : items = others := by
  induction items generalizing others whole with
  | nil =>
      cases written
      cases others with
      | nil => rfl
      | cons other others =>
          obtain ⟨text, later, first, -, empty⟩ := encodeAll_cons written'
          rw [(List.append_eq_nil_iff.mp empty.symm).1] at first
          exact absurd first (nonempty other)
  | cons item items ih =>
      obtain ⟨text, later, first, second, rfl⟩ := encodeAll_cons written
      cases others with
      | nil =>
          have empty : text ++ later = [] := (Option.some.inj written').symm
          rw [(List.append_eq_nil_iff.mp empty).1] at first
          exact absurd first (nonempty item)
      | cons other others =>
          obtain ⟨text', later', first', second', same⟩ := encodeAll_cons written'
          obtain ⟨rfl, rfl⟩ := free first first' same
          rw [ih second second']

/-! Items followed by something else. -/

/-- No code is at the front of it. -/
def Stops (encode : α → Option (List β)) (tail : List β) : Prop :=
  ∀ item text rest, encode item = some text → tail ≠ text ++ rest

/-- The items end where no further code starts. -/
theorem encodeAll_append_injective {encode : α → Option (List β)} (free : PrefixFree encode)
    {items others : List α} {whole whole' tail tail' : List β}
    (written : encodeAll encode items = some whole)
    (written' : encodeAll encode others = some whole') (stops : Stops encode tail)
    (stops' : Stops encode tail') (same : whole ++ tail = whole' ++ tail') :
    items = others ∧ tail = tail' := by
  induction items generalizing others whole whole' with
  | nil =>
      cases written
      cases others with
      | nil =>
          cases written'
          exact ⟨rfl, same⟩
      | cons other others =>
          obtain ⟨text, later, first, -, rfl⟩ := encodeAll_cons written'
          rw [List.append_assoc] at same
          exact absurd same (stops other text _ first)
  | cons item items ih =>
      obtain ⟨text, later, first, second, rfl⟩ := encodeAll_cons written
      cases others with
      | nil =>
          cases written'
          rw [List.append_assoc] at same
          exact absurd same.symm (stops' item text _ first)
      | cons other others =>
          obtain ⟨text', later', first', second', rfl⟩ := encodeAll_cons written'
          rw [List.append_assoc, List.append_assoc] at same
          obtain ⟨rfl, rest⟩ := free first first' same
          obtain ⟨rfl, tails⟩ := ih second second' rest
          exact ⟨rfl, tails⟩

theorem encodeAll_some (encode : α → List β) (items : List α) :
    encodeAll (fun item => some (encode item)) items = some (items.flatMap encode) := by
  induction items with
  | nil => rfl
  | cons item items ih => rw [encodeAll, ih, List.flatMap_cons]; rfl

theorem foldlM_append (encode : α → Option (List β)) (items : List α) (start : List β) :
    items.foldlM (fun written item => (encode item).map (written ++ ·)) start =
      (encodeAll encode items).map (start ++ ·) := by
  induction items generalizing start with
  | nil => simp [encodeAll]
  | cons item items ih =>
      rw [List.foldlM_cons, encodeAll]
      cases encode item with
      | none => rfl
      | some text =>
          simp only [Option.map_some, Option.bind_eq_bind, Option.bind_some, ih, Option.map_map]
          refine congrArg (fun change => Option.map change _) ?_
          funext later
          exact List.append_assoc start text later

/-! Numbers of a fixed width. -/

/-- The most significant digit first, each digit a byte. -/
def bigEndian : Nat → Nat → List UInt8
  | 0, _ => []
  | width + 1, value => bigEndian width (value / 256) ++ [UInt8.ofNat value]

theorem length_bigEndian (width value : Nat) : (bigEndian width value).length = width := by
  induction width generalizing value with
  | zero => rfl
  | succ width ih => rw [bigEndian, List.length_append, ih, List.length_singleton]

theorem bigEndian_injective {width value other : Nat} (small : value < 256 ^ width)
    (small' : other < 256 ^ width) (same : bigEndian width value = bigEndian width other) :
    value = other := by
  induction width generalizing value other with
  | zero =>
      rw [pow_zero] at small small'
      omega
  | succ width ih =>
      obtain ⟨high, low⟩ := List.append_inj' same rfl
      have quotients : value / 256 = other / 256 :=
        ih (Nat.div_lt_of_lt_mul (by rwa [← pow_succ'])) (Nat.div_lt_of_lt_mul
          (by rwa [← pow_succ'])) high
      have digits : value % 256 = other % 256 := by
        have bytes := congrArg UInt8.toNat (List.cons.inj low).1
        rwa [UInt8.toNat_ofNat', UInt8.toNat_ofNat'] at bytes
      omega

/-- The number that such digits write. -/
def ofBigEndian (bytes : List UInt8) : Nat :=
  bytes.foldl (fun value byte => value * 256 + byte.toNat) 0

theorem ofBigEndian_concat (bytes : List UInt8) (byte : UInt8) :
    ofBigEndian (bytes ++ [byte]) = ofBigEndian bytes * 256 + byte.toNat := by
  simp [ofBigEndian]

theorem ofBigEndian_append (high low : List UInt8) :
    ofBigEndian (high ++ low) = ofBigEndian high * 256 ^ low.length + ofBigEndian low := by
  induction low using List.reverseRecOn with
  | nil => simp [ofBigEndian]
  | append_singleton low byte ih =>
      rw [← List.append_assoc, ofBigEndian_concat, ofBigEndian_concat, ih, List.length_append,
        List.length_singleton, pow_succ]
      ring

theorem ofBigEndian_lt (bytes : List UInt8) : ofBigEndian bytes < 256 ^ bytes.length := by
  induction bytes using List.reverseRecOn with
  | nil => simp [ofBigEndian]
  | append_singleton bytes byte ih =>
      have small := byte.toNat_lt
      rw [ofBigEndian_concat, List.length_append, List.length_singleton, pow_succ]
      omega

/-- A leading digit counts for the width behind it. -/
theorem le_ofBigEndian_cons (byte : UInt8) (rest : List UInt8) :
    byte.toNat * 256 ^ rest.length ≤ ofBigEndian (byte :: rest) := by
  have split := ofBigEndian_append [byte] rest
  have first : ofBigEndian [byte] = byte.toNat := by simp [ofBigEndian]
  rw [List.singleton_append, first] at split
  omega

theorem ofBigEndian_bigEndian (width value : Nat) :
    ofBigEndian (bigEndian width value) = value % 256 ^ width := by
  induction width generalizing value with
  | zero => simp [bigEndian, ofBigEndian, Nat.mod_one]
  | succ width ih =>
      have digits : value % (256 * 256 ^ width) = value % 256 + 256 * (value / 256 % 256 ^ width) :=
        Nat.mod_mul
      rw [bigEndian, ofBigEndian_concat, ih, UInt8.toNat_ofNat', pow_succ' 256, digits]
      omega

/-- Without its first digits a number is known up to them. -/
theorem ofBigEndian_drop (width value skipped : Nat) :
    ofBigEndian ((bigEndian width value).drop skipped) = value % 256 ^ (width - skipped) := by
  have length : ((bigEndian width value).drop skipped).length = width - skipped := by
    rw [List.length_drop, length_bigEndian]
  have small := ofBigEndian_lt ((bigEndian width value).drop skipped)
  have whole := ofBigEndian_append ((bigEndian width value).take skipped)
    ((bigEndian width value).drop skipped)
  rw [List.take_append_drop, ofBigEndian_bigEndian, length] at whole
  rw [length] at small
  have narrower : 256 ^ (width - skipped) ∣ 256 ^ width := pow_dvd_pow 256 (Nat.sub_le _ _)
  calc
    _ = ofBigEndian ((bigEndian width value).drop skipped) % 256 ^ (width - skipped) :=
        (Nat.mod_eq_of_lt small).symm
    _ = value % 256 ^ width % 256 ^ (width - skipped) := by
        rw [whole, Nat.mul_add_mod_self_right]
    _ = value % 256 ^ (width - skipped) := Nat.mod_mod_of_dvd value narrower

end Gyza.PrefixCode
