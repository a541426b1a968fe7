import Mathlib.Tactic

/-! Two keyed lists compared key by key: the common keys, split by whether the items agree, and
the keys of either side alone. -/

namespace Gyza.Buckets

variable {κ α β : Type} [DecidableEq κ] (left : α → κ) (right : β → κ) (alike : α → β → Bool)

def agreed (ours : List α) (theirs : List β) : List α :=
  ours.filter fun item => (theirs.find? (right · = left item)).any (alike item)

def disputed (ours : List α) (theirs : List β) : List α :=
  ours.filter fun item => (theirs.find? (right · = left item)).any (!alike item ·)

def missingOurs (ours : List α) (theirs : List β) : List β :=
  theirs.filter fun item => right item ∉ ours.map left

def missingTheirs (ours : List α) (theirs : List β) : List α :=
  ours.filter fun item => left item ∉ theirs.map right

variable {left right alike} {ours : List α} {theirs : List β}

theorem any_or_any_not {γ : Type} (found : Option γ) (test : γ → Bool) :
    found.any test = true ∨ found.any (!test ·) = true ↔ found.isSome = true := by
  cases found with
  | none => simp
  | some item => cases value : test item <;> simp [value]

theorem isSome_find_iff (key : κ) :
    (theirs.find? (right · = key)).isSome = true ↔ key ∈ theirs.map right := by
  rw [List.find?_isSome, List.mem_map]
  simp

theorem mem_common_iff (item : α) :
    item ∈ agreed left right alike ours theirs ∨ item ∈ disputed left right alike ours theirs ↔
      item ∈ ours ∧ left item ∈ theirs.map right := by
  rw [agreed, disputed, List.mem_filter, List.mem_filter, ← and_or_left, any_or_any_not,
    isSome_find_iff]

/-- The keys in both buckets of common items. -/
theorem common_keys (key : κ) :
    key ∈ (agreed left right alike ours theirs).map left ++
        (disputed left right alike ours theirs).map left ↔
      key ∈ ours.map left ∧ key ∈ theirs.map right := by
  rw [← List.map_append, List.mem_map]
  constructor
  · rintro ⟨item, member, rfl⟩
    obtain ⟨own, common⟩ := (mem_common_iff item).mp (List.mem_append.mp member)
    exact ⟨List.mem_map_of_mem own, common⟩
  · rintro ⟨own, common⟩
    obtain ⟨item, member, rfl⟩ := List.mem_map.mp own
    exact ⟨item, List.mem_append.mpr ((mem_common_iff item).mpr ⟨member, common⟩), rfl⟩

theorem missingOurs_keys (key : κ) :
    key ∈ (missingOurs left right ours theirs).map right ↔
      key ∈ theirs.map right ∧ key ∉ ours.map left := by
  rw [List.mem_map]
  constructor
  · rintro ⟨item, member, rfl⟩
    obtain ⟨listed, absent⟩ := List.mem_filter.mp member
    exact ⟨List.mem_map_of_mem listed, of_decide_eq_true absent⟩
  · rintro ⟨listed, absent⟩
    obtain ⟨item, member, rfl⟩ := List.mem_map.mp listed
    exact ⟨item, List.mem_filter.mpr ⟨member, decide_eq_true absent⟩, rfl⟩

theorem missingTheirs_keys (key : κ) :
    key ∈ (missingTheirs left right ours theirs).map left ↔
      key ∈ ours.map left ∧ key ∉ theirs.map right := missingOurs_keys key

theorem agreed_not_disputed (own : (ours.map left).Nodup) (key : κ)
    (first : key ∈ (agreed left right alike ours theirs).map left)
    (second : key ∈ (disputed left right alike ours theirs).map left) : False := by
  obtain ⟨item, agrees, rfl⟩ := List.mem_map.mp first
  obtain ⟨other, disputes, same⟩ := List.mem_map.mp second
  obtain ⟨listed, same'⟩ := List.mem_filter.mp agrees
  obtain ⟨listed', differs⟩ := List.mem_filter.mp disputes
  cases List.inj_on_of_nodup_map own listed' listed same
  cases found : theirs.find? (right · = left item) with
  | none =>
      rw [found] at same'
      cases same'
  | some entry =>
      rw [found, Option.any_some] at same' differs
      rw [same'] at differs
      cases differs

variable (alike) in
/-- No key is in two buckets, or twice in one. -/
theorem keys_nodup (own : (ours.map left).Nodup) (other : (theirs.map right).Nodup) :
    ((agreed left right alike ours theirs).map left ++
      (disputed left right alike ours theirs).map left ++
        ((missingOurs left right ours theirs).map right ++
          (missingTheirs left right ours theirs).map left)).Nodup := by
  have once (keep : α → Bool) : ((ours.filter keep).map left).Nodup :=
    own.sublist (List.filter_sublist.map left)
  refine List.nodup_append'.mpr ⟨?_, ?_, ?_⟩
  · exact List.nodup_append'.mpr ⟨once _, once _, fun key => agreed_not_disputed own key⟩
  · refine List.nodup_append'.mpr ⟨other.sublist (List.filter_sublist.map right), once _, ?_⟩
    intro key ofTheirs ofOurs
    exact ((missingTheirs_keys key).mp ofOurs).2 ((missingOurs_keys key).mp ofTheirs).1
  · intro key common alone
    obtain ⟨inOurs, inTheirs⟩ := (common_keys key).mp common
    rcases List.mem_append.mp alone with ofTheirs | ofOurs
    · exact ((missingOurs_keys key).mp ofTheirs).2 inOurs
    · exact ((missingTheirs_keys key).mp ofOurs).2 inTheirs

end Gyza.Buckets
