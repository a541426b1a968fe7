import Mathlib.Tactic

/-! Counting valid votes toward a quorum, one for each label.

A vote carries a label that decodes to the key it was checked with. Counting
labels counts keys only when no key is spelled in two ways. -/

namespace Gyza.Quorum

variable {ν ι κ : Type} [DecidableEq ι] [DecidableEq κ]
  (label : ν → ι) (valid : ν → Bool) (decode : ι → Option κ)

structure Tally (ι : Type) where
  seen : List ι
  count : Nat

/-- A label counts as seen only once a vote under it was valid. -/
def tallyVote (tally : Tally ι) (vote : ν) : Tally ι :=
  if label vote ∈ tally.seen then tally
  else if valid vote then ⟨label vote :: tally.seen, tally.count + 1⟩
  else tally

def countValid (votes : List ν) : Nat := (votes.foldl (tallyVote label valid) ⟨[], 0⟩).count

/-- The labels that carry at least one valid vote. -/
def labels (votes : List ν) : Finset ι := ((votes.filter valid).map label).toFinset

theorem mem_labels {votes : List ν} {name : ι} :
    name ∈ labels label valid votes ↔ ∃ vote ∈ votes, valid vote = true ∧ label vote = name := by
  simp only [labels, List.mem_toFinset, List.mem_map, List.mem_filter, and_assoc]

theorem labels_concat (votes : List ν) (vote : ν) :
    labels label valid (votes ++ [vote]) =
      if valid vote then insert (label vote) (labels label valid votes)
      else labels label valid votes := by
  by_cases checked : valid vote = true
  · ext name
    simp [labels, checked]
  · simp [labels, checked]

/-- What holds of the tally after a prefix of the votes. -/
structure Tallied (votes : List ν) (tally : Tally ι) : Prop where
  distinct : tally.seen.Nodup
  counted : tally.count = tally.seen.length
  seen_eq : tally.seen.toFinset = labels label valid votes

theorem tallied_step {votes : List ν} {tally : Tally ι} (vote : ν)
    (tallied : Tallied label valid votes tally) :
    Tallied label valid (votes ++ [vote]) (tallyVote label valid tally vote) := by
  unfold tallyVote
  split_ifs with dup checked
  · have known : label vote ∈ labels label valid votes := by
      rw [← tallied.seen_eq, List.mem_toFinset]
      exact dup
    refine ⟨tallied.distinct, tallied.counted, ?_⟩
    rw [labels_concat, Finset.insert_eq_of_mem known, ite_self, tallied.seen_eq]
  · refine ⟨List.nodup_cons.mpr ⟨dup, tallied.distinct⟩, ?_, ?_⟩
    · rw [List.length_cons, tallied.counted]
    · rw [labels_concat, if_pos checked, List.toFinset_cons, tallied.seen_eq]
  · refine ⟨tallied.distinct, tallied.counted, ?_⟩
    rw [labels_concat, if_neg checked, tallied.seen_eq]

theorem countValid_eq_card (votes : List ν) :
    countValid label valid votes = (labels label valid votes).card := by
  have tallied : Tallied label valid votes (votes.foldl (tallyVote label valid) ⟨[], 0⟩) := by
    induction votes using List.reverseRecOn with
    | nil => exact ⟨List.nodup_nil, rfl, rfl⟩
    | append_singleton front vote ih =>
        rw [List.foldl_append, List.foldl_cons, List.foldl_nil]
        exact tallied_step label valid vote ih
  rw [countValid, tallied.counted, ← List.toFinset_card_of_nodup tallied.distinct, tallied.seen_eq]

/-- At least `quorum` different keys have a valid vote. -/
def HasKeys (votes : List ν) (quorum : Nat) : Prop :=
  ∃ keys : List κ, keys.Nodup ∧ quorum ≤ keys.length ∧
    ∀ key ∈ keys, ∃ vote ∈ votes, valid vote = true ∧ decode (label vote) = some key

/-- No key has valid votes under two labels. -/
def SpelledOnce (votes : List ν) : Prop :=
  ∀ first ∈ votes, ∀ second ∈ votes, valid first = true → valid second = true →
    decode (label first) = decode (label second) → label first = label second

/-- The keys with a valid vote. -/
def keys (votes : List ν) : Finset κ :=
  ((votes.filter valid).filterMap (fun vote => decode (label vote))).toFinset

omit [DecidableEq ι] in
theorem mem_keys {votes : List ν} {key : κ} :
    key ∈ keys label valid decode votes ↔
      ∃ vote ∈ votes, valid vote = true ∧ decode (label vote) = some key := by
  simp only [keys, List.mem_toFinset, List.mem_filterMap, List.mem_filter, and_assoc]

omit [DecidableEq ι] in
theorem hasKeys_iff (votes : List ν) (quorum : Nat) :
    HasKeys label valid decode votes quorum ↔ quorum ≤ (keys label valid decode votes).card := by
  constructor
  · intro ⟨found, distinct, enough, signed⟩
    have inside : found.toFinset ⊆ keys label valid decode votes := by
      intro key member
      rw [List.mem_toFinset] at member
      exact (mem_keys label valid decode).mpr (signed key member)
    calc
      quorum ≤ found.length := enough
      _ = found.toFinset.card := (List.toFinset_card_of_nodup distinct).symm
      _ ≤ _ := Finset.card_le_card inside
  · intro enough
    refine ⟨(keys label valid decode votes).toList, Finset.nodup_toList _, ?_, ?_⟩
    · rw [Finset.length_toList]
      exact enough
    · intro key member
      exact (mem_keys label valid decode).mp (Finset.mem_toList.mp member)

section Decoded

variable {label valid decode} {votes : List ν}
  (decodes : ∀ vote ∈ votes, valid vote = true → (decode (label vote)).isSome = true)

include decodes

theorem image_labels : (labels label valid votes).image decode =
    (keys label valid decode votes).image some := by
  ext found
  simp only [Finset.mem_image, mem_labels, mem_keys]
  constructor
  · intro ⟨name, ⟨vote, member, checked, named⟩, decoded⟩
    rcases Option.isSome_iff_exists.mp (decodes vote member checked) with ⟨key, reads⟩
    exact ⟨key, ⟨vote, member, checked, reads⟩, by rw [← reads, named, decoded]⟩
  · intro ⟨key, ⟨vote, member, checked, reads⟩, same⟩
    exact ⟨label vote, ⟨vote, member, checked, rfl⟩, by rw [reads, same]⟩

theorem card_image_labels :
    ((labels label valid votes).image decode).card = (keys label valid decode votes).card := by
  rw [image_labels decodes, Finset.card_image_of_injective _ (Option.some_injective κ)]

/-- There are as many keys as labels exactly when every key has one label. -/
theorem card_labels_le_iff : (labels label valid votes).card ≤ (keys label valid decode votes).card ↔
    SpelledOnce label valid decode votes := by
  rw [← card_image_labels decodes]
  have atMost : ((labels label valid votes).image decode).card ≤ (labels label valid votes).card :=
    Finset.card_image_le
  have exact_iff : (labels label valid votes).card ≤ ((labels label valid votes).image decode).card ↔
      ((labels label valid votes).image decode).card = (labels label valid votes).card := by
    omega
  rw [exact_iff, Finset.card_image_iff]
  constructor
  · intro injective first member second member' checked checked' same
    exact injective (Finset.mem_coe.mpr ((mem_labels label valid).mpr ⟨first, member, checked, rfl⟩))
      (Finset.mem_coe.mpr ((mem_labels label valid).mpr ⟨second, member', checked', rfl⟩)) same
  · intro once name present name' present' same
    rcases (mem_labels label valid).mp (Finset.mem_coe.mp present) with
      ⟨first, member, checked, named⟩
    rcases (mem_labels label valid).mp (Finset.mem_coe.mp present') with
      ⟨second, member', checked', named'⟩
    subst named named'
    exact once first member second member' checked checked' same

/-- Every quorum the count meets is a quorum of keys. -/
theorem counts_keys_iff :
    (∀ quorum ≤ countValid label valid votes, HasKeys label valid decode votes quorum) ↔
      SpelledOnce label valid decode votes := by
  rw [← card_labels_le_iff decodes, countValid_eq_card]
  constructor
  · intro every
    exact (hasKeys_iff label valid decode votes _).mp (every _ le_rfl)
  · intro enough quorum met
    exact (hasKeys_iff label valid decode votes quorum).mpr (le_trans met enough)

omit [DecidableEq ι] in
theorem two_le_card_keys : 2 ≤ (keys label valid decode votes).card ↔
    ∃ first ∈ votes, ∃ second ∈ votes, valid first = true ∧ valid second = true ∧
      decode (label first) ≠ decode (label second) := by
  rw [Nat.succ_le_iff, Finset.one_lt_card]
  constructor
  · intro ⟨key, present, key', present', differ⟩
    rcases (mem_keys label valid decode).mp present with ⟨first, member, checked, reads⟩
    rcases (mem_keys label valid decode).mp present' with ⟨second, member', checked', reads'⟩
    refine ⟨first, member, second, member', checked, checked', ?_⟩
    intro same
    rw [reads, reads'] at same
    exact differ (Option.some.inj same)
  · intro ⟨first, member, second, member', checked, checked', differ⟩
    rcases Option.isSome_iff_exists.mp (decodes first member checked) with ⟨key, reads⟩
    rcases Option.isSome_iff_exists.mp (decodes second member' checked') with ⟨key', reads'⟩
    refine ⟨key, (mem_keys label valid decode).mpr ⟨first, member, checked, reads⟩,
      key', (mem_keys label valid decode).mpr ⟨second, member', checked', reads'⟩, ?_⟩
    intro same
    rw [reads, reads', same] at differ
    exact differ rfl

/-- A quorum of two is met by fewer keys only when one key alone is spelled in two ways. -/
theorem counts_two_keys_iff :
    (2 ≤ countValid label valid votes → HasKeys label valid decode votes 2) ↔
      SpelledOnce label valid decode votes ∨
        ∃ first ∈ votes, ∃ second ∈ votes, valid first = true ∧ valid second = true ∧
          decode (label first) ≠ decode (label second) := by
  rw [hasKeys_iff, countValid_eq_card, ← card_labels_le_iff decodes, ← two_le_card_keys decodes]
  have nonempty : (keys label valid decode votes).card = 0 →
      (labels label valid votes).card = 0 := by
    intro none
    rw [← card_image_labels decodes, Finset.card_eq_zero, Finset.image_eq_empty] at none
    rw [none, Finset.card_empty]
  omega

end Decoded

/-! Votes that arrive one after the other, some of them missing, of which the first
of each label are kept until there are enough. Whether a vote is valid is not asked. -/

section Collected

variable (quorum : Nat) (vote : Nat → Option ν)

def collect (kept : List ν) (new : ν) : List ν :=
  if quorum ≤ kept.length then kept
  else if label new ∈ kept.map label then kept
  else kept ++ [new]

def collected : Nat → List ν
  | 0 => []
  | n + 1 => (vote n).elim (collected n) (collect label quorum (collected n))

/-- The labels that arrive before a moment. -/
def arrived : Nat → Finset ι
  | 0 => ∅
  | n + 1 => (vote n).elim (arrived n) fun new => insert (label new) (arrived n)

/-- A valid vote under a new label, while fewer labels than the quorum have arrived. -/
def Timely (moment : Nat) : Prop :=
  ∃ new, vote moment = some new ∧ valid new = true ∧ label new ∉ arrived label vote moment ∧
    (arrived label vote moment).card < quorum

instance : DecidablePred (Timely label valid quorum vote) := fun moment =>
  inferInstanceAs (Decidable (∃ new, new ∈ vote moment ∧ valid new = true ∧
    label new ∉ arrived label vote moment ∧ (arrived label vote moment).card < quorum))

theorem collect_of_full {kept : List ν} (full : quorum ≤ kept.length) (new : ν) :
    collect label quorum kept new = kept := if_pos full

/-- What holds of the votes kept so far. -/
structure Kept (n : Nat) (kept : List ν) : Prop where
  distinct : (kept.map label).Nodup
  length : kept.length = min quorum (arrived label vote n).card
  inside : (kept.map label).toFinset ⊆ arrived label vote n

variable {label quorum vote}

/-- While there is room, every label that has arrived is kept. -/
theorem Kept.all {n : Nat} {kept : List ν} (keeps : Kept label quorum vote n kept)
    (room : kept.length < quorum) : (kept.map label).toFinset = arrived label vote n := by
  apply Finset.eq_of_subset_of_card_le keeps.inside
  rw [List.toFinset_card_of_nodup keeps.distinct, List.length_map]
  have length := keeps.length
  omega

theorem Kept.collect {n : Nat} {kept : List ν} {new : ν} (keeps : Kept label quorum vote n kept)
    (votes : vote n = some new) :
    Kept label quorum vote (n + 1) (collect label quorum kept new) := by
  have arrives : arrived label vote (n + 1) = insert (label new) (arrived label vote n) := by
    simp only [arrived, votes, Option.elim_some]
  have grows : (arrived label vote n).card ≤ (arrived label vote (n + 1)).card := by
    rw [arrives]
    exact Finset.card_le_card (Finset.subset_insert _ _)
  have within : arrived label vote n ⊆ arrived label vote (n + 1) := by
    rw [arrives]
    exact Finset.subset_insert _ _
  have length := keeps.length
  unfold Quorum.collect
  split_ifs with full dup
  · exact ⟨keeps.distinct, by omega, keeps.inside.trans within⟩
  · have known : label new ∈ arrived label vote n := keeps.inside (List.mem_toFinset.mpr dup)
    rw [Finset.insert_eq_of_mem known] at arrives
    exact ⟨keeps.distinct, by rw [arrives]; exact length, keeps.inside.trans within⟩
  · have fresh : label new ∉ arrived label vote n := by
      rw [← keeps.all (not_le.mp full), List.mem_toFinset]
      exact dup
    have card : (arrived label vote (n + 1)).card = (arrived label vote n).card + 1 := by
      rw [arrives, Finset.card_insert_of_notMem fresh]
    constructor
    · rw [List.map_append, List.map_cons, List.map_nil, List.nodup_append]
      refine ⟨keeps.distinct, List.nodup_singleton _, ?_⟩
      intro name held other single same
      rw [List.mem_singleton] at single
      exact dup (single ▸ same ▸ held)
    · rw [List.length_append, List.length_singleton]
      omega
    · rw [List.map_append, List.toFinset_append, arrives]
      intro name held
      rcases Finset.mem_union.mp held with old | last
      · exact Finset.mem_insert_of_mem (keeps.inside old)
      · simp only [List.map_cons, List.map_nil, List.mem_toFinset, List.mem_singleton] at last
        exact last ▸ Finset.mem_insert_self _ _

theorem kept_collected (n : Nat) : Kept label quorum vote n (collected label quorum vote n) := by
  induction n with
  | zero => exact ⟨List.nodup_nil, by simp [collected, arrived], by simp [collected]⟩
  | succ n ih =>
      unfold collected
      cases votes : vote n with
      | none =>
          have arrives : arrived label vote (n + 1) = arrived label vote n := by
            simp only [arrived, votes, Option.elim_none]
          exact ⟨ih.distinct, by rw [arrives]; exact ih.length, by rw [arrives]; exact ih.inside⟩
      | some new => exact ih.collect votes

/-- Only the timely votes among the valid ones are kept. -/
theorem countP_collected (n : Nat) :
    (collected label quorum vote n).countP valid =
      ((Finset.range n).filter (Timely label valid quorum vote)).card := by
  induction n with
  | zero => simp [collected]
  | succ n ih =>
      have keeps : Kept label quorum vote n (collected label quorum vote n) := kept_collected n
      have length := keeps.length
      rw [Finset.range_add_one, Finset.filter_insert]
      have outside : n ∉ (Finset.range n).filter (Timely label valid quorum vote) := by simp
      unfold collected
      cases votes : vote n with
      | none =>
          have late : ¬Timely label valid quorum vote n := by
            rintro ⟨new, given, -⟩
            rw [votes] at given
            cases given
          rw [if_neg late, Option.elim_none, ih]
      | some new =>
          rw [Option.elim_some]
          have timely_iff : Timely label valid quorum vote n ↔ valid new = true ∧
              label new ∉ arrived label vote n ∧ (arrived label vote n).card < quorum := by
            simp only [Timely, votes, Option.some.injEq, exists_eq_left']
          by_cases timely : Timely label valid quorum vote n
          · rcases timely_iff.mp timely with ⟨checked, fresh, room⟩
            have unheld : label new ∉ (collected label quorum vote n).map label :=
              fun dup => fresh (keeps.inside (List.mem_toFinset.mpr dup))
            have appended : collect label quorum (collected label quorum vote n) new =
                collected label quorum vote n ++ [new] := by
              rw [collect, if_neg (by omega), if_neg unheld]
            rw [if_pos timely, Finset.card_insert_of_notMem outside, appended, List.countP_append,
              ih, List.countP_singleton, if_pos checked]
          · rw [if_neg timely]
            unfold Quorum.collect
            split_ifs with full dup
            · exact ih
            · exact ih
            · have fresh : label new ∉ arrived label vote n := by
                rw [← keeps.all (not_le.mp full), List.mem_toFinset]
                exact dup
              have invalid : ¬valid new = true := by
                intro checked
                exact timely (timely_iff.mpr ⟨checked, fresh, by omega⟩)
              rw [List.countP_append, ih, List.countP_singleton, if_neg invalid, Nat.add_zero]

theorem mem_arrived {n : Nat} {name : ι} : name ∈ arrived label vote n ↔
    ∃ moment < n, ∃ new, vote moment = some new ∧ label new = name := by
  induction n with
  | zero => simp [arrived]
  | succ n ih =>
      unfold arrived
      simp only [Nat.lt_succ_iff_lt_or_eq, or_and_right, exists_or, exists_eq_left, ← ih]
      cases votes : vote n with
      | none => simp
      | some new =>
          simp only [Option.elim_some, Finset.mem_insert, Option.some.injEq, exists_eq_left']
          constructor
          · rintro (rfl | old)
            · exact Or.inr rfl
            · exact Or.inl old
          · rintro (old | rfl)
            · exact Or.inr old
            · exact Or.inl rfl

theorem card_arrived_le (n : Nat) : (arrived label vote n).card ≤ n := by
  induction n with
  | zero => exact le_rfl
  | succ n ih =>
      unfold arrived
      cases vote n with
      | none => exact Nat.le_succ_of_le ih
      | some new => exact le_trans (Finset.card_insert_le _ _) (Nat.succ_le_succ ih)

/-- Votes under distinct labels are counted one by one. -/
theorem countValid_of_nodup {votes : List ν} (distinct : (votes.map label).Nodup) :
    countValid label valid votes = votes.countP valid := by
  rw [countValid_eq_card, labels, List.toFinset_card_of_nodup, List.length_map,
    List.countP_eq_length_filter]
  exact distinct.sublist (List.filter_sublist.map label)

variable (label) in
/-- Valid votes are all counted only when they are under distinct labels. -/
theorem length_le_countValid_iff {votes : List ν} (checked : ∀ vote ∈ votes, valid vote = true) :
    votes.length ≤ countValid label valid votes ↔ (votes.map label).Nodup := by
  have all : votes.filter valid = votes := List.filter_eq_self.mpr checked
  rw [countValid_eq_card, labels, all]
  constructor
  · intro enough
    have sized : (votes.map label).toFinset.card = (votes.map label).length := by
      refine le_antisymm (List.toFinset_card_le _) ?_
      rw [List.length_map]
      exact enough
    exact Multiset.coe_nodup.mp (Multiset.toFinset_card_eq_card_iff_nodup.mp sized)
  · intro distinct
    rw [List.toFinset_card_of_nodup distinct, List.length_map]

end Collected

end Gyza.Quorum
