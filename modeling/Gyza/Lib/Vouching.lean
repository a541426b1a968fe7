import Gyza.Lib.Quorum
import Mathlib

/-! Standing that is passed on by vouching.

A key has standing when it is a root, or when a quorum of keys with standing is
on its ballot. `grounded` is the least such set and `within n` what `n` levels of
ballots reach. The last section counts the votes of one ballot whose voters are
asked about one after the other, with a state that the answers may change. -/

namespace Gyza.Vouching

variable {κ : Type}

structure System (κ : Type) where
  roots : Set κ
  /-- The keys that validly vote for a key; `none` when it has no ballot. -/
  ballotOf : κ → Option (Finset κ)
  quorum : Nat

namespace System

variable (system : System κ)

/-- A quorum of the key's ballot lies in the set. -/
def Endorsed (standing : Set κ) (key : κ) : Prop :=
  ∃ ballot voters, system.ballotOf key = some ballot ∧ voters ⊆ ballot ∧
    system.quorum ≤ voters.card ∧ ↑voters ⊆ standing

/-- One round of vouching. -/
def endorse : Set κ →o Set κ where
  toFun standing := system.roots ∪ {key | system.Endorsed standing key}
  monotone' := by
    intro smaller larger le key member
    rcases member with root | ⟨ballot, voters, held, listed, enough, inside⟩
    · exact Or.inl root
    · exact Or.inr ⟨ballot, voters, held, listed, enough, inside.trans le⟩

def grounded : Set κ := system.endorse.lfp

def within : Nat → Set κ
  | 0 => system.roots
  | level + 1 => system.endorse (within level)

theorem roots_subset_within (level : Nat) : system.roots ⊆ system.within level := by
  cases level with
  | zero => exact subset_rfl
  | succ level => exact Set.subset_union_left

theorem within_subset_succ (level : Nat) : system.within level ⊆ system.within (level + 1) := by
  induction level with
  | zero => exact system.roots_subset_within 1
  | succ level ih => exact system.endorse.monotone ih

theorem within_mono : Monotone system.within := monotone_nat_of_le_succ system.within_subset_succ

theorem roots_subset_grounded : system.roots ⊆ system.grounded := by
  rw [grounded, ← system.endorse.map_lfp]
  exact Set.subset_union_left

theorem grounded_of_endorsed {key : κ} (endorsed : system.Endorsed system.grounded key) :
    key ∈ system.grounded := by
  rw [grounded, ← system.endorse.map_lfp]
  exact Or.inr endorsed

theorem within_subset_grounded (level : Nat) : system.within level ⊆ system.grounded := by
  induction level with
  | zero => exact system.roots_subset_grounded
  | succ level ih =>
      rw [grounded, ← system.endorse.map_lfp]
      exact system.endorse.monotone ih

/-- Keys outside the roots that draw every quorum from among themselves have no standing. -/
theorem disjoint_grounded (clique : Set κ) (rootless : Disjoint clique system.roots)
    (closed : ∀ key ∈ clique, ∀ ballot, system.ballotOf key = some ballot → ∀ voters ⊆ ballot,
      system.quorum ≤ voters.card → ∃ voter ∈ voters, voter ∈ clique) :
    Disjoint clique system.grounded := by
  have outside : system.endorse cliqueᶜ ≤ cliqueᶜ := by
    intro key member inside
    rcases member with root | ⟨ballot, voters, held, listed, enough, apart⟩
    · exact Set.disjoint_left.mp rootless inside root
    · rcases closed key inside ballot held voters listed enough with ⟨voter, votes, member⟩
      exact apart votes member
  rw [Set.disjoint_left]
  intro key inside standing
  exact system.endorse.lfp_le outside standing inside

end System

/-! Asking about the voters of a ballot. -/

section Asking

variable {ν ι σ : Type} [DecidableEq ι] (label : ν → ι) (valid : ν → Bool)

def addVoter (seen : List ι) (vote : ν) : List ι :=
  if label vote ∈ seen then seen else if valid vote then seen ++ [label vote] else seen

/-- The labels with a valid vote, in the order of their first one. -/
def voters (votes : List ν) : List ι := votes.foldl (addVoter label valid) []

structure Asking (ι σ : Type) where
  seen : List ι
  counted : List ι
  state : σ

variable (ask : ι → σ → Bool × σ)

/-- A label is asked about once, at its first valid vote, and counts if the answer is yes. -/
def askVote (asking : Asking ι σ) (vote : ν) : Asking ι σ :=
  if label vote ∈ asking.seen then asking
  else if valid vote then
    let answer := ask (label vote) asking.state
    ⟨asking.seen ++ [label vote],
      if answer.1 then asking.counted ++ [label vote] else asking.counted, answer.2⟩
  else asking

def askAll (votes : List ν) (state : σ) : Asking ι σ :=
  votes.foldl (askVote label valid ask) ⟨[], [], state⟩

theorem voters_concat (votes : List ν) (vote : ν) :
    voters label valid (votes ++ [vote]) = addVoter label valid (voters label valid votes) vote := by
  simp only [voters, List.foldl_append, List.foldl_cons, List.foldl_nil]

theorem askAll_concat (votes : List ν) (vote : ν) (state : σ) :
    askAll label valid ask (votes ++ [vote]) state =
      askVote label valid ask (askAll label valid ask votes state) vote := by
  simp only [askAll, List.foldl_append, List.foldl_cons, List.foldl_nil]

theorem voters_toFinset (votes : List ν) :
    (voters label valid votes).toFinset = Quorum.labels label valid votes := by
  induction votes using List.reverseRecOn with
  | nil => rfl
  | append_singleton votes vote ih =>
      rw [voters_concat, Quorum.labels_concat, ← ih, addVoter]
      split_ifs with known checked checked
      · rw [Finset.insert_eq_of_mem (List.mem_toFinset.mpr known)]
      · rfl
      · rw [List.toFinset_append, List.toFinset_cons, List.toFinset_nil, Finset.union_comm]
        rfl
      · rfl

theorem mem_voters {votes : List ν} {name : ι} :
    name ∈ voters label valid votes ↔ name ∈ Quorum.labels label valid votes := by
  rw [← voters_toFinset, List.mem_toFinset]

theorem voters_nodup (votes : List ν) : (voters label valid votes).Nodup := by
  induction votes using List.reverseRecOn with
  | nil => exact List.nodup_nil
  | append_singleton votes vote ih =>
      rw [voters_concat, addVoter]
      split_ifs with known checked
      · exact ih
      · rw [List.nodup_append]
        refine ⟨ih, List.nodup_singleton _, ?_⟩
        intro name member other single same
        rw [List.mem_singleton] at single
        exact known (single ▸ same ▸ member)
      · exact ih

variable {label valid ask}

/-- What holds after a prefix of the votes: the counted labels are those answered yes. -/
structure Asked (label : ν → ι) (valid : ν → Bool) (invariant : σ → Prop) (meaning : ι → Bool → Prop)
    (votes : List ν) (asking : Asking ι σ) : Prop where
  seen : asking.seen = voters label valid votes
  kept : invariant asking.state
  counted : ∃ answer : ι → Bool, (∀ name ∈ voters label valid votes, meaning name (answer name)) ∧
    asking.counted = (voters label valid votes).filter answer

theorem asked_step {invariant : σ → Prop} {meaning : ι → Bool → Prop} {votes : List ν}
    {asking : Asking ι σ} (vote : ν) (asked : Asked label valid invariant meaning votes asking)
    (asks : valid vote = true → invariant (ask (label vote) asking.state).2 ∧
      meaning (label vote) (ask (label vote) asking.state).1) :
    Asked label valid invariant meaning (votes ++ [vote]) (askVote label valid ask asking vote) := by
  rcases asked with ⟨seen, kept, answer, meant, counted⟩
  have order := voters_concat label valid votes vote
  rw [addVoter] at order
  rw [askVote, seen]
  split_ifs at order ⊢ with known checked
  · exact ⟨by rw [order, seen], kept, answer, order ▸ meant, by rw [order, counted]⟩
  · rcases asks checked with ⟨next, new⟩
    refine ⟨by rw [order], next, Function.update answer (label vote) (ask (label vote) asking.state).1,
      ?_, ?_⟩
    · intro name member
      rw [order] at member
      by_cases same : name = label vote
      · rw [same, Function.update_self]
        exact new
      · rw [Function.update_of_ne same]
        rcases List.mem_append.mp member with old | added
        · exact meant name old
        · exact absurd (List.mem_singleton.mp added) same
    · have unchanged : (voters label valid votes).filter
          (Function.update answer (label vote) (ask (label vote) asking.state).1) =
            (voters label valid votes).filter answer := by
        apply List.filter_congr
        intro name member
        have other : name ≠ label vote := fun same => known (same ▸ member)
        rw [Function.update_of_ne other]
      rw [order, List.filter_append, unchanged, ← counted, List.filter_singleton,
        Function.update_self]
      cases answered : (ask (label vote) asking.state).1 with
      | false => simp [answered]
      | true => simp [answered]
  · exact ⟨by rw [order, seen], kept, answer, order ▸ meant, by rw [order, counted]⟩

/-- What every answer keeps, and says about the label asked for, holds of the whole count. -/
theorem askAll_spec {invariant : σ → Prop} {meaning : ι → Bool → Prop} {votes : List ν} {state : σ}
    (asks : ∀ name ∈ Quorum.labels label valid votes, ∀ current, invariant current →
      invariant (ask name current).2 ∧ meaning name (ask name current).1)
    (holds : invariant state) :
    Asked label valid invariant meaning votes (askAll label valid ask votes state) := by
  induction votes using List.reverseRecOn with
  | nil => exact ⟨rfl, holds, fun _ => false, by simp [voters], rfl⟩
  | append_singleton votes vote ih =>
      have earlier : Quorum.labels label valid votes ⊆ Quorum.labels label valid (votes ++ [vote]) := by
        rw [Quorum.labels_concat]
        split_ifs
        · exact Finset.subset_insert _ _
        · exact subset_rfl
      have asked := ih (fun name member => asks name (earlier member))
      rw [askAll_concat]
      apply asked_step vote asked
      intro checked
      apply asks _ _ _ asked.kept
      rw [Quorum.labels_concat, if_pos checked]
      exact Finset.mem_insert_self _ _

/-- Answers that do not depend on what `embed` adds to the state give the same count. -/
theorem askAll_map {other : ι → σ → Bool × σ} (embed : σ → σ) {votes : List ν} (state : σ)
    (same : ∀ name ∈ Quorum.labels label valid votes, ∀ current,
      ask name (embed current) = ((other name current).1, embed (other name current).2)) :
    askAll label valid ask votes (embed state) =
      { askAll label valid other votes state with
        state := embed (askAll label valid other votes state).state } := by
  induction votes using List.reverseRecOn with
  | nil => rfl
  | append_singleton votes vote ih =>
      rw [Quorum.labels_concat] at same
      have before := ih (fun name member => same name (by
        split_ifs
        · exact Finset.mem_insert_of_mem member
        · exact member))
      rw [askAll_concat, askAll_concat, before]
      unfold askVote
      simp only
      by_cases known : label vote ∈ (askAll label valid other votes state).seen
      · rw [if_pos known, if_pos known]
      rw [if_neg known, if_neg known]
      by_cases checked : valid vote = true
      · rw [if_pos checked, if_pos checked]
        rw [same (label vote) (by rw [if_pos checked]; exact Finset.mem_insert_self _ _)]
      · rw [if_neg checked, if_neg checked]

end Asking

end Gyza.Vouching
