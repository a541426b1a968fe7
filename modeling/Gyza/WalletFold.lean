import Gyza.Wallet

/-! What the wallet's fold leaves for each entry id, and the statements it gives.

The fold acts on one id at a time, so a statement is a sum over the ids of what
became of each: nothing, one chosen entry, or a dispute. -/

namespace Gyza.Wallet

inductive Outcome where
  | absent
  | chosen (entry : NumericEntry)
  | disputed

def Folded.outcome (state : Folded) (id : String) : Outcome :=
  if id ∈ state.conflicting then .disputed
  else
    match state.chosen.lookup id with
    | none => .absent
    | some entry => .chosen entry

/-- One turn of the constructor's loop, seen from the id it concerns. -/
def resolve : Outcome → NumericEntry → Outcome
  | .absent, entry => .chosen entry
  | .disputed, _ => .disputed
  | .chosen prev, entry =>
      if canonical prev = canonical entry then .chosen prev
      else if prev.settled && !entry.settled then .chosen prev
      else if entry.settled && !prev.settled then .chosen entry
      else .disputed

def settle (versions : List NumericEntry) : Outcome := versions.foldl resolve .absent

def versionsOf (entries : List NumericEntry) (id : String) : List NumericEntry :=
  Keyed.inputsOf (fun entry : NumericEntry => entry.entryId) entries id

namespace Folded

theorem outcome_choose (state : Folded) (entry : NumericEntry)
    (free : entry.entryId ∉ state.conflicting) (id : String) :
    (state.choose entry free).outcome id =
      if entry.entryId = id then .chosen entry else state.outcome id := by
  simp only [outcome, choose, Dict.lookup_set]
  by_cases same : entry.entryId = id
  · subst same
    simp [free]
  · simp [same]

theorem outcome_dispute (state : Folded) (entryId id : String) :
    (state.dispute entryId).outcome id =
      if entryId = id then .disputed else state.outcome id := by
  simp only [outcome, dispute, Dict.lookup_pop, Finset.mem_insert]
  by_cases same : entryId = id
  · simp [same]
  · simp [same, Ne.symm same]

theorem outcome_disputed {state : Folded} {id : String} (disputed : id ∈ state.conflicting) :
    state.outcome id = .disputed := by simp [outcome, disputed]

theorem outcome_absent {state : Folded} {id : String} (free : id ∉ state.conflicting)
    (missing : state.chosen.lookup id = none) : state.outcome id = .absent := by
  simp [outcome, free, missing]

theorem outcome_chosen {state : Folded} {id : String} {entry : NumericEntry}
    (free : id ∉ state.conflicting) (found : state.chosen.lookup id = some entry) :
    state.outcome id = .chosen entry := by simp [outcome, free, found]

theorem outcome_step (state : Folded) (entry : NumericEntry) (id : String) :
    (state.step entry).outcome id =
      if entry.entryId = id then resolve (state.outcome id) entry else state.outcome id := by
  by_cases same : entry.entryId = id
  · subst same
    rw [if_pos rfl]
    simp only [step]
    split_ifs with disputed
    · rw [outcome_disputed disputed]
      rfl
    · cases found : state.chosen.lookup entry.entryId with
      | none =>
          rw [outcome_absent disputed found]
          simp [outcome_choose, resolve]
      | some prev =>
          rw [outcome_chosen disputed found]
          simp only [resolve]
          split_ifs
          · exact outcome_chosen disputed found
          · exact outcome_chosen disputed found
          · simp [outcome_choose]
          · simp [outcome_dispute]
  · rw [if_neg same]
    simp only [step]
    split_ifs with disputed
    · rfl
    · cases found : state.chosen.lookup entry.entryId with
      | none => simp [outcome_choose, same]
      | some prev =>
          simp only
          split_ifs <;> simp [outcome_choose, outcome_dispute, same]

end Folded

/-- Every id is settled by its own versions, in the order they were listed. -/
theorem fold_outcome (entries : List NumericEntry) (id : String) :
    (fold entries).outcome id = settle (versionsOf entries id) := by
  have start : Folded.start.outcome id = .absent := rfl
  rw [settle, ← start]
  exact Keyed.view_foldl _ _ Folded.outcome resolve Folded.outcome_step entries Folded.start id

/-- The figures of a statement that are summed; `net` is computed from two of them. -/
inductive Leg where
  | settledIn
  | settledOut
  | pendingIn
  | pendingOut
  | settledCount
  | selfDealing
  | malformed
  | conflicting
  deriving DecidableEq

def Tally.leg (tally : Tally) : Leg → Int
  | .settledIn => tally.settledIn.micros
  | .settledOut => tally.settledOut.micros
  | .pendingIn => tally.pendingIn.micros
  | .pendingOut => tally.pendingOut.micros
  | .settledCount => tally.settledCount
  | .selfDealing => tally.selfDealing
  | .malformed => tally.malformed
  | .conflicting => 0

def WalletStatement.leg (report : WalletStatement) : Leg → Int
  | .settledIn => report.settledIn.micros
  | .settledOut => report.settledOut.micros
  | .pendingIn => report.pendingIn.micros
  | .pendingOut => report.pendingOut.micros
  | .settledCount => report.settledEntryCount
  | .selfDealing => report.excludedSelfDealing
  | .malformed => report.excludedMalformed
  | .conflicting => report.excludedConflicting

/-- What one kept entry adds to a figure. -/
def weigh (pubkey : String) (leg : Leg) (entry : NumericEntry) : Int :=
  (Tally.add pubkey {} entry).leg leg

/-- What one id adds to a figure. -/
def share (pubkey : String) (leg : Leg) : Outcome → Int
  | .absent => 0
  | .chosen entry => weigh pubkey leg entry
  | .disputed => if leg = .conflicting then 1 else 0

theorem Tally.leg_add (pubkey : String) (tally : Tally) (entry : NumericEntry) (leg : Leg) :
    (tally.add pubkey entry).leg leg = tally.leg leg + weigh pubkey leg entry := by
  by_cases selfDealing : entry.fromCompositor = entry.toCompositor
  · cases leg <;> simp [weigh, Tally.add, Tally.leg, selfDealing]
  · cases amount : Credits.fromAmount entry with
    | none => cases leg <;> simp [weigh, Tally.add, Tally.leg, selfDealing, amount]
    | some credits =>
        by_cases concerned : entry.toCompositor = pubkey ∨ entry.fromCompositor = pubkey
        · cases settled : entry.settled <;> cases leg <;>
            simp [weigh, Tally.add, Tally.leg, selfDealing, amount, concerned, settled] <;>
            split_ifs <;> simp
        · cases leg <;> simp [weigh, Tally.add, Tally.leg, selfDealing, amount, concerned]

theorem Tally.leg_foldl (pubkey : String) (entries : List NumericEntry) (tally : Tally) (leg : Leg) :
    (entries.foldl (Tally.add pubkey) tally).leg leg =
      tally.leg leg + (entries.map (weigh pubkey leg)).sum := by
  induction entries generalizing tally with
  | nil => simp
  | cons entry rest ih =>
      rw [List.foldl_cons, ih, Tally.leg_add, List.map_cons, List.sum_cons, add_assoc]

theorem Tally.leg_empty (leg : Leg) : ({} : Tally).leg leg = 0 := by cases leg <;> rfl

theorem weigh_conflicting (pubkey : String) (entry : NumericEntry) :
    weigh pubkey .conflicting entry = 0 := rfl

/-- A figure of a statement, as the sum of the kept entries or the count of disputes. -/
theorem statement_leg (wallet : Wallet) (pubkey : String) (leg : Leg) :
    (wallet.statement pubkey).leg leg =
      if leg = .conflicting then (wallet.conflictingCount : Int)
      else (wallet.entries.map (weigh pubkey leg)).sum := by
  have sums := Tally.leg_foldl pubkey wallet.entries {} leg
  rw [Tally.leg_empty, zero_add] at sums
  cases leg with
  | conflicting => rfl
  | settledIn | settledOut | pendingIn | pendingOut | settledCount | selfDealing | malformed =>
      exact sums

theorem statement_eq (first second : Wallet) (pubkey : String) :
    first.statement pubkey = second.statement pubkey ↔
      ∀ leg, (first.statement pubkey).leg leg = (second.statement pubkey).leg leg := by
  constructor
  · intro same leg
    rw [same]
  · intro same
    have settledIn := same .settledIn
    have settledOut := same .settledOut
    have pendingIn := same .pendingIn
    have pendingOut := same .pendingOut
    have settledCount := same .settledCount
    have selfDealing := same .selfDealing
    have malformed := same .malformed
    have conflicting := same .conflicting
    simp only [WalletStatement.leg, statement, Nat.cast_inj] at *
    simp only [WalletStatement.mk.injEq, Credits.ext_iff, Credits.micros_sub, settledIn, settledOut,
      pendingIn, pendingOut, settledCount, selfDealing, malformed, conflicting, and_self]

def entryIds (entries : List NumericEntry) : Finset String :=
  (entries.map (fun entry => entry.entryId)).toFinset

theorem settle_versionsOf_absent (entries : List NumericEntry) (id : String)
    (missing : id ∉ entryIds entries) : settle (versionsOf entries id) = .absent := by
  have none : versionsOf entries id = [] := by
    rw [versionsOf, Keyed.inputsOf, List.filter_eq_nil_iff]
    intro entry member
    have other : entry.entryId ≠ id := by
      intro same
      exact missing (by simpa [entryIds] using ⟨entry, member, same⟩)
    simpa using other
  rw [none]
  rfl

namespace Folded

theorem share_outcome_kept (state : Folded) (pubkey : String) (leg : Leg)
    (kept : leg ≠ .conflicting) (id : String) :
    share pubkey leg (state.outcome id) =
      ((state.chosen.lookup id).map (weigh pubkey leg)).getD 0 := by
  by_cases disputed : id ∈ state.conflicting
  · rw [outcome_disputed disputed, state.apart id disputed]
    simp [share, kept]
  · cases found : state.chosen.lookup id with
    | none =>
        rw [outcome_absent disputed found]
        rfl
    | some entry =>
        rw [outcome_chosen disputed found]
        rfl

theorem share_outcome_conflicting (state : Folded) (pubkey : String) (id : String) :
    share pubkey .conflicting (state.outcome id) = if id ∈ state.conflicting then 1 else 0 := by
  by_cases disputed : id ∈ state.conflicting
  · rw [outcome_disputed disputed, if_pos disputed]
    rfl
  · rw [if_neg disputed]
    cases found : state.chosen.lookup id with
    | none =>
        rw [outcome_absent disputed found]
        rfl
    | some entry =>
        rw [outcome_chosen disputed found]
        exact weigh_conflicting pubkey entry

end Folded

theorem outcome_absent_iff (state : Folded) (id : String) :
    state.outcome id = .absent ↔ id ∉ state.conflicting ∧ state.chosen.lookup id = none := by
  constructor
  · intro absent
    by_cases disputed : id ∈ state.conflicting
    · rw [Folded.outcome_disputed disputed] at absent
      cases absent
    · cases found : state.chosen.lookup id with
      | none => exact ⟨disputed, rfl⟩
      | some entry =>
          rw [Folded.outcome_chosen disputed found] at absent
          cases absent
  · intro ⟨free, missing⟩
    exact Folded.outcome_absent free missing

/-- A statement of the wallet is a sum over the entry ids of what became of each. -/
theorem statement_shares (entries : List NumericEntry) (pubkey : String) (leg : Leg) :
    ((ofEntries entries).statement pubkey).leg leg =
      ∑ id ∈ entryIds entries, share pubkey leg (settle (versionsOf entries id)) := by
  have listed : ∀ id, id ∉ entryIds entries →
      id ∉ (fold entries).conflicting ∧ (fold entries).chosen.lookup id = none := by
    intro id missing
    rw [← outcome_absent_iff, fold_outcome]
    exact settle_versionsOf_absent entries id missing
  simp only [statement_leg, ofEntries, ← fold_outcome]
  by_cases conflicting : leg = .conflicting
  · subst conflicting
    have subset : (fold entries).conflicting ⊆ entryIds entries := by
      intro id disputed
      by_contra missing
      exact (listed id missing).1 disputed
    simp only [if_true, Folded.share_outcome_conflicting, Finset.sum_boole]
    rw [Finset.filter_mem_eq_inter, Finset.inter_eq_right.mpr subset]
  · have covered : ∀ id entry, (fold entries).chosen.lookup id = some entry →
        id ∈ entryIds entries := by
      intro id entry found
      by_contra missing
      rw [(listed id missing).2] at found
      cases found
    rw [if_neg conflicting, Dict.sum_values _ _ _ covered]
    apply Finset.sum_congr rfl
    intro id _
    rw [Folded.share_outcome_kept _ _ _ conflicting]

/-! The versions of one id. -/

def settledOf (versions : List NumericEntry) : List NumericEntry :=
  versions.filter (fun entry => entry.settled)

def unsettledOf (versions : List NumericEntry) : List NumericEntry :=
  versions.filter (fun entry => !entry.settled)

def Agree (versions : List NumericEntry) : Prop :=
  ∀ first ∈ versions, ∀ second ∈ versions, canonical first = canonical second

/-- All amounts are malformed or none is, unless the entries are self-dealing. -/
def SameKind (versions : List NumericEntry) : Prop :=
  ∀ first ∈ versions, ∀ second ∈ versions, first.fromCompositor ≠ first.toCompositor →
    (amountToMicros first = none ↔ amountToMicros second = none)

/-- The versions of an id whose outcome does not depend on their order. -/
structure OrderFree (versions : List NumericEntry) : Prop where
  settled : settledOf versions ≠ [] → Agree (settledOf versions) →
    Agree (unsettledOf versions) ∧ SameKind (settledOf versions)
  unsettled : settledOf versions = [] → Agree (unsettledOf versions) →
    SameKind (unsettledOf versions)

theorem mem_settledOf (versions : List NumericEntry) (entry : NumericEntry) :
    entry ∈ settledOf versions ↔ entry ∈ versions ∧ entry.settled = true := by simp [settledOf]

theorem mem_unsettledOf (versions : List NumericEntry) (entry : NumericEntry) :
    entry ∈ unsettledOf versions ↔ entry ∈ versions ∧ entry.settled = false := by
  simp [unsettledOf]

theorem settled_of_canonical {first second : NumericEntry}
    (same : canonical first = canonical second) : first.settled = second.settled := by
  simp only [canonical, Prod.mk.injEq] at same
  exact same.2.2.2

theorem canonical_ne_of_settled {first second : NumericEntry}
    (apart : first.settled ≠ second.settled) : canonical first ≠ canonical second :=
  fun same => apart (settled_of_canonical same)

theorem amountToMicros_congr {first second : NumericEntry}
    (text : Decimal.fixed6 first.value = Decimal.fixed6 second.value)
    (kind : amountToMicros first = none ↔ amountToMicros second = none) :
    amountToMicros first = amountToMicros second := by
  simp only [amountToMicros] at *
  split_ifs at * with firstMalformed secondMalformed secondMalformed
  · rfl
  · simp at kind
  · simp at kind
  · rw [text]

/-- Entries that agree and are of one kind count alike. -/
theorem weigh_congr {first second : NumericEntry} (same : canonical first = canonical second)
    (kind : first.fromCompositor ≠ first.toCompositor →
      (amountToMicros first = none ↔ amountToMicros second = none)) (pubkey : String) (leg : Leg) :
    weigh pubkey leg first = weigh pubkey leg second := by
  simp only [canonical, Prod.mk.injEq] at same
  rcases same with ⟨payer, earner, text, settled⟩
  simp only [weigh, Tally.add]
  by_cases selfDealing : first.fromCompositor = first.toCompositor
  · rw [if_pos selfDealing, if_pos (payer ▸ earner ▸ selfDealing)]
  · have amount : Credits.fromAmount first = Credits.fromAmount second := by
      rw [Credits.fromAmount, Credits.fromAmount, amountToMicros_congr text (kind selfDealing)]
    simp only [payer, earner, settled, amount]

theorem resolve_disputed (versions : List NumericEntry) :
    versions.foldl resolve .disputed = .disputed := by
  induction versions with
  | nil => rfl
  | cons entry rest ih => exact ih

theorem resolve_same {prev entry : NumericEntry} (same : canonical prev = canonical entry) :
    resolve (.chosen prev) entry = .chosen prev := by simp [resolve, same]

theorem resolve_superseded {prev entry : NumericEntry} (prevSettled : prev.settled = true)
    (unsettled : entry.settled = false) : resolve (.chosen prev) entry = .chosen prev := by
  have differ : canonical prev ≠ canonical entry :=
    canonical_ne_of_settled (by simp [prevSettled, unsettled])
  simp [resolve, differ, prevSettled, unsettled]

theorem resolve_supersedes {prev entry : NumericEntry} (prevUnsettled : prev.settled = false)
    (settled : entry.settled = true) : resolve (.chosen prev) entry = .chosen entry := by
  have differ : canonical prev ≠ canonical entry :=
    canonical_ne_of_settled (by simp [prevUnsettled, settled])
  simp [resolve, differ, prevUnsettled, settled]

theorem resolve_differs {prev entry : NumericEntry} (alike : prev.settled = entry.settled)
    (differ : canonical prev ≠ canonical entry) : resolve (.chosen prev) entry = .disputed := by
  cases settled : entry.settled <;> simp [resolve, differ, alike, settled]

/-- A settled choice stands against everything but a different settled version. -/
theorem resolve_settled (prev : NumericEntry) (prevSettled : prev.settled = true)
    (versions : List NumericEntry) :
    ((∀ entry ∈ versions, entry.settled = true → canonical prev = canonical entry) →
      versions.foldl resolve (.chosen prev) = .chosen prev) ∧
    ((∃ entry ∈ versions, entry.settled = true ∧ canonical prev ≠ canonical entry) →
      versions.foldl resolve (.chosen prev) = .disputed) := by
  induction versions with
  | nil => simp
  | cons entry rest ih =>
      rw [List.foldl_cons]
      by_cases settled : entry.settled = true
      · by_cases same : canonical prev = canonical entry
        · rw [resolve_same same]
          simpa [settled, same] using ih
        · rw [resolve_differs (prevSettled.trans settled.symm) same, resolve_disputed]
          simp [settled, same]
      · rw [resolve_superseded prevSettled (Bool.eq_false_iff.mpr settled)]
        simpa [settled] using ih

/-- Among versions that are all settled or all unsettled, the choice stands while they agree. -/
theorem resolve_alike (prev : NumericEntry) (versions : List NumericEntry)
    (alike : ∀ entry ∈ versions, prev.settled = entry.settled) :
    ((∀ entry ∈ versions, canonical prev = canonical entry) →
      versions.foldl resolve (.chosen prev) = .chosen prev) ∧
    ((∃ entry ∈ versions, canonical prev ≠ canonical entry) →
      versions.foldl resolve (.chosen prev) = .disputed) := by
  induction versions with
  | nil => simp
  | cons entry rest ih =>
      rw [List.foldl_cons]
      by_cases same : canonical prev = canonical entry
      · rw [resolve_same same]
        simpa [same] using ih (fun other member => alike other (List.mem_cons_of_mem _ member))
      · rw [resolve_differs (alike entry List.mem_cons_self) same, resolve_disputed]
        simp [same]

theorem settle_alike (head : NumericEntry) (rest : List NumericEntry)
    (alike : ∀ entry ∈ rest, head.settled = entry.settled) :
    (Agree (head :: rest) → settle (head :: rest) = .chosen head) ∧
      (¬Agree (head :: rest) → settle (head :: rest) = .disputed) := by
  have fold := resolve_alike head rest alike
  constructor
  · intro agree
    exact fold.1 (fun entry member => agree head List.mem_cons_self entry (List.mem_cons_of_mem _ member))
  · intro differ
    apply fold.2
    by_contra same
    push Not at same
    apply differ
    intro first firstMember second secondMember
    have atHead : ∀ entry ∈ head :: rest, canonical head = canonical entry := by
      intro entry member
      rcases List.mem_cons.mp member with rfl | later
      · rfl
      · exact same entry later
    exact (atHead first firstMember).symm.trans (atHead second secondMember)

/-- The versions up to the first settled one, that one, and the rest. -/
theorem exists_first_settled (versions : List NumericEntry) (some : settledOf versions ≠ []) :
    ∃ front first rest, versions = front ++ first :: rest ∧ first.settled = true ∧
      ∀ entry ∈ front, entry.settled = false := by
  induction versions with
  | nil => exact absurd rfl some
  | cons entry tail ih =>
      by_cases settled : entry.settled = true
      · exact ⟨[], entry, tail, rfl, settled, by simp⟩
      · have later : settledOf tail ≠ [] := by simpa [settledOf, settled] using some
        rcases ih later with ⟨front, first, rest, rfl, firstSettled, unsettled⟩
        refine ⟨entry :: front, first, rest, rfl, firstSettled, ?_⟩
        intro other member
        rcases List.mem_cons.mp member with rfl | before
        · exact Bool.eq_false_iff.mpr settled
        · exact unsettled other before

theorem settle_to_first_settled (front rest : List NumericEntry) (first : NumericEntry)
    (firstSettled : first.settled = true) (unsettled : ∀ entry ∈ front, entry.settled = false) :
    (Agree front → settle (front ++ first :: rest) = rest.foldl resolve (.chosen first)) ∧
      (¬Agree front → settle (front ++ first :: rest) = .disputed) := by
  cases front with
  | nil =>
      constructor
      · intro _
        rfl
      · intro differ
        exact absurd (by simp [Agree]) differ
  | cons head tail =>
      have headUnsettled := unsettled head List.mem_cons_self
      have alike : ∀ entry ∈ tail, head.settled = entry.settled := by
        intro entry member
        rw [headUnsettled, unsettled entry (List.mem_cons_of_mem _ member)]
      have front := settle_alike head tail alike
      have split : settle (head :: tail ++ first :: rest) =
          rest.foldl resolve (resolve (settle (head :: tail)) first) := by
        rw [settle, List.foldl_append, List.foldl_cons, settle]
      constructor
      · intro agree
        rw [split, front.1 agree, resolve_supersedes headUnsettled firstSettled]
      · intro differ
        rw [split, front.2 differ]
        exact resolve_disputed rest

theorem settle_settled_differ (versions : List NumericEntry) (differ : ¬Agree (settledOf versions)) :
    settle versions = .disputed := by
  have present : settledOf versions ≠ [] := by
    intro empty
    exact differ (by simp [empty, Agree])
  rcases exists_first_settled versions present with ⟨front, first, rest, rfl, firstSettled, unsettled⟩
  by_cases agree : Agree front
  · rw [(settle_to_first_settled front rest first firstSettled unsettled).1 agree]
    apply (resolve_settled first firstSettled rest).2
    by_contra same
    push Not at same
    apply differ
    have atFirst : ∀ entry ∈ settledOf (front ++ first :: rest), canonical first = canonical entry := by
      intro entry member
      rcases (mem_settledOf _ _).mp member with ⟨member, settled⟩
      rcases List.mem_append.mp member with before | after
      · rw [unsettled entry before] at settled
        cases settled
      · rcases List.mem_cons.mp after with rfl | later
        · rfl
        · exact same entry later settled
    intro one oneMember two twoMember
    exact (atFirst one oneMember).symm.trans (atFirst two twoMember)
  · exact (settle_to_first_settled front rest first firstSettled unsettled).2 agree

theorem settle_settled_agree (versions : List NumericEntry) (present : settledOf versions ≠ [])
    (settledAgree : Agree (settledOf versions)) (unsettledAgree : Agree (unsettledOf versions)) :
    ∃ entry ∈ settledOf versions, settle versions = .chosen entry := by
  rcases exists_first_settled versions present with ⟨front, first, rest, rfl, firstSettled, unsettled⟩
  have firstMember : first ∈ settledOf (front ++ first :: rest) := by
    simp [mem_settledOf, firstSettled]
  have frontAgree : Agree front := by
    intro one oneMember two twoMember
    apply unsettledAgree
    · simp [mem_unsettledOf, oneMember, unsettled one oneMember]
    · simp [mem_unsettledOf, twoMember, unsettled two twoMember]
  refine ⟨first, firstMember, ?_⟩
  rw [(settle_to_first_settled front rest first firstSettled unsettled).1 frontAgree]
  apply (resolve_settled first firstSettled rest).1
  intro entry member settled
  exact settledAgree first firstMember entry (by simp [mem_settledOf, member, settled])

theorem unsettledOf_eq_self (versions : List NumericEntry) (none : settledOf versions = []) :
    unsettledOf versions = versions := by
  rw [unsettledOf, List.filter_eq_self]
  intro entry member
  have unsettled := List.filter_eq_nil_iff.mp none entry member
  simpa using unsettled

theorem alike_of_unsettled (head : NumericEntry) (rest : List NumericEntry)
    (none : settledOf (head :: rest) = []) : ∀ entry ∈ rest, head.settled = entry.settled := by
  have unsettled := List.filter_eq_nil_iff.mp none
  intro entry member
  have headUnsettled := unsettled head List.mem_cons_self
  have entryUnsettled := unsettled entry (List.mem_cons_of_mem _ member)
  simp_all

theorem settle_unsettled_differ (versions : List NumericEntry) (none : settledOf versions = [])
    (differ : ¬Agree (unsettledOf versions)) : settle versions = .disputed := by
  rw [unsettledOf_eq_self versions none] at differ
  cases versions with
  | nil => exact absurd (by simp [Agree]) differ
  | cons head rest => exact (settle_alike head rest (alike_of_unsettled head rest none)).2 differ

theorem settle_unsettled_agree (head : NumericEntry) (rest : List NumericEntry)
    (none : settledOf (head :: rest) = []) (agree : Agree (unsettledOf (head :: rest))) :
    settle (head :: rest) = .chosen head := by
  rw [unsettledOf_eq_self _ none] at agree
  exact (settle_alike head rest (alike_of_unsettled head rest none)).1 agree

end Gyza.Wallet
