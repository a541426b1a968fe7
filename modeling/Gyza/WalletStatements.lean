import Gyza.WalletFold

/-! When a wallet's statements do not depend on the order of its entries, and
what they conserve. -/

namespace Gyza.Wallet

theorem Agree.of_perm {first second : List NumericEntry} (perm : first.Perm second)
    (agree : Agree second) : Agree first := by
  intro one oneMember two twoMember
  exact agree one (perm.subset oneMember) two (perm.subset twoMember)

theorem weigh_malformed (pubkey : String) (entry : NumericEntry)
    (apart : entry.fromCompositor ≠ entry.toCompositor) :
    weigh pubkey .malformed entry = if amountToMicros entry = none then 1 else 0 := by
  simp only [weigh, Tally.add, if_neg apart, Credits.fromAmount]
  cases amountToMicros entry with
  | none => rfl
  | some micros =>
      simp only [Option.map_some]
      split_ifs <;> first | rfl | contradiction

/-- Two orders of order-free versions count alike in every statement. -/
theorem share_perm (versions reordered : List NumericEntry) (perm : reordered.Perm versions)
    (free : OrderFree versions) (pubkey : String) (leg : Leg) :
    share pubkey leg (settle reordered) = share pubkey leg (settle versions) := by
  have settledPerm : (settledOf reordered).Perm (settledOf versions) := perm.filter _
  have unsettledPerm : (unsettledOf reordered).Perm (unsettledOf versions) := perm.filter _
  by_cases none : settledOf versions = []
  · have noneReordered : settledOf reordered = [] := by
      rw [none] at settledPerm
      exact settledPerm.eq_nil
    by_cases agree : Agree (unsettledOf versions)
    · cases versions with
      | nil => rw [perm.eq_nil]
      | cons head rest =>
          cases reordered with
          | nil => exact absurd perm.symm.eq_nil (by simp)
          | cons other others =>
              rw [settle_unsettled_agree head rest none agree,
                settle_unsettled_agree other others noneReordered (agree.of_perm unsettledPerm)]
              have kind := free.unsettled none agree
              rw [unsettledOf_eq_self _ none] at agree kind
              have member : other ∈ head :: rest := perm.subset List.mem_cons_self
              exact weigh_congr (agree other member head List.mem_cons_self)
                (kind other member head List.mem_cons_self) pubkey leg
    · rw [settle_unsettled_differ versions none agree, settle_unsettled_differ reordered noneReordered
        (fun same => agree (same.of_perm unsettledPerm.symm))]
  · have someReordered : settledOf reordered ≠ [] := by
      intro empty
      rw [empty] at settledPerm
      exact none settledPerm.symm.eq_nil
    by_cases agree : Agree (settledOf versions)
    · rcases free.settled none agree with ⟨unsettledAgree, kind⟩
      rcases settle_settled_agree versions none agree unsettledAgree with ⟨entry, member, chosen⟩
      rcases settle_settled_agree reordered someReordered (agree.of_perm settledPerm)
        (unsettledAgree.of_perm unsettledPerm) with ⟨other, otherMember, otherChosen⟩
      rw [chosen, otherChosen]
      have listed := settledPerm.subset otherMember
      exact weigh_congr (agree other listed entry member) (kind other listed entry member) pubkey leg
    · rw [settle_settled_differ versions agree, settle_settled_differ reordered
        (fun same => agree (same.of_perm settledPerm.symm))]

/-- If the choice can be made to fall on either of two entries, they are of one kind. -/
theorem kind_of_chosen {versions : List NumericEntry}
    (same : ∀ reordered, reordered.Perm versions → ∀ pubkey leg,
      share pubkey leg (settle reordered) = share pubkey leg (settle versions))
    {candidates : List NumericEntry} (agree : Agree candidates)
    (front : ∀ entry ∈ candidates, ∃ reordered, reordered.Perm versions ∧
      settle reordered = .chosen entry) : SameKind candidates := by
  intro first firstMember second secondMember apart
  rcases front first firstMember with ⟨one, onePerm, oneChosen⟩
  rcases front second secondMember with ⟨two, twoPerm, twoChosen⟩
  have counted := (same one onePerm "" .malformed).trans (same two twoPerm "" .malformed).symm
  have parties := agree first firstMember second secondMember
  simp only [canonical, Prod.mk.injEq] at parties
  have secondApart : second.fromCompositor ≠ second.toCompositor := by
    rw [← parties.1, ← parties.2.1]
    exact apart
  rw [oneChosen, twoChosen, share, share, weigh_malformed "" first apart,
    weigh_malformed "" second secondApart] at counted
  split_ifs at counted with firstNone secondNone secondNone
  · simp [firstNone, secondNone]
  · cases counted
  · cases counted
  · simp [firstNone, secondNone]

theorem exists_front {versions : List NumericEntry} {entry : NumericEntry}
    (member : entry ∈ versions) : ∃ rest, (entry :: rest).Perm versions := by
  rcases List.append_of_mem member with ⟨front, back, rfl⟩
  exact ⟨front ++ back, List.perm_middle.symm⟩

theorem unsettled_agree_of_share {versions : List NumericEntry} (present : settledOf versions ≠ [])
    (agree : Agree (settledOf versions))
    (same : ∀ reordered, reordered.Perm versions → ∀ pubkey leg,
      share pubkey leg (settle reordered) = share pubkey leg (settle versions)) :
    Agree (unsettledOf versions) := by
  by_contra differ
  -- the unsettled versions first end in a dispute, the settled ones first do not
  cases settled : settledOf versions with
  | nil => exact present settled
  | cons first rest =>
      have firstSettled : first.settled = true :=
        ((mem_settledOf versions first).mp (settled ▸ List.mem_cons_self)).2
      have partition : (settledOf versions ++ unsettledOf versions).Perm versions :=
        List.filter_append_perm _ versions
      rw [settled] at partition agree
      have late : (unsettledOf versions ++ first :: rest).Perm versions :=
        List.perm_append_comm.trans partition
      have disputed : settle (unsettledOf versions ++ first :: rest) = .disputed := by
        apply (settle_to_first_settled _ rest first firstSettled _).2 differ
        intro entry member
        exact ((mem_unsettledOf versions entry).mp member).2
      have chosen : settle (first :: rest ++ unsettledOf versions) = .chosen first := by
        apply (resolve_settled first firstSettled (rest ++ unsettledOf versions)).1
        intro entry member entrySettled
        rcases List.mem_append.mp member with listed | unsettled
        · exact agree first List.mem_cons_self entry (List.mem_cons_of_mem _ listed)
        · rw [((mem_unsettledOf versions entry).mp unsettled).2] at entrySettled
          cases entrySettled
      have counted := (same _ late "" .conflicting).trans (same _ partition "" .conflicting).symm
      rw [disputed, chosen, share, share, weigh_conflicting] at counted
      cases counted

theorem orderFree_of_share {versions : List NumericEntry}
    (same : ∀ reordered, reordered.Perm versions → ∀ pubkey leg,
      share pubkey leg (settle reordered) = share pubkey leg (settle versions)) :
    OrderFree versions := by
  constructor
  · intro present agree
    refine ⟨unsettled_agree_of_share present agree same, kind_of_chosen same agree ?_⟩
    intro entry member
    rcases (mem_settledOf versions entry).mp member with ⟨listed, settled⟩
    rcases exists_front listed with ⟨rest, perm⟩
    refine ⟨entry :: rest, perm, (resolve_settled entry settled rest).1 ?_⟩
    intro other otherMember otherSettled
    exact agree entry member other ((mem_settledOf versions other).mpr
      ⟨perm.subset (List.mem_cons_of_mem _ otherMember), otherSettled⟩)
  · intro none agree
    apply kind_of_chosen same agree
    intro entry member
    rcases exists_front ((mem_unsettledOf versions entry).mp member).1 with ⟨rest, perm⟩
    have noneFront : settledOf (entry :: rest) = [] := by
      have settledPerm : (settledOf (entry :: rest)).Perm (settledOf versions) := perm.filter _
      rw [none] at settledPerm
      exact settledPerm.eq_nil
    exact ⟨entry :: rest, perm, settle_unsettled_agree entry rest noneFront
      (agree.of_perm (perm.filter _))⟩

theorem entryIds_perm {entries reordered : List NumericEntry} (perm : reordered.Perm entries) :
    entryIds reordered = entryIds entries := List.toFinset_eq_of_perm _ _ (perm.map _)

/-- Statements that agree under every order let no id depend on the order of its versions. -/
theorem share_of_statements {entries : List NumericEntry}
    (same : ∀ reordered, reordered.Perm entries → ∀ pubkey,
      (ofEntries reordered).statement pubkey = (ofEntries entries).statement pubkey)
    (id : String) (group : List NumericEntry) (perm : group.Perm (versionsOf entries id))
    (pubkey : String) (leg : Leg) :
    share pubkey leg (settle group) = share pubkey leg (settle (versionsOf entries id)) := by
  by_cases listed : id ∈ entryIds entries
  · have permuted := Keyed.regroup_perm _ entries id group perm
    have total := congrArg (WalletStatement.leg · leg) (same _ permuted pubkey)
    simp only [statement_shares, entryIds_perm permuted] at total
    rw [← Finset.add_sum_erase _ _ listed, ← Finset.add_sum_erase _ _ listed] at total
    have others : ∀ other ∈ (entryIds entries).erase id,
        share pubkey leg (settle (versionsOf
          (Keyed.regroup (fun entry => entry.entryId) entries id group) other)) =
          share pubkey leg (settle (versionsOf entries other)) := by
      intro other member
      rw [versionsOf, Keyed.inputsOf_regroup_other _ entries id group perm other
        (Finset.ne_of_mem_erase member), versionsOf]
    rw [Finset.sum_congr rfl others, versionsOf, Keyed.inputsOf_regroup_self _ entries id group perm]
      at total
    exact add_right_cancel total
  · have none : versionsOf entries id = [] := by
      rw [versionsOf, Keyed.inputsOf, List.filter_eq_nil_iff]
      intro entry member keyed
      exact listed (by simpa [entryIds] using ⟨entry, member, by simpa using keyed⟩)
    rw [none] at perm ⊢
    rw [perm.eq_nil]

/-- The statements are the same for every order of the entries exactly when, for each id, settled
versions that agree come with unsettled versions that agree, and the versions the choice falls
among are all malformed, none malformed, or self-dealing. -/
theorem statement_order_free_iff (entries : List NumericEntry) :
    (∀ reordered, reordered.Perm entries → ∀ pubkey,
      (ofEntries reordered).statement pubkey = (ofEntries entries).statement pubkey) ↔
      ∀ id, OrderFree (versionsOf entries id) := by
  constructor
  · intro same id
    apply orderFree_of_share
    intro group perm pubkey leg
    exact share_of_statements same id group perm pubkey leg
  · intro free reordered perm pubkey
    rw [statement_eq]
    intro leg
    rw [statement_shares, statement_shares, entryIds_perm perm]
    apply Finset.sum_congr rfl
    intro id _
    exact share_perm _ _ (Keyed.inputsOf_perm _ perm id) (free id) pubkey leg

/-- One version of the entry `"entry-1"` between two fixed parties. -/
def sampleVersion (amount : Float) (settled : Bool) : NumericEntry :=
  { entryId := "entry-1", fromCompositor := "payer", toCompositor := "earner"
    amountCredits := .real amount, workItemId := "item-1", icpEnvelopeHash := "hash"
    modelIdentifier := "model", tokensOut := 10, durationMs := 20, createdAtNs := 30
    settled := settled, value := amount, numeric := rfl }

/-- Two unsettled versions ahead of the settled one dispute the id; behind it they are ignored. -/
theorem statement_depends_on_order :
    ¬(∀ (entries reordered : List NumericEntry), reordered.Perm entries → ∀ pubkey,
      (ofEntries reordered).statement pubkey = (ofEntries entries).statement pubkey) := by
  intro same
  have perm : [sampleVersion 1 false, sampleVersion 2 false, sampleVersion 2 true].Perm
      [sampleVersion 2 true, sampleVersion 1 false, sampleVersion 2 false] :=
    @List.perm_append_comm _ [sampleVersion 1 false, sampleVersion 2 false] [sampleVersion 2 true]
  have earned := congrArg WalletStatement.settledIn (same _ _ perm "earner")
  exact absurd earned (by decide +kernel)

/-! Conservation: every kept entry credits one key with what it debits another. -/

def pubkeysOf (entries : List NumericEntry) : Finset String :=
  (entries.map (fun entry => entry.fromCompositor)).toFinset ∪
    (entries.map (fun entry => entry.toCompositor)).toFinset

/-- What a kept entry moves from its payer to its earner. -/
def moved (entry : NumericEntry) : Int :=
  if entry.fromCompositor = entry.toCompositor then 0
  else if entry.settled then (amountToMicros entry).getD 0 else 0

theorem weigh_settled (pubkey : String) (entry : NumericEntry) :
    weigh pubkey .settledIn entry = (if entry.toCompositor = pubkey then moved entry else 0) ∧
      weigh pubkey .settledOut entry = (if entry.fromCompositor = pubkey then moved entry else 0) := by
  by_cases selfDealing : entry.fromCompositor = entry.toCompositor
  · simp [weigh, Tally.add, Tally.leg, moved, selfDealing]
  · cases amount : amountToMicros entry with
    | none => simp [weigh, Tally.add, Tally.leg, Credits.fromAmount, moved, selfDealing, amount]
    | some micros =>
        by_cases earner : entry.toCompositor = pubkey
        · have payer : entry.fromCompositor ≠ pubkey := fun same => selfDealing (same.trans earner.symm)
          cases settled : entry.settled <;>
            simp [weigh, Tally.add, Tally.leg, Credits.fromAmount, moved, amount, earner, payer, settled]
        · by_cases payer : entry.fromCompositor = pubkey
          · cases settled : entry.settled <;>
              simp [weigh, Tally.add, Tally.leg, Credits.fromAmount, moved, amount, earner,
                Ne.symm earner, payer, settled]
          · simp [weigh, Tally.add, Tally.leg, Credits.fromAmount, selfDealing, amount, earner, payer]

theorem sum_net_of_kept (pubkeys : Finset String) (kept : List NumericEntry)
    (parties : ∀ entry ∈ kept, entry.fromCompositor ∈ pubkeys ∧ entry.toCompositor ∈ pubkeys) :
    ∑ pubkey ∈ pubkeys, ((kept.map (weigh pubkey .settledIn)).sum -
      (kept.map (weigh pubkey .settledOut)).sum) = 0 := by
  induction kept with
  | nil => simp
  | cons entry rest ih =>
      rcases parties entry List.mem_cons_self with ⟨payer, earner⟩
      have later := ih (fun other member => parties other (List.mem_cons_of_mem _ member))
      have credit : ∑ pubkey ∈ pubkeys, weigh pubkey .settledIn entry = moved entry := by
        simp [weigh_settled, earner]
      have debit : ∑ pubkey ∈ pubkeys, weigh pubkey .settledOut entry = moved entry := by
        simp [weigh_settled, payer]
      simp only [Finset.sum_sub_distrib] at later
      simp only [List.map_cons, List.sum_cons, Finset.sum_sub_distrib, Finset.sum_add_distrib, credit,
        debit]
      omega

theorem resolve_chosen_mem (versions : List NumericEntry) (start : Outcome) (entry : NumericEntry)
    (chosen : versions.foldl resolve start = .chosen entry) :
    entry ∈ versions ∨ start = .chosen entry := by
  induction versions generalizing start with
  | nil => exact Or.inr chosen
  | cons version rest ih =>
      rcases ih (resolve start version) chosen with later | now
      · exact Or.inl (List.mem_cons_of_mem _ later)
      · cases start with
        | absent =>
            cases now
            exact Or.inl List.mem_cons_self
        | disputed => cases now
        | chosen prev =>
            simp only [resolve] at now
            split_ifs at now
            · exact Or.inr now
            · exact Or.inr now
            · cases now
              exact Or.inl List.mem_cons_self

theorem kept_mem (entries : List NumericEntry) (entry : NumericEntry)
    (kept : entry ∈ (ofEntries entries).entries) : entry ∈ entries := by
  rcases List.mem_map.mp kept with ⟨⟨id, stored⟩, member, rfl⟩
  have found := (Dict.lookup_eq_some _ id stored).mpr member
  have free : id ∉ (fold entries).conflicting := by
    intro disputed
    rw [(fold entries).apart id disputed] at found
    cases found
  have chosen := Folded.outcome_chosen free found
  rw [fold_outcome, settle] at chosen
  rcases resolve_chosen_mem _ _ _ chosen with listed | start
  · exact ((Keyed.mem_inputsOf _ _ _ _).mp listed).1
  · cases start

theorem netBalance_micros (wallet : Wallet) (pubkey : String) :
    (wallet.netBalance pubkey).micros =
      (wallet.entries.map (weigh pubkey .settledIn)).sum -
        (wallet.entries.map (weigh pubkey .settledOut)).sum := by
  have earned := statement_leg wallet pubkey .settledIn
  have spent := statement_leg wallet pubkey .settledOut
  rw [if_neg (by decide)] at earned spent
  rw [← earned, ← spent]
  rfl

/-- An outcome that a version of the id can no longer change. -/
def Absorbs : Outcome → NumericEntry → Prop
  | .absent, _ => False
  | .disputed, _ => True
  | .chosen prev, entry =>
      canonical prev = canonical entry ∨ (prev.settled = true ∧ entry.settled = false)

theorem absorbs_resolve_self (outcome : Outcome) (entry : NumericEntry) :
    Absorbs (resolve outcome entry) entry := by
  cases outcome with
  | absent => exact Or.inl rfl
  | disputed => trivial
  | chosen prev =>
      simp only [resolve]
      split_ifs with same superseded supersedes
      · exact Or.inl same
      · exact Or.inr (by simpa using superseded)
      · exact Or.inl rfl
      · trivial

theorem absorbs_resolve (outcome : Outcome) (entry other : NumericEntry)
    (absorbs : Absorbs outcome entry) : Absorbs (resolve outcome other) entry := by
  cases outcome with
  | absent => exact absorbs.elim
  | disputed => trivial
  | chosen prev =>
      simp only [resolve]
      split_ifs with same superseded supersedes
      · exact absorbs
      · exact absorbs
      · simp only [Bool.and_eq_true, Bool.not_eq_true'] at supersedes
        rcases absorbs with equal | ⟨settled, _⟩
        · exact Or.inr ⟨supersedes.1, (settled_of_canonical equal).symm.trans supersedes.2⟩
        · rw [supersedes.2] at settled
          cases settled
      · trivial

theorem absorbs_foldl (versions : List NumericEntry) (outcome : Outcome) (entry : NumericEntry)
    (absorbs : Absorbs outcome entry) : Absorbs (versions.foldl resolve outcome) entry := by
  induction versions generalizing outcome with
  | nil => exact absorbs
  | cons version rest ih => exact ih _ (absorbs_resolve outcome entry version absorbs)

theorem absorbs_settle (versions : List NumericEntry) (entry : NumericEntry)
    (member : entry ∈ versions) : Absorbs (settle versions) entry := by
  rcases List.append_of_mem member with ⟨front, back, rfl⟩
  rw [settle, List.foldl_append, List.foldl_cons]
  exact absorbs_foldl back _ entry (absorbs_resolve_self _ entry)

theorem step_absorbed (state : Folded) (entry : NumericEntry)
    (absorbs : Absorbs (state.outcome entry.entryId) entry) : state.step entry = state := by
  simp only [Folded.step]
  split_ifs with disputed
  · rfl
  · cases found : state.chosen.lookup entry.entryId with
    | none =>
        rw [Folded.outcome_absent disputed found] at absorbs
        exact absorbs.elim
    | some prev =>
        rw [Folded.outcome_chosen disputed found] at absorbs
        rcases absorbs with same | ⟨settled, unsettled⟩
        · simp [same]
        · simp [settled, unsettled]

theorem fold_redelivered (entries : List NumericEntry) (entry : NumericEntry)
    (member : entry ∈ entries) : fold (entries ++ [entry]) = fold entries := by
  have listed : entry ∈ versionsOf entries entry.entryId := by
    simp [versionsOf, Keyed.mem_inputsOf, member]
  rw [fold, List.foldl_append, List.foldl_cons, List.foldl_nil]
  apply step_absorbed
  change Absorbs ((fold entries).outcome entry.entryId) entry
  rw [fold_outcome]
  exact absorbs_settle _ entry listed

/-- The net balances of all parties cancel, and a re-delivered entry changes no statement. -/
theorem net_conserved (entries : List NumericEntry) :
    ∑ pubkey ∈ pubkeysOf entries, ((ofEntries entries).netBalance pubkey).micros = 0 ∧
      ∀ entry ∈ entries, ∀ pubkey,
        (ofEntries (entries ++ [entry])).statement pubkey = (ofEntries entries).statement pubkey := by
  constructor
  · simp only [netBalance_micros]
    apply sum_net_of_kept
    intro entry kept
    have member := kept_mem entries entry kept
    constructor
    · exact Finset.mem_union_left _ (List.mem_toFinset.mpr (List.mem_map_of_mem member))
    · exact Finset.mem_union_right _ (List.mem_toFinset.mpr (List.mem_map_of_mem member))
  · intro entry member pubkey
    rw [ofEntries, fold_redelivered entries entry member, ofEntries]

/-- The wallet of one settled version: the earner holds what the payer owes. -/
theorem net_conserved_sample :
    sampleVersion 2 true ∈ [sampleVersion 2 true] ∧
      (ofEntries ([sampleVersion 2 true] ++ [sampleVersion 2 true])).statement "earner" =
        (ofEntries [sampleVersion 2 true]).statement "earner" :=
  ⟨List.mem_cons_self, (net_conserved [sampleVersion 2 true]).2 _ List.mem_cons_self "earner"⟩

end Gyza.Wallet
