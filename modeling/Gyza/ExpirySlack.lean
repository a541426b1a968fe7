import Gyza.AttestationVerifier

/-! The expiry slack of positive verdicts.

`DHTAttestationVerifier.Verify` (`internal/dht/verifier.go`) reads the clock when it looks
for a cached verdict, when it verifies a certificate and when it caches the verdict. Beside
each step of the verifier stands the clock at which a call that the step ends returns. -/

namespace Gyza

/-- A positive verdict on a fetched certificate, with the end of its lifetime. -/
structure Grant where
  body : GoAttestationBody
  lapsesAt : Int

/-- The certificate behind each cached verdict, what each fetcher leaves with, and every
return of `true`: the certificate it relies on and the clock. -/
structure ClockedVerifier where
  verifier : VerifierState
  behind : Dict String GoAttestationBody
  leaving : Dict Nat Grant
  returns : List (Option GoAttestationBody × Int)

def ClockedVerifier.empty : ClockedVerifier where
  verifier := VerifierState.empty
  behind := Dict.empty
  leaving := Dict.empty
  returns := []

/-- The verdicts that a step gives. -/
def VerifierState.given (before after : VerifierState) : List (String × Bool) :=
  after.verdicts.drop before.verdicts.length

/-- A step whose positive verdicts are returned, each on the certificate behind it. -/
def ClockedVerifier.answer (state : ClockedVerifier) (next : VerifierState) (clock : Int) :
    ClockedVerifier :=
  { state with
    verifier := next
    returns := state.returns ++ ((state.verifier.given next).filter Prod.snd).map fun verdict =>
      (state.behind.lookup verdict.1, clock) }

/-- A fetch that ends with a grant, cached unless its lifetime is over at once. -/
def ClockedVerifier.grant (state : ClockedVerifier) (next : VerifierState) (call : Nat)
    (pubkey : String) (setNow : Int) (grant : Grant) : ClockedVerifier :=
  { state with
    verifier := next
    behind := if setNow < grant.lapsesAt then state.behind.set pubkey grant.body else state.behind
    leaving := state.leaving.set call grant }

section Clocked

variable (crypto : Crypto) (marshal : GoAttestationBody → Option Hex.Bytes) (codec : RecordCodec)
  (config : VerifierConfig)

def granted (now : Int) (result : Except FetchError (Option GoAttestationCert))
    (verifyNow setNow : Int) : Option Grant :=
  match result, fetchVerdict crypto marshal config now result verifyNow with
  | .ok (some ⟨some body, _⟩), (true, some ttl) => some ⟨body, setNow + ttl⟩
  | _, _ => none

/-- A fetcher returns when it leaves; any other call, with the step that answers it. -/
def clockedStep (state : ClockedVerifier) (timed : VerifierEvent codec × Int) : ClockedVerifier :=
  let next := verifierStep crypto marshal codec config state.verifier timed.1
  match timed.1 with
  | .fetched call pubkey answer verifyNow setNow =>
      match state.verifier.calls[call]? with
      | some (.fetching asked now) =>
          if asked = pubkey then
            match granted crypto marshal config now (fetchAttestation codec pubkey answer)
              verifyNow setNow with
            | some grant => state.grant next call pubkey setNow grant
            | none => { state with verifier := next }
          else { state with verifier := next }
      | _ => { state with verifier := next }
  | .leave call =>
      match state.verifier.calls[call]?, state.leaving.lookup call with
      | some (.leaving _), some grant =>
          { state with
            verifier := next
            returns := state.returns ++ [(some grant.body, timed.2)] }
      | _, _ => { state with verifier := next }
  | _ => state.answer next timed.2

/-- Every `true` is returned while the certificate it relies on has more than the slack left. -/
def SlackRespected (state : ClockedVerifier) : Prop :=
  ∀ entry ∈ state.returns, ∃ body, entry.1 = some body ∧
    entry.2 + config.expirySlack < body.expiresAtNs

/-- A call that relies on a cached verdict or leaves with one returns before the verdict
lapses. A verdict is cached at the clock its certificate was checked at, or the certificate
has a whole positive lifetime left beyond the slack. -/
def InTime (state : ClockedVerifier) (timed : VerifierEvent codec × Int) : Prop :=
  match timed.1 with
  | .verify pubkey now =>
      ∀ entry, state.verifier.cache.lookup pubkey = some entry → entry.valid = true →
        now < entry.expiresAt → timed.2 < entry.expiresAt
  | .fetched call pubkey answer verifyNow setNow =>
      ∀ now cert body, state.verifier.calls[call]? = some (.fetching pubkey now) →
        fetchAttestation codec pubkey answer = .ok (some cert) → cert.body = some body →
          CertPasses crypto marshal cert verifyNow → OutlivesSlack config cert now →
            setNow ≤ now ∨ setNow + config.posTTL + config.expirySlack ≤ body.expiresAtNs
  | .leave call =>
      ∀ pubkey grant, state.verifier.calls[call]? = some (.leaving pubkey) →
        state.leaving.lookup call = some grant → timed.2 < grant.lapsesAt
  | .wake call =>
      ∀ pubkey on entry, state.verifier.calls[call]? = some (.waiting pubkey on) →
        state.verifier.calls[on]? = some .returned →
          state.verifier.cache.lookup pubkey = some entry → entry.valid = true →
            timed.2 < entry.expiresAt
  | _ => True

/-- Cached verdicts and those that fetchers leave with lapse by the slack of their certificates. -/
structure SlackInvariant (state : ClockedVerifier) : Prop where
  cached : ∀ pubkey entry, state.verifier.cache.lookup pubkey = some entry →
    entry.valid = true → ∃ body, state.behind.lookup pubkey = some body ∧
      entry.expiresAt + config.expirySlack ≤ body.expiresAtNs
  leaving : ∀ call grant, state.leaving.lookup call = some grant →
    grant.lapsesAt + config.expirySlack ≤ grant.body.expiresAtNs
  respected : SlackRespected config state

variable {crypto marshal codec config}

theorem clockedStep_verifier (state : ClockedVerifier) (timed : VerifierEvent codec × Int) :
    (clockedStep crypto marshal codec config state timed).verifier =
      verifierStep crypto marshal codec config state.verifier timed.1 := by
  unfold clockedStep
  dsimp only
  split
  · split
    · split
      · split
        · rfl
        · rfl
      · rfl
    · rfl
  · split
    · rfl
    · rfl
  · rfl

/-- The clock is only watched: the verifier runs as it does without it. -/
theorem clocked_run_verifier (state : ClockedVerifier) (events : List (VerifierEvent codec × Int)) :
    (Run.run (clockedStep crypto marshal codec config) state events).verifier =
      Run.run (verifierStep crypto marshal codec config) state.verifier (events.map Prod.fst) := by
  induction events generalizing state with
  | nil => rfl
  | cons timed rest ih => rw [Run.run_cons, ih, clockedStep_verifier, List.map_cons, Run.run_cons]

/-! What the steps of the verifier leave in the cache, and what they answer. -/

theorem given_answer (state : VerifierState) (pubkey : String) (valid : Bool)
    (calls : List PendingVerify) :
    state.given { state.answer pubkey valid with calls := calls } = [(pubkey, valid)] :=
  List.drop_left

theorem given_self {state later : VerifierState} (same : later.verdicts = state.verdicts) :
    state.given later = [] := by
  rw [VerifierState.given, same, List.drop_length]

theorem join_fields (state : VerifierState) (pubkey : String) (now : Int) :
    (state.join pubkey now).verdicts = state.verdicts ∧
      (state.join pubkey now).cache = state.cache := by
  rw [VerifierState.join]
  split
  · exact ⟨rfl, rfl⟩
  · exact ⟨rfl, rfl⟩

theorem enter_cache {state : VerifierState} {pubkey other : String} {now : Int}
    {entry : VerifierEntry}
    (stored : (state.enter pubkey now).cache.lookup other = some entry) :
    state.cache.lookup other = some entry := by
  rw [VerifierState.enter] at stored
  split at stored
  · exact stored
  · split at stored
    · rwa [(join_fields state pubkey now).2] at stored
    · split at stored
      · exact stored
      · rw [(join_fields _ pubkey now).2, Dict.lookup_pop] at stored
        split_ifs at stored
        exact stored

theorem enter_given {state : VerifierState} {pubkey other : String} {now : Int}
    (positive : (other, true) ∈ state.given (state.enter pubkey now)) :
    ∃ entry, state.cache.lookup pubkey = some entry ∧ entry.valid = true ∧
      now < entry.expiresAt ∧ other = pubkey := by
  rw [VerifierState.enter] at positive
  split at positive
  · rw [given_answer] at positive
    cases List.mem_singleton.mp positive
  · split at positive
    · rw [given_self (join_fields state pubkey now).1] at positive
      cases positive
    · rename_i entry stored
      split at positive
      · rename_i live
        rw [given_answer, List.mem_singleton, Prod.mk.injEq] at positive
        exact ⟨entry, stored, positive.2.symm, live, positive.1⟩
      · have unanswered : ({ state with cache := state.cache.pop pubkey }.join pubkey
            now).verdicts = state.verdicts := (join_fields _ pubkey now).1
        rw [given_self unanswered] at positive
        cases positive

theorem entry_cacheSet {state : VerifierState} {asked pubkey : String} {valid : Bool}
    {ttl now : Int} {entry : VerifierEntry}
    (stored : (state.cacheSet asked valid ttl now).cache.lookup pubkey = some entry) :
    (state.cache.lookup pubkey = some entry ∧ (pubkey = asked → ttl ≤ 0)) ∨
      (pubkey = asked ∧ 0 < ttl ∧ entry = ⟨valid, now + ttl⟩) := by
  rw [VerifierState.cacheSet] at stored
  split at stored
  · rename_i ended
    exact Or.inl ⟨stored, fun _ => ended⟩
  · rename_i lives
    rw [Dict.lookup_set] at stored
    split_ifs at stored with same
    · exact Or.inr ⟨same.symm, not_le.mp lives, (Option.some.inj stored).symm⟩
    · exact Or.inl ⟨stored, fun equal => absurd equal.symm same⟩

/-! What a fetch grants. -/

section Fetch

variable {now : Int} {result : Except FetchError (Option GoAttestationCert)}
  {verifyNow setNow : Int} {grant : Grant}

theorem fetchVerdict_positive {ttl : Option Int}
    (verdict : fetchVerdict crypto marshal config now result verifyNow = (true, ttl)) :
    ∃ body coSignatures, result = .ok (some ⟨some body, coSignatures⟩) ∧
      CertPasses crypto marshal ⟨some body, coSignatures⟩ verifyNow ∧
      now + config.expirySlack < body.expiresAtNs ∧
      ttl = some (min config.posTTL (timeSub body.expiresAtNs now - config.expirySlack)) := by
  unfold fetchVerdict at verdict
  split at verdict
  · cases verdict
  · cases verdict
  · cases verdict
  · rename_i body coSignatures
    split at verdict
    · cases verdict
    · rename_i valid passed
      split_ifs at verdict with outlives
      · cases verdict
        exact ⟨body, coSignatures, rfl, ⟨valid, passed⟩, outlives, rfl⟩
      · cases verdict

/-- The lifetime of a grant ends within the positive one, and is no longer than the
certificate had left beyond the slack when it was checked. -/
theorem granted_eq_some (forward : 0 < config.expirySlack)
    (made : granted crypto marshal config now result verifyNow setNow = some grant) :
    ∃ coSignatures ttl, result = .ok (some ⟨some grant.body, coSignatures⟩) ∧
      CertPasses crypto marshal ⟨some grant.body, coSignatures⟩ verifyNow ∧
      now + config.expirySlack < grant.body.expiresAtNs ∧
      fetchVerdict crypto marshal config now result verifyNow = (true, some ttl) ∧
      grant.lapsesAt = setNow + ttl ∧ ttl ≤ config.posTTL ∧
      ttl ≤ grant.body.expiresAtNs - now - config.expirySlack := by
  unfold granted at made
  split at made
  · rename_i body coSignatures ttl verdict
    cases made
    obtain ⟨other, others, same, passes, outlives, lifetime⟩ := fetchVerdict_positive verdict
    cases same
    have ends := Option.some.inj lifetime
    have bounded : timeSub body.expiresAtNs now ≤ body.expiresAtNs - now := by
      rw [timeSub]
      omega
    refine ⟨_, ttl, rfl, passes, outlives, verdict, rfl, by omega, ?_⟩
    show ttl ≤ body.expiresAtNs - now - config.expirySlack
    omega
  · cases made

theorem granted_of_positive (setNow : Int) {ttl : Int}
    (verdict : fetchVerdict crypto marshal config now result verifyNow = (true, some ttl)) :
    ∃ grant, granted crypto marshal config now result verifyNow setNow = some grant ∧
      grant.lapsesAt = setNow + ttl := by
  obtain ⟨body, coSignatures, rfl, -, -, -⟩ := fetchVerdict_positive verdict
  refine ⟨⟨body, setNow + ttl⟩, ?_, rfl⟩
  simp only [granted, verdict]

/-- A valid entry after a fetch is an old one, or what the fetch granted. -/
theorem entry_finishFetch (forward : 0 < config.expirySlack) {state : VerifierState} {call : Nat}
    {pubkey other : String} {entry : VerifierEntry}
    (stored : (finishFetch crypto marshal config state call pubkey now result verifyNow
      setNow).cache.lookup other = some entry) (positive : entry.valid = true) :
    (state.cache.lookup other = some entry ∧ (other = pubkey → ∀ grant,
      granted crypto marshal config now result verifyNow setNow = some grant →
        grant.lapsesAt ≤ setNow)) ∨
      (other = pubkey ∧ ∃ grant,
        granted crypto marshal config now result verifyNow setNow = some grant ∧
          setNow < grant.lapsesAt ∧ entry.expiresAt = grant.lapsesAt) := by
  have lifetime (grant : Grant)
      (made : granted crypto marshal config now result verifyNow setNow = some grant) :
      ∃ ttl, fetchVerdict crypto marshal config now result verifyNow = (true, some ttl) ∧
        grant.lapsesAt = setNow + ttl := by
    obtain ⟨-, ttl, -, -, -, verdict, ends, -⟩ := granted_eq_some forward made
    exact ⟨ttl, verdict, ends⟩
  obtain ⟨valid, ttl, verdict⟩ :
      ∃ valid ttl, fetchVerdict crypto marshal config now result verifyNow = (valid, ttl) :=
    ⟨_, _, rfl⟩
  rw [finishFetch, verdict] at stored
  cases ttl with
  | none =>
      refine Or.inl ⟨stored, fun _ grant made => ?_⟩
      obtain ⟨ttl, other, -⟩ := lifetime grant made
      cases verdict.symm.trans other
  | some ttl =>
      obtain ⟨old, ended⟩ | ⟨same, lives, rfl⟩ := entry_cacheSet stored
      · refine Or.inl ⟨old, fun same grant made => ?_⟩
        obtain ⟨other, again, ends⟩ := lifetime grant made
        cases verdict.symm.trans again
        have := ended same
        omega
      · cases positive
        obtain ⟨grant, made, ends⟩ := granted_of_positive setNow verdict
        exact Or.inr ⟨same, grant, made, by omega, ends.symm⟩

end Fetch

section Step

variable {state : ClockedVerifier} {next : VerifierState}

theorem SlackInvariant.answer (invariant : SlackInvariant config state) {clock : Int}
    (kept : ∀ pubkey entry, next.cache.lookup pubkey = some entry →
      state.verifier.cache.lookup pubkey = some entry)
    (answers : ∀ pubkey, (pubkey, true) ∈ state.verifier.given next →
      ∃ entry, state.verifier.cache.lookup pubkey = some entry ∧ entry.valid = true ∧
        clock < entry.expiresAt) :
    SlackInvariant config (state.answer next clock) := by
  refine ⟨fun pubkey entry stored => invariant.cached pubkey entry (kept pubkey entry stored),
    invariant.leaving, ?_⟩
  intro returned listed
  obtain old | new := List.mem_append.mp listed
  · exact invariant.respected returned old
  · obtain ⟨⟨pubkey, valid⟩, member, rfl⟩ := List.mem_map.mp new
    obtain ⟨inside, positive⟩ := List.mem_filter.mp member
    cases positive
    obtain ⟨entry, stored, valid, before⟩ := answers pubkey inside
    obtain ⟨body, found, lapses⟩ := invariant.cached pubkey entry stored valid
    refine ⟨body, found, ?_⟩
    show clock + config.expirySlack < body.expiresAtNs
    omega

/-- A step that nobody returns with. -/
theorem SlackInvariant.later (invariant : SlackInvariant config state)
    (kept : ∀ pubkey entry, next.cache.lookup pubkey = some entry → entry.valid = true →
      state.verifier.cache.lookup pubkey = some entry) :
    SlackInvariant config { state with verifier := next } :=
  ⟨fun pubkey entry stored valid =>
    invariant.cached pubkey entry (kept pubkey entry stored valid) valid,
    invariant.leaving, invariant.respected⟩

theorem SlackInvariant.grant (invariant : SlackInvariant config state) {call : Nat}
    {pubkey : String} {setNow : Int} {grant : Grant}
    (cached : ∀ other entry, next.cache.lookup other = some entry → entry.valid = true →
      (state.verifier.cache.lookup other = some entry ∧
        (other = pubkey → grant.lapsesAt ≤ setNow)) ∨
      (other = pubkey ∧ setNow < grant.lapsesAt ∧ entry.expiresAt = grant.lapsesAt))
    (lapses : grant.lapsesAt + config.expirySlack ≤ grant.body.expiresAtNs) :
    SlackInvariant config (state.grant next call pubkey setNow grant) := by
  constructor
  · intro other entry stored valid
    rw [ClockedVerifier.grant]
    obtain ⟨old, ended⟩ | ⟨rfl, lives, ends⟩ := cached other entry stored valid
    · obtain ⟨body, found, within⟩ := invariant.cached other entry old valid
      refine ⟨body, ?_, within⟩
      dsimp only
      split_ifs with lives
      · rw [Dict.lookup_set, if_neg, found]
        rintro rfl
        have := ended rfl
        omega
      · exact found
    · refine ⟨grant.body, ?_, by omega⟩
      rw [if_pos lives, Dict.lookup_set, if_pos rfl]
  · intro other held found
    rw [ClockedVerifier.grant, Dict.lookup_set] at found
    split_ifs at found
    · cases found
      exact lapses
    · exact invariant.leaving other held found
  · exact invariant.respected

theorem verifierStep_fetched {state : VerifierState} {call : Nat} {pubkey : String} {now : Int}
    (found : state.calls[call]? = some (.fetching pubkey now))
    (answer : DhtAnswer codec (attestationDHTKey pubkey)) (verifyNow setNow : Int) :
    verifierStep crypto marshal codec config state (.fetched call pubkey answer verifyNow setNow) =
      finishFetch crypto marshal config state call pubkey now (fetchAttestation codec pubkey answer)
        verifyNow setNow := by
  simp only [verifierStep, found, if_true]

theorem verifierStep_unfetched {state : VerifierState} {call : Nat} {pubkey : String}
    (absent : ∀ now, state.calls[call]? ≠ some (.fetching pubkey now))
    (answer : DhtAnswer codec (attestationDHTKey pubkey)) (verifyNow setNow : Int) :
    verifierStep crypto marshal codec config state (.fetched call pubkey answer verifyNow setNow) =
      state := by
  unfold verifierStep
  dsimp only
  split
  · rename_i asked now found
    apply if_neg
    rintro rfl
    exact absent now found
  · rfl

theorem clockedStep_fetched (forward : 0 < config.expirySlack)
    (invariant : SlackInvariant config state) {call : Nat} {pubkey : String}
    {answer : DhtAnswer codec (attestationDHTKey pubkey)} {verifyNow setNow clock : Int}
    (inTime : InTime crypto marshal codec config state
      (.fetched call pubkey answer verifyNow setNow, clock)) :
    SlackInvariant config (clockedStep crypto marshal codec config state
      (.fetched call pubkey answer verifyNow setNow, clock)) := by
  unfold clockedStep
  dsimp only
  split
  · rename_i asked now found
    split
    · rename_i same
      subst same
      rw [verifierStep_fetched found]
      split
      · rename_i grant made
        obtain ⟨coSignatures, ttl, gave, passes, outlives, -, ends, within, left⟩ :=
          granted_eq_some forward made
        apply invariant.grant
        · intro other entry stored valid
          obtain ⟨old, ended⟩ | ⟨same, other, again, lives, lapses⟩ :=
            entry_finishFetch forward stored valid
          · exact Or.inl ⟨old, fun same => ended same grant made⟩
          · cases made.symm.trans again
            exact Or.inr ⟨same, lives, lapses⟩
        · have anchored := inTime now _ _ found gave rfl passes ⟨_, rfl, outlives⟩
          omega
      · rename_i refused
        apply invariant.later
        intro other entry stored valid
        obtain ⟨old, -⟩ | ⟨-, grant, made, -⟩ := entry_finishFetch forward stored valid
        · exact old
        · cases refused.symm.trans made
    · rename_i different
      have absent : ∀ now, state.verifier.calls[call]? ≠ some (.fetching pubkey now) := by
        intro other again
        cases found.symm.trans again
        exact different rfl
      rw [verifierStep_unfetched absent]
      exact invariant
  · rename_i unfetched
    rw [verifierStep_unfetched (unfetched pubkey)]
    exact invariant

theorem clockedStep_leave (invariant : SlackInvariant config state) {call : Nat} {clock : Int}
    (inTime : InTime crypto marshal codec config state (.leave call, clock)) :
    SlackInvariant config
      (clockedStep crypto marshal codec config state (.leave call, clock)) := by
  have kept : ∀ pubkey entry, (verifierStep crypto marshal codec config state.verifier
      (.leave call)).cache.lookup pubkey = some entry → entry.valid = true →
        state.verifier.cache.lookup pubkey = some entry := by
    intro pubkey entry stored _
    unfold verifierStep at stored
    dsimp only at stored
    split at stored
    · exact stored
    · exact stored
  unfold clockedStep
  dsimp only
  split
  · rename_i pubkey grant found held
    have quiet := invariant.later kept
    refine ⟨quiet.cached, quiet.leaving, ?_⟩
    intro returned listed
    obtain old | new := List.mem_append.mp listed
    · exact invariant.respected returned old
    · cases List.mem_singleton.mp new
      have before : clock < grant.lapsesAt := inTime pubkey grant found held
      have lapses := invariant.leaving call grant held
      refine ⟨grant.body, rfl, ?_⟩
      show clock + config.expirySlack < grant.body.expiresAtNs
      omega
  · exact invariant.later kept

theorem clockedStep_wake (invariant : SlackInvariant config state) {call : Nat} {clock : Int}
    (inTime : InTime crypto marshal codec config state (.wake call, clock)) :
    SlackInvariant config
      (clockedStep crypto marshal codec config state (.wake call, clock)) := by
  unfold clockedStep verifierStep
  dsimp only
  split
  · rename_i pubkey on found
    split
    · rename_i finished
      apply invariant.answer
      · exact fun _ _ stored => stored
      · intro other positive
        rw [given_answer, List.mem_singleton, Prod.mk.injEq] at positive
        obtain ⟨rfl, valid⟩ := positive
        split at valid
        · cases valid
        · rename_i entry stored
          exact ⟨entry, stored, valid.symm,
            inTime other on entry found finished stored valid.symm⟩
    · apply invariant.answer
      · exact fun _ _ stored => stored
      · intro other positive
        rw [given_self rfl] at positive
        cases positive
  · apply invariant.answer
    · exact fun _ _ stored => stored
    · intro other positive
      rw [given_self rfl] at positive
      cases positive

/-- A step that answers no call with `true`. -/
theorem SlackInvariant.silent (invariant : SlackInvariant config state) {clock : Int}
    (cache : next.cache = state.verifier.cache)
    (refused : ∀ pubkey, (pubkey, true) ∉ state.verifier.given next) :
    SlackInvariant config (state.answer next clock) := by
  apply invariant.answer
  · intro pubkey entry stored
    rwa [cache] at stored
  · exact fun pubkey positive => absurd positive (refused pubkey)

end Step

theorem clockedStep_invariant (forward : 0 < config.expirySlack) (state : ClockedVerifier)
    (timed : VerifierEvent codec × Int) (invariant : SlackInvariant config state)
    (inTime : InTime crypto marshal codec config state timed) :
    SlackInvariant config (clockedStep crypto marshal codec config state timed) := by
  obtain ⟨event, clock⟩ := timed
  cases event with
  | verify pubkey now =>
      apply invariant.answer
      · exact fun _ _ stored => enter_cache stored
      · intro other positive
        obtain ⟨entry, stored, valid, live, rfl⟩ := enter_given positive
        exact ⟨entry, stored, valid, inTime entry stored valid live⟩
  | fetched call pubkey answer verifyNow setNow =>
      exact clockedStep_fetched forward invariant inTime
  | leave call => exact clockedStep_leave invariant inTime
  | wake call => exact clockedStep_wake invariant inTime
  | acquire call =>
      unfold clockedStep verifierStep
      dsimp only
      split
      · split
        · exact invariant.silent rfl (by simp [given_self])
        · exact invariant.silent rfl (by simp [given_self])
      · exact invariant.silent rfl (by simp [given_self])
  | cancel call =>
      unfold clockedStep verifierStep
      dsimp only
      split
      · exact invariant.silent rfl (by simp [given_answer])
      · exact invariant.silent rfl (by simp [given_answer])
      · exact invariant.silent rfl (by simp [given_self])
  | peerCheck pubkey answer verifyNow =>
      have unanswered : state.verifier.given (verifierStep crypto marshal codec config
          state.verifier (.peerCheck pubkey answer verifyNow)) = [] := given_self rfl
      exact invariant.silent rfl (by simp [unanswered])

theorem SlackInvariant.empty : SlackInvariant config ClockedVerifier.empty := by
  constructor
  · intro pubkey entry stored
    cases stored
  · intro call grant held
    cases held
  · intro returned listed
    cases listed

theorem VerifierConfig.withDefaults_slack (cfg : VerifierConfig) :
    0 < cfg.withDefaults.expirySlack := by
  show 0 < if cfg.expirySlack ≤ 0 then 60 * 60 * 1000000000 else cfg.expirySlack
  split_ifs with unset
  · decide
  · exact not_le.mp unset

/-- Along a run whose steps are in time, every `true` respects the slack. -/
theorem expiry_slack_respected (crypto : Crypto) (marshal : GoAttestationBody → Option Hex.Bytes)
    (codec : RecordCodec) (cfg : VerifierConfig) (events : List (VerifierEvent codec × Int))
    (inTime : Run.Admissible (clockedStep crypto marshal codec cfg.withDefaults)
      (InTime crypto marshal codec cfg.withDefaults) ClockedVerifier.empty events) :
    SlackRespected cfg.withDefaults
      (Run.run (clockedStep crypto marshal codec cfg.withDefaults) ClockedVerifier.empty events) :=
  (Run.invariant_run _ _ (SlackInvariant cfg.withDefaults)
    (clockedStep_invariant cfg.withDefaults_slack) _ events SlackInvariant.empty inTime).respected

end Clocked

/-- What the clock reads along an event: each reading, then the return. -/
def clockReadings {codec : RecordCodec} : VerifierEvent codec × Int → List Int
  | (.verify _ now, clock) => [now, clock]
  | (.fetched _ _ _ verifyNow setNow, clock) => [verifyNow, setNow, clock]
  | (_, clock) => [clock]

/-- The clock never goes back. -/
def Clocked {codec : RecordCodec} (events : List (VerifierEvent codec × Int)) : Prop :=
  (events.flatMap clockReadings).Pairwise (· ≤ ·)

/-! A certificate is fetched under its own key, with the settings of `NewDHTAttestationVerifier`. -/

namespace Stalled

open Republished (codec certificate)

def honest : String := (Sample.compositor 1).pubkeyHex

def stored : DhtAnswer codec (attestationDHTKey honest) := .found [1] 2000 (by decide +kernel)

def second : Int := 1000000000

/-- An hour, and 61 seconds more, before the certificate expires. -/
def start : Int := 10 ^ 16 - 3661 * second

/-- The clock stands while the certificate is checked and cached. -/
def prompt : List (VerifierEvent codec × Int) :=
  [(.verify honest start, start), (.verify honest start, start), (.acquire 0, start),
    (.fetched 0 honest stored start start, start), (.leave 0, start + second),
    (.wake 1, start + 2 * second), (.verify honest (start + 3 * second), start + 4 * second)]

/-- The fetcher waits a minute for its slot; a hit and the waiter come later. -/
def stalled : List (VerifierEvent codec × Int) :=
  [(.verify honest start, start), (.verify honest start, start),
    (.acquire 0, start + 60 * second),
    (.fetched 0 honest stored (start + 60 * second) (start + 60 * second), start + 60 * second),
    (.leave 0, start + 60 * second),
    (.verify honest (start + 90 * second), start + 90 * second),
    (.wake 1, start + 130 * second)]

def config : VerifierConfig := VerifierConfig.withDefaults ⟨0, 0, 0, 0⟩

def outcome (events : List (VerifierEvent codec × Int)) : ClockedVerifier :=
  Run.run (clockedStep Sample.crypto Republished.marshal codec config) ClockedVerifier.empty events

/-- How long the certificate behind each return is still valid, in seconds. -/
def secondsLeft (state : ClockedVerifier) : List (Option Int) :=
  state.returns.map fun entry => entry.1.map fun body => (body.expiresAtNs - entry.2) / second

theorem passes_of_all {α : Type} {found : Option α} {value : α} (test : α → Prop)
    [DecidablePred test] (same : found = some value) (all : found.all fun value => test value) :
    test value :=
  of_decide_eq_true ((Option.all_eq_true _ _).mp all value same)

theorem prompt_inTime : Run.Admissible (clockedStep Sample.crypto Republished.marshal codec config)
    (InTime Sample.crypto Republished.marshal codec config) ClockedVerifier.empty prompt := by
  have unit : second = 1000000000 := rfl
  refine ⟨?_, ?_, trivial, ?_, ?_, ?_, ?_, trivial⟩
  · intro entry stored
    cases stored
  · intro entry stored
    have absent : (outcome (prompt.take 1)).verifier.cache.lookup honest = none := by
      decide +kernel
    cases absent.symm.trans stored
  · intro now cert body found _ _ _ _
    have fetching := passes_of_all (fun call => call = .fetching honest start) found
      (by decide +kernel)
    cases fetching
    exact Or.inl le_rfl
  · intro pubkey grant _ held
    have lapses := passes_of_all (fun grant => grant.lapsesAt = start + 61 * second) held
      (by decide +kernel)
    show start + second < grant.lapsesAt
    omega
  · intro pubkey on entry found _ stored _
    have waiting := passes_of_all (fun call => call = .waiting honest 0) found (by decide +kernel)
    cases waiting
    have lapses := passes_of_all (fun entry => entry.expiresAt = start + 61 * second) stored
      (by decide +kernel)
    show start + 2 * second < entry.expiresAt
    omega
  · intro entry stored _ _
    have lapses := passes_of_all (fun entry => entry.expiresAt = start + 61 * second) stored
      (by decide +kernel)
    show start + 4 * second < entry.expiresAt
    omega

end Stalled

theorem prompt_verdicts_respect_slack :
    Stalled.secondsLeft (Stalled.outcome Stalled.prompt) = [some 3660, some 3659, some 3657] ∧
      SlackRespected Stalled.config (Stalled.outcome Stalled.prompt) :=
  ⟨by decide +kernel, expiry_slack_respected _ _ _ _ _ Stalled.prompt_inTime⟩

/-- A hit, and a waiter whose entry has lapsed, return `true` with less than the hour left. -/
theorem stalled_verdicts_outlive_slack : Clocked Stalled.stalled ∧
    Stalled.secondsLeft (Stalled.outcome Stalled.stalled) =
      [some 3601, some 3571, some 3531] ∧
    ¬SlackRespected Stalled.config (Stalled.outcome Stalled.stalled) := by
  have left : Stalled.secondsLeft (Stalled.outcome Stalled.stalled) =
      [some 3601, some 3571, some 3531] := by decide +kernel
  refine ⟨by unfold Clocked; decide +kernel, left, fun respected => ?_⟩
  have waiter : some 3531 ∈ Stalled.secondsLeft (Stalled.outcome Stalled.stalled) := by
    simp [left]
  obtain ⟨entry, listed, lapsed⟩ := List.mem_map.mp waiter
  obtain ⟨body, behind, kept⟩ := respected entry listed
  have slack : Stalled.config.expirySlack = 3600 * Stalled.second := by decide
  have unit : Stalled.second = 1000000000 := rfl
  rw [behind, Option.map_some, Option.some.injEq, unit] at lapsed
  omega

end Gyza
