import Gyza.DhtRecords
import Gyza.DeltaSequence
import Gyza.RecursiveAttestation

/-! Tier-3 verdicts from certificates of the DHT.

`DHTAttestationVerifier.Verify` (`internal/dht/verifier.go`) runs concurrently, with a
cache and one fetch at a time for each key; `_verify_peer_attestation`
(`global_cluster.py`) asks the daemon for one fetch and one verification. Both fetch
what is stored under the key they are asked about. -/

namespace Gyza

open Hex (Bytes)

def attestationDHTKey (applicantPubkeyHex : String) : Bytes :=
  Hex.utf8 (attestationKeyPrefix ++ applicantPubkeyHex)

/-- What a lookup of a key can give: a record that is found was accepted by the validator. -/
inductive DhtAnswer (codec : RecordCodec) (key : Bytes) where
  | found (value : Bytes) (nowNs : Int)
      (accepted : validateRecord codec nowNs key value = .ok ())
  | notFound
  | failed

inductive FetchError where
  | pubkeyRequired
  | lookupFailed
  | unmarshalFailed
  deriving DecidableEq

def fetchAttestation (codec : RecordCodec) (pubkey : String)
    (answer : DhtAnswer codec (attestationDHTKey pubkey)) :
    Except FetchError (Option GoAttestationCert) :=
  if pubkey = "" then .error .pubkeyRequired
  else
    match answer with
    | .failed => .error .lookupFailed
    | .notFound => .ok none
    | .found value _ _ =>
        if value = [] then .ok none
        else
          match codec.attestationCert value with
          | none => .error .unmarshalFailed
          | some cert => .ok (some cert)

structure VerifierConfig where
  posTTL : Int
  negTTL : Int
  expirySlack : Int
  maxInflight : Int

/-- `NewDHTAttestationVerifier`: what is not positive falls back to a default. -/
def VerifierConfig.withDefaults (cfg : VerifierConfig) : VerifierConfig where
  posTTL := if cfg.posTTL ≤ 0 then 5 * 60 * 1000000000 else cfg.posTTL
  negTTL := if cfg.negTTL ≤ 0 then 30 * 1000000000 else cfg.negTTL
  expirySlack := if cfg.expirySlack ≤ 0 then 60 * 60 * 1000000000 else cfg.expirySlack
  maxInflight := if cfg.maxInflight ≤ 0 then 16 else cfg.maxInflight

structure VerifierEntry where
  valid : Bool
  expiresAt : Int

/-- Where a call of `Verify` is between its shared steps. A fetcher keeps the time it
read first; a waiter keeps the call it waits on. -/
inductive PendingVerify where
  | awaitingSlot (pubkey : String) (now : Int)
  | fetching (pubkey : String) (now : Int)
  | leaving (pubkey : String)
  | waiting (pubkey : String) (on : Nat)
  | returned
  deriving DecidableEq

/-- The verifier, the verdicts given so far, and every certificate fetched for one of
them with the time it was verified at. -/
structure VerifierState where
  cache : Dict String VerifierEntry
  inflight : Dict String Nat
  calls : List PendingVerify
  verdicts : List (String × Bool)
  peerVerdicts : List (String × Bool × Int)
  fetched : List (GoAttestationCert × Int)

inductive VerifierEvent (codec : RecordCodec) where
  | verify (pubkey : String) (now : Int)
  | acquire (call : Nat)
  | fetched (call : Nat) (pubkey : String) (answer : DhtAnswer codec (attestationDHTKey pubkey))
      (verifyNow setNow : Int)
  | leave (call : Nat)
  | wake (call : Nat)
  | cancel (call : Nat)
  /-- A `none` time is a verification call that fails. -/
  | peerCheck (pubkey : String) (answer : DhtAnswer codec (attestationDHTKey pubkey))
      (verifyNow : Option Int)

namespace VerifierState

def empty : VerifierState :=
  { cache := Dict.empty, inflight := Dict.empty, calls := [], verdicts := [], peerVerdicts := [],
    fetched := [] }

def cacheSet (state : VerifierState) (pubkey : String) (valid : Bool) (ttl now : Int) :
    VerifierState :=
  if ttl ≤ 0 then state
  else { state with cache := state.cache.set pubkey { valid := valid, expiresAt := now + ttl } }

def answer (state : VerifierState) (pubkey : String) (valid : Bool) : VerifierState :=
  { state with verdicts := state.verdicts ++ [(pubkey, valid)] }

/-- Wait on the call that fetches for the key, or become that call. -/
def join (state : VerifierState) (pubkey : String) (now : Int) : VerifierState :=
  match state.inflight.lookup pubkey with
  | some call => { state with calls := state.calls ++ [.waiting pubkey call] }
  | none =>
      { state with
        inflight := state.inflight.set pubkey state.calls.length
        calls := state.calls ++ [.awaitingSlot pubkey now] }

def enter (state : VerifierState) (pubkey : String) (now : Int) : VerifierState :=
  if pubkey = "" then { state.answer pubkey false with calls := state.calls ++ [.returned] }
  else
    match state.cache.lookup pubkey with
    | none => state.join pubkey now
    | some entry =>
        if now < entry.expiresAt then
          { state.answer pubkey entry.valid with calls := state.calls ++ [.returned] }
        else { state with cache := state.cache.pop pubkey }.join pubkey now

def fetchingCalls (state : VerifierState) : Nat :=
  (state.calls.filter fun call => match call with
    | .fetching _ _ => true
    | _ => false).length

end VerifierState

section Verify

variable (crypto : Crypto) (marshal : GoAttestationBody → Option Bytes) (codec : RecordCodec)
  (config : VerifierConfig)

/-- The verdict on what was fetched, and for how long it is cached if it is. -/
def fetchVerdict (now : Int) (result : Except FetchError (Option GoAttestationCert))
    (verifyNow : Int) : Bool × Option Int :=
  match result with
  | .error _ => (false, none)
  | .ok none => (false, some config.negTTL)
  | .ok (some ⟨none, _⟩) => (false, some config.negTTL)
  | .ok (some ⟨some body, coSignatures⟩) =>
      match goVerifyAttestation crypto marshal (some ⟨some body, coSignatures⟩) verifyNow with
      | .error _ => (false, some config.negTTL)
      | .ok _ =>
          if ¬now + config.expirySlack < body.expiresAtNs then (false, some config.negTTL)
          else
            (true, some (min config.posTTL (timeSub body.expiresAtNs now - config.expirySlack)))

/-- The certificate of a fetch, with the time it is verified at. -/
def fetchedEntry (result : Except FetchError (Option GoAttestationCert))
    (verifyNow : Option Int) : List (GoAttestationCert × Int) :=
  match result, verifyNow with
  | .ok (some ⟨some body, coSignatures⟩), some now => [(⟨some body, coSignatures⟩, now)]
  | _, _ => []

def finishFetch (state : VerifierState) (call : Nat) (pubkey : String) (now : Int)
    (result : Except FetchError (Option GoAttestationCert)) (verifyNow setNow : Int) :
    VerifierState :=
  let verdict := fetchVerdict crypto marshal config now result verifyNow
  let cached := match verdict.2 with
    | none => state
    | some ttl => state.cacheSet pubkey verdict.1 ttl setNow
  { cached.answer pubkey verdict.1 with
    calls := state.calls.set call (.leaving pubkey)
    fetched := state.fetched ++ fetchedEntry result (some verifyNow) }

/-- `_verify_peer_attestation`: a peer without a certificate passes with tier 0, and
so does one whose check fails on the way. -/
def verifyPeerAttestation (result : Except FetchError (Option GoAttestationCert))
    (verifyNow : Option Int) : Bool × Int :=
  match result, verifyNow with
  | .ok (some ⟨some body, coSignatures⟩), some now =>
      match goVerifyAttestation crypto marshal (some ⟨some body, coSignatures⟩) now with
      | .error _ => (false, 0)
      | .ok _ => (true, body.tierGranted)
  | _, _ => (true, 0)

def verifierStep (state : VerifierState) (event : VerifierEvent codec) : VerifierState :=
  match event with
  | .verify pubkey now => state.enter pubkey now
  | .acquire call =>
      match state.calls[call]? with
      | some (.awaitingSlot pubkey now) =>
          if (state.fetchingCalls : Int) < config.maxInflight then
            { state with calls := state.calls.set call (.fetching pubkey now) }
          else state
      | _ => state
  | .fetched call pubkey answer verifyNow setNow =>
      match state.calls[call]? with
      | some (.fetching asked now) =>
          if asked = pubkey then
            finishFetch crypto marshal config state call pubkey now
              (fetchAttestation codec pubkey answer) verifyNow setNow
          else state
      | _ => state
  | .leave call =>
      match state.calls[call]? with
      | some (.leaving pubkey) =>
          { state with
            inflight := state.inflight.pop pubkey
            calls := state.calls.set call .returned }
      | _ => state
  | .wake call =>
      match state.calls[call]? with
      | some (.waiting pubkey on) =>
          if state.calls[on]? = some .returned then
            let valid := match state.cache.lookup pubkey with
              | none => false
              | some entry => entry.valid
            { state.answer pubkey valid with calls := state.calls.set call .returned }
          else state
      | _ => state
  | .cancel call =>
      match state.calls[call]? with
      | some (.awaitingSlot pubkey _) =>
          { state.answer pubkey false with calls := state.calls.set call (.leaving pubkey) }
      | some (.waiting pubkey _) =>
          { state.answer pubkey false with calls := state.calls.set call .returned }
      | _ => state
  | .peerCheck pubkey answer verifyNow =>
      let result := fetchAttestation codec pubkey answer
      { state with
        peerVerdicts := state.peerVerdicts ++
          [(pubkey, verifyPeerAttestation crypto marshal result verifyNow)]
        fetched := state.fetched ++ fetchedEntry result verifyNow }

/-! What a verdict says about the peer asked for. -/

def CertPasses (cert : GoAttestationCert) (now : Int) : Prop :=
  ∃ valid, goVerifyAttestation crypto marshal (some cert) now = .ok valid

def CertNames (cert : GoAttestationCert) (pubkey : String) : Prop :=
  ∃ body, cert.body = some body ∧ body.applicantPubkey = pubkey

def OutlivesSlack (cert : GoAttestationCert) (now : Int) : Prop :=
  ∃ body, cert.body = some body ∧ now + config.expirySlack < body.expiresAtNs

/-- A certificate that passed and names the key has been fetched. -/
def Vouched (state : VerifierState) (pubkey : String) : Prop :=
  ∃ cert now, (cert, now) ∈ state.fetched ∧ CertPasses crypto marshal cert now ∧
    CertNames cert pubkey

/-- Every Tier-3 verdict given so far is about the peer asked for. -/
structure VerdictsVouched (state : VerifierState) : Prop where
  verdicts : ∀ pubkey, (pubkey, true) ∈ state.verdicts → Vouched crypto marshal state pubkey
  peerVerdicts : ∀ pubkey valid, (pubkey, valid, issuedTier) ∈ state.peerVerdicts →
    Vouched crypto marshal state pubkey

structure VerifierInvariant (state : VerifierState) : Prop
    extends VerdictsVouched crypto marshal state where
  cached : ∀ pubkey entry, state.cache.lookup pubkey = some entry → entry.valid = true →
    Vouched crypto marshal state pubkey

/-- What was fetched for a key, when it is accepted, names the key, or an accepted
certificate that does was fetched before. -/
def FetchesSubject (state : VerifierState) (event : VerifierEvent codec) : Prop :=
  match event with
  | .fetched call pubkey answer verifyNow _ =>
      ∀ now cert, state.calls[call]? = some (.fetching pubkey now) →
        fetchAttestation codec pubkey answer = .ok (some cert) →
          CertPasses crypto marshal cert verifyNow → OutlivesSlack config cert now →
            CertNames cert pubkey ∨ Vouched crypto marshal state pubkey
  | .peerCheck pubkey answer (some now) =>
      ∀ cert, fetchAttestation codec pubkey answer = .ok (some cert) →
        CertPasses crypto marshal cert now →
          CertNames cert pubkey ∨ Vouched crypto marshal state pubkey
  | _ => True

variable {crypto marshal codec config}

theorem CertPasses.body {cert : GoAttestationCert} {now : Int}
    (passes : CertPasses crypto marshal cert now) :
    ∃ body coSignatures, cert = ⟨some body, coSignatures⟩ ∧ body.tierGranted = issuedTier := by
  rcases passes with ⟨valid, passed⟩
  rcases goVerifyAttestation_ok passed with ⟨body, bodyBytes, coSignatures, named, acceptable, -⟩
  exact ⟨body, coSignatures, Option.some.inj named, acceptable.tier⟩

theorem mem_fetchedEntry (result : Except FetchError (Option GoAttestationCert))
    (verifyNow : Option Int) (cert : GoAttestationCert) (now : Int) :
    (cert, now) ∈ fetchedEntry result verifyNow ↔
      result = .ok (some cert) ∧ verifyNow = some now ∧ cert.body.isSome = true := by
  unfold fetchedEntry
  split
  · rename_i body coSignatures time
    simp only [List.mem_singleton, Prod.mk.injEq, Except.ok.injEq, Option.some.injEq]
    constructor
    · rintro ⟨rfl, rfl⟩
      exact ⟨rfl, rfl, rfl⟩
    · rintro ⟨rfl, rfl, -⟩
      exact ⟨rfl, rfl⟩
  · rename_i other
    simp only [List.not_mem_nil, false_iff]
    rintro ⟨rfl, rfl, bodied⟩
    rcases cert with ⟨body, coSignatures⟩
    rcases Option.isSome_iff_exists.mp bodied with ⟨body, rfl⟩
    exact other body coSignatures now rfl rfl

theorem fetchVerdict_true_iff (now : Int)
    (result : Except FetchError (Option GoAttestationCert)) (verifyNow : Int) :
    (fetchVerdict crypto marshal config now result verifyNow).1 = true ↔
      ∃ cert, result = .ok (some cert) ∧ CertPasses crypto marshal cert verifyNow ∧
        OutlivesSlack config cert now := by
  constructor
  · intro positive
    unfold fetchVerdict at positive
    split at positive
    · cases positive
    · cases positive
    · cases positive
    · rename_i body coSignatures
      split at positive
      · cases positive
      · rename_i valid passed
        split_ifs at positive with outlives
        exact ⟨_, rfl, ⟨valid, passed⟩, body, rfl, outlives⟩
  · rintro ⟨cert, rfl, passes, body, named, outlives⟩
    rcases passes.body with ⟨other, coSignatures, rfl, -⟩
    cases named
    rcases passes with ⟨valid, passed⟩
    simp [fetchVerdict, passed, outlives]

theorem verifyPeerAttestation_tier_iff (result : Except FetchError (Option GoAttestationCert))
    (verifyNow : Option Int) :
    (verifyPeerAttestation crypto marshal result verifyNow).2 = issuedTier ↔
      ∃ cert now, result = .ok (some cert) ∧ verifyNow = some now ∧
        CertPasses crypto marshal cert now := by
  constructor
  · intro tier
    unfold verifyPeerAttestation at tier
    split at tier
    · rename_i body coSignatures now
      split at tier
      · cases tier
      · rename_i valid passed
        exact ⟨_, now, rfl, rfl, valid, passed⟩
    · cases tier
  · rintro ⟨cert, now, rfl, rfl, passes⟩
    rcases passes.body with ⟨body, coSignatures, rfl, granted⟩
    rcases passes with ⟨valid, passed⟩
    simp [verifyPeerAttestation, passed, granted]

/-- Verdicts stay vouched for as certificates are fetched. -/
theorem Vouched.mono {state later : VerifierState} {pubkey : String}
    (kept : ∀ entry ∈ state.fetched, entry ∈ later.fetched)
    (vouched : Vouched crypto marshal state pubkey) : Vouched crypto marshal later pubkey := by
  rcases vouched with ⟨cert, now, listed, passes, names⟩
  exact ⟨cert, now, kept _ listed, passes, names⟩

theorem VerifierInvariant.of_fetched {state later : VerifierState}
    (invariant : VerifierInvariant crypto marshal state)
    (kept : ∀ entry ∈ state.fetched, entry ∈ later.fetched)
    (cached : ∀ pubkey entry, later.cache.lookup pubkey = some entry → entry.valid = true →
      state.cache.lookup pubkey = some entry ∨ Vouched crypto marshal later pubkey)
    (verdicts : ∀ pubkey, (pubkey, true) ∈ later.verdicts →
      (pubkey, true) ∈ state.verdicts ∨ Vouched crypto marshal later pubkey)
    (peerVerdicts : ∀ pubkey valid, (pubkey, valid, issuedTier) ∈ later.peerVerdicts →
      (pubkey, valid, issuedTier) ∈ state.peerVerdicts ∨ Vouched crypto marshal later pubkey) :
    VerifierInvariant crypto marshal later := by
  constructor
  · constructor
    · intro pubkey given
      rcases verdicts pubkey given with old | vouched
      · exact (invariant.verdicts pubkey old).mono kept
      · exact vouched
    · intro pubkey valid given
      rcases peerVerdicts pubkey valid given with old | vouched
      · exact (invariant.peerVerdicts pubkey valid old).mono kept
      · exact vouched
  · intro pubkey entry stored positive
    rcases cached pubkey entry stored positive with old | vouched
    · exact (invariant.cached pubkey entry old positive).mono kept
    · exact vouched

/-- A step that fetches nothing keeps the invariant when what it answers is vouched for. -/
theorem VerifierInvariant.of_quiet {state later : VerifierState}
    (invariant : VerifierInvariant crypto marshal state)
    (fetched : later.fetched = state.fetched)
    (peerVerdicts : later.peerVerdicts = state.peerVerdicts)
    (cached : ∀ pubkey entry, later.cache.lookup pubkey = some entry →
      state.cache.lookup pubkey = some entry)
    (verdicts : ∀ pubkey, (pubkey, true) ∈ later.verdicts →
      (pubkey, true) ∈ state.verdicts ∨ Vouched crypto marshal state pubkey) :
    VerifierInvariant crypto marshal later := by
  apply invariant.of_fetched
  · exact fun entry listed => fetched ▸ listed
  · exact fun pubkey entry stored _ => Or.inl (cached pubkey entry stored)
  · intro pubkey given
    rcases verdicts pubkey given with old | vouched
    · exact Or.inl old
    · exact Or.inr (vouched.mono fun entry listed => fetched ▸ listed)
  · exact fun pubkey valid given => Or.inl (peerVerdicts ▸ given)

theorem mem_answer {state : VerifierState} {asked pubkey : String} {valid : Bool}
    (given : (pubkey, true) ∈ (state.answer asked valid).verdicts) :
    (pubkey, true) ∈ state.verdicts ∨ (pubkey = asked ∧ valid = true) := by
  rcases List.mem_append.mp given with old | new
  · exact Or.inl old
  · cases List.mem_singleton.mp new
    exact Or.inr ⟨rfl, rfl⟩

theorem VerifierInvariant.join {state : VerifierState}
    (invariant : VerifierInvariant crypto marshal state) (pubkey : String) (now : Int) :
    VerifierInvariant crypto marshal (state.join pubkey now) := by
  unfold VerifierState.join
  split
  · exact invariant.of_quiet rfl rfl (fun _ _ stored => stored) (fun _ given => Or.inl given)
  · exact invariant.of_quiet rfl rfl (fun _ _ stored => stored) (fun _ given => Or.inl given)

theorem VerifierInvariant.enter {state : VerifierState}
    (invariant : VerifierInvariant crypto marshal state) (pubkey : String) (now : Int) :
    VerifierInvariant crypto marshal (state.enter pubkey now) := by
  unfold VerifierState.enter
  split
  · refine invariant.of_quiet rfl rfl (fun _ _ stored => stored) fun other given => ?_
    rcases mem_answer given with old | ⟨-, positive⟩
    · exact Or.inl old
    · cases positive
  · split
    · exact invariant.join pubkey now
    · rename_i entry stored
      split
      · refine invariant.of_quiet rfl rfl (fun _ _ stored => stored) fun other given => ?_
        rcases mem_answer given with old | ⟨rfl, positive⟩
        · exact Or.inl old
        · exact Or.inr (invariant.cached _ entry stored positive)
      · apply VerifierInvariant.join
        refine invariant.of_quiet rfl rfl (fun other row kept => ?_) fun _ given => Or.inl given
        rw [Dict.lookup_pop] at kept
        split_ifs at kept
        exact kept

/-- Who is vouched for once the result of a fetch is known. -/
theorem vouched_append_iff {state later : VerifierState}
    {result : Except FetchError (Option GoAttestationCert)} {verifyNow : Option Int}
    (fetched : later.fetched = state.fetched ++ fetchedEntry result verifyNow) (pubkey : String) :
    Vouched crypto marshal later pubkey ↔ Vouched crypto marshal state pubkey ∨
      ∃ cert now, result = .ok (some cert) ∧ verifyNow = some now ∧
        CertPasses crypto marshal cert now ∧ CertNames cert pubkey := by
  unfold Vouched
  rw [fetched]
  constructor
  · rintro ⟨cert, now, listed, passes, names⟩
    rcases List.mem_append.mp listed with old | new
    · exact Or.inl ⟨cert, now, old, passes, names⟩
    · rcases (mem_fetchedEntry _ _ _ _).mp new with ⟨gave, time, -⟩
      exact Or.inr ⟨cert, now, gave, time, passes, names⟩
  · rintro (⟨cert, now, listed, passes, names⟩ | ⟨cert, now, gave, time, passes, names⟩)
    · exact ⟨cert, now, List.mem_append_left _ listed, passes, names⟩
    · rcases passes.body with ⟨body, coSignatures, rfl, -⟩
      refine ⟨_, now, List.mem_append_right _ ?_, passes, names⟩
      exact (mem_fetchedEntry _ _ _ _).mpr ⟨gave, time, rfl⟩

theorem cacheSet_fields (state : VerifierState) (pubkey : String) (valid : Bool) (ttl now : Int) :
    (state.cacheSet pubkey valid ttl now).verdicts = state.verdicts ∧
      (state.cacheSet pubkey valid ttl now).peerVerdicts = state.peerVerdicts := by
  unfold VerifierState.cacheSet
  split
  · exact ⟨rfl, rfl⟩
  · exact ⟨rfl, rfl⟩

theorem lookup_cacheSet {state : VerifierState} {asked pubkey : String} {valid : Bool}
    {ttl now : Int} {entry : VerifierEntry}
    (stored : (state.cacheSet asked valid ttl now).cache.lookup pubkey = some entry) :
    state.cache.lookup pubkey = some entry ∨ (pubkey = asked ∧ entry.valid = valid) := by
  unfold VerifierState.cacheSet at stored
  split at stored
  · exact Or.inl stored
  · rw [Dict.lookup_set] at stored
    split_ifs at stored with same
    · rw [← Option.some.inj stored]
      exact Or.inr ⟨same.symm, rfl⟩
    · exact Or.inl stored

section FinishFetch

variable (state : VerifierState) (call : Nat) (pubkey : String) (now : Int)
  (result : Except FetchError (Option GoAttestationCert)) (verifyNow setNow : Int)

/-- The fields a finished fetch leaves: its verdict is given, and cached at most. -/
theorem finishFetch_fields :
    (finishFetch crypto marshal config state call pubkey now result verifyNow setNow).verdicts =
        state.verdicts ++
          [(pubkey, (fetchVerdict crypto marshal config now result verifyNow).1)] ∧
      (finishFetch crypto marshal config state call pubkey now result verifyNow
        setNow).peerVerdicts = state.peerVerdicts := by
  unfold finishFetch VerifierState.answer
  dsimp only
  split
  · exact ⟨rfl, rfl⟩
  · rw [(cacheSet_fields _ _ _ _ _).1, (cacheSet_fields _ _ _ _ _).2]
    exact ⟨rfl, rfl⟩

theorem lookup_finishFetch {other : String} {entry : VerifierEntry}
    (stored : (finishFetch crypto marshal config state call pubkey now result verifyNow
      setNow).cache.lookup other = some entry) :
    state.cache.lookup other = some entry ∨
      (other = pubkey ∧
        entry.valid = (fetchVerdict crypto marshal config now result verifyNow).1) := by
  unfold finishFetch VerifierState.answer at stored
  dsimp only at stored
  split at stored
  · exact Or.inl stored
  · exact lookup_cacheSet stored

theorem vouched_finishFetch_iff (other : String) :
    Vouched crypto marshal
        (finishFetch crypto marshal config state call pubkey now result verifyNow setNow) other ↔
      Vouched crypto marshal state other ∨
        ∃ cert, result = .ok (some cert) ∧ CertPasses crypto marshal cert verifyNow ∧
          CertNames cert other := by
  have fetched : (finishFetch crypto marshal config state call pubkey now result verifyNow
      setNow).fetched = state.fetched ++ fetchedEntry result (some verifyNow) := rfl
  rw [vouched_append_iff fetched]
  simp

variable {state result verifyNow}

theorem VerifierInvariant.finishFetch (invariant : VerifierInvariant crypto marshal state)
    (subject : ∀ cert, result = .ok (some cert) → CertPasses crypto marshal cert verifyNow →
      OutlivesSlack config cert now →
        CertNames cert pubkey ∨ Vouched crypto marshal state pubkey) :
    VerifierInvariant crypto marshal
      (finishFetch crypto marshal config state call pubkey now result verifyNow setNow) := by
  have verdicts : (Gyza.finishFetch crypto marshal config state call pubkey now result verifyNow
      setNow).verdicts = state.verdicts ++
        [(pubkey, (fetchVerdict crypto marshal config now result verifyNow).1)] :=
    (finishFetch_fields state call pubkey now result verifyNow setNow).1
  have peerVerdicts : (Gyza.finishFetch crypto marshal config state call pubkey now result
      verifyNow setNow).peerVerdicts = state.peerVerdicts :=
    (finishFetch_fields state call pubkey now result verifyNow setNow).2
  have accepted : (fetchVerdict crypto marshal config now result verifyNow).1 = true →
      Vouched crypto marshal (Gyza.finishFetch crypto marshal config state call pubkey now result
        verifyNow setNow) pubkey := by
    intro positive
    rw [vouched_finishFetch_iff]
    rcases (fetchVerdict_true_iff now result verifyNow).mp positive with
      ⟨cert, gave, passes, outlives⟩
    rcases subject cert gave passes outlives with names | vouched
    · exact Or.inr ⟨cert, gave, passes, names⟩
    · exact Or.inl vouched
  apply invariant.of_fetched
  · exact fun entry listed => List.mem_append_left _ listed
  · intro other entry stored positive
    rcases lookup_finishFetch _ _ _ _ _ _ _ stored with old | ⟨rfl, same⟩
    · exact Or.inl old
    · exact Or.inr (accepted (same ▸ positive))
  · intro other given
    rw [verdicts] at given
    rcases mem_answer given with old | ⟨rfl, positive⟩
    · exact Or.inl old
    · exact Or.inr (accepted positive)
  · intro other valid given
    rw [peerVerdicts] at given
    exact Or.inl given

/-- A positive verdict that is vouched for is about the subject of what was fetched. -/
theorem subject_of_finishFetch
    (vouched : VerdictsVouched crypto marshal
      (finishFetch crypto marshal config state call pubkey now result verifyNow setNow))
    {cert : GoAttestationCert} (gave : result = .ok (some cert))
    (passes : CertPasses crypto marshal cert verifyNow) (outlives : OutlivesSlack config cert now) :
    CertNames cert pubkey ∨ Vouched crypto marshal state pubkey := by
  have positive := (fetchVerdict_true_iff now result verifyNow).mpr ⟨cert, gave, passes, outlives⟩
  have given : (pubkey, true) ∈ (Gyza.finishFetch crypto marshal config state call pubkey now
      result verifyNow setNow).verdicts := by
    rw [(finishFetch_fields state call pubkey now result verifyNow setNow).1, positive]
    exact List.mem_append_right _ (List.mem_singleton_self _)
  rcases (vouched_finishFetch_iff _ _ _ _ _ _ _ _).mp (vouched.verdicts pubkey given) with
    old | ⟨other, same, -, names⟩
  · exact Or.inr old
  · rw [gave] at same
    cases same
    exact Or.inl names

end FinishFetch

section PeerCheck

variable {state : VerifierState} {pubkey : String}
  {answer : DhtAnswer codec (attestationDHTKey pubkey)} {verifyNow : Option Int}

theorem vouched_peerCheck_iff (other : String) :
    Vouched crypto marshal
        (verifierStep crypto marshal codec config state (.peerCheck pubkey answer verifyNow)) other ↔
      Vouched crypto marshal state other ∨
        ∃ cert now, fetchAttestation codec pubkey answer = .ok (some cert) ∧ verifyNow = some now ∧
          CertPasses crypto marshal cert now ∧ CertNames cert other :=
  vouched_append_iff rfl other

theorem VerifierInvariant.peerCheck (invariant : VerifierInvariant crypto marshal state)
    (subject : FetchesSubject crypto marshal codec config state
      (.peerCheck pubkey answer verifyNow)) :
    VerifierInvariant crypto marshal
      (verifierStep crypto marshal codec config state (.peerCheck pubkey answer verifyNow)) := by
  apply invariant.of_fetched
  · exact fun entry listed => List.mem_append_left _ listed
  · exact fun other entry stored _ => Or.inl stored
  · exact fun other given => Or.inl given
  · intro other valid given
    rcases List.mem_append.mp given with old | new
    · exact Or.inl old
    · right
      rw [List.mem_singleton, Prod.mk.injEq] at new
      rcases new with ⟨rfl, verdict⟩
      have tier : (verifyPeerAttestation crypto marshal (fetchAttestation codec other answer)
          verifyNow).2 = issuedTier := by rw [← verdict]
      rcases (verifyPeerAttestation_tier_iff _ _).mp tier with ⟨cert, now, gave, rfl, passes⟩
      rw [vouched_peerCheck_iff]
      rcases subject cert gave passes with names | vouched
      · exact Or.inr ⟨cert, now, gave, rfl, passes, names⟩
      · exact Or.inl vouched

theorem subject_of_peerCheck
    (vouched : VerdictsVouched crypto marshal
      (verifierStep crypto marshal codec config state (.peerCheck pubkey answer verifyNow))) :
    FetchesSubject crypto marshal codec config state (.peerCheck pubkey answer verifyNow) := by
  cases verifyNow with
  | none => trivial
  | some now =>
      intro cert gave passes
      have tier := (verifyPeerAttestation_tier_iff _ _).mpr ⟨cert, now, gave, rfl, passes⟩
      have given : (pubkey, (verifyPeerAttestation crypto marshal
            (fetchAttestation codec pubkey answer) (some now)).1, issuedTier) ∈
          (verifierStep crypto marshal codec config state
            (.peerCheck pubkey answer (some now))).peerVerdicts := by
        apply List.mem_append_right
        rw [List.mem_singleton, ← tier]
      rcases (vouched_peerCheck_iff _).mp (vouched.peerVerdicts pubkey _ given) with
        old | ⟨other, time, same, -, -, names⟩
      · exact Or.inr old
      · rw [gave] at same
        cases same
        exact Or.inl names

end PeerCheck

variable (crypto marshal codec config)

theorem verifierStep_invariant {state : VerifierState} {event : VerifierEvent codec}
    (invariant : VerifierInvariant crypto marshal state)
    (subject : FetchesSubject crypto marshal codec config state event) :
    VerifierInvariant crypto marshal (verifierStep crypto marshal codec config state event) := by
  cases event with
  | verify pubkey now => exact invariant.enter pubkey now
  | acquire call =>
      unfold verifierStep
      dsimp only
      split
      · split
        · exact invariant.of_quiet rfl rfl (fun _ _ stored => stored) (fun _ given => Or.inl given)
        · exact invariant
      · exact invariant
  | fetched call pubkey answer verifyNow setNow =>
      unfold verifierStep
      dsimp only
      split
      · rename_i asked now found
        split
        · rename_i same
          subst same
          exact invariant.finishFetch call asked now setNow
            (fun cert gave passes outlives => subject now cert found gave passes outlives)
        · exact invariant
      · exact invariant
  | leave call =>
      unfold verifierStep
      dsimp only
      split
      · exact invariant.of_quiet rfl rfl (fun _ _ stored => stored) (fun _ given => Or.inl given)
      · exact invariant
  | wake call =>
      unfold verifierStep
      dsimp only
      split
      · rename_i pubkey on _
        split
        · refine invariant.of_quiet rfl rfl (fun _ _ stored => stored) fun other given => ?_
          rcases mem_answer given with old | ⟨rfl, positive⟩
          · exact Or.inl old
          · right
            split at positive
            · cases positive
            · rename_i entry stored
              exact invariant.cached _ entry stored positive
        · exact invariant
      · exact invariant
  | cancel call =>
      have refused : ∀ pubkey other, (other, true) ∈ (state.answer pubkey false).verdicts →
          (other, true) ∈ state.verdicts ∨ Vouched crypto marshal state other := by
        intro pubkey other given
        rcases mem_answer given with old | ⟨-, positive⟩
        · exact Or.inl old
        · cases positive
      unfold verifierStep
      dsimp only
      split
      · exact invariant.of_quiet rfl rfl (fun _ _ stored => stored) (refused _)
      · exact invariant.of_quiet rfl rfl (fun _ _ stored => stored) (refused _)
      · exact invariant
  | peerCheck pubkey answer verifyNow => exact invariant.peerCheck subject

theorem verifierStep_vouched_iff {state : VerifierState} (event : VerifierEvent codec)
    (invariant : VerifierInvariant crypto marshal state) :
    VerdictsVouched crypto marshal (verifierStep crypto marshal codec config state event) ↔
      FetchesSubject crypto marshal codec config state event := by
  constructor
  · intro vouched
    cases event with
    | fetched call pubkey answer verifyNow setNow =>
        intro now cert found gave passes outlives
        have finished : verifierStep crypto marshal codec config state
            (.fetched call pubkey answer verifyNow setNow) =
              finishFetch crypto marshal config state call pubkey now
                (fetchAttestation codec pubkey answer) verifyNow setNow := by
          simp only [verifierStep, found, if_true]
        rw [finished] at vouched
        exact subject_of_finishFetch call pubkey now setNow vouched gave passes outlives
    | peerCheck pubkey answer verifyNow => exact subject_of_peerCheck vouched
    | verify pubkey now => trivial
    | acquire call => trivial
    | leave call => trivial
    | wake call => trivial
    | cancel call => trivial
  · intro subject
    exact (verifierStep_invariant crypto marshal codec config invariant
      subject).toVerdictsVouched

theorem VerifierInvariant.empty : VerifierInvariant crypto marshal VerifierState.empty := by
  constructor
  · constructor
    · exact fun pubkey given => absurd given List.not_mem_nil
    · exact fun pubkey valid given => absurd given List.not_mem_nil
  · intro pubkey entry stored
    cases stored

/-- Along a run of concurrent calls, every Tier-3 verdict is about the peer asked for
exactly when every accepted certificate was fetched under its subject's key, or after
one that was. -/
theorem verdicts_vouched_iff (events : List (VerifierEvent codec)) :
    (∀ front event back, events = front ++ event :: back →
      VerdictsVouched crypto marshal (Run.run (verifierStep crypto marshal codec config)
        VerifierState.empty (front ++ [event]))) ↔
      Run.Admissible (verifierStep crypto marshal codec config)
        (FetchesSubject crypto marshal codec config) VerifierState.empty events :=
  Run.property_iff_admissible _ _ _ (VerifierInvariant crypto marshal)
    (fun _ event invariant => verifierStep_vouched_iff crypto marshal codec config event invariant)
    (fun _ _ invariant subject => verifierStep_invariant crypto marshal codec config invariant
      subject) _ events (VerifierInvariant.empty crypto marshal)

end Verify

/-! Key 2 stores the certificate of key 1 under its own key. -/

namespace Republished

def config : VerifierConfig := VerifierConfig.withDefaults ⟨0, 0, 0, 0⟩

def marshal (body : GoAttestationBody) : Option Bytes := some (Sample.marshalBody body)

def certificate : GoAttestationCert := Sample.tier3Cert 1 (10 ^ 16) [5, 6]

def codec : RecordCodec where
  relayList := fun _ => none
  attestationCert := fun value => if value = [1] then some certificate else none
  agentBucket := fun _ => none

def adversary : String := (Sample.compositor 2).pubkeyHex

def stored : DhtAnswer codec (attestationDHTKey adversary) := .found [1] 2000 (by decide +kernel)

def events : List (VerifierEvent codec) :=
  [.verify adversary 2000, .acquire 0, .fetched 0 adversary stored 2000 2000,
    .peerCheck adversary stored (some 2000)]

def outcome : VerifierState :=
  Run.run (verifierStep Sample.crypto marshal codec config) VerifierState.empty events

end Republished

/-- Both verifiers give the adversary Tier 3, and no fetched certificate is about it. -/
theorem republished_certificate_passes :
    (Republished.adversary, true) ∈ Republished.outcome.verdicts ∧
      (Republished.adversary, true, issuedTier) ∈ Republished.outcome.peerVerdicts ∧
      ¬Vouched Sample.crypto Republished.marshal Republished.outcome Republished.adversary := by
  refine ⟨by decide +kernel, by decide +kernel, ?_⟩
  rintro ⟨cert, now, listed, -, body, bodied, names⟩
  have others : ∀ entry ∈ Republished.outcome.fetched,
      entry.1.body.map GoAttestationBody.applicantPubkey ≠ some Republished.adversary := by
    decide +kernel
  apply others _ listed
  rw [bodied, Option.map_some, names]

end Gyza
