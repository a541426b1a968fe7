import Gyza.Attestation
import Gyza.Lib.Vouching

/-! Recursive Tier-3 verification (`internal/capability/recursive.go`): a cosigner
counts only if it is trusted out of band or is itself attested. -/

namespace Gyza

open Hex (Bytes)
open Vouching (askAll)

/-- `cache` holds the pubkeys found to be Tier-3; it is threaded through the calls. -/
structure RecursiveVerifier where
  trustedBootstrap : Finset String
  maxDepth : Int := 5

/-- What a call finds outside the verifier: the time, and the answers of `FetchCert`. -/
structure Surroundings where
  now : Int
  fetchCert : Option (String → Except String (Option GoAttestationCert))

inductive RecursiveError where
  | noBootstrap
  | noFetchCert
  | cert (error : GoCertError)
  deriving DecidableEq

section Verifier

variable (crypto : Crypto) (marshal : GoAttestationBody → Option Bytes)

/-- The checks on the certificate itself: what is left are the bytes its cosignatures are over. -/
def openCert (now : Int) (cert : Option GoAttestationCert) :
    Except GoCertError (Bytes × List GoCoSignature) :=
  match cert with
  | none => .error .nilCert
  | some ⟨none, _⟩ => .error .nilCert
  | some ⟨some body, coSignatures⟩ =>
      if body.tierGranted ≠ issuedTier then .error (.tierMismatch body.tierGranted)
      else if now < body.issuedAtNs then .error .issuedInFuture
      else if body.expiresAtNs ≤ now then .error .expired
      else
        match marshal body with
        | none => .error .marshalFailed
        | some bodyBytes => .ok (bodyBytes, coSignatures.filterMap id)

/-- `verifyInner`, with `isTier3` of its path and depth as an argument. The result lists the
cosigners counted; `tier3Valid` is how many they are. -/
def verifyInner (isTier3 : String → Finset String → Bool × Finset String) (now : Int)
    (cert : Option GoAttestationCert) (cache : Finset String) :
    Except GoCertError (List String) × Finset String :=
  match openCert marshal now cert with
  | .error error => (.error error, cache)
  | .ok (bodyBytes, cosigs) =>
      let asked := askAll GoCoSignature.validatorPubkey (goCosigVerifies crypto bodyBytes) isTier3
        cosigs cache
      if asked.counted.length < minCoSignatures then
        (.error (.belowQuorum asked.counted.length), asked.state)
      else (.ok asked.counted, asked.state)

/-- The certificate fetched for a pubkey, if it is about that pubkey. -/
def fetched (fetchCert : String → Except String (Option GoAttestationCert)) (pubkey : String) :
    Option GoAttestationCert :=
  match fetchCert pubkey with
  | .error _ => none
  | .ok none => none
  | .ok (some cert) =>
      match cert.body with
      | none => none
      | some body => if body.applicantPubkey ≠ pubkey then none else some cert

/-- `remaining` is `MaxDepth - depth`; the search descends while it is positive. -/
def isTier3 (verifier : RecursiveVerifier) (now : Int)
    (fetchCert : String → Except String (Option GoAttestationCert)) (remaining : Nat)
    (seen : Finset String) (pubkey : String) (cache : Finset String) : Bool × Finset String :=
  if pubkey ∈ verifier.trustedBootstrap then (true, cache)
  else if pubkey ∈ seen then (false, cache)
  else
    match remaining with
    | 0 => (false, cache)
    | remaining + 1 =>
        if pubkey ∈ cache then (true, cache)
        else
          match fetched fetchCert pubkey with
          | none => (false, cache)
          | some cert =>
              match verifyInner crypto marshal
                (isTier3 verifier now fetchCert remaining (insert pubkey seen)) now (some cert)
                cache with
              | (.ok _, cache) => (true, insert pubkey cache)
              | (.error _, cache) => (false, cache)

def recursiveVerify (verifier : RecursiveVerifier) (surroundings : Surroundings)
    (cert : Option GoAttestationCert) (cache : Finset String) :
    Except RecursiveError (List String) × Finset String :=
  if verifier.trustedBootstrap = ∅ then (.error .noBootstrap, cache)
  else
    match surroundings.fetchCert with
    | none => (.error .noFetchCert, cache)
    | some fetchCert =>
        match verifyInner crypto marshal
          (isTier3 crypto marshal verifier surroundings.now fetchCert verifier.maxDepth.toNat ∅)
          surroundings.now cert cache with
        | (.ok counted, cache) => (.ok counted, cache)
        | (.error error, cache) => (.error (.cert error), cache)

end Verifier

/-! Who vouches for whom at one time, with fixed certificates. -/

section Standing

variable (crypto : Crypto) (marshal : GoAttestationBody → Option Bytes)

/-- The pubkey strings with a valid cosignature on a certificate that passes its own checks,
in the order they are counted in. -/
def cosigners (now : Int) (cert : Option GoAttestationCert) : Option (List String) :=
  match openCert marshal now cert with
  | .error _ => none
  | .ok (bodyBytes, cosigs) =>
      some (Vouching.voters GoCoSignature.validatorPubkey (goCosigVerifies crypto bodyBytes) cosigs)

/-- A pubkey's ballot is the certificate fetched for it. -/
def tier3System (verifier : RecursiveVerifier) (now : Int)
    (fetchCert : String → Except String (Option GoAttestationCert)) : Vouching.System String where
  roots := ↑verifier.trustedBootstrap
  ballotOf pubkey := ((fetched fetchCert pubkey).bind
    (fun cert => cosigners crypto marshal now (some cert))).map List.toFinset
  quorum := minCoSignatures

/-- The result of `verifyInner` when `answer` says which cosigners are Tier-3. -/
def tallied (now : Int) (cert : Option GoAttestationCert) (answer : String → Bool) :
    Except GoCertError (List String) :=
  match openCert marshal now cert with
  | .error error => .error error
  | .ok (bodyBytes, cosigs) =>
      let counted := (Vouching.voters GoCoSignature.validatorPubkey
        (goCosigVerifies crypto bodyBytes) cosigs).filter answer
      if counted.length < minCoSignatures then .error (.belowQuorum counted.length) else .ok counted

variable {crypto marshal}

theorem cosigners_nodup {now : Int} {cert : Option GoAttestationCert} {names : List String}
    (cosigned : cosigners crypto marshal now cert = some names) : names.Nodup := by
  unfold cosigners at cosigned
  split at cosigned
  · cases cosigned
  · cases cosigned
    exact Vouching.voters_nodup _ _ _

theorem tallied_ok {now : Int} {cert : Option GoAttestationCert} {answer : String → Bool}
    {counted : List String} (ok : tallied crypto marshal now cert answer = .ok counted) :
    ∃ names, cosigners crypto marshal now cert = some names ∧ counted = names.filter answer ∧
      minCoSignatures ≤ counted.length := by
  unfold tallied at ok
  unfold cosigners
  split at ok
  · cases ok
  · simp only at ok
    split_ifs at ok with few
    cases ok
    exact ⟨_, rfl, rfl, not_lt.mp few⟩

/-- The cosigners that are counted, as a quorum of those asked. -/
theorem tallied_voters {now : Int} {cert : Option GoAttestationCert} {answer : String → Bool}
    {counted : List String} (ok : tallied crypto marshal now cert answer = .ok counted) :
    ∃ names voters, cosigners crypto marshal now cert = some names ∧ voters ⊆ names.toFinset ∧
      minCoSignatures ≤ voters.card ∧ ∀ voter ∈ voters, voter ∈ names ∧ answer voter = true := by
  rcases tallied_ok ok with ⟨names, cosigned, rfl, enough⟩
  refine ⟨names, (names.filter answer).toFinset, cosigned, ?_, ?_, ?_⟩
  · intro name member
    rw [List.mem_toFinset] at member ⊢
    exact List.mem_of_mem_filter member
  · rw [List.toFinset_card_of_nodup ((cosigners_nodup cosigned).filter _)]
    exact enough
  · intro name member
    rw [List.mem_toFinset, List.mem_filter] at member
    exact member

/-- Enough cosigners that answer yes make the certificate pass. -/
theorem tallied_passes {now : Int} {cert : Option GoAttestationCert} {answer : String → Bool}
    {names : List String} (cosigned : cosigners crypto marshal now cert = some names)
    {voters : Finset String} (listed : voters ⊆ names.toFinset)
    (enough : minCoSignatures ≤ voters.card) (yes : ∀ voter ∈ voters, answer voter = true) :
    ∃ counted, tallied crypto marshal now cert answer = .ok counted := by
  have counted : minCoSignatures ≤ (names.filter answer).length := by
    have inside : voters ⊆ (names.filter answer).toFinset := by
      intro voter member
      rw [List.mem_toFinset, List.mem_filter]
      exact ⟨List.mem_toFinset.mp (listed member), yes voter member⟩
    calc
      minCoSignatures ≤ voters.card := enough
      _ ≤ (names.filter answer).toFinset.card := Finset.card_le_card inside
      _ ≤ (names.filter answer).length := List.toFinset_card_le _
  unfold cosigners at cosigned
  unfold tallied
  split at cosigned
  · cases cosigned
  · cases cosigned
    rw [if_neg (not_lt.mpr counted)]
    exact ⟨_, rfl⟩

theorem tallied_congr {now : Int} {cert : Option GoAttestationCert} {answer other : String → Bool}
    (same : ∀ names, cosigners crypto marshal now cert = some names → ∀ name ∈ names,
      answer name = other name) :
    tallied crypto marshal now cert answer = tallied crypto marshal now cert other := by
  unfold cosigners at same
  unfold tallied
  split
  · rfl
  · rename_i bodyBytes cosigs opened
    rw [List.filter_congr (same _ (by rw [opened]))]

/-- What every answer of `isTier3` keeps and says carries over to `verifyInner`. -/
theorem verifyInner_spec (ask : String → Finset String → Bool × Finset String)
    (invariant : Finset String → Prop) (meaning : String → Bool → Prop) {now : Int}
    {cert : Option GoAttestationCert} {cache : Finset String}
    (asks : ∀ names, cosigners crypto marshal now cert = some names → ∀ name ∈ names, ∀ current,
      invariant current → invariant (ask name current).2 ∧ meaning name (ask name current).1)
    (holds : invariant cache) :
    invariant (verifyInner crypto marshal ask now cert cache).2 ∧
      ∃ answer : String → Bool, (verifyInner crypto marshal ask now cert cache).1 =
          tallied crypto marshal now cert answer ∧
        ∀ names, cosigners crypto marshal now cert = some names → ∀ name ∈ names,
          meaning name (answer name) := by
  unfold cosigners at asks ⊢
  unfold verifyInner tallied
  cases opened : openCert marshal now cert with
  | error error => exact ⟨holds, fun _ => false, rfl, by simp⟩
  | ok found =>
      rcases found with ⟨bodyBytes, cosigs⟩
      simp only [opened, Option.some.injEq, forall_eq'] at asks ⊢
      rcases Vouching.askAll_spec
        (fun name member => asks name ((Vouching.mem_voters _ _).mpr member)) holds with
        ⟨_, kept, answer, meant, counted⟩
      refine ⟨?_, answer, ?_, meant⟩
      · split_ifs
        · exact kept
        · exact kept
      · rw [counted]
        split_ifs
        · rfl
        · rfl

end Standing

/-! The search, sound and complete for standing. -/

section Search

variable (crypto : Crypto) (marshal : GoAttestationBody → Option Bytes)
  (verifier : RecursiveVerifier) (now : Int)
  (fetchCert : String → Except String (Option GoAttestationCert))

/-- The questions a search may put, with the levels that remain: the first certificate's
cosigners, and the ballots of pubkeys that are neither trusted nor cached at the start. -/
inductive Asked (start : Finset String) (first : List String) : Nat → String → Prop
  | cosigner {pubkey : String} (listed : pubkey ∈ first) :
      Asked start first verifier.maxDepth.toNat pubkey
  | ballot {remaining : Nat} {pubkey other : String} {names : Finset String}
      (above : Asked start first (remaining + 1) pubkey)
      (untrusted : pubkey ∉ verifier.trustedBootstrap) (uncached : pubkey ∉ start)
      (held : (tier3System crypto marshal verifier now fetchCert).ballotOf pubkey = some names)
      (listed : other ∈ names) : Asked start first remaining other

/-- The cache has grown from `start`, and what may be looked up in it has standing. -/
structure CacheSound (start : Finset String) (first : List String) (cache : Finset String) :
    Prop where
  grown : start ⊆ cache
  standing : ∀ pubkey ∈ cache, ∀ remaining,
    Asked crypto marshal verifier now fetchCert start first (remaining + 1) pubkey →
      pubkey ∈ (tier3System crypto marshal verifier now fetchCert).grounded

variable {crypto marshal verifier now fetchCert}

/-- Without levels left only the trusted set answers. -/
theorem isTier3_zero (seen : Finset String) (pubkey : String) (cache : Finset String) :
    isTier3 crypto marshal verifier now fetchCert 0 seen pubkey cache =
      (decide (pubkey ∈ verifier.trustedBootstrap), cache) := by
  by_cases trusted : pubkey ∈ verifier.trustedBootstrap
  · simp [isTier3, trusted]
  · simp [isTier3, trusted]

theorem isTier3_trusted (remaining : Nat) (seen : Finset String) {pubkey : String}
    (cache : Finset String) (trusted : pubkey ∈ verifier.trustedBootstrap) :
    isTier3 crypto marshal verifier now fetchCert remaining seen pubkey cache = (true, cache) := by
  rw [isTier3.eq_def, if_pos trusted]

theorem isTier3_inPath (remaining : Nat) {seen : Finset String} {pubkey : String}
    (cache : Finset String) (untrusted : pubkey ∉ verifier.trustedBootstrap)
    (inPath : pubkey ∈ seen) :
    isTier3 crypto marshal verifier now fetchCert remaining seen pubkey cache = (false, cache) := by
  rw [isTier3.eq_def, if_neg untrusted, if_pos inPath]

theorem isTier3_cached {remaining : Nat} {seen : Finset String} {pubkey : String}
    {cache : Finset String} (untrusted : pubkey ∉ verifier.trustedBootstrap)
    (outside : pubkey ∉ seen) (cached : pubkey ∈ cache) :
    isTier3 crypto marshal verifier now fetchCert (remaining + 1) seen pubkey cache =
      (true, cache) := by
  rw [isTier3, if_neg untrusted, if_neg outside]
  simp only [if_pos cached]

/-- What the search does about a pubkey that is not trusted, not in its path and not cached. -/
theorem isTier3_fetch {remaining : Nat} {seen : Finset String} {pubkey : String}
    {cache : Finset String} (untrusted : pubkey ∉ verifier.trustedBootstrap)
    (outside : pubkey ∉ seen) (uncached : pubkey ∉ cache) :
    isTier3 crypto marshal verifier now fetchCert (remaining + 1) seen pubkey cache =
      match fetched fetchCert pubkey with
      | none => (false, cache)
      | some cert =>
          match verifyInner crypto marshal
            (isTier3 crypto marshal verifier now fetchCert remaining (insert pubkey seen)) now
            (some cert) cache with
          | (.ok _, cache) => (true, insert pubkey cache)
          | (.error _, cache) => (false, cache) := by
  rw [isTier3, if_neg untrusted, if_neg outside]
  simp only [if_neg uncached]

theorem ballotOf_fetched {pubkey : String} {cert : GoAttestationCert} {names : List String}
    (got : fetched fetchCert pubkey = some cert)
    (cosigned : cosigners crypto marshal now (some cert) = some names) :
    (tier3System crypto marshal verifier now fetchCert).ballotOf pubkey = some names.toFinset := by
  simp [tier3System, got, cosigned]

/-- What a yes of the search may be taken to mean: true of the trusted pubkeys and of the
cached ones, and passed on by a quorum of yeses one level down. -/
structure SearchMeaning (crypto : Crypto) (marshal : GoAttestationBody → Option Bytes)
    (verifier : RecursiveVerifier) (now : Int)
    (fetchCert : String → Except String (Option GoAttestationCert))
    (invariant : Finset String → Prop) (asked yes : Nat → String → Prop) : Prop where
  trusted : ∀ remaining pubkey, pubkey ∈ verifier.trustedBootstrap → yes remaining pubkey
  cached : ∀ remaining pubkey cache, invariant cache → asked (remaining + 1) pubkey →
    pubkey ∈ cache → yes (remaining + 1) pubkey
  below : ∀ remaining pubkey cache ballot other, invariant cache → asked (remaining + 1) pubkey →
    pubkey ∉ verifier.trustedBootstrap → pubkey ∉ cache →
      (tier3System crypto marshal verifier now fetchCert).ballotOf pubkey = some ballot →
        other ∈ ballot → asked remaining other
  vouched : ∀ remaining pubkey ballot voters, asked (remaining + 1) pubkey →
    (tier3System crypto marshal verifier now fetchCert).ballotOf pubkey = some ballot →
      voters ⊆ ballot → minCoSignatures ≤ voters.card → (∀ voter ∈ voters, yes remaining voter) →
        yes (remaining + 1) pubkey
  kept : ∀ remaining pubkey cache, invariant cache → yes (remaining + 1) pubkey →
    invariant (insert pubkey cache)

/-- Whatever the search answers yes to has the meaning, and the cache keeps its invariant. -/
theorem isTier3_spec {invariant : Finset String → Prop} {asked yes : Nat → String → Prop}
    (meaning : SearchMeaning crypto marshal verifier now fetchCert invariant asked yes)
    (remaining : Nat) :
    ∀ (seen : Finset String) (pubkey : String) (cache : Finset String),
      invariant cache → asked remaining pubkey →
      invariant (isTier3 crypto marshal verifier now fetchCert remaining seen pubkey cache).2 ∧
        ((isTier3 crypto marshal verifier now fetchCert remaining seen pubkey cache).1 = true →
          yes remaining pubkey) := by
  induction remaining with
  | zero =>
      intro seen pubkey cache sound _
      rw [isTier3_zero]
      exact ⟨sound, fun answered => meaning.trusted 0 pubkey (of_decide_eq_true answered)⟩
  | succ remaining ih =>
      intro seen pubkey cache sound asked
      by_cases trusted : pubkey ∈ verifier.trustedBootstrap
      · rw [isTier3_trusted _ _ _ trusted]
        exact ⟨sound, fun _ => meaning.trusted _ pubkey trusted⟩
      by_cases inPath : pubkey ∈ seen
      · rw [isTier3_inPath _ _ trusted inPath]
        exact ⟨sound, by simp⟩
      by_cases cached : pubkey ∈ cache
      · rw [isTier3_cached trusted inPath cached]
        exact ⟨sound, fun _ => meaning.cached remaining pubkey cache sound asked cached⟩
      rw [isTier3_fetch trusted inPath cached]
      cases got : fetched fetchCert pubkey with
      | none => exact ⟨sound, by simp⟩
      | some cert =>
          obtain ⟨kept, answer, result, meant⟩ := verifyInner_spec
            (isTier3 crypto marshal verifier now fetchCert remaining (insert pubkey seen))
            invariant (fun name answer => answer = true → yes remaining name)
            (fun names cosigned name listed current kept => ih _ name current kept
              (meaning.below remaining pubkey cache names.toFinset name sound asked trusted cached
                (ballotOf_fetched got cosigned) (List.mem_toFinset.mpr listed))) sound
          simp only
          split
          · rename_i counted after passed
            rw [passed] at kept result
            obtain ⟨names, voters, cosigned, listed, enough, counts⟩ := tallied_voters result.symm
            have accepted : yes (remaining + 1) pubkey :=
              meaning.vouched remaining pubkey names.toFinset voters asked
                (ballotOf_fetched got cosigned) listed enough
                (fun voter member =>
                  meant names cosigned voter (counts voter member).1 (counts voter member).2)
            exact ⟨meaning.kept remaining pubkey after kept accepted, fun _ => accepted⟩
          · rename_i error after refused
            rw [refused] at kept
            exact ⟨kept, by simp⟩

theorem CacheSound.insert {start : Finset String} {first : List String} {cache : Finset String}
    {pubkey : String} (sound : CacheSound crypto marshal verifier now fetchCert start first cache)
    (standing : pubkey ∈ (tier3System crypto marshal verifier now fetchCert).grounded) :
    CacheSound crypto marshal verifier now fetchCert start first (insert pubkey cache) := by
  constructor
  · exact sound.grown.trans (Finset.subset_insert _ _)
  · intro other member remaining asked
    rcases Finset.mem_insert.mp member with rfl | old
    · exact standing
    · exact sound.standing other old remaining asked

/-- Standing is what a yes means, to a cache that is sound. -/
theorem cacheSound_meaning (start : Finset String) (first : List String) :
    SearchMeaning crypto marshal verifier now fetchCert
      (CacheSound crypto marshal verifier now fetchCert start first)
      (Asked crypto marshal verifier now fetchCert start first)
      (fun _ pubkey => pubkey ∈ (tier3System crypto marshal verifier now fetchCert).grounded) where
  trusted _ _ root := Vouching.System.roots_subset_grounded _ root
  cached remaining pubkey _ sound asked member := sound.standing pubkey member remaining asked
  below _ _ _ _ _ sound asked trusted cached held listed :=
    .ballot asked trusted (fun old => cached (sound.grown old)) held listed
  vouched _ _ ballot voters _ held listed enough near :=
    Vouching.System.grounded_of_endorsed _ ⟨ballot, voters, held, listed, enough, near⟩
  kept _ _ _ sound standing := sound.insert standing

/-- A pubkey the search accepts has standing, and so has everything it caches. -/
theorem isTier3_sound {start : Finset String} {first : List String} (remaining : Nat)
    (seen : Finset String) (pubkey : String) (cache : Finset String)
    (sound : CacheSound crypto marshal verifier now fetchCert start first cache)
    (asked : Asked crypto marshal verifier now fetchCert start first remaining pubkey) :
    CacheSound crypto marshal verifier now fetchCert start first
        (isTier3 crypto marshal verifier now fetchCert remaining seen pubkey cache).2 ∧
      ((isTier3 crypto marshal verifier now fetchCert remaining seen pubkey cache).1 = true →
        pubkey ∈ (tier3System crypto marshal verifier now fetchCert).grounded) :=
  isTier3_spec (cacheSound_meaning start first) remaining seen pubkey cache sound asked

/-- A pubkey within reach is found, whatever the cache: the pubkeys on the path to it are
all further away. -/
theorem isTier3_complete (level : Nat) :
    ∀ (remaining : Nat) (seen : Finset String) (pubkey : String) (cache : Finset String),
      level ≤ remaining →
      pubkey ∈ (tier3System crypto marshal verifier now fetchCert).within level →
      (∀ other ∈ seen, other ∉ (tier3System crypto marshal verifier now fetchCert).within level) →
      (isTier3 crypto marshal verifier now fetchCert remaining seen pubkey cache).1 = true := by
  induction level with
  | zero =>
      intro remaining seen pubkey cache _ root _
      have trusted : pubkey ∈ verifier.trustedBootstrap := root
      rw [isTier3_trusted _ _ _ trusted]
  | succ level ih =>
      intro remaining seen pubkey cache room reached further
      by_cases nearer : pubkey ∈ (tier3System crypto marshal verifier now fetchCert).within level
      · apply ih remaining seen pubkey cache (by omega) nearer
        intro other onPath near
        exact further other onPath (Vouching.System.within_subset_succ _ _ near)
      obtain ⟨remaining, rfl⟩ : ∃ less, remaining = less + 1 := ⟨remaining - 1, by omega⟩
      have trusted : pubkey ∉ verifier.trustedBootstrap :=
        fun root => nearer (Vouching.System.roots_subset_within _ _ root)
      have inPath : pubkey ∉ seen := fun onPath => further pubkey onPath reached
      by_cases cached : pubkey ∈ cache
      · rw [isTier3_cached trusted inPath cached]
      rw [isTier3_fetch trusted inPath cached]
      rcases reached with root | ⟨ballot, voters, held, listed, enough, near⟩
      · exact absurd root trusted
      simp only [tier3System, Option.map_eq_some_iff, Option.bind_eq_some_iff] at held
      rcases held with ⟨names, ⟨cert, got, cosigned⟩, rfl⟩
      have path : ∀ other ∈ insert pubkey seen,
          other ∉ (tier3System crypto marshal verifier now fetchCert).within level := by
        intro other onPath
        rcases Finset.mem_insert.mp onPath with rfl | older
        · exact nearer
        · exact fun close => further other older (Vouching.System.within_subset_succ _ _ close)
      obtain ⟨_, answer, result, meant⟩ := verifyInner_spec
        (isTier3 crypto marshal verifier now fetchCert remaining (insert pubkey seen))
        (fun _ => True)
        (fun name answer =>
          name ∈ (tier3System crypto marshal verifier now fetchCert).within level → answer = true)
        (fun _ _ name _ current _ =>
          ⟨trivial, fun found => ih remaining _ name current (by omega) found path⟩) trivial
      rcases tallied_passes cosigned listed enough
        (fun voter member => meant names cosigned voter
        (List.mem_toFinset.mp (listed member)) (near member)) with ⟨counted, passes⟩
      rw [got]
      simp only
      split
      · rfl
      · rename_i error after refused
        rw [refused, passes] at result
        cases result

end Search

/-! What `Verify` accepts. -/

section Accepted

variable {crypto : Crypto} {marshal : GoAttestationBody → Option Bytes}
  {verifier : RecursiveVerifier} {surroundings : Surroundings}

theorem recursiveVerify_ok {cert : Option GoAttestationCert} {cache : Finset String}
    {counted : List String}
    (accepted : (recursiveVerify crypto marshal verifier surroundings cert cache).1 = .ok counted) :
    ∃ fetchCert, surroundings.fetchCert = some fetchCert ∧
      (verifyInner crypto marshal (isTier3 crypto marshal verifier surroundings.now fetchCert
        verifier.maxDepth.toNat ∅) surroundings.now cert cache).1 = .ok counted := by
  unfold recursiveVerify at accepted
  split_ifs at accepted with empty
  split at accepted
  · cases accepted
  · rename_i fetchCert given
    refine ⟨fetchCert, given, ?_⟩
    split at accepted
    · rename_i found after passed
      cases accepted
      rw [passed]
    · cases accepted

/-- A new verifier's cache is sound for every search. -/
theorem cacheSound_empty (now : Int)
    (fetchCert : String → Except String (Option GoAttestationCert)) (first : List String) :
    CacheSound crypto marshal verifier now fetchCert ∅ first ∅ :=
  ⟨subset_rfl, by simp⟩

theorem counted_grounded {fetchCert : String → Except String (Option GoAttestationCert)} {now : Int}
    {cert : Option GoAttestationCert} {counted : List String}
    (accepted : (verifyInner crypto marshal (isTier3 crypto marshal verifier now fetchCert
      verifier.maxDepth.toNat ∅) now cert ∅).1 = .ok counted) :
    ∃ names, cosigners crypto marshal now cert = some names ∧ counted ⊆ names ∧ counted.Nodup ∧
      minCoSignatures ≤ counted.length ∧
      ∀ pubkey ∈ counted, pubkey ∈ (tier3System crypto marshal verifier now fetchCert).grounded := by
  obtain ⟨_, answer, result, meant⟩ := verifyInner_spec
    (isTier3 crypto marshal verifier now fetchCert verifier.maxDepth.toNat ∅)
    (CacheSound crypto marshal verifier now fetchCert ∅
      ((cosigners crypto marshal now cert).getD []))
    (fun name answer => answer = true →
      name ∈ (tier3System crypto marshal verifier now fetchCert).grounded)
    (fun names cosigned name listed current kept => isTier3_sound _ _ name current kept
      (Asked.cosigner (by rw [cosigned]; exact listed))) (cacheSound_empty now fetchCert _)
  rw [accepted] at result
  rcases tallied_ok result.symm with ⟨names, cosigned, rfl, enough⟩
  refine ⟨names, cosigned, List.filter_subset_self _, (cosigners_nodup cosigned).filter _, enough, ?_⟩
  intro pubkey member
  rw [List.mem_filter] at member
  exact meant names cosigned pubkey member.1 member.2

/-- Pubkeys outside the trusted set whose certificates are cosigned by one another only. -/
structure VouchesAlone (system : Vouching.System String) (clique : Set String) : Prop where
  untrusted : Disjoint clique system.roots
  alone : ∀ pubkey ∈ clique, ∀ ballot, system.ballotOf pubkey = some ballot → ↑ballot ⊆ clique

theorem VouchesAlone.disjoint_grounded {now : Int}
    {fetchCert : String → Except String (Option GoAttestationCert)} {clique : Set String}
    (vouches : VouchesAlone (tier3System crypto marshal verifier now fetchCert) clique) :
    Disjoint clique (tier3System crypto marshal verifier now fetchCert).grounded := by
  apply Vouching.System.disjoint_grounded _ clique vouches.untrusted
  intro pubkey member ballot held voters listed enough
  have nonempty : 0 < voters.card := lt_of_lt_of_le (by decide : 0 < minCoSignatures) enough
  rcases Finset.card_pos.mp nonempty with ⟨voter, votes⟩
  exact ⟨voter, votes, vouches.alone pubkey member ballot held (listed votes)⟩

end Accepted

/-- A new verifier counts only cosigners in the least set that holds the trusted pubkeys and
every pubkey with a current certificate cosigned by a quorum of that set; so a certificate
cosigned by pubkeys that vouch only for each other is refused. -/
theorem counted_cosigners_grounded (crypto : Crypto) (marshal : GoAttestationBody → Option Bytes)
    (verifier : RecursiveVerifier) (surroundings : Surroundings) (cert : Option GoAttestationCert)
    (counted : List String)
    (accepted : (recursiveVerify crypto marshal verifier surroundings cert ∅).1 = .ok counted) :
    ∃ fetchCert names, surroundings.fetchCert = some fetchCert ∧
      cosigners crypto marshal surroundings.now cert = some names ∧ counted ⊆ names ∧
      counted.Nodup ∧ minCoSignatures ≤ counted.length ∧
      (∀ pubkey ∈ counted, pubkey ∈
        (tier3System crypto marshal verifier surroundings.now fetchCert).grounded) ∧
      ∀ clique, VouchesAlone (tier3System crypto marshal verifier surroundings.now fetchCert) clique →
        (∀ pubkey ∈ counted, pubkey ∉ clique) ∧ ¬∀ pubkey ∈ names, pubkey ∈ clique := by
  rcases recursiveVerify_ok accepted with ⟨fetchCert, given, passed⟩
  rcases counted_grounded passed with ⟨names, cosigned, inside, distinct, enough, standing⟩
  refine ⟨fetchCert, names, given, cosigned, inside, distinct, enough, standing, ?_⟩
  intro clique vouches
  have outside : ∀ pubkey ∈ counted, pubkey ∉ clique := by
    intro pubkey member inClique
    exact Set.disjoint_left.mp vouches.disjoint_grounded inClique (standing pubkey member)
  refine ⟨outside, fun all => ?_⟩
  obtain ⟨pubkey, member⟩ : ∃ pubkey, pubkey ∈ counted :=
    List.exists_mem_of_length_pos (lt_of_lt_of_le (by decide : 0 < minCoSignatures) enough)
  exact outside pubkey member (all pubkey (inside member))

namespace Sample

def tier3Body (applicant : UInt8) (expiresAtNs : Int) : GoAttestationBody :=
  ⟨(compositor applicant).pubkeyHex, 1000, expiresAtNs, issuedTier, []⟩

def tier3Cert (applicant : UInt8) (expiresAtNs : Int) (validators : List UInt8) : GoAttestationCert :=
  ⟨some (tier3Body applicant expiresAtNs), validators.map (fun validator =>
    some (goCosignAs (compositor validator) (marshalBody (tier3Body applicant expiresAtNs))
      (compositor validator).pubkeyHex))⟩

/-- The keys 1 and 2 are trusted; the certificate of key 3, which both cosign, expires at 2000. -/
def tier3Verifier : RecursiveVerifier :=
  { trustedBootstrap := {(compositor 1).pubkeyHex, (compositor 2).pubkeyHex} }

def fetchCert (pubkey : String) : Except String (Option GoAttestationCert) :=
  if pubkey = (compositor 3).pubkeyHex then .ok (some (tier3Cert 3 2000 [1, 2])) else .ok none

def verifyAt (now : Int) (cert : GoAttestationCert) (cache : Finset String) :
    Except RecursiveError (List String) × Finset String :=
  recursiveVerify crypto (fun body => some (marshalBody body)) tier3Verifier ⟨now, some fetchCert⟩
    (some cert) cache

end Sample

theorem counted_cosigners_grounded_sample :
    (Sample.verifyAt 1500 (Sample.tier3Cert 4 5000 [1, 3]) ∅).1 =
        .ok [(Sample.compositor 1).pubkeyHex, (Sample.compositor 3).pubkeyHex] ∧
      (Sample.compositor 3).pubkeyHex ∈ (tier3System Sample.crypto
        (fun body => some (Sample.marshalBody body)) Sample.tier3Verifier 1500
        Sample.fetchCert).grounded := by
  have accepted : (Sample.verifyAt 1500 (Sample.tier3Cert 4 5000 [1, 3]) ∅).1 =
      .ok [(Sample.compositor 1).pubkeyHex, (Sample.compositor 3).pubkeyHex] := by
    decide +kernel
  rcases counted_cosigners_grounded _ _ _ _ _ _ accepted with
    ⟨fetchCert, names, given, _, _, _, _, standing, _⟩
  cases given
  exact ⟨accepted, standing _ (by simp)⟩

end Gyza
