import Gyza.Lib.Run
import Gyza.RecursiveAttestation

/-! Calls of `Verify` on one `RecursiveVerifier`, one after the other.

The positive cache has no expiry and is read at another depth than it was filled
at. A verdict is that of a new verifier as long as no cached pubkey comes up, or
the cached pubkeys that do still have standing and depth plays no part. -/

namespace Gyza

open Hex (Bytes)

structure VerifyCall where
  surroundings : Surroundings
  cert : Option GoAttestationCert

section Fresh

variable (crypto : Crypto) (marshal : GoAttestationBody → Option Bytes)
  (verifier : RecursiveVerifier)

def verdict (cache : Finset String) (call : VerifyCall) : Except RecursiveError (List String) :=
  (recursiveVerify crypto marshal verifier call.surroundings call.cert cache).1

/-- What a call leaves in the cache. -/
def verifyStep (cache : Finset String) (call : VerifyCall) : Finset String :=
  (recursiveVerify crypto marshal verifier call.surroundings call.cert cache).2

/-- No pubkey of the cache comes up in a search from these cosigners. -/
def Unreached (now : Int) (fetchCert : String → Except String (Option GoAttestationCert))
    (cache : Finset String) (names : List String) : Prop :=
  ∀ remaining pubkey,
    Asked crypto marshal verifier now fetchCert cache names (remaining + 1) pubkey → pubkey ∉ cache

/-- The cached pubkeys that come up still have standing, and the cosigners with standing
have it within `MaxDepth` levels. -/
structure Timely (now : Int) (fetchCert : String → Except String (Option GoAttestationCert))
    (cache : Finset String) (names : List String) : Prop where
  standing : ∀ pubkey ∈ cache, ∀ remaining,
    Asked crypto marshal verifier now fetchCert cache names (remaining + 1) pubkey →
      pubkey ∈ (tier3System crypto marshal verifier now fetchCert).grounded
  shallow : ∀ pubkey ∈ names,
    pubkey ∈ (tier3System crypto marshal verifier now fetchCert).grounded →
      pubkey ∈ (tier3System crypto marshal verifier now fetchCert).within verifier.maxDepth.toNat

/-- The cache before a call does not bear on its verdict. -/
def CacheHarmless (cache : Finset String) (call : VerifyCall) : Prop :=
  ∀ fetchCert names, call.surroundings.fetchCert = some fetchCert →
    cosigners crypto marshal call.surroundings.now call.cert = some names →
      Unreached crypto marshal verifier call.surroundings.now fetchCert cache names ∨
        Timely crypto marshal verifier call.surroundings.now fetchCert cache names

variable {crypto marshal verifier} {now : Int}
  {fetchCert : String → Except String (Option GoAttestationCert)}

/-- What `isTier3` leaves aside of the cache may be added to it before the call. -/
theorem verifyInner_map {ask other : String → Finset String → Bool × Finset String}
    (embed : Finset String → Finset String) {cert : Option GoAttestationCert}
    (same : ∀ names, cosigners crypto marshal now cert = some names → ∀ name ∈ names, ∀ current,
      ask name (embed current) = ((other name current).1, embed (other name current).2))
    (cache : Finset String) :
    verifyInner crypto marshal ask now cert (embed cache) =
      ((verifyInner crypto marshal other now cert cache).1,
        embed (verifyInner crypto marshal other now cert cache).2) := by
  unfold cosigners at same
  unfold verifyInner
  cases opened : openCert marshal now cert with
  | error error => rfl
  | ok found =>
      rcases found with ⟨bodyBytes, cosigs⟩
      simp only [opened, Option.some.injEq, forall_eq'] at same ⊢
      rw [Vouching.askAll_map embed cache
        (fun name member => same name ((Vouching.mem_voters _ _).mpr member))]
      simp only
      split_ifs
      · rfl
      · rfl

/-- A search that meets none of the pubkeys cached before it goes as if there were none. -/
theorem isTier3_unreached {start : Finset String} {first : List String}
    (unreached : Unreached crypto marshal verifier now fetchCert start first) (remaining : Nat) :
    ∀ (seen : Finset String) (pubkey : String) (cache : Finset String),
      Asked crypto marshal verifier now fetchCert start first remaining pubkey →
      isTier3 crypto marshal verifier now fetchCert remaining seen pubkey (start ∪ cache) =
        ((isTier3 crypto marshal verifier now fetchCert remaining seen pubkey cache).1,
          start ∪ (isTier3 crypto marshal verifier now fetchCert remaining seen pubkey cache).2) := by
  induction remaining with
  | zero =>
      intro seen pubkey cache _
      rw [isTier3_zero, isTier3_zero]
  | succ remaining ih =>
      intro seen pubkey cache asked
      have outside : pubkey ∉ start := unreached remaining pubkey asked
      by_cases trusted : pubkey ∈ verifier.trustedBootstrap
      · rw [isTier3_trusted _ _ _ trusted, isTier3_trusted _ _ _ trusted]
      by_cases inPath : pubkey ∈ seen
      · rw [isTier3_inPath _ _ trusted inPath, isTier3_inPath _ _ trusted inPath]
      by_cases cached : pubkey ∈ cache
      · have either : pubkey ∈ start ∪ cache := Finset.mem_union_right _ cached
        rw [isTier3_cached trusted inPath cached, isTier3_cached trusted inPath either]
      have neither : pubkey ∉ start ∪ cache := by
        rw [Finset.mem_union]
        exact fun member => member.elim outside cached
      rw [isTier3_fetch trusted inPath cached, isTier3_fetch trusted inPath neither]
      cases got : fetched fetchCert pubkey with
      | none => rfl
      | some cert =>
          have inner := verifyInner_map (start ∪ ·)
            (fun names cosigned name listed current => ih (insert pubkey seen) name current
              (Asked.ballot asked trusted outside (ballotOf_fetched got cosigned)
                (List.mem_toFinset.mpr listed))) cache
          simp only at inner ⊢
          rw [inner]
          rcases verifyInner crypto marshal
            (isTier3 crypto marshal verifier now fetchCert remaining (insert pubkey seen)) now
            (some cert) cache with ⟨outcome, after⟩
          cases outcome with
          | ok counted => simp only [Finset.union_insert]
          | error error => rfl

theorem verifyInner_unreached {cert : Option GoAttestationCert} {cache : Finset String}
    (unreached : ∀ names, cosigners crypto marshal now cert = some names →
      Unreached crypto marshal verifier now fetchCert cache names) :
    (verifyInner crypto marshal (isTier3 crypto marshal verifier now fetchCert
        verifier.maxDepth.toNat ∅) now cert cache).1 =
      (verifyInner crypto marshal (isTier3 crypto marshal verifier now fetchCert
        verifier.maxDepth.toNat ∅) now cert ∅).1 := by
  have added := verifyInner_map (cache ∪ ·)
    (fun names cosigned name listed current => isTier3_unreached (unreached names cosigned) _ ∅ name
      current (Asked.cosigner listed)) ∅
  simp only [Finset.union_empty] at added
  rw [added]

/-- Where depth plays no part, a cosigner counts exactly if it has standing. -/
theorem verifyInner_timely {cert : Option GoAttestationCert} {cache : Finset String}
    {names : List String} (cosigned : cosigners crypto marshal now cert = some names)
    (timely : Timely crypto marshal verifier now fetchCert cache names)
    [DecidablePred (· ∈ (tier3System crypto marshal verifier now fetchCert).grounded)] :
    (verifyInner crypto marshal (isTier3 crypto marshal verifier now fetchCert
        verifier.maxDepth.toNat ∅) now cert cache).1 =
      tallied crypto marshal now cert
        (fun name => decide (name ∈ (tier3System crypto marshal verifier now fetchCert).grounded)) := by
  obtain ⟨_, answer, result, meant⟩ := verifyInner_spec
    (isTier3 crypto marshal verifier now fetchCert verifier.maxDepth.toNat ∅)
    (CacheSound crypto marshal verifier now fetchCert cache names)
    (fun name answer => answer = true ↔
      name ∈ (tier3System crypto marshal verifier now fetchCert).grounded)
    (by
      intro others again name listed current kept
      rw [cosigned] at again
      cases again
      rcases isTier3_sound _ ∅ name current kept (Asked.cosigner listed) with ⟨next, sound⟩
      refine ⟨next, sound, fun standing => ?_⟩
      exact isTier3_complete _ _ ∅ name current le_rfl (timely.shallow name listed standing) (by simp))
    ⟨subset_rfl, timely.standing⟩
  rw [result]
  apply tallied_congr
  intro others again name listed
  rw [Bool.eq_iff_iff, meant others again name listed, decide_eq_true_iff]

theorem Timely.fresh {cache : Finset String} {names : List String}
    (timely : Timely crypto marshal verifier now fetchCert cache names) :
    Timely crypto marshal verifier now fetchCert ∅ names :=
  ⟨by simp, timely.shallow⟩

/-- A search from a harmless cache ends like that of a new verifier. -/
theorem verifyInner_harmless {cert : Option GoAttestationCert} {cache : Finset String}
    (harmless : ∀ names, cosigners crypto marshal now cert = some names →
      Unreached crypto marshal verifier now fetchCert cache names ∨
        Timely crypto marshal verifier now fetchCert cache names) :
    (verifyInner crypto marshal (isTier3 crypto marshal verifier now fetchCert
        verifier.maxDepth.toNat ∅) now cert cache).1 =
      (verifyInner crypto marshal (isTier3 crypto marshal verifier now fetchCert
        verifier.maxDepth.toNat ∅) now cert ∅).1 := by
  classical
  by_cases reached : ∃ names, cosigners crypto marshal now cert = some names ∧
      Timely crypto marshal verifier now fetchCert cache names
  · rcases reached with ⟨names, cosigned, timely⟩
    rw [verifyInner_timely cosigned timely, verifyInner_timely cosigned timely.fresh]
  · apply verifyInner_unreached
    intro names cosigned
    exact (harmless names cosigned).resolve_right (fun timely => reached ⟨names, cosigned, timely⟩)

end Fresh

section Calls

variable {crypto : Crypto} {marshal : GoAttestationBody → Option Bytes}
  {verifier : RecursiveVerifier}

theorem verdict_eq (cache : Finset String) (call : VerifyCall) :
    verdict crypto marshal verifier cache call =
      if verifier.trustedBootstrap = ∅ then .error .noBootstrap
      else
        match call.surroundings.fetchCert with
        | none => .error .noFetchCert
        | some fetchCert =>
            (verifyInner crypto marshal (isTier3 crypto marshal verifier call.surroundings.now
              fetchCert verifier.maxDepth.toNat ∅) call.surroundings.now call.cert cache).1.mapError
                RecursiveError.cert := by
  unfold verdict recursiveVerify
  split_ifs with empty
  · rfl
  cases given : call.surroundings.fetchCert with
  | none => rfl
  | some fetchCert =>
      simp only
      split
      · rename_i counted after passed
        rw [passed]
        rfl
      · rename_i error after refused
        rw [refused]
        rfl

/-- One call: a harmless cache gives the verdict of a new verifier. -/
theorem verdict_fresh {call : VerifyCall} {cache : Finset String}
    (harmless : CacheHarmless crypto marshal verifier cache call) :
    verdict crypto marshal verifier cache call = verdict crypto marshal verifier ∅ call := by
  rw [verdict_eq, verdict_eq]
  split_ifs with empty
  · rfl
  cases given : call.surroundings.fetchCert with
  | none => rfl
  | some fetchCert =>
      simp only
      rw [verifyInner_harmless (fun names => harmless fetchCert names given)]

theorem openCert_ok {now : Int} {cert : GoAttestationCert} {opened : Bytes × List GoCoSignature}
    (ok : openCert marshal now (some cert) = .ok opened) :
    ∃ body, cert.body = some body ∧ body.issuedAtNs ≤ now ∧ now < body.expiresAtNs := by
  rcases cert with ⟨body, coSignatures⟩
  cases body with
  | none => cases ok
  | some body =>
      unfold openCert at ok
      simp only at ok
      split_ifs at ok with tier future expired
      exact ⟨body, rfl, by omega, by omega⟩

/-- A pubkey with standing is trusted or has a certificate that is in force. -/
theorem grounded_current {now : Int}
    {fetchCert : String → Except String (Option GoAttestationCert)} {pubkey : String}
    (standing : pubkey ∈ (tier3System crypto marshal verifier now fetchCert).grounded) :
    pubkey ∈ verifier.trustedBootstrap ∨
      ∃ cert body, fetched fetchCert pubkey = some cert ∧ cert.body = some body ∧
        body.issuedAtNs ≤ now ∧ now < body.expiresAtNs := by
  rw [Vouching.System.grounded, ← OrderHom.map_lfp] at standing
  rcases standing with root | ⟨ballot, voters, held, _⟩
  · exact Or.inl root
  · simp only [tier3System, Option.map_eq_some_iff, Option.bind_eq_some_iff] at held
    rcases held with ⟨names, ⟨cert, got, cosigned⟩, _⟩
    unfold cosigners at cosigned
    split at cosigned
    · cases cosigned
    · rename_i bodyBytes cosigs opened
      rcases openCert_ok opened with ⟨body, carried, issued, unexpired⟩
      exact Or.inr ⟨cert, body, got, carried, issued, unexpired⟩

/-- A cosigner that a new verifier counts is trusted or has a certificate in force. -/
theorem fresh_counted_current {call : VerifyCall} {counted : List String}
    (accepted : verdict crypto marshal verifier ∅ call = .ok counted) {pubkey : String}
    (member : pubkey ∈ counted) :
    pubkey ∈ verifier.trustedBootstrap ∨
      ∃ fetchCert cert body, call.surroundings.fetchCert = some fetchCert ∧
        fetched fetchCert pubkey = some cert ∧ cert.body = some body ∧
        call.surroundings.now < body.expiresAtNs := by
  rcases recursiveVerify_ok accepted with ⟨fetchCert, given, passed⟩
  rcases counted_grounded passed with ⟨names, _, _, _, _, standing⟩
  rcases grounded_current (standing pubkey member) with
    trusted | ⟨cert, body, got, carried, _, unexpired⟩
  · exact Or.inl trusted
  · exact Or.inr ⟨fetchCert, cert, body, given, got, carried, unexpired⟩

end Calls

/-- In a history whose calls all find a harmless cache, every verdict is that of a new
verifier, and no cosigner counts whose own certificate has expired. -/
theorem verdict_memoryless (crypto : Crypto) (marshal : GoAttestationBody → Option Bytes)
    (verifier : RecursiveVerifier) (calls : List VerifyCall)
    (harmless : Run.Admissible (verifyStep crypto marshal verifier)
      (CacheHarmless crypto marshal verifier) ∅ calls)
    (front : List VerifyCall) (call : VerifyCall) (rest : List VerifyCall)
    (history : calls = front ++ call :: rest) :
    verdict crypto marshal verifier (Run.run (verifyStep crypto marshal verifier) ∅ front) call =
        verdict crypto marshal verifier ∅ call ∧
      ∀ counted,
        verdict crypto marshal verifier (Run.run (verifyStep crypto marshal verifier) ∅ front) call =
          .ok counted →
        ∀ pubkey ∈ counted, pubkey ∈ verifier.trustedBootstrap ∨
          ∃ fetchCert cert body, call.surroundings.fetchCert = some fetchCert ∧
            fetched fetchCert pubkey = some cert ∧ cert.body = some body ∧
            call.surroundings.now < body.expiresAtNs := by
  rw [Run.admissible_iff_steps] at harmless
  have same := verdict_fresh (harmless front call rest history)
  refine ⟨same, ?_⟩
  intro counted accepted pubkey member
  rw [same] at accepted
  exact fresh_counted_current accepted member

namespace Sample

def callAt (now : Int) : VerifyCall :=
  ⟨⟨now, some fetchCert⟩, some (tier3Cert 4 5000 [1, 3])⟩

def verdictOf (cache : Finset String) (call : VerifyCall) : Except RecursiveError (List String) :=
  verdict crypto (fun body => some (marshalBody body)) tier3Verifier cache call

def cacheAfter (cache : Finset String) (call : VerifyCall) : Finset String :=
  verifyStep crypto (fun body => some (marshalBody body)) tier3Verifier cache call

def systemAt (now : Int) : Vouching.System String :=
  tier3System crypto (fun body => some (marshalBody body)) tier3Verifier now fetchCert

theorem cacheAfter_first : cacheAfter ∅ (callAt 1500) = {(compositor 3).pubkeyHex} := by
  decide +kernel

/-- Key 3 stands one level above the trusted keys that cosigned its certificate. -/
theorem third_within : (compositor 3).pubkeyHex ∈ (systemAt 1600).within 1 := by
  refine Or.inr ⟨{(compositor 1).pubkeyHex, (compositor 2).pubkeyHex},
    {(compositor 1).pubkeyHex, (compositor 2).pubkeyHex}, ?_, subset_rfl, ?_, ?_⟩
  · decide +kernel
  · decide +kernel
  · intro pubkey member
    exact member

theorem second_timely : Timely crypto (fun body => some (marshalBody body)) tier3Verifier 1600
    fetchCert {(compositor 3).pubkeyHex}
    [(compositor 1).pubkeyHex, (compositor 3).pubkeyHex] := by
  have room : 1 ≤ tier3Verifier.maxDepth.toNat := by decide
  constructor
  · intro pubkey member _ _
    rw [Finset.mem_singleton.mp member]
    exact Vouching.System.within_subset_grounded _ 1 third_within
  · intro pubkey member _
    rcases List.mem_pair.mp member with rfl | rfl
    · exact Vouching.System.roots_subset_within _ _ (by
        show (compositor 1).pubkeyHex ∈ tier3Verifier.trustedBootstrap
        decide +kernel)
    · exact Vouching.System.within_mono _ room third_within

end Sample

theorem verdict_memoryless_sample :
    Sample.verdictOf (Sample.cacheAfter ∅ (Sample.callAt 1500)) (Sample.callAt 1600) =
      Sample.verdictOf ∅ (Sample.callAt 1600) := by
  have harmless : Run.Admissible Sample.cacheAfter
      (CacheHarmless Sample.crypto (fun body => some (Sample.marshalBody body)) Sample.tier3Verifier)
      ∅ [Sample.callAt 1500, Sample.callAt 1600] := by
    refine ⟨fun _ _ _ _ => Or.inl (by intro _ _ _; exact Finset.notMem_empty _), ?_, trivial⟩
    rw [Sample.cacheAfter_first]
    intro fetchCert names given cosigned
    cases given
    have listed : names = [(Sample.compositor 1).pubkeyHex, (Sample.compositor 3).pubkeyHex] := by
      have found : cosigners Sample.crypto (fun body => some (Sample.marshalBody body)) 1600
          (Sample.callAt 1600).cert =
            some [(Sample.compositor 1).pubkeyHex, (Sample.compositor 3).pubkeyHex] := by
        decide +kernel
      exact Option.some.inj (cosigned.symm.trans found)
    rw [listed]
    exact Or.inr Sample.second_timely
  exact (verdict_memoryless _ _ _ _ harmless [Sample.callAt 1500] (Sample.callAt 1600) [] rfl).1

/-- The certificate of key 3 has expired at 3000, and still it counts there if it counted at
1500; a new verifier finds one Tier-3 cosigner only. -/
theorem verdict_remembers :
    Sample.verdictOf (Sample.cacheAfter ∅ (Sample.callAt 1500)) (Sample.callAt 3000) =
        .ok [(Sample.compositor 1).pubkeyHex, (Sample.compositor 3).pubkeyHex] ∧
      Sample.verdictOf ∅ (Sample.callAt 3000) = .error (.cert (.belowQuorum 1)) ∧
      (Sample.compositor 3).pubkeyHex ∉ Sample.tier3Verifier.trustedBootstrap ∧
      Sample.fetchCert (Sample.compositor 3).pubkeyHex =
        .ok (some (Sample.tier3Cert 3 2000 [1, 2])) := by
  refine ⟨by decide +kernel, by decide +kernel, by decide +kernel, ?_⟩
  rw [Sample.fetchCert, if_pos rfl]

end Gyza
