import Gyza.RecursiveRuns

/-! The order of cosignatures in recursive verification (`internal/capability/recursive.go`).

A pubkey that was verified at one depth answers from the cache at another. So a cosigner
that lies deeper than `MaxDepth` counts when the pubkeys it rests on come up earlier in the
search, nearer to the top. -/

namespace Gyza

open Hex (Bytes)

/-- The same certificate with its cosignatures in another order. -/
structure Reordered (cert other : GoAttestationCert) : Prop where
  body : cert.body = other.body
  coSignatures : cert.coSignatures.Perm other.coSignatures

/-- The same answer of `FetchCert`, up to the order of cosignatures. -/
inductive SameFetched : Except String (Option GoAttestationCert) →
    Except String (Option GoAttestationCert) → Prop
  | error (reason : String) : SameFetched (.error reason) (.error reason)
  | none : SameFetched (.ok none) (.ok none)
  | cert {cert other : GoAttestationCert} (reordered : Reordered cert other) :
      SameFetched (.ok (some cert)) (.ok (some other))

section Order

variable (crypto : Crypto) (marshal : GoAttestationBody → Option Bytes)
  (verifier : RecursiveVerifier)

/-- A new verifier accepts. -/
def Accepts (now : Int) (fetchCert : String → Except String (Option GoAttestationCert))
    (cert : GoAttestationCert) : Prop :=
  ∃ counted, (recursiveVerify crypto marshal verifier ⟨now, some fetchCert⟩ (some cert) ∅).1 =
    .ok counted

/-- No order of the cosignatures, neither of the certificate nor of a fetched one, changes
whether a new verifier accepts. -/
def OrderIrrelevant (now : Int) (fetchCert : String → Except String (Option GoAttestationCert))
    (cert : GoAttestationCert) : Prop :=
  ∀ other otherFetch, Reordered cert other →
    (∀ pubkey, SameFetched (fetchCert pubkey) (otherFetch pubkey)) →
      (Accepts crypto marshal verifier now fetchCert cert ↔
        Accepts crypto marshal verifier now otherFetch other)

/-- Enough of the cosigners are in the set. -/
def Quorate (names : List String) (standing : Set String) : Prop :=
  ∃ voters ⊆ names.toFinset, minCoSignatures ≤ voters.card ∧ ↑voters ⊆ standing

/-- What a search can find at best: the pubkeys that are trusted, or asked about while levels
remain and vouched for by a quorum of such pubkeys, wherever in the search these come up. -/
inductive Established (now : Int) (fetchCert : String → Except String (Option GoAttestationCert))
    (first : List String) : String → Prop
  | trusted {pubkey : String} (root : pubkey ∈ verifier.trustedBootstrap) :
      Established now fetchCert first pubkey
  | vouched {remaining : Nat} {pubkey : String} {ballot voters : Finset String}
      (asked : Asked crypto marshal verifier now fetchCert ∅ first (remaining + 1) pubkey)
      (held : (tier3System crypto marshal verifier now fetchCert).ballotOf pubkey = some ballot)
      (listed : voters ⊆ ballot) (enough : minCoSignatures ≤ voters.card)
      (near : ∀ voter ∈ voters, remaining = 0 → voter ∈ verifier.trustedBootstrap)
      (standing : ∀ voter ∈ voters, Established now fetchCert first voter) :
      Established now fetchCert first pubkey

/-- Enough cosigners are within `MaxDepth` levels of the trusted set, or not even what the
cache can add makes them enough. -/
def DepthSettled (now : Int) (fetchCert : String → Except String (Option GoAttestationCert))
    (cert : GoAttestationCert) : Prop :=
  ∀ names, cosigners crypto marshal now (some cert) = some names →
    Quorate names
        ((tier3System crypto marshal verifier now fetchCert).within verifier.maxDepth.toNat) ∨
      ¬Quorate names {pubkey | Established crypto marshal verifier now fetchCert names pubkey}

end Order

section Reordering

variable {crypto : Crypto} {marshal : GoAttestationBody → Option Bytes}
  {verifier : RecursiveVerifier} {now : Int}
  {fetchCert otherFetch : String → Except String (Option GoAttestationCert)}

theorem labels_perm {bodyBytes : Bytes} {votes others : List GoCoSignature}
    (perm : votes.Perm others) :
    Quorum.labels GoCoSignature.validatorPubkey (goCosigVerifies crypto bodyBytes) votes =
      Quorum.labels GoCoSignature.validatorPubkey (goCosigVerifies crypto bodyBytes) others := by
  ext name
  simp only [Quorum.mem_labels, perm.mem_iff]

theorem openCert_reordered {cert other : GoAttestationCert} (same : Reordered cert other) :
    (∃ error, openCert marshal now (some cert) = .error error ∧
        openCert marshal now (some other) = .error error) ∨
      ∃ bodyBytes votes others, openCert marshal now (some cert) = .ok (bodyBytes, votes) ∧
        openCert marshal now (some other) = .ok (bodyBytes, others) ∧ votes.Perm others := by
  rcases cert with ⟨body, coSignatures⟩
  rcases other with ⟨_, otherSignatures⟩
  rcases same with ⟨rfl, perm⟩
  cases body with
  | none => exact Or.inl ⟨_, rfl, rfl⟩
  | some body =>
      simp only [openCert]
      split_ifs
      · exact Or.inl ⟨_, rfl, rfl⟩
      · exact Or.inl ⟨_, rfl, rfl⟩
      · exact Or.inl ⟨_, rfl, rfl⟩
      · cases marshal body with
        | none => exact Or.inl ⟨_, rfl, rfl⟩
        | some bodyBytes => exact Or.inr ⟨_, _, _, rfl, rfl, perm.filterMap id⟩

/-- The order of its cosignatures does not bear on who has cosigned a certificate. -/
theorem cosigners_reordered {cert other : GoAttestationCert} (same : Reordered cert other) :
    (cosigners crypto marshal now (some cert)).map List.toFinset =
      (cosigners crypto marshal now (some other)).map List.toFinset := by
  rcases @openCert_reordered marshal now cert other same with
    ⟨error, first, second⟩ | ⟨bodyBytes, votes, others, first, second, perm⟩
  · simp only [cosigners, first, second]
  · simp only [cosigners, first, second, Option.map_some, Vouching.voters_toFinset,
      labels_perm perm]

theorem fetched_reordered {pubkey : String}
    (same : SameFetched (fetchCert pubkey) (otherFetch pubkey)) :
    (fetched fetchCert pubkey = none ∧ fetched otherFetch pubkey = none) ∨
      ∃ cert other, fetched fetchCert pubkey = some cert ∧ fetched otherFetch pubkey = some other ∧
        Reordered cert other := by
  unfold fetched
  generalize fetchCert pubkey = answer at same
  generalize otherFetch pubkey = otherAnswer at same
  cases same with
  | error reason => exact Or.inl ⟨rfl, rfl⟩
  | none => exact Or.inl ⟨rfl, rfl⟩
  | @cert cert other reordered =>
      have bodies := reordered.body
      cases carried : cert.body with
      | none => simp [← bodies, carried]
      | some body =>
          simp only [← bodies, carried]
          split_ifs
          · exact Or.inl ⟨rfl, rfl⟩
          · exact Or.inr ⟨cert, other, rfl, rfl, reordered⟩

theorem tier3System_reordered
    (same : ∀ pubkey, SameFetched (fetchCert pubkey) (otherFetch pubkey)) :
    tier3System crypto marshal verifier now fetchCert =
      tier3System crypto marshal verifier now otherFetch := by
  have ballots : (tier3System crypto marshal verifier now fetchCert).ballotOf =
      (tier3System crypto marshal verifier now otherFetch).ballotOf := by
    funext pubkey
    rcases fetched_reordered (same pubkey) with
      ⟨first, second⟩ | ⟨cert, other, first, second, reordered⟩
    · simp only [tier3System, first, second]
    · simp only [tier3System, first, second, Option.bind_some]
      exact cosigners_reordered reordered
  exact congrArg (fun ballotOf =>
    (⟨↑verifier.trustedBootstrap, ballotOf, minCoSignatures⟩ : Vouching.System String)) ballots

end Reordering

section Bounds

variable {crypto : Crypto} {marshal : GoAttestationBody → Option Bytes}
  {verifier : RecursiveVerifier} {now : Int}
  {fetchCert otherFetch : String → Except String (Option GoAttestationCert)}

/-- Another order of the certificates leaves the questions and what they can establish. -/
theorem Asked.reordered {first others : List String}
    (same : tier3System crypto marshal verifier now fetchCert =
      tier3System crypto marshal verifier now otherFetch)
    (listed : ∀ name ∈ first, name ∈ others) {remaining : Nat} {pubkey : String}
    (asked : Asked crypto marshal verifier now fetchCert ∅ first remaining pubkey) :
    Asked crypto marshal verifier now otherFetch ∅ others remaining pubkey := by
  induction asked with
  | cosigner member => exact .cosigner (listed _ member)
  | ballot _ untrusted uncached held member ih =>
      rw [same] at held
      exact .ballot ih untrusted uncached held member

theorem Established.reordered {first others : List String}
    (same : tier3System crypto marshal verifier now fetchCert =
      tier3System crypto marshal verifier now otherFetch)
    (listed : ∀ name ∈ first, name ∈ others) {pubkey : String}
    (established : Established crypto marshal verifier now fetchCert first pubkey) :
    Established crypto marshal verifier now otherFetch others pubkey := by
  induction established with
  | trusted root => exact .trusted root
  | vouched asked held inside enough near _ ih =>
      rw [same] at held
      exact .vouched (asked.reordered same listed) held inside enough near ih

/-- What a yes means to a search from an empty cache: the pubkey is established, and trusted
where no level remains. -/
theorem established_meaning (first : List String) :
    SearchMeaning crypto marshal verifier now fetchCert
      (fun cache => ∀ cached ∈ cache, Established crypto marshal verifier now fetchCert first cached)
      (Asked crypto marshal verifier now fetchCert ∅ first)
      (fun remaining pubkey => Established crypto marshal verifier now fetchCert first pubkey ∧
        (remaining = 0 → pubkey ∈ verifier.trustedBootstrap)) where
  trusted _ _ root := ⟨.trusted root, fun _ => root⟩
  cached _ pubkey _ sound _ member := ⟨sound pubkey member, by simp⟩
  below _ _ _ _ _ _ asked trusted _ held listed := .ballot asked trusted (by simp) held listed
  vouched _ _ _ _ asked held listed enough near :=
    ⟨.vouched asked held listed enough (fun voter member => (near voter member).2)
      (fun voter member => (near voter member).1), by simp⟩
  kept := by
    intro _ pubkey cache sound accepted name member
    rcases Finset.mem_insert.mp member with rfl | old
    · exact accepted.1
    · exact sound name old

theorem accepts_iff (cert : GoAttestationCert) :
    Accepts crypto marshal verifier now fetchCert cert ↔ verifier.trustedBootstrap ≠ ∅ ∧
      ∃ counted, (verifyInner crypto marshal (isTier3 crypto marshal verifier now fetchCert
        verifier.maxDepth.toNat ∅) now (some cert) ∅).1 = .ok counted := by
  unfold Accepts recursiveVerify
  by_cases empty : verifier.trustedBootstrap = ∅
  · simp [empty]
  · rw [if_neg empty]
    simp only [ne_eq, empty, not_false_eq_true, true_and]
    rcases verifyInner crypto marshal (isTier3 crypto marshal verifier now fetchCert
      verifier.maxDepth.toNat ∅) now (some cert) ∅ with ⟨outcome, after⟩
    cases outcome with
    | ok counted => simp
    | error error => simp

/-- Enough cosigners within `MaxDepth` make a certificate pass, in any order. -/
theorem passes_of_quorate {cert : GoAttestationCert} {names : List String}
    (cosigned : cosigners crypto marshal now (some cert) = some names)
    (quorate : Quorate names
      ((tier3System crypto marshal verifier now fetchCert).within verifier.maxDepth.toNat)) :
    ∃ counted, (verifyInner crypto marshal (isTier3 crypto marshal verifier now fetchCert
      verifier.maxDepth.toNat ∅) now (some cert) ∅).1 = .ok counted := by
  obtain ⟨voters, listed, enough, near⟩ := quorate
  obtain ⟨_, answer, result, meant⟩ := @verifyInner_spec crypto marshal
    (isTier3 crypto marshal verifier now fetchCert verifier.maxDepth.toNat ∅) (fun _ => True)
    (fun name answer => name ∈ (tier3System crypto marshal verifier now fetchCert).within
      verifier.maxDepth.toNat → answer = true) now (some cert) ∅
    (fun names cosigned name listed current _ =>
      ⟨trivial, fun found => isTier3_complete _ _ ∅ name current le_rfl found (by simp)⟩)
    trivial
  rw [result]
  exact tallied_passes cosigned listed enough
    (fun voter member => meant names cosigned voter (List.mem_toFinset.mp (listed member))
      (near member))

/-- A certificate passes only with enough cosigners that a search can establish. -/
theorem quorate_of_passes {cert : GoAttestationCert} {counted : List String}
    (passed : (verifyInner crypto marshal (isTier3 crypto marshal verifier now fetchCert
      verifier.maxDepth.toNat ∅) now (some cert) ∅).1 = .ok counted) :
    ∃ names, cosigners crypto marshal now (some cert) = some names ∧
      Quorate names {pubkey | Established crypto marshal verifier now fetchCert names pubkey} := by
  obtain ⟨_, answer, result, meant⟩ := @verifyInner_spec crypto marshal
    (isTier3 crypto marshal verifier now fetchCert verifier.maxDepth.toNat ∅)
    (fun cache => ∀ cached ∈ cache, Established crypto marshal verifier now fetchCert
      ((cosigners crypto marshal now (some cert)).getD []) cached)
    (fun name answer => answer = true → Established crypto marshal verifier now fetchCert
      ((cosigners crypto marshal now (some cert)).getD []) name) now (some cert) ∅
    (by
      intro names cosigned name listed current kept
      obtain ⟨next, yes⟩ := isTier3_spec (established_meaning _) verifier.maxDepth.toNat ∅ name
        current kept (Asked.cosigner (by rw [cosigned]; exact listed))
      exact ⟨next, fun answered => (yes answered).1⟩) (by simp)
  rw [passed] at result
  obtain ⟨names, voters, cosigned, listed, enough, counts⟩ := tallied_voters result.symm
  rw [cosigned] at meant
  refine ⟨names, cosigned, voters, listed, enough, ?_⟩
  intro name member
  exact meant names rfl name (counts name member).1 (counts name member).2

/-- Where depth settles the matter, a certificate is accepted on its cosigners within
`MaxDepth`. -/
theorem DepthSettled.accepts_iff {cert : GoAttestationCert}
    (settled : DepthSettled crypto marshal verifier now fetchCert cert) :
    Accepts crypto marshal verifier now fetchCert cert ↔ verifier.trustedBootstrap ≠ ∅ ∧
      ∃ names, cosigners crypto marshal now (some cert) = some names ∧ Quorate names
        ((tier3System crypto marshal verifier now fetchCert).within verifier.maxDepth.toNat) := by
  rw [Gyza.accepts_iff]
  apply and_congr_right
  intro _
  constructor
  · rintro ⟨counted, passed⟩
    obtain ⟨names, cosigned, quorate⟩ := quorate_of_passes passed
    exact ⟨names, cosigned, (settled names cosigned).resolve_right (not_not_intro quorate)⟩
  · rintro ⟨names, cosigned, quorate⟩
    exact passes_of_quorate cosigned quorate

theorem names_reordered {cert other : GoAttestationCert} (same : Reordered cert other)
    {names : List String} (cosigned : cosigners crypto marshal now (some other) = some names) :
    ∃ before, cosigners crypto marshal now (some cert) = some before ∧
      before.toFinset = names.toFinset := by
  have sets := @cosigners_reordered crypto marshal now cert other same
  rw [cosigned, Option.map_some, Option.map_eq_some_iff] at sets
  exact sets

theorem Quorate.congr {names others : List String} {standing : Set String}
    (same : names.toFinset = others.toFinset) (quorate : Quorate names standing) :
    Quorate others standing := by
  obtain ⟨voters, listed, enough, inside⟩ := quorate
  exact ⟨voters, same ▸ listed, enough, inside⟩

theorem Quorate.mono {names : List String} {standing larger : Set String}
    (quorate : Quorate names standing) (inside : standing ⊆ larger) : Quorate names larger := by
  obtain ⟨voters, listed, enough, within⟩ := quorate
  exact ⟨voters, listed, enough, within.trans inside⟩

theorem Reordered.refl (cert : GoAttestationCert) : Reordered cert cert := ⟨rfl, List.Perm.refl _⟩

theorem SameFetched.refl (answer : Except String (Option GoAttestationCert)) :
    SameFetched answer answer := by
  cases answer with
  | error reason => exact .error reason
  | ok found =>
      cases found with
      | none => exact .none
      | some cert => exact .cert (Reordered.refl cert)

theorem Reordered.symm {cert other : GoAttestationCert} (same : Reordered cert other) :
    Reordered other cert := ⟨same.body.symm, same.coSignatures.symm⟩

/-- Depth settles the matter for one order of the cosignatures if it does for another. -/
theorem DepthSettled.reordered {cert other : GoAttestationCert}
    (settled : DepthSettled crypto marshal verifier now fetchCert cert) (top : Reordered cert other)
    (system : tier3System crypto marshal verifier now fetchCert =
      tier3System crypto marshal verifier now otherFetch) :
    DepthSettled crypto marshal verifier now otherFetch other := by
  intro names cosigned
  obtain ⟨before, earlier, same⟩ := names_reordered top cosigned
  have listed : ∀ name ∈ names, name ∈ before := by
    intro name member
    rwa [← List.mem_toFinset, same, List.mem_toFinset]
  rw [← system]
  rcases settled before earlier with near | few
  · exact Or.inl (near.congr same)
  · right
    intro quorate
    apply few
    apply (quorate.congr same.symm).mono
    intro pubkey established
    exact Established.reordered system.symm listed established

theorem Asked.le_maxDepth {start : Finset String} {first : List String} {remaining : Nat}
    {pubkey : String}
    (asked : Asked crypto marshal verifier now fetchCert start first remaining pubkey) :
    remaining ≤ verifier.maxDepth.toNat := by
  induction asked with
  | cosigner _ => exact le_rfl
  | ballot _ _ _ _ _ ih => omega

/-- With one level at most there is nothing that a cached result could be reused for. -/
theorem depthSettled_of_shallow (cert : GoAttestationCert) (shallow : verifier.maxDepth ≤ 1) :
    DepthSettled crypto marshal verifier now fetchCert cert := by
  intro names _
  by_cases quorate : Quorate names
      {pubkey | Established crypto marshal verifier now fetchCert names pubkey}
  · left
    apply quorate.mono
    intro pubkey established
    cases established with
    | trusted root => exact Vouching.System.roots_subset_within _ _ root
    | @vouched remaining _ ballot voters asked held listed enough near _ =>
        have room := asked.le_maxDepth
        obtain ⟨last, whole⟩ : remaining = 0 ∧ verifier.maxDepth.toNat = 1 := by omega
        rw [whole]
        exact Or.inr ⟨ballot, voters, held, listed, enough, fun voter member =>
          near voter member last⟩
  · exact Or.inr quorate

end Bounds

namespace Sample

/-- Keys 1 and 2 are trusted. Key 3 is vouched for by both, each key up to 7 by the one before
it and by key 1, and key 8 by key 7, the last within five levels, and by key 1. -/
def chainFetch (pubkey : String) : Except String (Option GoAttestationCert) :=
  if pubkey = (compositor 3).pubkeyHex then .ok (some (tier3Cert 3 5000 [1, 2]))
  else if pubkey = (compositor 4).pubkeyHex then .ok (some (tier3Cert 4 5000 [3, 1]))
  else if pubkey = (compositor 5).pubkeyHex then .ok (some (tier3Cert 5 5000 [4, 1]))
  else if pubkey = (compositor 6).pubkeyHex then .ok (some (tier3Cert 6 5000 [5, 1]))
  else if pubkey = (compositor 7).pubkeyHex then .ok (some (tier3Cert 7 5000 [6, 1]))
  else if pubkey = (compositor 8).pubkeyHex then .ok (some (tier3Cert 8 5000 [7, 1]))
  else .ok none

def verdictOn (cert : GoAttestationCert) : Except RecursiveError (List String) :=
  (recursiveVerify crypto (fun body => some (marshalBody body)) tier3Verifier
    ⟨1500, some chainFetch⟩ (some cert) ∅).1

theorem accepts_verdictOn (cert : GoAttestationCert) :
    Accepts crypto (fun body => some (marshalBody body)) tier3Verifier 1500 chainFetch cert ↔
      ∃ counted, verdictOn cert = .ok counted := Iff.rfl

theorem reordered_cosigs (body : GoAttestationBody) (first second : Option GoCoSignature) :
    Reordered ⟨some body, [first, second]⟩ ⟨some body, [second, first]⟩ :=
  ⟨rfl, List.Perm.swap _ _ _⟩

end Sample

end Gyza
