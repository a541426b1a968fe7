import Gyza.Attestation
import Gyza.AuditVerdict
import Gyza.TrustRegistry

/-! Whether a revoked key stays revoked, over every history of additions and
revocations in any spelling. -/

namespace Gyza

open Hex (Bytes utf8)
open PyValue (Fields Value dictGet)

namespace TrustRegistry

inductive TrustCall where
  | add (pubkey peerIp gyzaVersion notes : String) (nowNs : Int)
  | revoke (pubkey reason : String) (nowNs : Int)

/-- A call that raises stores nothing. -/
def apply (registry : TrustRegistry) : TrustCall → TrustRegistry
  | .add pubkey peerIp gyzaVersion notes nowNs =>
      (addTrustedCompositor registry pubkey peerIp gyzaVersion notes nowNs).toOption.getD registry
  | .revoke pubkey reason nowNs => registry.revokeCompositor pubkey reason nowNs

/-- A registry with the keys that were revoked and not added again since. -/
structure Tracked where
  registry : TrustRegistry
  pulled : List Bytes

namespace Tracked

def start : Tracked := ⟨Table.empty, []⟩

def step (tracked : Tracked) (call : TrustCall) : Tracked :=
  let after := tracked.registry.apply call
  match call with
  | .add pubkey _ _ _ _ => ⟨after, tracked.pulled.filter (fun key => Hex.fromhex pubkey ≠ some key)⟩
  | .revoke pubkey _ _ => ⟨after, (Hex.fromhex pubkey).toList ++ tracked.pulled⟩

end Tracked

section Manifests

variable (crypto : Crypto) (python : Audit.Python)

/-- No manifest that names a pulled key, in any spelling, is accepted. -/
def Tracked.Rejects (tracked : Tracked) : Prop :=
  ∀ key ∈ tracked.pulled, ∀ manifest compositorPubkey,
    dictGet manifest "compositor_pubkey" .none = .str compositorPubkey →
      Hex.fromhex compositorPubkey = some key →
        verifyManifestFromTrustedCompositor crypto python tracked.registry manifest ≠ .ok

/-- Some manifest that names this spelling carries a good signature. -/
def Signable (pubkey : String) : Prop :=
  ∃ manifest sigHex, dictGet manifest "compositor_pubkey" .none = .str pubkey ∧
    dictGet manifest "signature" .none = .str sigHex ∧ sigHex ≠ "" ∧
      checkManifestSignature crypto python pubkey sigHex manifest = .ok

/-- A revocation finds no other unrevoked row that spells the same key and that
a manifest can be signed for. -/
def OnlySpelling (tracked : Tracked) : TrustCall → Prop
  | .add _ _ _ _ _ => True
  | .revoke pubkey _ _ =>
      ∀ row ∈ tracked.registry.rows, row.revoked = false → row.pubkey ≠ pubkey →
        ∀ key, Hex.fromhex row.pubkey = some key → Hex.fromhex pubkey = some key →
          ¬Signable crypto python row.pubkey

end Manifests

variable {crypto : Crypto} {python : Audit.Python}

theorem isTrusted_iff (registry : TrustRegistry) (pubkey : String) :
    registry.isTrusted pubkey = true ↔
      ∃ row ∈ registry.rows, row.pubkey = pubkey ∧ row.revoked = false := by
  unfold isTrusted
  cases found : registry.get? pubkey with
  | none =>
      constructor
      · intro absurd
        cases absurd
      · rintro ⟨row, member, rfl, _⟩
        exact absurd (List.mem_map_of_mem member) ((Table.get?_eq_none _ _).mp found)
  | some row =>
      obtain ⟨member, keyed⟩ := (Table.get?_eq_some _ _ _).mp found
      simp only [Bool.not_eq_true']
      constructor
      · intro active
        exact ⟨row, member, keyed, active⟩
      · rintro ⟨other, present, same, active⟩
        have one := (Table.get?_eq_some registry pubkey other).mpr ⟨present, same⟩
        cases found.symm.trans one
        exact active

theorem checkManifestSignature_ok {pubkey sigHex : String} {manifest : Fields}
    (accepted : checkManifestSignature crypto python pubkey sigHex manifest = .ok) :
    ∃ key, Hex.fromhex pubkey = some key ∧ key.length = 32 := by
  unfold checkManifestSignature at accepted
  split at accepted
  next key sig decoded _ =>
    split_ifs at accepted with short
    exact ⟨key, decoded, not_not.mp short⟩
  next => cases accepted

theorem Signable.ne_empty {pubkey : String} (signable : Signable crypto python pubkey) :
    pubkey ≠ "" := by
  rintro rfl
  obtain ⟨_, _, _, _, _, accepted⟩ := signable
  obtain ⟨key, decoded, length⟩ := checkManifestSignature_ok accepted
  cases decoded
  cases length

theorem verifyManifest_ok_iff {registry : TrustRegistry} {manifest : Fields} {pubkey : String}
    (named : dictGet manifest "compositor_pubkey" .none = .str pubkey) :
    verifyManifestFromTrustedCompositor crypto python registry manifest = .ok ↔
      pubkey ≠ "" ∧ registry.isTrusted pubkey = true ∧
        ∃ sigHex, dictGet manifest "signature" .none = .str sigHex ∧ sigHex ≠ "" ∧
          checkManifestSignature crypto python pubkey sigHex manifest = .ok := by
  unfold verifyManifestFromTrustedCompositor
  rw [named]
  by_cases empty : pubkey = ""
  · simp [empty]
  · cases trusted : registry.isTrusted pubkey with
    | false => simp [empty, trusted]
    | true =>
        cases signature : dictGet manifest "signature" .none with
        | str sigHex =>
            by_cases unsigned : sigHex = "" <;> simp [empty, trusted, unsigned]
        | _ => simp [empty, trusted]

/-- Refusing every manifest of a key is having no usable row for it. -/
theorem Tracked.rejects_iff (tracked : Tracked) :
    tracked.Rejects crypto python ↔ ∀ key ∈ tracked.pulled, ∀ row ∈ tracked.registry.rows,
      row.revoked = false → Hex.fromhex row.pubkey = some key → ¬Signable crypto python row.pubkey := by
  constructor
  · intro rejects key member row present active decoded signable
    have nonempty := signable.ne_empty
    obtain ⟨manifest, sigHex, named, signed, some_sig, accepted⟩ := signable
    refine rejects key member manifest row.pubkey named decoded ?_
    exact (verifyManifest_ok_iff named).mpr ⟨nonempty,
      (isTrusted_iff _ _).mpr ⟨row, present, rfl, active⟩, sigHex, signed, some_sig, accepted⟩
  · intro unusable key member manifest pubkey named decoded accepted
    obtain ⟨_, trusted, sigHex, signed, some_sig, verified⟩ := (verifyManifest_ok_iff named).mp accepted
    obtain ⟨row, present, rfl, active⟩ := (isTrusted_iff _ _).mp trusted
    exact unusable key member row present active decoded
      ⟨manifest, sigHex, named, signed, some_sig, verified⟩

theorem mem_revokeCompositor (registry : TrustRegistry) (pubkey reason : String) (nowNs : Int)
    (row : TrustedCompositor) :
    row ∈ (registry.revokeCompositor pubkey reason nowNs).rows ∧ row.revoked = false ↔
      row ∈ registry.rows ∧ row.revoked = false ∧ row.pubkey ≠ pubkey := by
  simp only [revokeCompositor, Table.update, List.mem_map]
  constructor
  · rintro ⟨⟨old, present, rfl⟩, active⟩
    by_cases named : old.pubkey = pubkey
    · simp [named] at active
    · simp only [named, decide_false, Bool.false_eq_true, if_false] at active ⊢
      exact ⟨present, active, named⟩
  · rintro ⟨present, active, other⟩
    exact ⟨⟨row, present, by simp [other]⟩, active⟩

theorem mem_add (registry : TrustRegistry) (pubkey peerIp gyzaVersion notes : String) (nowNs : Int)
    {row : TrustedCompositor}
    (member : row ∈ (registry.apply (.add pubkey peerIp gyzaVersion notes nowNs)).rows) :
    row.pubkey = pubkey ∨ row ∈ registry.rows := by
  cases added : addTrustedCompositor registry pubkey peerIp gyzaVersion notes nowNs with
  | error raised =>
      simp only [apply, added, Except.toOption, Option.getD] at member
      exact Or.inr member
  | ok after =>
      simp only [apply, added, Except.toOption, Option.getD] at member
      exact addTrustedCompositor_row added member

theorem Tracked.step_rejects_iff (tracked : Tracked) (call : TrustCall)
    (rejects : tracked.Rejects crypto python) :
    (tracked.step call).Rejects crypto python ↔ OnlySpelling crypto python tracked call := by
  rw [Tracked.rejects_iff] at rejects ⊢
  cases call with
  | add pubkey peerIp gyzaVersion notes nowNs =>
      refine iff_of_true ?_ trivial
      intro key member row present active decoded
      obtain ⟨pulled, other⟩ := List.mem_filter.mp member
      rcases mem_add tracked.registry pubkey peerIp gyzaVersion notes nowNs present with same | old
      · rw [same] at decoded
        simp [decoded] at other
      · exact rejects key pulled row old active decoded
  | revoke pubkey reason nowNs =>
      have rows := mem_revokeCompositor tracked.registry pubkey reason nowNs
      constructor
      · intro after row present active other key spelled decoded
        have kept := (rows row).mpr ⟨present, active, other⟩
        exact after key (by simp [step, decoded]) row kept.1 active spelled
      · intro only key member row present active decoded
        obtain ⟨old, _, other⟩ := (rows row).mp ⟨present, active⟩
        rcases List.mem_append.mp member with now | before
        · exact only row old active other key decoded (by simpa using now)
        · exact rejects key before row old active decoded

/-- Revoked keys stay rejected in every spelling exactly when no revocation leaves
another usable spelling of its key behind. -/
theorem revoked_keys_rejected_iff (crypto : Crypto) (python : Audit.Python)
    (calls : List TrustCall) :
    (∀ front back, calls = front ++ back →
      (Run.run Tracked.step Tracked.start front).Rejects crypto python) ↔
      Run.Admissible Tracked.step (OnlySpelling crypto python) Tracked.start calls :=
  Run.invariant_iff_admissible Tracked.step (OnlySpelling crypto python)
    (Tracked.Rejects crypto python)
    (fun tracked call rejects => tracked.step_rejects_iff call rejects) Tracked.start calls
    (fun _ member => absurd member List.not_mem_nil)

/-- Whoever holds a key can sign a manifest under each of its spellings. -/
theorem signable_of_key (key : LocalCompositor crypto) {pubkey : String}
    (decoded : Hex.fromhex pubkey = some key.publicBytes) : Signable crypto python pubkey := by
  have digest : ∀ sigHex, ∃ payload, manifestPayloadHash crypto python
      [("compositor_pubkey", .str pubkey), ("signature", .str sigHex)] = some payload ∧
        ∀ other, manifestPayloadHash crypto python
          [("compositor_pubkey", .str pubkey), ("signature", .str other)] = some payload :=
    fun _ => ⟨_, rfl, fun _ => rfl⟩
  obtain ⟨payload, _, same⟩ := digest ""
  refine ⟨[("compositor_pubkey", .str pubkey), ("signature", .str (key.sign payload))],
    key.sign payload, rfl, rfl, key.sign_ne_empty payload, ?_⟩
  have sig : Hex.fromhex (key.sign payload) = some (key.signBytes payload) := Hex.fromhex_encode _
  simp [checkManifestSignature, decoded, sig, key.publicBytes_length, same, key.signBytes_verifies]

end TrustRegistry

namespace Sample

open TrustRegistry

/-- One key is added in two spellings, and revoked in one. -/
def respelledRevocation : List TrustCall :=
  [.add validator.pubkeyHex "" "" "" 1, .add keyInUpperCase "" "" "" 2,
    .revoke validator.pubkeyHex "compromised" 3]

end Sample

theorem TrustRegistry.revoked_key_accepted :
    ¬(Run.run Tracked.step Tracked.start Sample.respelledRevocation).Rejects Sample.crypto
      Sample.python := by
  have trusted : (Run.run Tracked.step Tracked.start Sample.respelledRevocation).registry.isTrusted
      Sample.keyInUpperCase = true := by
    decide +kernel
  have pulled : Sample.validator.publicBytes ∈
      (Run.run Tracked.step Tracked.start Sample.respelledRevocation).pulled := by
    decide +kernel
  obtain ⟨row, present, spelled, active⟩ := (isTrusted_iff _ _).mp trusted
  have decoded : Hex.fromhex row.pubkey = some Sample.validator.publicBytes := by
    rw [spelled]
    exact Sample.fromhex_upperCase
  intro rejects
  exact (Tracked.rejects_iff _).mp rejects _ pulled row present active decoded
    (signable_of_key Sample.validator decoded)

end Gyza
