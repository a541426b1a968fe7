import Gyza.Challenge

/-! The window in which a validator accepts a proposed attestation body.

`verifyProposedAttestationBody` subtracts and negates `int64` timestamps. Both wrap, so a
body far in the past can pass every comparison. -/

namespace Gyza

/-- The window over the integers. -/
structure PlausibleBody (body : GoAttestationBody) (nowNs : Int) : Prop where
  skew : |body.issuedAtNs - nowNs| ≤ maxAttestationClockSkew
  begins : 0 < body.expiresAtNs - body.issuedAtNs
  lifetime : body.expiresAtNs - body.issuedAtNs ≤ maxAttestationTTL
  lives : nowNs < body.expiresAtNs

/-- The comparisons in which nothing wraps. -/
structure PlainChecks (body : GoAttestationBody) (challenge : GoChallengeBody) (nowNs : Int) :
    Prop where
  applicant : body.applicantPubkey = challenge.applicantPubkey
  tier : body.tierGranted = issuedTier
  lives : nowNs < body.expiresAtNs
  taskIds : body.challengeTaskIds = challenge.taskIds

/-- The timestamps whose difference or negation leaves `int64` and comes back small. -/
def WindowWraps (body : GoAttestationBody) (nowNs : Int) : Prop :=
  body.issuedAtNs - nowNs = -2 ^ 63 ∨
    body.issuedAtNs - nowNs ≤ maxAttestationClockSkew - 2 ^ 64 ∨
    (|body.issuedAtNs - nowNs| ≤ maxAttestationClockSkew ∧
      2 ^ 63 ≤ body.expiresAtNs - body.issuedAtNs)

theorem goInt64_wraps (value : Int) :
    ∃ turns : Int, goInt64 value = value - 2 ^ 64 * turns ∧ -2 ^ 63 ≤ goInt64 value ∧
      goInt64 value < 2 ^ 63 := by
  obtain ⟨turns, same⟩ : (2 ^ 64 : Int) ∣ value - goInt64 value := Int.dvd_self_sub_bmod
  have lower : -((2 ^ 64 : Nat) / 2 : Int) ≤ goInt64 value := Int.le_bmod (by norm_num)
  have upper : goInt64 value < ((2 ^ 64 : Nat) + 1) / 2 := Int.bmod_lt (by norm_num)
  norm_num at lower upper
  exact ⟨turns, by omega, by omega, by omega⟩

/-- The absolute value as the code computes it. -/
def goAbs (difference : Int) : Int := if difference < 0 then goInt64 (-difference) else difference

theorem proposedBody_ok_iff (body : GoAttestationBody) (challenge : GoChallengeBody) (nowNs : Int) :
    verifyProposedAttestationBody body challenge nowNs = .ok () ↔
      PlainChecks body challenge nowNs ∧ body.issuedAtNs < body.expiresAtNs ∧
        goAbs (goInt64 (body.issuedAtNs - nowNs)) ≤ maxAttestationClockSkew ∧
        goInt64 (body.expiresAtNs - body.issuedAtNs) ≤ maxAttestationTTL := by
  simp only [verifyProposedAttestationBody, Checks.bind_ok_iff, Checks.demand_ok_iff, exists_const]
  constructor
  · intro accepted
    rcases accepted with ⟨applicant, tier, skew, order, lifetime, lives, taskIds⟩
    exact ⟨⟨applicant, tier, lives, taskIds⟩, order, skew, lifetime⟩
  · intro accepted
    rcases accepted with ⟨⟨applicant, tier, lives, taskIds⟩, order, skew, lifetime⟩
    exact ⟨applicant, tier, skew, order, lifetime, lives, taskIds⟩

section Window

variable {issued expires now : Int}

/-- A skew passes the check exactly if it is small, or wraps to a small one. -/
theorem skew_passes_iff (issuedFits : FitsInt64 issued) (nowFits : FitsInt64 now) (after : 0 ≤ now) :
    goAbs (goInt64 (issued - now)) ≤ maxAttestationClockSkew ↔
      |issued - now| ≤ maxAttestationClockSkew ∨ issued - now = -2 ^ 63 ∨
        issued - now ≤ maxAttestationClockSkew - 2 ^ 64 := by
  unfold FitsInt64 at issuedFits nowFits
  rcases goInt64_wraps (issued - now) with ⟨turns, wrapped, low, high⟩
  rcases goInt64_wraps (-goInt64 (issued - now)) with ⟨again, negated, low', high'⟩
  rw [goAbs, abs_le, maxAttestationClockSkew]
  split_ifs with negative
  · omega
  · omega

theorem lifetime_passes (issuedFits : FitsInt64 issued) (expiresFits : FitsInt64 expires)
    (long : 2 ^ 63 ≤ expires - issued) :
    goInt64 (expires - issued) ≤ maxAttestationTTL := by
  unfold FitsInt64 at issuedFits expiresFits
  rcases goInt64_wraps (expires - issued) with ⟨turns, wrapped, low, high⟩
  rw [maxAttestationTTL]
  omega

theorem lifetime_exact (order : issued < expires) (short : expires - issued < 2 ^ 63) :
    goInt64 (expires - issued) = expires - issued := by
  rcases goInt64_wraps (expires - issued) with ⟨turns, wrapped, low, high⟩
  omega

end Window

/-- A wrapped body passes the checks that its timestamps are compared in. -/
theorem WindowWraps.passes {body : GoAttestationBody} {challenge : GoChallengeBody} {nowNs : Int}
    (issuedFits : FitsInt64 body.issuedAtNs) (expiresFits : FitsInt64 body.expiresAtNs)
    (nowFits : FitsInt64 nowNs) (after : 0 ≤ nowNs) (plain : PlainChecks body challenge nowNs)
    (wraps : WindowWraps body nowNs) :
    verifyProposedAttestationBody body challenge nowNs = .ok () ∧ ¬PlausibleBody body nowNs := by
  have lives := plain.lives
  have skew : goAbs (goInt64 (body.issuedAtNs - nowNs)) ≤ maxAttestationClockSkew := by
    rw [skew_passes_iff issuedFits nowFits after]
    rcases wraps with least | far | near
    · exact Or.inr (Or.inl least)
    · exact Or.inr (Or.inr far)
    · exact Or.inl near.1
  have long : 2 ^ 63 ≤ body.expiresAtNs - body.issuedAtNs := by
    rcases wraps with least | far | near
    · omega
    · unfold maxAttestationClockSkew at far
      omega
    · exact near.2
  have order : body.issuedAtNs < body.expiresAtNs := by omega
  refine ⟨(proposedBody_ok_iff body challenge nowNs).mpr
    ⟨plain, order, skew, lifetime_passes issuedFits expiresFits long⟩, ?_⟩
  intro within
  have lifetime := within.lifetime
  unfold maxAttestationTTL at lifetime
  omega

/-- What the validator accepts lies in the window exactly when no timestamp arithmetic that
decides the comparisons wraps. -/
theorem plausibility_exact_iff (body : GoAttestationBody) (challenge : GoChallengeBody) (nowNs : Int)
    (issuedFits : FitsInt64 body.issuedAtNs) (expiresFits : FitsInt64 body.expiresAtNs)
    (nowFits : FitsInt64 nowNs) (after : 0 ≤ nowNs) :
    (verifyProposedAttestationBody body challenge nowNs = .ok () → PlausibleBody body nowNs) ↔
      ¬(PlainChecks body challenge nowNs ∧ WindowWraps body nowNs) := by
  constructor
  · intro exact wrapped
    rcases wrapped.2.passes issuedFits expiresFits nowFits after wrapped.1 with ⟨accepted, outside⟩
    exact outside (exact accepted)
  · intro unwrapped accepted
    rcases (proposedBody_ok_iff body challenge nowNs).mp accepted with ⟨plain, order, skew, lifetime⟩
    have inside : ¬WindowWraps body nowNs := fun wraps => unwrapped ⟨plain, wraps⟩
    unfold WindowWraps at inside
    push Not at inside
    rcases inside with ⟨least, far, near⟩
    rw [skew_passes_iff issuedFits nowFits after] at skew
    have close : |body.issuedAtNs - nowNs| ≤ maxAttestationClockSkew := by
      rcases skew with close | wrapped | wrapped
      · exact close
      · exact absurd wrapped least
      · exact absurd wrapped (not_le.mpr far)
    rw [lifetime_exact order (near close)] at lifetime
    exact ⟨close, by omega, lifetime, plain.lives⟩

namespace Sample

/-- A proposal of the year 1732 that lives until 2262. -/
def oldBody : GoAttestationBody :=
  ⟨"a1", 1700000000000000000 - 2 ^ 63, 2 ^ 63 - 1, issuedTier, ["t"]⟩

def freshBody : GoAttestationBody :=
  ⟨"a1", 1700000000000000000, 1700000000000000000 + defaultAttestationTTL, issuedTier, ["t"]⟩

def plausibleChallenge : GoChallengeBody :=
  ⟨"c1", "a1", ["t"], [], 1700000000000000000, 1700000060000000000⟩

end Sample

theorem plausibility_exact_sample :
    verifyProposedAttestationBody Sample.freshBody Sample.plausibleChallenge 1700000000000000000 =
        .ok () ∧ PlausibleBody Sample.freshBody 1700000000000000000 := by
  have accepted : verifyProposedAttestationBody Sample.freshBody Sample.plausibleChallenge
      1700000000000000000 = .ok () := by decide +kernel
  have unwrapped : ¬WindowWraps Sample.freshBody 1700000000000000000 := by
    unfold WindowWraps
    decide +kernel
  exact ⟨accepted, (plausibility_exact_iff Sample.freshBody Sample.plausibleChallenge
    1700000000000000000 (by decide) (by decide) (by decide) (by decide)).mpr
      (fun wrapped => unwrapped wrapped.2) accepted⟩

theorem old_body_accepted :
    verifyProposedAttestationBody Sample.oldBody Sample.plausibleChallenge 1700000000000000000 =
        .ok () ∧ ¬PlausibleBody Sample.oldBody 1700000000000000000 := by
  have accepted : verifyProposedAttestationBody Sample.oldBody Sample.plausibleChallenge
      1700000000000000000 = .ok () := by decide +kernel
  refine ⟨accepted, ?_⟩
  intro within
  exact absurd within.lifetime (by decide +kernel)

end Gyza
