import Gyza.LedgerStore
import Gyza.Lib.Delimited

/-! What the two signatures of a ledger entry commit to. -/

namespace Gyza

open Hex (Bytes utf8)
open Delimited (HasSegment join4)

/-- The joined text of `canonical_sign_bytes`, as characters. -/
def signChars (entry : LedgerEntry) (amount : String) (role : Role) : List Char :=
  join4 '|' entry.entryId.toList amount.toList entry.workItemId.toList
    entry.icpEnvelopeHash.toList ++ '|' :: role.text.toList

theorem signPreimage_eq (entry : LedgerEntry) (role : Role) :
    signPreimage entry role = (signableText entry.amountCredits).map
      (fun amount => utf8 (String.ofList (signChars entry amount role))) := by
  simp only [signPreimage, bind, Except.bind, pure, Except.pure, Except.map]
  cases signableText entry.amountCredits with
  | error error => rfl
  | ok amount =>
      simp [signParts, signChars, join4, utf8, List.intercalate, List.intersperse]

theorem signPreimage_ok {entry : LedgerEntry} {role : Role} {preimage : Bytes} :
    signPreimage entry role = .ok preimage ↔ ∃ amount,
      signableText entry.amountCredits = .ok amount ∧
        preimage = utf8 (String.ofList (signChars entry amount role)) := by
  rw [signPreimage_eq]
  cases signableText entry.amountCredits with
  | error error => simp [Except.map]
  | ok amount => simp [Except.map, eq_comm]

theorem signableText_no_bar {amount : Amount} {text : String}
    (signable : signableText amount = .ok text) : '|' ∉ text.toList := by
  simp only [signableText, amountCanonical, bind, Except.bind, pure, Except.pure] at signable
  cases checked : requireSignableAmount amount with
  | error error => simp [checked] at signable
  | ok _ =>
      cases converted : amount.toFloat with
      | error error => simp [checked, converted] at signable
      | ok value =>
          simp only [checked, converted, Except.ok.injEq] at signable
          subst signable
          exact Decimal.fixed6_no_bar value

theorem roleText_no_bar (role : Role) : '|' ∉ role.text.toList := by
  cases role <;> decide

theorem roleText_injective {role role' : Role} (same : role.text = role'.text) : role = role' := by
  cases role <;> cases role' <;> first | rfl | exact absurd same (by decide)

/-- The spelling of some amount that may be signed. -/
def AmountSpelling (text : List Char) : Prop :=
  ∃ amount, signableText amount = .ok (String.ofList text)

/-- The entry's joined bytes can be read back in one way: no `|` in the work
item or the envelope hash, and no later `|`-segment of the entry id that spells
an amount. -/
def PreimageUnambiguous (entry : LedgerEntry) : Prop :=
  '|' ∉ entry.workItemId.toList ∧ '|' ∉ entry.icpEnvelopeHash.toList ∧
    ¬ HasSegment '|' AmountSpelling entry.entryId.toList

structure SameSignedFields (entry other : LedgerEntry) : Prop where
  entryId : entry.entryId = other.entryId
  amount : signableText entry.amountCredits = signableText other.amountCredits
  workItemId : entry.workItemId = other.workItemId
  icpEnvelopeHash : entry.icpEnvelopeHash = other.icpEnvelopeHash

/-- The role is always recovered from the joined bytes. -/
private theorem signChars_role {entry other : LedgerEntry} {amount amount' : String}
    {role role' : Role}
    (same : signChars entry amount role = signChars other amount' role') :
    role = role' ∧
      join4 '|' entry.entryId.toList amount.toList entry.workItemId.toList
          entry.icpEnvelopeHash.toList =
        join4 '|' other.entryId.toList amount'.toList other.workItemId.toList
          other.icpEnvelopeHash.toList := by
  rcases Delimited.split_at_clean (roleText_no_bar role) (roleText_no_bar role') same with
    ⟨front, tail⟩
  exact ⟨roleText_injective (String.toList_injective tail), front⟩

private theorem preimage_chars {entry other : LedgerEntry} {amount amount' : String}
    {role role' : Role}
    (same : utf8 (String.ofList (signChars entry amount role)) =
      utf8 (String.ofList (signChars other amount' role'))) :
    signChars entry amount role = signChars other amount' role' := by
  have texts := congrArg String.toList (Hex.utf8_injective same)
  simpa using texts

def sampleEntry : LedgerEntry where
  entryId := "entry-1"
  fromCompositor := ""
  toCompositor := ""
  amountCredits := .real 10.0
  workItemId := "work-1"
  icpEnvelopeHash := "ab12"
  modelIdentifier := "mock"
  tokensOut := 100
  durationMs := 2000
  createdAtNs := 1000

/-- One entry's joined bytes identify its role and signed fields exactly when
they have a single reading. -/
theorem signPreimage_identifies_iff (entry : LedgerEntry) (role : Role) (preimage : Bytes)
    (signable : signPreimage entry role = .ok preimage) :
    (∀ other otherRole, signPreimage other otherRole = .ok preimage →
        role = otherRole ∧ SameSignedFields entry other) ↔
      PreimageUnambiguous entry := by
  rcases signPreimage_ok.mp signable with ⟨amount, text, bytes⟩
  -- the variable stands on the right, so that nothing is evaluated to find it
  replace bytes := bytes.symm
  subst bytes
  have spelled : AmountSpelling amount.toList := ⟨entry.amountCredits, by simpa using text⟩
  constructor
  · intro identifies
    by_contra ambiguous
    have mixed : '|' ∈ entry.workItemId.toList ∨ '|' ∈ entry.icpEnvelopeHash.toList ∨
        HasSegment '|' AmountSpelling entry.entryId.toList := by
      by_contra clean
      push Not at clean
      exact ambiguous ⟨clean.1, clean.2.1, clean.2.2⟩
    rcases Delimited.join4_ambiguous spelled mixed with
      ⟨first, second, third, fourth, ⟨value, valueText⟩, joined, differs⟩
    let other : LedgerEntry := { entry with
      entryId := String.ofList first
      amountCredits := value
      workItemId := String.ofList third
      icpEnvelopeHash := String.ofList fourth }
    have read : signPreimage other role =
        .ok (utf8 (String.ofList (signChars entry amount role))) := by
      refine signPreimage_ok.mpr ⟨String.ofList second, valueText, ?_⟩
      simp only [signChars, other, String.toList_ofList, joined]
    rcases identifies other role read with ⟨_, fields⟩
    rcases differs with entryId | workItem
    · apply entryId
      rw [fields.entryId]
      exact String.toList_ofList
    · apply workItem
      rw [fields.workItemId]
      exact String.toList_ofList
  · intro ⟨cleanWork, cleanHash, plain⟩ other otherRole read
    rcases signPreimage_ok.mp read with ⟨amount', text', same⟩
    rcases signChars_role (preimage_chars same) with ⟨roles, joined⟩
    have spelled' : AmountSpelling amount'.toList := ⟨other.amountCredits, by simpa using text'⟩
    rcases Delimited.join4_unique cleanWork cleanHash plain
      (signableText_no_bar text) (signableText_no_bar text') spelled' joined with
      ⟨ids, amounts, works, hashes⟩
    refine ⟨roles, String.toList_injective ids, ?_, String.toList_injective works,
      String.toList_injective hashes⟩
    rw [text, text', String.toList_injective amounts]

theorem signPreimage_identifies_sample :
    PreimageUnambiguous sampleEntry ∧ ∀ other otherRole,
      signPreimage other otherRole = signPreimage sampleEntry .payer →
        Role.payer = otherRole ∧ SameSignedFields sampleEntry other := by
  have clean : PreimageUnambiguous sampleEntry := by
    refine ⟨by decide, by decide, ?_⟩
    intro segment
    exact absurd (Delimited.mem_of_hasSegment segment) (by decide)
  have text : signableText sampleEntry.amountCredits = .ok "10.000000" := by decide +kernel
  have signable : signPreimage sampleEntry .payer =
      .ok (utf8 (String.ofList (signChars sampleEntry "10.000000" .payer))) :=
    signPreimage_ok.mpr ⟨_, text, rfl⟩
  refine ⟨clean, ?_⟩
  rw [signable]
  exact (signPreimage_identifies_iff sampleEntry .payer _ signable).mpr clean

def barInWorkItem : LedgerEntry := { sampleEntry with workItemId := "w|x", icpEnvelopeHash := "h" }

def barInEnvelopeHash : LedgerEntry :=
  { sampleEntry with workItemId := "w", icpEnvelopeHash := "x|h" }

/-- A `|` moved from the work item to the envelope hash leaves the bytes as they are. -/
theorem signPreimage_ambiguous :
    ¬ ∀ (entry other : LedgerEntry) (role otherRole : Role) (preimage : Bytes),
      signPreimage entry role = .ok preimage → signPreimage other otherRole = .ok preimage →
        role = otherRole ∧ SameSignedFields entry other := by
  intro identifies
  have signable : signableText sampleEntry.amountCredits = .ok "10.000000" := by decide +kernel
  have first : signPreimage barInWorkItem .payer =
      .ok (utf8 (String.ofList (signChars barInWorkItem "10.000000" .payer))) :=
    signPreimage_ok.mpr ⟨_, signable, rfl⟩
  have joined : signChars barInWorkItem "10.000000" .payer =
      signChars barInEnvelopeHash "10.000000" .payer := by decide
  have second : signPreimage barInEnvelopeHash .payer =
      .ok (utf8 (String.ofList (signChars barInWorkItem "10.000000" .payer))) :=
    signPreimage_ok.mpr ⟨_, signable, by rw [joined]⟩
  rcases identifies barInWorkItem barInEnvelopeHash .payer .payer _ first second with ⟨_, fields⟩
  exact absurd fields.workItemId (by decide)

/-! The Rust port (`gyza-settlement`) joins the same bytes, over an `f64` amount. -/

def rustSignInput (entry : LedgerEntry) (amount : Float) (role : Role) : Option Bytes :=
  if amount.isFinite = true ∧ 0 ≤ amount then
    some (utf8 entry.entryId ++ utf8 "|" ++ utf8 (Decimal.fixed6 amount) ++ utf8 "|" ++
      utf8 entry.workItemId ++ utf8 "|" ++ utf8 entry.icpEnvelopeHash ++ utf8 "|" ++
      utf8 role.text)
  else none

theorem rustSignInput_eq (entry : LedgerEntry) (amount : Float) (role : Role) :
    rustSignInput entry amount role =
      (signPreimage { entry with amountCredits := .real amount } role).toOption := by
  simp only [rustSignInput, signPreimage, signableText, requireSignableAmount, amountCanonical,
    Amount.toFloat, bind, Except.bind, pure, Except.pure]
  split_ifs with signable
  · simp [signParts, List.intercalate, List.intersperse, Except.toOption]
  · rfl

/-! Replacing one of the two parties of a signed entry. -/

def withEarner (entry : LedgerEntry) (toCompositor toSignature : String) : LedgerEntry :=
  { entry with toCompositor := toCompositor, toSignature := toSignature }

def withPayer (entry : LedgerEntry) (fromCompositor fromSignature : String) : LedgerEntry :=
  { entry with fromCompositor := fromCompositor, fromSignature := fromSignature }

section Counterparties

variable {crypto : Crypto}

theorem verifyEntry_withEarner {entry : LedgerEntry}
    (payer : RoleSigned crypto entry .payer entry.fromSignature entry.fromCompositor)
    (toCompositor toSignature : String) :
    verifyEntry crypto (withEarner entry toCompositor toSignature) = .ok none ↔
      RoleSigned crypto entry .earner toSignature toCompositor := by
  rw [verifyEntry_accepts]
  exact ⟨fun signed => signed.2, fun earner => ⟨payer, earner⟩⟩

theorem verifyEntry_withPayer {entry : LedgerEntry}
    (earner : RoleSigned crypto entry .earner entry.toSignature entry.toCompositor)
    (fromCompositor fromSignature : String) :
    verifyEntry crypto (withPayer entry fromCompositor fromSignature) = .ok none ↔
      RoleSigned crypto entry .payer fromSignature fromCompositor := by
  rw [verifyEntry_accepts]
  exact ⟨fun signed => signed.1, fun payer => ⟨payer, earner⟩⟩

/-- `entry` signed in both roles by the given parties. -/
def cosign (payer earner : LocalCompositor crypto) (entry : LedgerEntry) :
    Except AmountError LedgerEntry := do
  let payerDigest ← canonicalSignBytes crypto entry .payer
  let earnerDigest ← canonicalSignBytes crypto entry .earner
  pure { entry with
    fromCompositor := payer.pubkeyHex
    toCompositor := earner.pubkeyHex
    fromSignature := payer.sign payerDigest
    toSignature := earner.sign earnerDigest }

theorem cosign_ok (payer earner : LocalCompositor crypto) {entry : LedgerEntry} {amount : String}
    (signable : signableText entry.amountCredits = .ok amount) :
    ∃ signed, cosign payer earner entry = .ok signed ∧ verifyEntry crypto signed = .ok none ∧
      signed.fromCompositor = payer.pubkeyHex ∧ signed.toCompositor = earner.pubkeyHex := by
  have preimage : ∀ role, signPreimage entry role =
      .ok (utf8 (String.ofList (signChars entry amount role))) :=
    fun role => signPreimage_ok.mpr ⟨amount, signable, rfl⟩
  simp only [cosign, canonicalSignBytes_ok (preimage _), bind, Except.bind, pure, Except.pure]
  refine ⟨_, rfl, ?_, rfl, rfl⟩
  exact (verifyEntry_accepts _).mpr ⟨roleSigned_by_compositor payer (preimage .payer),
    roleSigned_by_compositor earner (preimage .earner)⟩

/-- A role's digest leaves out both keys, so any key holder can stand in for the
counterparty, and only by signing that digest. -/
theorem cosignature_counterparties (entry : LedgerEntry)
    (accepted : verifyEntry crypto entry = .ok none) :
    (∀ toCompositor toSignature,
      verifyEntry crypto (withEarner entry toCompositor toSignature) = .ok none ↔
        RoleSigned crypto entry .earner toSignature toCompositor) ∧
    (∀ fromCompositor fromSignature,
      verifyEntry crypto (withPayer entry fromCompositor fromSignature) = .ok none ↔
        RoleSigned crypto entry .payer fromSignature fromCompositor) ∧
    ∀ compositor : LocalCompositor crypto,
      (∃ toSignature,
        verifyEntry crypto (withEarner entry compositor.pubkeyHex toSignature) = .ok none) ∧
      ∃ fromSignature,
        verifyEntry crypto (withPayer entry compositor.pubkeyHex fromSignature) = .ok none := by
  rcases (verifyEntry_accepts entry).mp accepted with ⟨payer, earner⟩
  refine ⟨verifyEntry_withEarner payer, verifyEntry_withPayer earner, ?_⟩
  intro compositor
  rcases id payer with ⟨_, _, payerBytes, _, _, _, _, payerSignable, _⟩
  rcases id earner with ⟨_, _, earnerBytes, _, _, _, _, earnerSignable, _⟩
  constructor
  · exact ⟨_, (verifyEntry_withEarner payer _ _).mpr
      (roleSigned_by_compositor compositor earnerSignable)⟩
  · exact ⟨_, (verifyEntry_withPayer earner _ _).mpr
      (roleSigned_by_compositor compositor payerSignable)⟩

end Counterparties

theorem cosignature_counterparties_sample :
    ∃ entry, verifyEntry Sample.crypto entry = .ok none ∧ ∃ toSignature,
      verifyEntry Sample.crypto
        (withEarner entry (Sample.compositor 3).pubkeyHex toSignature) = .ok none := by
  rcases @cosign_ok Sample.crypto (Sample.compositor 1)
    (Sample.compositor 2) sampleEntry "10.000000" (by decide +kernel) with ⟨entry, _, accepted, _⟩
  exact ⟨entry, accepted,
    ((cosignature_counterparties entry accepted).2.2 (Sample.compositor 3)).1⟩

/-- A third key takes over either side of a debt between two others. -/
theorem counterparty_replaced :
    (¬ ∀ entry toCompositor toSignature, verifyEntry Sample.crypto entry = .ok none →
      Hex.fromhex toCompositor ≠ Hex.fromhex entry.toCompositor →
        verifyEntry Sample.crypto (withEarner entry toCompositor toSignature) ≠ .ok none) ∧
    ¬ ∀ entry fromCompositor fromSignature, verifyEntry Sample.crypto entry = .ok none →
      Hex.fromhex fromCompositor ≠ Hex.fromhex entry.fromCompositor →
        verifyEntry Sample.crypto (withPayer entry fromCompositor fromSignature) ≠ .ok none := by
  rcases @cosign_ok Sample.crypto
    (Sample.compositor 1) (Sample.compositor 2) sampleEntry "10.000000" (by decide +kernel) with
    ⟨entry, _, accepted, payerKey, earnerKey⟩
  rcases (verifyEntry_accepts entry).mp accepted with ⟨payer, earner⟩
  rcases id payer with ⟨_, _, _, _, _, _, _, payerSignable, _⟩
  rcases id earner with ⟨_, _, _, _, _, _, _, earnerSignable, _⟩
  constructor
  · intro named
    refine named entry (Sample.compositor 3).pubkeyHex _ accepted ?_
      ((verifyEntry_withEarner payer _ _).mpr
        (roleSigned_by_compositor (Sample.compositor 3) earnerSignable))
    rw [earnerKey]
    decide
  · intro named
    refine named entry (Sample.compositor 3).pubkeyHex _ accepted ?_
      ((verifyEntry_withPayer earner _ _).mpr
        (roleSigned_by_compositor (Sample.compositor 3) payerSignable))
    rw [payerKey]
    decide

end Gyza
