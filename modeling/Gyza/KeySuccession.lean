import Gyza.GuardConfig

/-! Runs of `rotate_authority`: what the succession chain lets an auditor conclude. -/

namespace Gyza

open CanonJson (Doc)
open Hex (Bytes utf8)
open PyNumber (FloatFormat)

namespace Guard

variable {φ : Type}

section Chain

variable (crypto : Crypto) (format : FloatFormat φ)

/-- The record attaches to the key `outgoing`, is signed by it, and installs `successor`. -/
structure Succeeds (outgoing : Bytes) (entry : KeySuccession × String) (successor : Bytes) :
    Prop where
  signed : verifySuccession crypto format entry.1 entry.2 outgoing = true
  attached : entry.1.oldPubkeyHex = Hex.encode outgoing
  installed : Hex.fromhex entry.1.newPubkeyHex = some successor
  length : successor.length = 32
  changed : successor ≠ outgoing

/-- The chain leads from the key `genesis` to the key `authority`. -/
def Walks : Bytes → List (KeySuccession × String) → Bytes → Prop
  | genesis, [], authority => authority = genesis
  | genesis, entry :: rest, authority =>
      ∃ successor, Succeeds crypto format genesis entry successor ∧ Walks successor rest authority

/-- What an auditor can rely on. -/
def Walkable (store : GuardConfigStore φ) : Prop :=
  Walks crypto format store.genesisAuthority store.successions store.authority

/-- A call that raises leaves the store as it was. -/
def Atomic (store : GuardConfigStore φ) (call : KeySuccession × String) : Prop :=
  (rotateAuthority crypto format store call.1 call.2).2 ≠ none →
    (rotateAuthority crypto format store call.1 call.2).1 = store

/-- The three refusals do not apply. -/
def Accepted (store : GuardConfigStore φ) (call : KeySuccession × String) : Prop :=
  verifySuccession crypto format call.1 call.2 store.authority = true ∧
    call.1.oldPubkeyHex = Hex.encode store.authority ∧
    call.1.newPubkeyHex ≠ Hex.encode store.authority

/-- A record that is not refused spells another 32-byte key. -/
def NamesKey (store : GuardConfigStore φ) (call : KeySuccession × String) : Prop :=
  Accepted crypto format store call → ∃ successor,
    Hex.fromhex call.1.newPubkeyHex = some successor ∧ successor.length = 32 ∧
      successor ≠ store.authority

def rotate (store : GuardConfigStore φ) (call : KeySuccession × String) : GuardConfigStore φ :=
  (rotateAuthority crypto format store call.1 call.2).1

/-- A store before its first succession. -/
def pinnedStore (genesis : Bytes) (cfg : Option (VerifiedGuardConfig φ)) : GuardConfigStore φ :=
  { authority := genesis, genesisAuthority := genesis, cfg := cfg }

variable {crypto format}

theorem walks_append (genesis : Bytes) (chain : List (KeySuccession × String))
    (entry : KeySuccession × String) (authority : Bytes) :
    Walks crypto format genesis (chain ++ [entry]) authority ↔
      ∃ outgoing, Walks crypto format genesis chain outgoing ∧
        Succeeds crypto format outgoing entry authority := by
  induction chain generalizing genesis with
  | nil =>
      simp only [List.nil_append, Walks, exists_eq_left]
      constructor
      · intro ⟨successor, succeeds, same⟩
        exact same ▸ succeeds
      · intro succeeds
        exact ⟨authority, succeeds, rfl⟩
  | cons first rest ih =>
      simp only [List.cons_append, Walks, ih]
      constructor
      · intro ⟨successor, succeeds, outgoing, walks, last⟩
        exact ⟨outgoing, ⟨successor, succeeds, walks⟩, last⟩
      · intro ⟨outgoing, ⟨successor, succeeds, walks⟩, last⟩
        exact ⟨successor, succeeds, outgoing, walks, last⟩

/-- A chain leads to one key only. -/
theorem walks_unique {genesis authority other : Bytes} {chain : List (KeySuccession × String)}
    (walks : Walks crypto format genesis chain authority)
    (walks' : Walks crypto format genesis chain other) : authority = other := by
  induction chain generalizing genesis with
  | nil => exact walks.trans walks'.symm
  | cons entry rest ih =>
      rcases walks with ⟨successor, succeeds, tail⟩
      rcases walks' with ⟨successor', succeeds', tail'⟩
      have same : successor = successor' :=
        Option.some.inj (succeeds.installed.symm.trans succeeds'.installed)
      subst same
      exact ih tail tail'

/-- A call that is refused by one of the three checks changes nothing. -/
theorem rotateAuthority_refused {store : GuardConfigStore φ} {call : KeySuccession × String}
    (refused : ¬Accepted crypto format store call) :
    (rotateAuthority crypto format store call.1 call.2).1 = store := by
  unfold rotateAuthority
  split_ifs with unsigned unattached unchanged
  · rfl
  · rfl
  · rfl
  · rw [Bool.not_eq_false] at unsigned
    exact absurd ⟨unsigned, not_not.mp unattached, unchanged⟩ refused

theorem rotateAuthority_accepted {store : GuardConfigStore φ} {call : KeySuccession × String}
    (accepted : Accepted crypto format store call) :
    match Hex.fromhex call.1.newPubkeyHex with
    | none => rotateAuthority crypto format store call.1 call.2 =
        ({ store with successions := store.successions ++ [call] }, some .valueError)
    | some successor => (rotateAuthority crypto format store call.1 call.2).2 = none ∧
        (rotateAuthority crypto format store call.1 call.2).1.successions =
          store.successions ++ [call] ∧
        (rotateAuthority crypto format store call.1 call.2).1.authority = successor ∧
        (rotateAuthority crypto format store call.1 call.2).1.genesisAuthority =
          store.genesisAuthority := by
  rcases accepted with ⟨signed, attached, changed⟩
  rw [rotateAuthority, if_neg (by simp [signed]), if_neg (not_not.mpr attached), if_neg changed]
  cases Hex.fromhex call.1.newPubkeyHex with
  | none => rfl
  | some successor => exact ⟨rfl, rfl, rfl, rfl⟩

theorem rotate_walkable_iff (store : GuardConfigStore φ) (call : KeySuccession × String)
    (walkable : Walkable crypto format store) :
    Atomic crypto format store call ∧ Walkable crypto format (rotate crypto format store call) ↔
      NamesKey crypto format store call := by
  by_cases accepted : Accepted crypto format store call
  · have outcome := rotateAuthority_accepted accepted
    cases spelled : Hex.fromhex call.1.newPubkeyHex with
    | none =>
        rw [spelled] at outcome
        constructor
        · intro ⟨atomic, _⟩
          have unchanged := atomic (by simp [outcome])
          rw [outcome] at unchanged
          have longer := congrArg (fun next => next.successions.length) unchanged
          simp at longer
        · intro names
          rcases names accepted with ⟨successor, decoded, _⟩
          rw [spelled] at decoded
          cases decoded
    | some successor =>
        rw [spelled] at outcome
        rcases outcome with ⟨returned, successions, authority, genesis⟩
        have extended : Walkable crypto format (rotate crypto format store call) ↔
            ∃ outgoing, Walks crypto format store.genesisAuthority store.successions outgoing ∧
              Succeeds crypto format outgoing call successor := by
          rw [Walkable, rotate, successions, authority, genesis, walks_append]
        rw [extended]
        constructor
        · intro ⟨_, outgoing, walks, succeeds⟩ _
          have same := walks_unique walks walkable
          exact ⟨successor, spelled, succeeds.length, same ▸ succeeds.changed⟩
        · intro names
          rcases names accepted with ⟨successor', decoded, length, changed⟩
          cases spelled.symm.trans decoded
          refine ⟨fun raised => absurd returned raised, store.authority, walkable, ?_⟩
          exact ⟨accepted.1, accepted.2.1, spelled, length, changed⟩
  · have unchanged := rotateAuthority_refused accepted
    constructor
    · intro _ accepted'
      exact absurd accepted' accepted
    · intro _
      refine ⟨fun _ => unchanged, ?_⟩
      rw [rotate, unchanged]
      exact walkable

/-- Over any calls on a store pinned to `genesis`: every call is atomic and leaves a
walkable chain exactly when every accepted record spells another 32-byte key. -/
theorem succession_walkable_iff (crypto : Crypto) (format : FloatFormat φ) (genesis : Bytes)
    (cfg : Option (VerifiedGuardConfig φ)) (calls : List (KeySuccession × String)) :
    (∀ front call back, calls = front ++ call :: back →
      Atomic crypto format (Run.run (rotate crypto format) (pinnedStore genesis cfg) front) call ∧
        Walkable crypto format
          (Run.run (rotate crypto format) (pinnedStore genesis cfg) (front ++ [call]))) ↔
      Run.Admissible (rotate crypto format) (NamesKey crypto format) (pinnedStore genesis cfg)
        calls :=
  Run.fine_iff_admissible (rotate crypto format) (NamesKey crypto format) (Atomic crypto format)
    (Walkable crypto format) rotate_walkable_iff (pinnedStore genesis cfg) calls rfl

end Chain

end Guard

namespace Sample

/-- The incumbent names a successor that is not hexadecimal. -/
def misspelled : Guard.KeySuccession where
  oldPubkeyHex := (compositor 1).pubkeyHex
  newPubkeyHex := "not a key"
  atNs := 1000
  reason := "scheduled"

end Sample

open Guard in
/-- The call raises, and the chain has grown by the record that names no key. -/
theorem rotation_not_atomic :
    ¬Atomic Sample.crypto PyNumber.wholeFormat (pinnedStore (Sample.compositor 1).publicBytes none)
      (Sample.misspelled,
        signSuccession Sample.crypto PyNumber.wholeFormat (Sample.compositor 1) Sample.misspelled) := by
  intro atomic
  have accepted : Accepted Sample.crypto PyNumber.wholeFormat
      (pinnedStore (Sample.compositor 1).publicBytes none)
      (Sample.misspelled,
        signSuccession Sample.crypto PyNumber.wholeFormat (Sample.compositor 1) Sample.misspelled) :=
    ⟨verifySuccession_sign _ _ _, rfl, by decide⟩
  have outcome := rotateAuthority_accepted accepted
  have unchanged := atomic (by rw [outcome]; simp)
  rw [outcome] at unchanged
  cases congrArg GuardConfigStore.successions unchanged

end Gyza
