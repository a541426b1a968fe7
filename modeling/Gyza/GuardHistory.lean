import Gyza.GuardRuns

/-! Several guard processes on one history file. Each reading of the file and
each appended line is one step; between them any other process may take its own. -/

namespace Gyza

open CanonJson (Doc)
open Hex (Bytes utf8)
open PyNumber (FloatFormat)

namespace Guard

variable {φ : Type}

/-- Where a process stands within `_install`. -/
inductive Phase (φ : Type) where
  | idle
  /-- No bounds were recorded: `_version_floor` is called once more. -/
  | rereading (cfg : VerifiedGuardConfig φ)
  /-- The configuration is set; `_record_install` has not read the file yet. -/
  | recording (cfg : VerifiedGuardConfig φ)
  /-- `_record_install` has read these lines. -/
  | appending (cfg : VerifiedGuardConfig φ) (lines : List (HistoryRecord φ))

structure Process (φ : Type) where
  store : GuardConfigStore φ
  phase : Phase φ := .idle

structure SharedHistory (φ : Type) where
  processes : Nat → Process φ
  history : List (HistoryRecord φ) := []

inductive Action (φ : Type) where
  | install (p : Nat) (config : GuardConfig φ) (signatureHex : String)
  | reread (p : Nat)
  | readLast (p : Nat)
  | append (p : Nat) (now : Int)
  | rotateAuthority (p : Nat) (record : KeySuccession) (signatureHex : String)
  | restart (p : Nat) (authority : Bytes)

namespace SharedHistory

def set (shared : SharedHistory φ) (p : Nat) (process : Process φ) : SharedHistory φ :=
  { shared with processes := Function.update shared.processes p process }

section Steps

variable (crypto : Crypto) (format : FloatFormat φ)

/-- `_install` up to the configuration being set, or up to the second reading. -/
def startInstall (shared : SharedHistory φ) (process : Process φ) (config : GuardConfig φ)
    (signatureHex : String) : Process φ :=
  match vetInstall crypto format process.store shared.history config signatureHex false with
  | .error _ => process
  | .ok cfg =>
      match process.store.cfg, versionFloor crypto format shared.history with
      | none, .ok (_, none) => { process with phase := .rereading cfg }
      | _, _ => ⟨{ process.store with cfg := some cfg }, .recording cfg⟩

def step (shared : SharedHistory φ) : Action φ → SharedHistory φ
  | .install p config signatureHex =>
      match (shared.processes p).phase with
      | .idle =>
          shared.set p (startInstall crypto format shared (shared.processes p) config signatureHex)
      | _ => shared
  | .reread p =>
      match (shared.processes p).phase with
      | .rereading cfg =>
          match versionFloor crypto format shared.history with
          | .error _ => shared.set p { shared.processes p with phase := .idle }
          | .ok _ =>
              shared.set p ⟨{ (shared.processes p).store with cfg := some cfg }, .recording cfg⟩
      | _ => shared
  | .readLast p =>
      match (shared.processes p).phase with
      | .recording cfg =>
          shared.set p { shared.processes p with phase := .appending cfg shared.history }
      | _ => shared
  | .append p now =>
      match (shared.processes p).phase with
      | .appending cfg lines =>
          { shared.set p { shared.processes p with phase := .idle } with
            history := shared.history ++ [installRecord cfg (lastLink crypto format lines) now] }
      | _ => shared
  | .rotateAuthority p record signatureHex =>
      match (shared.processes p).phase with
      | .idle =>
          shared.set p { shared.processes p with
            store := (Guard.rotateAuthority crypto format (shared.processes p).store record
              signatureHex).1 }
      | _ => shared
  | .restart p authority => shared.set p ⟨freshStore authority, .idle⟩

/-- No process has started on anything, and there is no file. -/
def fresh (authorities : Nat → Bytes) : SharedHistory φ := ⟨fun p => ⟨freshStore (authorities p), .idle⟩, []⟩

/-- The chain check of `_version_floor`. -/
def ChainVerifies (shared : SharedHistory φ) : Prop :=
  ∃ result, versionFloor crypto format shared.history = .ok result

/-- A line is appended only while the last line is the one its process has read. -/
def AppendsAtHead (shared : SharedHistory φ) : Action φ → Prop
  | .append p _ => ∀ cfg lines, (shared.processes p).phase = .appending cfg lines →
      lastLink crypto format lines = lastLink crypto format shared.history
  | _ => True

end Steps

variable {crypto : Crypto} {format : FloatFormat φ}

/-- Only an append changes the file. -/
theorem step_history (shared : SharedHistory φ) (action : Action φ)
    (other : ∀ p now, action ≠ .append p now) :
    (shared.step crypto format action).history = shared.history := by
  cases action with
  | install p config signatureHex =>
      rw [step]
      split <;> rfl
  | reread p =>
      rw [step]
      split
      · split <;> rfl
      · rfl
  | readLast p =>
      rw [step]
      split <;> rfl
  | append p now => exact absurd rfl (other p now)
  | rotateAuthority p record signatureHex =>
      rw [step]
      split <;> rfl
  | restart p authority => rfl

theorem step_verifies_iff (shared : SharedHistory φ) (action : Action φ)
    (verifies : shared.ChainVerifies crypto format) :
    (shared.step crypto format action).ChainVerifies crypto format ↔
      shared.AppendsAtHead crypto format action := by
  rw [ChainVerifies, versionFloor_ok_iff] at verifies ⊢
  cases action with
  | append p now =>
      cases phase : (shared.processes p).phase with
      | appending cfg lines =>
          have appended : (shared.step crypto format (.append p now)).history =
              shared.history ++ [installRecord cfg (lastLink crypto format lines) now] := by
            simp only [step, phase]
          rw [appended, Intact, HashChain.linked_append]
          constructor
          · intro ⟨_, named⟩ cfg' lines' phase'
            cases phase.symm.trans phase'
            exact named
          · intro atHead
            exact ⟨verifies, atHead cfg lines phase⟩
      | _ => simp [step, phase, AppendsAtHead, verifies]
  | _ =>
      rw [step_history shared _ (fun _ _ same => by cases same)]
      exact ⟨fun _ => trivial, fun _ => verifies⟩

/-- In a run of any processes from an empty file, the chain check succeeds in every
state exactly when every line is appended at the head its process has read. -/
theorem history_verifies_iff (crypto : Crypto) (format : FloatFormat φ) (authorities : Nat → Bytes)
    (actions : List (Action φ)) :
    (∀ front back, actions = front ++ back →
      (Run.run (step crypto format) (fresh authorities) front).ChainVerifies crypto format) ↔
      Run.Admissible (step crypto format) (AppendsAtHead crypto format) (fresh authorities)
        actions :=
  Run.invariant_iff_admissible (step crypto format) (AppendsAtHead crypto format)
    (ChainVerifies crypto format) step_verifies_iff (fresh authorities) actions ⟨_, rfl⟩

end SharedHistory

end Guard

namespace Sample

def boundedConfig : Guard.GuardConfig Int := guardConfig 1 [("H1", some (.int 5))]

/-- Two processes of one authority load the same configuration, each step of the
first followed by that of the second. -/
def twoLoads : List (Guard.Action Int) :=
  [.install 0 boundedConfig (Guard.signConfig crypto PyNumber.wholeFormat (compositor 1) boundedConfig),
    .install 1 boundedConfig (Guard.signConfig crypto PyNumber.wholeFormat (compositor 1) boundedConfig),
    .reread 0, .reread 1, .readLast 0, .readLast 1, .append 0 1000, .append 1 1001]

end Sample

open Guard SharedHistory in
theorem history_forks :
    ¬(Run.run (step Sample.crypto PyNumber.wholeFormat)
      (fresh (fun _ => (Sample.compositor 1).publicBytes)) Sample.twoLoads).ChainVerifies
        Sample.crypto PyNumber.wholeFormat := by
  intro ⟨result, read⟩
  have broken : (versionFloor Sample.crypto PyNumber.wholeFormat
      (Run.run (step Sample.crypto PyNumber.wholeFormat)
        (fresh (fun _ => (Sample.compositor 1).publicBytes)) Sample.twoLoads).history).toOption.isNone
      = true := by
    decide +kernel
  rw [read] at broken
  cases broken

end Gyza
