import Gyza.AuditVerdict
import Gyza.Coordinator

/-! How a subcontract's reservation ends, for every behaviour of the effects. -/

namespace Gyza

open Hex (Bytes)
open PyValue (Fields Value)
open Wallet (Credits)

namespace ReservationBook

variable {book : ReservationBook} {childWid : String} {r : Reservation}

theorem terminate_active (found : book.resv.lookup childWid = some r) (active : r.state = .active)
    {target : ResvState} (other : target ≠ .active) :
    book.terminate childWid target =
      (.ok true, { book with resv := book.resv.set childWid ⟨childWid, r.amount, target⟩ }) := by
  have changes : r.state ≠ target := by
    rw [active]
    exact other.symm
  simp [terminate, found, active, other.symm]

theorem release_active (found : book.resv.lookup childWid = some r) (active : r.state = .active) :
    (book.release childWid).2.resv.lookup childWid = some ⟨childWid, r.amount, .released⟩ := by
  simp [release, terminate_active found active, found, Dict.lookup_set]

theorem settle_active (found : book.resv.lookup childWid = some r) (active : r.state = .active) :
    (book.settle childWid).2.resv.lookup childWid = some ⟨childWid, r.amount, .settled⟩ := by
  simp [settle, terminate_active found active, Dict.lookup_set]

/-- A reservation under a fresh id is made, and held, or nothing happens. -/
theorem reserve_fresh (net amount : Credits) (fresh : book.resv.lookup childWid = none) :
    (∃ why, book.reserve net childWid amount = (.error why, book)) ∨
      ∃ made after, book.reserve net childWid amount = (.ok made, after) ∧
        after.resv.lookup childWid = some ⟨childWid, amount, .active⟩ := by
  unfold reserve
  rw [fresh]
  dsimp only
  cases book.canReserve net amount with
  | error why => exact Or.inl ⟨why, rfl⟩
  | ok allowed =>
      dsimp only
      cases book.budget.tryAllocate amount with
      | error why => exact Or.inl ⟨_, rfl⟩
      | ok charged =>
          exact Or.inr ⟨_, _, rfl, by rw [Dict.lookup_set, if_pos rfl]⟩

end ReservationBook

namespace Coordinator

/-- The reservation is not left active, it is settled exactly when the result is ok, and
at most one cosignature was asked for, of the permitted kind. -/
structure Accounted (childWid : String) (permitted : CosignCall → Prop) (ended : Ended) : Prop where
  terminal : ∀ r, ended.book.resv.lookup childWid = some r → r.state ≠ .active
  settled_iff : (∃ r, ended.book.resv.lookup childWid = some r ∧ r.state = .settled) ↔
    ∃ payload, ended.outcome = .returned (.ok payload)
  once : ended.cosigned.length ≤ 1
  permits : ∀ call ∈ ended.cosigned, permitted call

def PyError.Caught : PyError → Prop
  | .exception _ => True
  | .baseException => False

section Statements

variable (crypto : Crypto) (python : Audit.Python) (privateKey : Bytes → LocalCompositor crypto)

/-- The five predicates of the gate. -/
structure GateHolds (parent : ParentRef) (childWid : String) (grant : DelegationGrant)
    (bundle : ResultBundle) : Prop where
  chainOk : bundle.chainOk = true
  manifestHashOk : bundle.manifestHashOk = true
  verifies : grant.verifyGrant crypto python = .ok ()
  binds : grant.grantBindsTo parent.envelopeHash parent.agentPubkey parent.manifestHash childWid =
    .ok ()
  composes : verifyDelegation (delegationChain python parent grant bundle) = .ok ()

/-- The cosignature is asked for the bundle that was awaited, which is for the child's
work item and passes the gate under the grant that was signed. -/
def Permitted (fx : Effects) (parent : ParentRef) (nowNs : Int) (childWid : String)
    (subtask : SubtaskSpec) (call : CosignCall) : Prop :=
  ∃ grant bundle,
    (unsignedGrant parent nowNs childWid subtask).signGrant crypto python privateKey
      parent.agentSeed = some grant ∧
    fx.awaitResult childWid = .returned (.bundle bundle) ∧
    call = ⟨childWid, bundle.childAgentPubkey, subtask.bounty, bundle.childEnvelopeHash⟩ ∧
    bundle.childWorkItemId = childWid ∧ GateHolds crypto python parent childWid grant bundle

/-- What may come of the effects once the grant is signed: nothing is raised outside the
handlers, a bundle or `None` is awaited, and a bundle that passes the gate is the child's. -/
def OrderlyEffects (fx : Effects) (parent : ParentRef) (childWid : String) (subtask : SubtaskSpec)
    (grant : DelegationGrant) : Prop :=
  match fx.postSubtask childWid subtask grant with
  | .raised error => error.Caught
  | .returned () =>
      match fx.awaitResult childWid with
      | .raised _ => False
      | .returned .other => False
      | .returned .none => True
      | .returned (.bundle bundle) =>
          GateHolds crypto python parent childWid grant bundle →
            bundle.childWorkItemId = childWid ∧
              ∀ error, fx.cosignAsPayer childWid bundle.childAgentPubkey subtask.bounty
                bundle.childEnvelopeHash = .raised error → error.Caught

/-- Once a hold is taken, the grant is signed and the effects are orderly. -/
def Orderly (fx : Effects) (parent : ParentRef) (nowNs : Int) (book : ReservationBook) (net : Credits)
    (childWid : String) (subtask : SubtaskSpec) : Prop :=
  capabilitySubset subtask.required parent.manifestSpec = .ok () →
    (book.reserve net childWid subtask.bounty).1.isOk = true →
      ∃ grant, (unsignedGrant parent nowNs childWid subtask).signGrant crypto python privateKey
        parent.agentSeed = some grant ∧ OrderlyEffects crypto python fx parent childWid subtask grant

end Statements

variable {crypto : Crypto} {python : Audit.Python} {privateKey : Bytes → LocalCompositor crypto}

theorem payGate_ok_iff (parent : ParentRef) (childWid : String) (grant : DelegationGrant)
    (bundle : ResultBundle) :
    payGate crypto python parent childWid grant bundle = .ok () ↔
      GateHolds crypto python parent childWid grant bundle := by
  simp only [payGate, Checks.bind_ok_iff, Checks.demand_ok_iff, Checks.wrap_ok_iff]
  constructor
  · rintro ⟨_, chain, _, manifest, _, verifies, _, binds, composes⟩
    exact ⟨chain, manifest, verifies, binds, composes⟩
  · intro holds
    exact ⟨(), holds.chainOk, (), holds.manifestHashOk, (), holds.verifies, (), holds.binds,
      holds.composes⟩

section Stages

variable {book : ReservationBook} {childWid : String} {amount : Credits}
  (held : book.resv.lookup childWid = some ⟨childWid, amount, .active⟩) (permitted : CosignCall → Prop)

include held

/-- A failure releases the hold. -/
theorem accounted_fail_iff (reason : Failure) (asked : List CosignCall) :
    Accounted childWid permitted (fail book childWid reason asked) ↔
      asked.length ≤ 1 ∧ ∀ call ∈ asked, permitted call := by
  have released := ReservationBook.release_active held rfl
  constructor
  · intro accounted
    exact ⟨accounted.once, accounted.permits⟩
  · rintro ⟨once, permits⟩
    refine ⟨?_, ?_, once, permits⟩
    · intro r found
      cases released.symm.trans found
      simp
    · constructor
      · rintro ⟨r, found, settled⟩
        cases released.symm.trans found
        cases settled
      · rintro ⟨payload, ok⟩
        cases ok

theorem not_accounted_raised (outcome : Outcome) (asked : List CosignCall) :
    ¬Accounted childWid permitted ⟨outcome, book, asked⟩ :=
  fun accounted => accounted.terminal _ held rfl

theorem accounted_settled_iff (payload : Fields) (asked : List CosignCall) :
    Accounted childWid permitted ⟨.returned (.ok payload), (book.settle childWid).2, asked⟩ ↔
      asked.length ≤ 1 ∧ ∀ call ∈ asked, permitted call := by
  have settled := ReservationBook.settle_active held rfl
  constructor
  · intro accounted
    exact ⟨accounted.once, accounted.permits⟩
  · rintro ⟨once, permits⟩
    refine ⟨?_, iff_of_true ⟨_, settled, rfl⟩ ⟨payload, rfl⟩, once, permits⟩
    intro r found
    cases settled.symm.trans found
    simp

theorem accounted_pay_iff (fx : Effects) (subtask : SubtaskSpec) (bundle : ResultBundle) :
    Accounted childWid permitted (pay fx book childWid subtask bundle) ↔
      permitted ⟨childWid, bundle.childAgentPubkey, subtask.bounty, bundle.childEnvelopeHash⟩ ∧
        ∀ error, fx.cosignAsPayer childWid bundle.childAgentPubkey subtask.bounty
          bundle.childEnvelopeHash = .raised error → error.Caught := by
  unfold pay
  cases answered : fx.cosignAsPayer childWid bundle.childAgentPubkey subtask.bounty
      bundle.childEnvelopeHash with
  | raised error =>
      cases error with
      | exception text =>
          dsimp only
          rw [accounted_fail_iff held]
          simp [PyError.Caught]
      | baseException =>
          dsimp only
          simp [not_accounted_raised held, PyError.Caught]
  | returned paid =>
      cases paid with
      | false =>
          dsimp only
          rw [accounted_fail_iff held]
          simp
      | true =>
          dsimp only
          rw [accounted_settled_iff held]
          simp

theorem accounted_deliver_iff (fx : Effects) (parent : ParentRef) (subtask : SubtaskSpec)
    (grant : DelegationGrant) (bundle : ResultBundle) :
    Accounted childWid permitted
        (deliver crypto python fx parent book childWid subtask grant bundle) ↔
      (GateHolds crypto python parent childWid grant bundle →
        permitted ⟨childWid, bundle.childAgentPubkey, subtask.bounty, bundle.childEnvelopeHash⟩ ∧
          ∀ error, fx.cosignAsPayer childWid bundle.childAgentPubkey subtask.bounty
            bundle.childEnvelopeHash = .raised error → error.Caught) := by
  have active : (book.resv.lookup childWid).filter (fun r => r.state ≠ .active) = none := by
    rw [held]
    rfl
  unfold deliver
  rw [active]
  dsimp only
  cases judged : payGate crypto python parent childWid grant bundle with
  | error why =>
      dsimp only
      rw [accounted_fail_iff held]
      refine iff_of_true ⟨by simp, by simp⟩ ?_
      intro holds
      rw [← payGate_ok_iff, judged] at holds
      cases holds
  | ok passed =>
      have holds := (payGate_ok_iff parent childWid grant bundle).mp judged
      dsimp only
      rw [accounted_pay_iff held]
      exact ⟨fun paid _ => paid, fun paid => paid holds⟩

end Stages

theorem accounted_post_iff {book : ReservationBook} {childWid : String} {amount : Credits}
    (held : book.resv.lookup childWid = some ⟨childWid, amount, .active⟩) (fx : Effects)
    (parent : ParentRef) (nowNs : Int) (subtask : SubtaskSpec) {grant : DelegationGrant}
    (signed : (unsignedGrant parent nowNs childWid subtask).signGrant crypto python privateKey
      parent.agentSeed = some grant) :
    Accounted childWid (Permitted crypto python privateKey fx parent nowNs childWid subtask)
        (post crypto python fx parent book childWid subtask grant) ↔
      OrderlyEffects crypto python fx parent childWid subtask grant := by
  unfold post OrderlyEffects
  cases fx.postSubtask childWid subtask grant with
  | raised error =>
      cases error with
      | exception text =>
          dsimp only
          rw [accounted_fail_iff held]
          simp [PyError.Caught]
      | baseException =>
          dsimp only
          simp [not_accounted_raised held, PyError.Caught]
  | returned done =>
      dsimp only
      cases awaited : fx.awaitResult childWid with
      | raised error => simp [not_accounted_raised held]
      | returned answer =>
          cases answer with
          | none =>
              dsimp only
              rw [accounted_fail_iff held]
              simp
          | other => simp [not_accounted_raised held]
          | bundle bundle =>
              dsimp only
              rw [accounted_deliver_iff held]
              refine forall_congr' fun holds => and_congr_left fun _ => ?_
              constructor
              · rintro ⟨grant', bundle', _, same, _, own, _⟩
                cases awaited.symm.trans same
                exact own
              · intro own
                exact ⟨grant, bundle, signed, awaited, rfl, own, holds⟩

/-- Permitted, reserved and signed, a subtask is posted. -/
theorem subcontract_eq_post (fx : Effects) (parent : ParentRef) (nowNs : Int) {net : Credits}
    {book after : ReservationBook} {childWid : String} {subtask : SubtaskSpec} {made : Reservation}
    {grant : DelegationGrant}
    (within : capabilitySubset subtask.required parent.manifestSpec = .ok ())
    (reserved : book.reserve net childWid subtask.bounty = (.ok made, after))
    (signed : (unsignedGrant parent nowNs childWid subtask).signGrant crypto python privateKey
      parent.agentSeed = some grant) :
    subcontract crypto python privateKey fx parent nowNs book net childWid subtask =
      post crypto python fx parent after childWid subtask grant := by
  simp only [subcontract, within, reserved, signed]

/-- A subcontract strands and mispays nothing exactly when the signing of its grant does
not raise and its effects are orderly. -/
theorem subcontract_accounted_iff (crypto : Crypto) (python : Audit.Python)
    (privateKey : Bytes → LocalCompositor crypto) (fx : Effects) (parent : ParentRef) (nowNs : Int)
    (book : ReservationBook) (net : Credits) (childWid : String) (subtask : SubtaskSpec)
    (fresh : book.resv.lookup childWid = none) :
    Accounted childWid (Permitted crypto python privateKey fx parent nowNs childWid subtask)
        (subcontract crypto python privateKey fx parent nowNs book net childWid subtask) ↔
      Orderly crypto python privateKey fx parent nowNs book net childWid subtask := by
  have nothing : ∀ why, Accounted childWid
      (Permitted crypto python privateKey fx parent nowNs childWid subtask)
      ⟨.returned (.error why), book, []⟩ := by
    intro why
    refine ⟨?_, iff_of_false ?_ ?_, by simp, by simp⟩
    · intro r found
      rw [fresh] at found
      cases found
    · rintro ⟨r, found, _⟩
      rw [fresh] at found
      cases found
    · rintro ⟨payload, ok⟩
      cases ok
  cases within : capabilitySubset subtask.required parent.manifestSpec with
  | error why =>
      have ended : subcontract crypto python privateKey fx parent nowNs book net childWid subtask =
          ⟨.returned (.error (.overDelegation why)), book, []⟩ := by
        simp only [subcontract, within]
      rw [ended]
      refine iff_of_true (nothing _) ?_
      intro absurd
      rw [within] at absurd
      cases absurd
  | ok checked =>
      obtain ⟨why, refused⟩ | ⟨made, after, reserved, held⟩ :=
        ReservationBook.reserve_fresh net subtask.bounty fresh
      · have ended : subcontract crypto python privateKey fx parent nowNs book net childWid subtask =
            ⟨.returned (.error (.cannotReserve why)), book, []⟩ := by
          simp only [subcontract, within, refused]
        rw [ended]
        refine iff_of_true (nothing _) ?_
        intro _ absurd
        rw [refused] at absurd
        cases absurd
      · have ready : (book.reserve net childWid subtask.bounty).1.isOk = true := by
          rw [reserved]
          rfl
        cases signed : (unsignedGrant parent nowNs childWid subtask).signGrant crypto python
            privateKey parent.agentSeed with
        | none =>
            have ended : subcontract crypto python privateKey fx parent nowNs book net childWid
                subtask = ⟨.raised, after, []⟩ := by
              simp only [subcontract, within, reserved, signed]
            rw [ended]
            refine iff_of_false (not_accounted_raised held _ _ _) ?_
            intro orderly
            obtain ⟨grant, absurd, _⟩ := orderly within ready
            cases signed.symm.trans absurd
        | some grant =>
            rw [subcontract_eq_post fx parent nowNs within reserved signed,
              accounted_post_iff held fx parent nowNs subtask signed]
            constructor
            · intro orderly _ _
              exact ⟨grant, signed, orderly⟩
            · intro orderly
              obtain ⟨other, same, effects⟩ := orderly within ready
              cases signed.symm.trans same
              exact effects

end Coordinator

/-- What the holder of a key signs as the granter verifies. -/
theorem DelegationGrant.signGrant_verifies {crypto : Crypto} {python : Audit.Python}
    {privateKey : Bytes → LocalCompositor crypto} {unsigned grant : DelegationGrant} {seed : Bytes}
    (granter : unsigned.parentAgentPubkey = (privateKey seed).pubkeyHex)
    (signed : unsigned.signGrant crypto python privateKey seed = some grant) :
    grant.verifyGrant crypto python = .ok () := by
  unfold signGrant at signed
  split_ifs at signed with length
  obtain ⟨digest, payload, rfl⟩ := Option.map_eq_some_iff.mp signed
  have same : payloadDigest crypto python { unsigned with
      signature := (privateKey seed).sign digest } = some digest := payload
  unfold verifyGrant
  rw [if_neg (by rw [granter]; exact (privateKey seed).pubkeyHex_ne_empty),
    if_neg ((privateKey seed).sign_ne_empty digest), same]
  simp [granter, LocalCompositor.pubkeyHex, LocalCompositor.sign, Hex.fromhex_encode,
    (privateKey seed).publicBytes_length, (privateKey seed).signBytes_verifies digest]

namespace Sample

def parentRef : Coordinator.ParentRef where
  agentPubkey := (compositor 1).pubkeyHex
  agentSeed := List.replicate 32 1
  envelopeHash := "parent-envelope"
  manifestHash := "parent-manifest"
  manifestSpec := {}
  enforcementSpec := {}

def keyOfSeed (seed : Bytes) : LocalCompositor crypto := compositor (seed.headD 0)

def readSubtask : Coordinator.SubtaskSpec where
  payload := [("kind", .str "read")]
  required := {}
  bounty := ⟨4⟩

theorem subtaskTotal_nonneg : 0 ≤ (⟨10⟩ : Credits).micros := by decide

def subtaskBook : ReservationBook where
  budget := Budget.new ⟨10⟩ subtaskTotal_nonneg

/-- A result under no authority at all, of the work item it names. -/
def resultBundle (workItem : String) : Coordinator.ResultBundle where
  childWorkItemId := workItem
  childAgentPubkey := (compositor 2).pubkeyHex
  childEnvelopeHash := "child-envelope"
  childManifest := .dict []
  childEnforcement := .dict []
  subResult := [("answer", .int 42)]
  chainOk := true
  manifestHashOk := true

/-- The subtask is posted and its payment is cosigned. -/
def effects (awaited : Coordinator.Effect Coordinator.Awaited) : Coordinator.Effects where
  postSubtask _ _ _ := .returned ()
  awaitResult _ := awaited
  cosignAsPayer _ _ _ _ := .returned true

def subcontracted (awaited : Coordinator.Effect Coordinator.Awaited) : Coordinator.Ended :=
  Coordinator.subcontract crypto python keyOfSeed (effects awaited) parentRef 1000 subtaskBook ⟨10⟩
    "child" readSubtask

/-- The signature of the grant is never looked at, apart from its verification. -/
theorem readSubtask_gateHolds {grant : DelegationGrant}
    (signed : (Coordinator.unsignedGrant parentRef 1000 "child" readSubtask).signGrant crypto python
      keyOfSeed parentRef.agentSeed = some grant) (workItem : String) :
    Coordinator.GateHolds crypto python parentRef "child" grant (resultBundle workItem) := by
  have verifies := DelegationGrant.signGrant_verifies rfl signed
  unfold DelegationGrant.signGrant at signed
  split_ifs at signed with length
  obtain ⟨digest, payload, rfl⟩ := Option.map_eq_some_iff.mp signed
  have composes : verifyDelegation (Coordinator.delegationChain python parentRef
      (Coordinator.unsignedGrant parentRef 1000 "child" readSubtask) (resultBundle "child")) =
      .ok () := by
    decide +kernel
  exact ⟨rfl, rfl, verifies, rfl, composes⟩

theorem readSubtask_signed : ∃ grant,
    (Coordinator.unsignedGrant parentRef 1000 "child" readSubtask).signGrant crypto python
      keyOfSeed parentRef.agentSeed = some grant := by
  unfold DelegationGrant.signGrant
  simp [DelegationGrant.payloadDigest, DelegationGrant.payloadFields, Coordinator.unsignedGrant,
    CapabilitySpec.toCanonical, Audit.toDoc, Audit.fieldsToDoc, Audit.itemsToDoc, readSubtask, parentRef]

end Sample

open Coordinator in
/-- The child's own result is paid for, and its hold is settled. -/
theorem subcontract_accounted_sample :
    Coordinator.Accounted "child" (Permitted Sample.crypto Sample.python Sample.keyOfSeed
      (Sample.effects (.returned (.bundle (Sample.resultBundle "child")))) Sample.parentRef 1000
      "child" Sample.readSubtask)
      (Sample.subcontracted (.returned (.bundle (Sample.resultBundle "child")))) := by
  refine (subcontract_accounted_iff Sample.crypto Sample.python Sample.keyOfSeed _ Sample.parentRef
    1000 Sample.subtaskBook ⟨10⟩ "child" Sample.readSubtask rfl).mpr ?_
  intro _ _
  obtain ⟨grant, signed⟩ := Sample.readSubtask_signed
  refine ⟨grant, signed, fun _ => ⟨rfl, ?_⟩⟩
  intro error raised
  cases raised

open Coordinator in
/-- An exception of the wait leaves the hold active, and the result of another work item
is paid for. -/
theorem Coordinator.subcontract_strands_and_mispays :
    (∀ error, ¬Coordinator.Accounted "child" (Permitted Sample.crypto Sample.python Sample.keyOfSeed
      (Sample.effects (.raised error)) Sample.parentRef 1000 "child" Sample.readSubtask)
      (Sample.subcontracted (.raised error))) ∧
    ¬Coordinator.Accounted "child" (Permitted Sample.crypto Sample.python Sample.keyOfSeed
      (Sample.effects (.returned (.bundle (Sample.resultBundle "other")))) Sample.parentRef 1000
      "child" Sample.readSubtask)
      (Sample.subcontracted (.returned (.bundle (Sample.resultBundle "other")))) := by
  obtain ⟨grant, signed⟩ := Sample.readSubtask_signed
  obtain ⟨why, refused⟩ | ⟨made, after, reserved, held⟩ :=
    @ReservationBook.reserve_fresh Sample.subtaskBook "child" ⟨10⟩ Sample.readSubtask.bounty rfl
  · cases refused
  · constructor
    · intro error
      rw [Sample.subcontracted, subcontract_eq_post _ _ _ rfl reserved signed,
        accounted_post_iff held _ _ _ _ signed]
      exact id
    · rw [Sample.subcontracted, subcontract_eq_post _ _ _ rfl reserved signed,
        accounted_post_iff held _ _ _ _ signed]
      intro orderly
      have own : "other" = "child" := (orderly (Sample.readSubtask_gateHolds signed "other")).1
      exact absurd own (by decide)

end Gyza
