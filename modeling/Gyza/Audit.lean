import Gyza.Dag
import Gyza.SandboxGate

/-! The provenance audit (`gyza/audit.py`), without the governance ledger, which
feeds nothing back into the verdict.

Artifacts and manifests are untyped data from outside, so every access of the
source that an unexpected type would break is an explicit error here. -/

namespace Gyza

open CanonJson (Doc)
open Hex (Bytes utf8)
open PyValue (Fields Value dictGet)

namespace Audit

/-- What `json.loads(art.decode("utf-8"))` does: a value, one of the two errors
the audit catches, or any other. -/
inductive Parsed where
  | document (value : Value)
  | malformed
  | raises

/-- Python's own conversions, on the values that the rest of the model leaves open. -/
structure Python where
  loads : Bytes → Parsed
  str : Value → String
  /-- `repr` of a finite float. -/
  floatRepr : Float → List Char
  /-- `int` of a finite float. -/
  truncate : Float → Int
  /-- `int` of a text. -/
  intOfText : String → Option Int

inductive AuditError where
  | loads
  | gate (raised : Raised)
  | attributeError
  | typeError
  | valueError
  | overflowError

/-! `manifest_hash_hex`. -/

mutual
/-- A set has no JSON text; neither has, under `allow_nan=False`, a float that is not finite. -/
def toDoc : Value → Option (Doc Float)
  | .none => some .null
  | .bool value => some (.bool value)
  | .int value => some (.int value)
  | .float value => if value.isFinite then some (.float value) else none
  | .str text => some (.str text)
  | .collection .list items => (itemsToDoc items).map .arr
  | .collection .tuple items => (itemsToDoc items).map .arr
  | .collection _ _ => none
  | .dict fields => (fieldsToDoc fields).map .obj
def itemsToDoc : List Value → Option (List (Doc Float))
  | [] => some []
  | item :: rest => do
      let first ← toDoc item
      let others ← itemsToDoc rest
      pure (first :: others)
def fieldsToDoc : List (String × Value) → Option (List (String × Doc Float))
  | [] => some []
  | (name, value) :: rest => do
      let first ← toDoc value
      let others ← fieldsToDoc rest
      pure ((name, first) :: others)
end

section Rows

variable (crypto : Crypto) (python : Python)

def manifestHashHex (manifest : Fields) : Option String :=
  (toDoc (.dict manifest)).map (fun document =>
    crypto.hexdigest (utf8 (Doc.dumps python.floatRepr document.normal)))

/-! The spawn block of a manifest. -/

/-- `fields.get(key, {}) or {}`, on which the source then calls `get`. -/
def blockOf (fields : Fields) (key : String) : Except AuditError Fields :=
  if (dictGet fields key (.dict [])).truthy then
    match dictGet fields key (.dict []) with
    | .dict inner => .ok inner
    | _ => .error .attributeError
  else .ok []

/-- `int(value)`. -/
def toInt : Value → Except AuditError Int
  | .int value => .ok value
  | .bool value => .ok (if value then 1 else 0)
  | .float value =>
      if value.isNaN then .error .valueError
      else if value.isInf then .error .overflowError
      else .ok (python.truncate value)
  | .str text => (python.intOfText text).elim (.error .valueError) .ok
  | _ => .error .typeError

/-- `int(budget.get("max_children", 0) or 0)`. -/
def maxChildren (budget : Fields) : Except AuditError Int :=
  if (dictGet budget "max_children" (.int 0)).truthy then
    toInt python (dictGet budget "max_children" (.int 0))
  else .ok 0

structure SpawnGrant where
  permitted : Bool
  cap : Int

def spawnGrant (manifest : Fields) : Except AuditError SpawnGrant := do
  let capabilities ← blockOf manifest "capabilities"
  let spawn ← blockOf capabilities "spawn"
  let budget ← blockOf spawn "resource_budget"
  let cap ← maxChildren python budget
  pure ⟨(dictGet spawn "permitted" .none).truthy, cap⟩

def len (value : Value) : Except AuditError Nat := value.len.elim (.error .typeError) .ok

/-! The rows. -/

inductive AuditReason where
  | artifactNotResolvable
  | tampered
  | manifestNotResolvable
  | manifestOther
  | outOfBounds (why : GateFault)
  | decompositionNotResolvable
  | noSpawnAuthority (subtasks : Nat)
  | overCap (subtasks : Nat) (cap : Int)
  | bindingFailed

/-- The variables that the checks of one row fill in; no reason is the empty text. -/
structure Checks where
  isExecution : Bool := false
  manifestBoundOk : Bool := true
  withinBounds : Bool := true
  reason : Option AuditReason := none

def checkEnforcement (named : String) (enforcement : Value) (answer : Option Fields) :
    Except AuditError Checks :=
  match enforcement with
  | .dict _ =>
      match answer with
      | none =>
          .ok { isExecution := true, manifestBoundOk := false, withinBounds := false,
                reason := some .manifestNotResolvable }
      | some manifest =>
          match manifestHashHex crypto python manifest with
          | none => .error .valueError
          | some hash =>
              if hash ≠ named then
                .ok { isExecution := true, manifestBoundOk := false, withinBounds := false,
                      reason := some .manifestOther }
              else
                match enforcementSatisfiesManifest python.str enforcement (.dict manifest) with
                | .error raised => .error (.gate raised)
                | .ok (.ok ()) => .ok { isExecution := true }
                | .ok (.error why) =>
                    .ok { isExecution := true, withinBounds := false,
                          reason := some (.outOfBounds why) }
  | _ => .ok {}

/-- `reason or f"... {len(subs)} ..."`: the length is taken only without a reason. -/
def refuse (checks : Checks) (reason : Except AuditError AuditReason) : Except AuditError Checks :=
  match checks.reason with
  | some _ => .ok { checks with withinBounds := false }
  | none => do
      let stated ← reason
      pure { checks with withinBounds := false, reason := some stated }

/-- The manifest is taken as the resolver gives it: its hash is not compared here. -/
def checkDecomposition (subtasks : Value) (answer : Option Fields) (checks : Checks) :
    Except AuditError Checks :=
  if subtasks.truthy then
    match answer with
    | none => refuse checks (.ok .decompositionNotResolvable)
    | some manifest => do
        let grant ← spawnGrant python manifest
        if grant.permitted then do
          let count ← len subtasks
          if grant.cap < count then refuse checks (.ok (.overCap count grant.cap))
          else pure checks
        else refuse checks ((len subtasks).map .noSpawnAuthority)
  else .ok checks

/-- The two bound checks of an envelope look the manifest up separately. -/
inductive Lookup where
  | execution
  | decomposition

/-- The resolvers; the first argument is the position of the envelope that asks,
so that two calls may be answered differently. -/
structure Resolvers where
  artifact : Nat → String → Option Bytes
  manifest : Nat → Lookup → String → Option Fields

/-- The fields of the object in an artifact; any other text has none. -/
def artifactFields (art : Bytes) : Except AuditError Fields :=
  match python.loads art with
  | .document value => .ok value.fields
  | .malformed => .ok []
  | .raises => .error .loads

def enforcementOf (fields : Fields) : Value := dictGet fields "__enforcement__" .none

def subtasksOf (fields : Fields) : Value := dictGet fields "__subtasks__" .none

def checkArtifact (resolvers : Resolvers) (i : Nat) (env : ICPEnvelope) (art : Bytes) :
    Except AuditError Checks := do
  let fields ← artifactFields python art
  let checks ← checkEnforcement crypto python env.capabilityManifestHash (enforcementOf fields)
    (resolvers.manifest i .execution env.capabilityManifestHash)
  checkDecomposition python (subtasksOf fields)
    (resolvers.manifest i .decomposition env.capabilityManifestHash) checks

structure ActionAudit where
  actionId : String
  envelopeHash : String
  isExecution : Bool
  bindingOk : Bool
  manifestBoundOk : Bool
  withinBounds : Bool
  ok : Bool
  reason : Option AuditReason

def auditRow (resolvers : Resolvers) (requireAllArtifacts : Bool) (i : Nat) (env : ICPEnvelope) :
    Except AuditError ActionAudit := do
  let art := resolvers.artifact i env.outputHash
  let bindingOk := art.any (fun bytes => crypto.hexdigest bytes = env.outputHash)
  let checks ←
    match art with
    | none =>
        .ok { reason := if requireAllArtifacts then some .artifactNotResolvable else none }
    | some bytes =>
        if bindingOk then checkArtifact crypto python resolvers i env bytes
        else .ok { reason := some .tampered }
  let bindingSatisfied := bindingOk || (art.isNone && !requireAllArtifacts)
  let ok := bindingSatisfied && checks.manifestBoundOk && checks.withinBounds
  pure {
    actionId := env.actionId
    envelopeHash := computeEnvelopeHash crypto env
    isExecution := checks.isExecution
    bindingOk := bindingOk
    manifestBoundOk := checks.manifestBoundOk
    withinBounds := checks.withinBounds
    ok := ok
    reason := if ok then checks.reason else checks.reason.or (some .bindingFailed) }

/-- The loop over the envelopes from position `i`. -/
def auditRows (resolvers : Resolvers) (requireAllArtifacts : Bool) :
    Nat → List ICPEnvelope → Except AuditError (List ActionAudit)
  | _, [] => .ok []
  | i, env :: rest => do
      let row ← auditRow crypto python resolvers requireAllArtifacts i env
      let rows ← auditRows resolvers requireAllArtifacts (i + 1) rest
      pure (row :: rows)

structure AuditReport where
  dag : DagVerification
  actions : List ActionAudit
  valid : Bool
  summary : String

def validity (holds : Bool) : String := if holds then "VALID" else "INVALID"

def auditProvenance (resolvers : Resolvers) (requireClosed requireAllArtifacts : Bool)
    (envelopes : List ICPEnvelope) : Except AuditError AuditReport := do
  let dag := verifyDag crypto requireClosed envelopes
  let rows ← auditRows crypto python resolvers requireAllArtifacts 0 envelopes
  let valid := dag.valid && rows.all (·.ok)
  let executions := (rows.filter (·.isExecution)).length
  pure {
    dag := dag
    actions := rows
    valid := valid
    summary := toString envelopes.length ++ " envelopes, " ++ toString dag.roots.length ++
      " root / " ++ toString dag.leaves.length ++ " leaf, " ++ toString executions ++
      " bounded execution(s); dag=" ++ validity dag.valid ++ "; verdict=" ++ validity valid }

end Rows

/-! What each check asks of its inputs. -/

section Specification

variable (crypto : Crypto) (python : Python)

def isDict : Value → Bool
  | .dict _ => true
  | _ => false

/-- The record declares all that the gate asks for before it opens the manifest. -/
def RecordComplete (enforcement : Value) : Prop :=
  isBubblewrap (dictGet enforcement.fields "backend" .none) = true ∧
    (∃ items, declaredPaths enforcement.fields "ro_paths" = .ok items) ∧
    (∃ items, declaredPaths enforcement.fields "rw_paths" = .ok items) ∧
    (enforcement.fields.lookup "requires_network").isSome

def PathsReadable (manifest : Fields) : Prop :=
  (manifestPaths (.dict manifest) "read").iterate.isSome ∧
    (manifestPaths (.dict manifest) "write").iterate.isSome

def EnforcementReadable (named : String) (enforcement : Value) (answer : Option Fields) : Prop :=
  isDict enforcement → ∀ manifest ∈ answer, ∃ hash,
    manifestHashHex crypto python manifest = some hash ∧
      (hash = named → RecordComplete enforcement → PathsReadable manifest)

/-- The record is within the manifest of the named hash. -/
def EnforcementHolds (named : String) (enforcement : Value) (answer : Option Fields) : Prop :=
  isDict enforcement → ∃ manifest ∈ answer, manifestHashHex crypto python manifest = some named ∧
    enforcementSatisfiesManifest python.str enforcement (.dict manifest) = .ok (.ok ())

/-- `before` says that the row has no reason yet, so that a refusal must count. -/
def DecompositionReadable (subtasks : Value) (answer : Option Fields) (before : Prop) : Prop :=
  subtasks.truthy → ∀ manifest ∈ answer, ∃ grant, spawnGrant python manifest = .ok grant ∧
    (grant.permitted = true ∨ before → subtasks.len.isSome)

def DecompositionHolds (subtasks : Value) (answer : Option Fields) : Prop :=
  subtasks.truthy → ∃ manifest ∈ answer, ∃ grant, spawnGrant python manifest = .ok grant ∧
    grant.permitted = true ∧ ∃ count, subtasks.len = some count ∧ count ≤ grant.cap

variable {crypto python}

theorem gate_answers_iff (str : Value → String) (record manifest : Fields) :
    (∃ verdict, enforcementSatisfiesManifest str (.dict record) (.dict manifest) = .ok verdict) ↔
      (RecordComplete (.dict record) → PathsReadable manifest) := by
  simp only [RecordComplete, Value.fields, enforcementSatisfiesManifest]
  by_cases enforcing : isBubblewrap (dictGet record "backend" .none) = true
  · rw [enforcing]
    cases ro : declaredPaths record "ro_paths" with
    | error fault => simp
    | ok roPaths =>
        cases rw' : declaredPaths record "rw_paths" with
        | error fault => simp
        | ok rwPaths =>
            cases network : record.lookup "requires_network" with
            | none => simp
            | some declared =>
                cases read : (manifestPaths (.dict manifest) "read").iterate with
                | none => simp [satisfiesBounds, PathsReadable, read]
                | some reads =>
                    cases write : (manifestPaths (.dict manifest) "write").iterate with
                    | none => simp [satisfiesBounds, PathsReadable, read, write]
                    | some writes => simp [satisfiesBounds, PathsReadable, read, write]
  · simp [enforcing]

theorem checkEnforcement_answers_iff (named : String) (enforcement : Value)
    (answer : Option Fields) :
    (∃ checks, checkEnforcement crypto python named enforcement answer = .ok checks) ↔
      EnforcementReadable crypto python named enforcement answer := by
  unfold checkEnforcement EnforcementReadable
  cases enforcement with
  | dict record =>
      cases answer with
      | none => simp [isDict]
      | some manifest =>
          have gate := gate_answers_iff python.str record manifest
          cases hash : manifestHashHex crypto python manifest with
          | none => simp [isDict, hash]
          | some found =>
              by_cases same : found = named
              · cases verdict : enforcementSatisfiesManifest python.str (.dict record)
                    (.dict manifest) with
                | error raised =>
                    rw [verdict] at gate
                    simpa [isDict, hash, same, verdict] using gate
                | ok result =>
                    rw [verdict] at gate
                    cases result with
                    | error why => simpa [isDict, hash, same, verdict] using gate
                    | ok accepted => simpa [isDict, hash, same, verdict] using gate
              · simp [isDict, hash, same]
  | _ => simp [isDict]

/-- The row has a reason exactly when the record is not within the named manifest. -/
theorem checkEnforcement_ok {named : String} {enforcement : Value} {answer : Option Fields}
    {checks : Checks}
    (checked : checkEnforcement crypto python named enforcement answer = .ok checks) :
    (checks.reason.isNone ↔ EnforcementHolds crypto python named enforcement answer) ∧
      (checks.manifestBoundOk && checks.withinBounds) = checks.reason.isNone := by
  unfold checkEnforcement at checked
  unfold EnforcementHolds
  cases enforcement with
  | dict record =>
      cases answer with
      | none =>
          cases checked
          simp [isDict]
      | some manifest =>
          cases hash : manifestHashHex crypto python manifest with
          | none => simp [hash] at checked
          | some found =>
              by_cases same : found = named
              · cases verdict : enforcementSatisfiesManifest python.str (.dict record)
                    (.dict manifest) with
                | error raised => simp [hash, same, verdict] at checked
                | ok result =>
                    cases result with
                    | error why =>
                        simp only [hash, same, verdict, ne_eq, not_true_eq_false, if_false,
                          Except.ok.injEq] at checked
                        subst checked
                        simp [isDict, hash, same, verdict]
                    | ok accepted =>
                        simp only [hash, same, verdict, ne_eq, not_true_eq_false, if_false,
                          Except.ok.injEq] at checked
                        subst checked
                        simp [isDict, hash, same, verdict]
              · simp only [hash, ne_eq, same, not_false_eq_true, if_true, Except.ok.injEq] at checked
                subst checked
                simp [isDict, hash, same]
  | _ =>
      cases checked
      simp [isDict]

theorem refuse_answers_iff (checks : Checks) (reason : Except AuditError AuditReason) :
    (∃ result, refuse checks reason = .ok result) ↔
      (checks.reason.isNone → ∃ stated, reason = .ok stated) := by
  unfold refuse
  cases checks.reason with
  | some earlier => simp
  | none =>
      cases reason with
      | error error => simp [bind, Except.bind]
      | ok stated => simp [bind, Except.bind, pure, Except.pure]

theorem refuse_ok {checks result : Checks} {reason : Except AuditError AuditReason}
    (refused : refuse checks reason = .ok result) :
    result.withinBounds = false ∧ result.manifestBoundOk = checks.manifestBoundOk := by
  unfold refuse at refused
  cases stated : checks.reason with
  | some earlier =>
      rw [stated] at refused
      cases refused
      exact ⟨rfl, rfl⟩
  | none =>
      rw [stated] at refused
      cases reason with
      | error error => cases refused
      | ok given =>
          cases refused
          exact ⟨rfl, rfl⟩

theorem len_ok_iff (value : Value) (count : Nat) : len value = .ok count ↔ value.len = some count := by
  unfold len
  cases value.len with
  | none => simp
  | some found => simp

theorem checkDecomposition_answers_iff (subtasks : Value) (answer : Option Fields)
    (checks : Checks) :
    (∃ result, checkDecomposition python subtasks answer checks = .ok result) ↔
      DecompositionReadable python subtasks answer (checks.reason.isNone = true) := by
  unfold checkDecomposition DecompositionReadable
  by_cases some' : subtasks.truthy = true
  · cases answer with
    | none => simp [some', refuse_answers_iff]
    | some manifest =>
        cases granted : spawnGrant python manifest with
        | error error => simp [some', granted, bind, Except.bind]
        | ok grant =>
            cases counted : subtasks.len with
            | none =>
                have unmeasured : len subtasks = .error .typeError := by simp [len, counted]
                by_cases permitted : grant.permitted = true
                · simp [some', granted, permitted, unmeasured, bind, Except.bind]
                · simp [some', granted, permitted, unmeasured, bind, Except.bind,
                    refuse_answers_iff, Except.map]
            | some count =>
                have measured := (len_ok_iff subtasks count).mpr counted
                by_cases permitted : grant.permitted = true
                · by_cases above : grant.cap < count
                  · simp [some', granted, permitted, measured, above, bind, Except.bind,
                      refuse_answers_iff]
                  · simp [some', granted, permitted, measured, above, bind, Except.bind,
                      pure, Except.pure]
                · simp [some', granted, permitted, measured, bind, Except.bind,
                    refuse_answers_iff, Except.map]
  · simp [some']

theorem checkDecomposition_ok {subtasks : Value} {answer : Option Fields} {checks result : Checks}
    (checked : checkDecomposition python subtasks answer checks = .ok result) :
    (result.withinBounds = true ↔
      checks.withinBounds = true ∧ DecompositionHolds python subtasks answer) ∧
      result.manifestBoundOk = checks.manifestBoundOk := by
  unfold checkDecomposition at checked
  unfold DecompositionHolds
  by_cases some' : subtasks.truthy = true
  · rw [if_pos some'] at checked
    cases answer with
    | none =>
        rcases refuse_ok checked with ⟨within, bound⟩
        simp [within, bound, some']
    | some manifest =>
        cases granted : spawnGrant python manifest with
        | error error => simp [granted, bind, Except.bind] at checked
        | ok grant =>
            by_cases permitted : grant.permitted = true
            · cases counted : len subtasks with
              | error error => simp [granted, permitted, counted, bind, Except.bind] at checked
              | ok count =>
                  have measured := (len_ok_iff subtasks count).mp counted
                  by_cases above : grant.cap < count
                  · simp only [granted, permitted, counted, above, bind, Except.bind, if_true]
                      at checked
                    rcases refuse_ok checked with ⟨within, bound⟩
                    simp [within, bound, some', granted, permitted, measured, above]
                  · simp only [granted, permitted, counted, above, bind, Except.bind, if_true,
                      if_false, pure, Except.pure, Except.ok.injEq] at checked
                    subst checked
                    simp [some', granted, permitted, measured, Int.not_lt.mp above]
            · simp only [granted, permitted, bind, Except.bind, Bool.false_eq_true, if_false]
                at checked
              rcases refuse_ok checked with ⟨within, bound⟩
              simp [within, bound, some', granted, permitted]
  · rw [if_neg some'] at checked
    cases checked
    simp [some']

/-! One row. -/

variable (crypto python) (resolvers : Resolvers)

/-- What the audit needs of one envelope's artifact and manifests to get through the row. -/
def RowReadable (i : Nat) (env : ICPEnvelope) : Prop :=
  ∀ art ∈ resolvers.artifact i env.outputHash, crypto.hexdigest art = env.outputHash →
    ∃ fields, artifactFields python art = .ok fields ∧
      EnforcementReadable crypto python env.capabilityManifestHash (enforcementOf fields)
        (resolvers.manifest i .execution env.capabilityManifestHash) ∧
      DecompositionReadable python (subtasksOf fields)
        (resolvers.manifest i .decomposition env.capabilityManifestHash)
        (EnforcementHolds crypto python env.capabilityManifestHash (enforcementOf fields)
          (resolvers.manifest i .execution env.capabilityManifestHash))

/-- What a row that passes says of its artifact. -/
def ArtifactHolds (i : Nat) (env : ICPEnvelope) (art : Bytes) : Prop :=
  crypto.hexdigest art = env.outputHash ∧ ∃ fields, artifactFields python art = .ok fields ∧
    EnforcementHolds crypto python env.capabilityManifestHash (enforcementOf fields)
      (resolvers.manifest i .execution env.capabilityManifestHash) ∧
    DecompositionHolds python (subtasksOf fields)
      (resolvers.manifest i .decomposition env.capabilityManifestHash)

def RowHolds (requireAllArtifacts : Bool) (i : Nat) (env : ICPEnvelope) : Prop :=
  match resolvers.artifact i env.outputHash with
  | none => requireAllArtifacts = false
  | some art => ArtifactHolds crypto python resolvers i env art

variable {crypto python resolvers}

theorem checkArtifact_answers_iff (i : Nat) (env : ICPEnvelope) (art : Bytes) :
    (∃ checks, checkArtifact crypto python resolvers i env art = .ok checks) ↔
      ∃ fields, artifactFields python art = .ok fields ∧
        EnforcementReadable crypto python env.capabilityManifestHash (enforcementOf fields)
          (resolvers.manifest i .execution env.capabilityManifestHash) ∧
        DecompositionReadable python (subtasksOf fields)
          (resolvers.manifest i .decomposition env.capabilityManifestHash)
          (EnforcementHolds crypto python env.capabilityManifestHash (enforcementOf fields)
            (resolvers.manifest i .execution env.capabilityManifestHash)) := by
  unfold checkArtifact
  cases read : artifactFields python art with
  | error error => simp [bind, Except.bind]
  | ok fields =>
      simp only [Except.ok.injEq, exists_eq_left', bind, Except.bind]
      rw [← checkEnforcement_answers_iff]
      cases checked : checkEnforcement crypto python env.capabilityManifestHash
          (enforcementOf fields) (resolvers.manifest i .execution env.capabilityManifestHash) with
      | error error => simp
      | ok checks =>
          have reasons := (checkEnforcement_ok checked).1
          simp only [Except.ok.injEq, exists_eq', true_and]
          rw [checkDecomposition_answers_iff, reasons]

theorem checkArtifact_ok {i : Nat} {env : ICPEnvelope} {art : Bytes} {checks : Checks}
    (bound : crypto.hexdigest art = env.outputHash)
    (checked : checkArtifact crypto python resolvers i env art = .ok checks) :
    (checks.manifestBoundOk && checks.withinBounds) = true ↔
      ArtifactHolds crypto python resolvers i env art := by
  unfold checkArtifact at checked
  unfold ArtifactHolds
  cases read : artifactFields python art with
  | error error => simp [read, bind, Except.bind] at checked
  | ok fields =>
      cases first : checkEnforcement crypto python env.capabilityManifestHash
          (enforcementOf fields) (resolvers.manifest i .execution env.capabilityManifestHash) with
      | error error => simp [read, first, bind, Except.bind] at checked
      | ok before =>
          simp only [read, first, bind, Except.bind] at checked
          rcases checkEnforcement_ok first with ⟨reasons, flags⟩
          rcases checkDecomposition_ok checked with ⟨within, manifestBound⟩
          simp only [Except.ok.injEq, exists_eq_left', bound, true_and]
          rw [← reasons, ← flags, Bool.and_eq_true, Bool.and_eq_true, within, manifestBound,
            and_assoc]

theorem auditRow_answers_iff (requireAllArtifacts : Bool) (i : Nat) (env : ICPEnvelope) :
    (∃ row, auditRow crypto python resolvers requireAllArtifacts i env = .ok row) ↔
      RowReadable crypto python resolvers i env := by
  unfold auditRow RowReadable
  cases resolved : resolvers.artifact i env.outputHash with
  | none => simp [bind, Except.bind, pure, Except.pure]
  | some art =>
      by_cases bound : crypto.hexdigest art = env.outputHash
      · have checked : (∃ checks, checkArtifact crypto python resolvers i env art = .ok checks) ↔ _ :=
          checkArtifact_answers_iff i env art
        cases result : checkArtifact crypto python resolvers i env art with
        | error error =>
            rw [result] at checked
            simpa [bound, result, bind, Except.bind] using checked
        | ok checks =>
            rw [result] at checked
            simpa [bound, result, bind, Except.bind, pure, Except.pure] using checked
      · simp [bound, bind, Except.bind, pure, Except.pure]

theorem auditRow_ok {requireAllArtifacts : Bool} {i : Nat} {env : ICPEnvelope} {row : ActionAudit}
    (audited : auditRow crypto python resolvers requireAllArtifacts i env = .ok row) :
    row.ok = true ↔ RowHolds crypto python resolvers requireAllArtifacts i env := by
  unfold auditRow at audited
  unfold RowHolds
  cases resolved : resolvers.artifact i env.outputHash with
  | none =>
      simp only [resolved, bind, Except.bind, pure, Except.pure, Except.ok.injEq] at audited
      subst audited
      simp
  | some art =>
      by_cases bound : crypto.hexdigest art = env.outputHash
      · cases result : checkArtifact crypto python resolvers i env art with
        | error error => simp [resolved, bound, result, bind, Except.bind] at audited
        | ok checks =>
            simp only [resolved, Option.any_some, bound, decide_true, result, if_true, bind,
              Except.bind, pure, Except.pure, Except.ok.injEq] at audited
            subst audited
            simpa using checkArtifact_ok bound result
      · simp only [resolved, Option.any_some, bound, decide_false, Bool.false_eq_true, if_false, bind,
          Except.bind, pure, Except.pure, Except.ok.injEq] at audited
        subst audited
        simp [ArtifactHolds, bound]

/-! All rows. -/

theorem EnforcementHolds.readable {named : String} {enforcement : Value} {answer : Option Fields}
    (holds : EnforcementHolds crypto python named enforcement answer) :
    EnforcementReadable crypto python named enforcement answer := by
  intro recorded manifest answered
  rcases holds recorded with ⟨manifest', answered', hash, accepted⟩
  cases answered.symm.trans answered'
  refine ⟨named, hash, fun _ => ?_⟩
  cases enforcement with
  | dict record => exact (gate_answers_iff python.str record manifest).mp ⟨_, accepted⟩
  | _ => cases recorded

theorem DecompositionHolds.readable {subtasks : Value} {answer : Option Fields} {before : Prop}
    (holds : DecompositionHolds python subtasks answer) :
    DecompositionReadable python subtasks answer before := by
  intro listed manifest answered
  rcases holds listed with ⟨manifest', answered', grant, granted, _, count, counted, _⟩
  cases answered.symm.trans answered'
  exact ⟨grant, granted, fun _ => by simp [counted]⟩

theorem RowHolds.readable {requireAllArtifacts : Bool} {i : Nat} {env : ICPEnvelope}
    (holds : RowHolds crypto python resolvers requireAllArtifacts i env) :
    RowReadable crypto python resolvers i env := by
  intro art resolved _
  rw [RowHolds, Option.mem_def.mp resolved] at holds
  rcases holds with ⟨_, fields, read, enforcement, decomposition⟩
  exact ⟨fields, read, enforcement.readable, decomposition.readable⟩

/-- A statement about every position of a list, from position `i` on. -/
theorem forall_position_cons {α : Type} (holds : Nat → α → Prop) (i : Nat) (first : α)
    (rest : List α) :
    (∀ k item, (first :: rest)[k]? = some item → holds (i + k) item) ↔
      holds i first ∧ ∀ k item, rest[k]? = some item → holds (i + 1 + k) item := by
  constructor
  · intro all
    refine ⟨all 0 first rfl, ?_⟩
    intro k item found
    have later := all (k + 1) item (by simpa using found)
    rwa [Nat.add_assoc, Nat.add_comm 1 k]
  · intro both k item found
    cases k with
    | zero =>
        cases found
        exact both.1
    | succ k =>
        have later := both.2 k item (by simpa using found)
        rwa [Nat.add_assoc, Nat.add_comm 1 k] at later

theorem auditRows_answers_iff (requireAllArtifacts : Bool) (i : Nat) (envelopes : List ICPEnvelope) :
    (∃ rows, auditRows crypto python resolvers requireAllArtifacts i envelopes = .ok rows) ↔
      ∀ k env, envelopes[k]? = some env → RowReadable crypto python resolvers (i + k) env := by
  induction envelopes generalizing i with
  | nil => simp [auditRows]
  | cons env rest ih =>
      rw [forall_position_cons, ← auditRow_answers_iff requireAllArtifacts i env, ← ih (i + 1),
        auditRows]
      cases auditRow crypto python resolvers requireAllArtifacts i env with
      | error error => simp [bind, Except.bind]
      | ok row =>
          cases auditRows crypto python resolvers requireAllArtifacts (i + 1) rest with
          | error error => simp [bind, Except.bind]
          | ok rows => simp [bind, Except.bind, pure, Except.pure]

theorem auditRows_ok {requireAllArtifacts : Bool} {i : Nat} {envelopes : List ICPEnvelope}
    {rows : List ActionAudit}
    (audited : auditRows crypto python resolvers requireAllArtifacts i envelopes = .ok rows) :
    rows.all (·.ok) = true ↔ ∀ k env, envelopes[k]? = some env →
      RowHolds crypto python resolvers requireAllArtifacts (i + k) env := by
  induction envelopes generalizing i rows with
  | nil =>
      cases audited
      simp
  | cons env rest ih =>
      rw [auditRows] at audited
      cases first : auditRow crypto python resolvers requireAllArtifacts i env with
      | error error => simp [first, bind, Except.bind] at audited
      | ok row =>
          cases others : auditRows crypto python resolvers requireAllArtifacts (i + 1) rest with
          | error error => simp [first, others, bind, Except.bind] at audited
          | ok tail =>
              simp only [first, others, bind, Except.bind, pure, Except.pure, Except.ok.injEq]
                at audited
              subst audited
              rw [forall_position_cons, ← auditRow_ok first, ← ih others, List.all_cons,
                Bool.and_eq_true]

theorem auditProvenance_answers_iff (requireClosed requireAllArtifacts : Bool)
    (envelopes : List ICPEnvelope) :
    (∃ report, auditProvenance crypto python resolvers requireClosed requireAllArtifacts envelopes =
      .ok report) ↔
      ∀ k env, envelopes[k]? = some env → RowReadable crypto python resolvers k env := by
  have rows : (∃ rows, auditRows crypto python resolvers requireAllArtifacts 0 envelopes =
      .ok rows) ↔ _ := auditRows_answers_iff requireAllArtifacts 0 envelopes
  simp only [Nat.zero_add] at rows
  rw [← rows, auditProvenance]
  cases auditRows crypto python resolvers requireAllArtifacts 0 envelopes with
  | error error => simp [bind, Except.bind]
  | ok rows => simp [bind, Except.bind, pure, Except.pure]

/-- The verdict: an intact graph, and every row holds. -/
theorem auditProvenance_valid {requireClosed requireAllArtifacts : Bool}
    {envelopes : List ICPEnvelope} {report : AuditReport}
    (audited : auditProvenance crypto python resolvers requireClosed requireAllArtifacts envelopes =
      .ok report) :
    report.valid = true ↔ (verifyDag crypto requireClosed envelopes).valid = true ∧
      ∀ k env, envelopes[k]? = some env →
        RowHolds crypto python resolvers requireAllArtifacts k env := by
  rw [auditProvenance] at audited
  cases rows : auditRows crypto python resolvers requireAllArtifacts 0 envelopes with
  | error error => simp [rows, bind, Except.bind] at audited
  | ok actions =>
      simp only [rows, bind, Except.bind, pure, Except.pure, Except.ok.injEq] at audited
      subst audited
      have all := auditRows_ok rows
      simp only [Nat.zero_add] at all
      rw [Bool.and_eq_true, all]

end Specification

end Audit

end Gyza
