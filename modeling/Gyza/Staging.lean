import Gyza.Lib.Dict
import Gyza.Lib.Run

/-! The staged interior (`gyza/containment/staging.py`) over an append-only log
(`log.py`), and the engine its promotion gate asks (`engine.py`, with `harm.py`,
`invariants.py` and `reversibility.py`).

State is never stored: it is what a projector makes of the events that are visible. -/

namespace Gyza

namespace Staging

/-! Reversibility. -/

inductive Reversibility where
  | reversibleInterior
  | irreversible
  | egress
  deriving DecidableEq

abbrev ReversibilityTable := Dict String Reversibility

/-- An unknown action type counts as irreversible. -/
def classify (table : ReversibilityTable) (actionType : String) : Reversibility :=
  (table.lookup actionType).getD .irreversible

def defaultVocabulary : List (String × Reversibility) :=
  [("read", .reversibleInterior), ("stage_artifact", .reversibleInterior),
    ("stage_envelope", .reversibleInterior), ("compute", .reversibleInterior),
    ("retrieve_memory", .reversibleInterior), ("claim_work_item", .reversibleInterior),
    ("reserve_credits", .reversibleInterior), ("sign_envelope", .irreversible),
    ("settle_credits", .irreversible), ("delete_artifact", .irreversible),
    ("grant_delegation", .irreversible), ("rotate_key", .irreversible),
    ("update_guard_config", .irreversible), ("publish_agent", .egress), ("send_message", .egress),
    ("publish_delta", .egress), ("publish_attestation", .egress), ("external_send", .egress),
    ("write_outside_sandbox", .egress)]

def defaultTable : ReversibilityTable :=
  defaultVocabulary.foldl (fun table entry => table.set entry.1 entry.2) Dict.empty

/-! The append-only log. -/

variable {π : Type}

/-- The fields of an action, or those of a control marker. -/
inductive Payload (π : Type) where
  | action (fields : π)
  | windowOpen (reason : String)
  | rollback (fromSeq toSeq : Int) (abandoned : List Nat) (reason : String)
  | promote (throughSeq : Int) (batch : Nat) (windowId : Nat)

structure Event (π : Type) where
  seq : Nat
  partition : String
  kind : String
  payload : Payload π
  tsNs : Int
  prevHash : String
  hash : String

def kindPromote : String := "__promote__"

def kindRollback : String := "__rollback__"

def kindWindowOpen : String := "__window_open__"

def controlKinds : List String := [kindPromote, kindRollback, kindWindowOpen]

def Event.isControl (event : Event π) : Bool := event.kind ∈ controlKinds

/-- What an append takes from outside: the hash, which actions have a JSON text, and
the clock when each event is appended. -/
structure LogContext (π : Type) where
  hashOf : (seq : Nat) → (partition kind : String) → Payload π → (tsNs : Int) →
    (prevHash : String) → String
  encodes : π → Bool
  timeNs : (seq : Nat) → Int

inductive AppendError where
  | noPartition
  | notEncodable
  deriving DecidableEq

def genesis : String := String.ofList (List.replicate 64 '0')

structure AppendOnlyLog (π : Type) where
  events : List (Event π)
  numbered : events.map Event.seq = List.range events.length

namespace AppendOnlyLog

def empty : AppendOnlyLog π := { events := [], numbered := rfl }

def lastSeq (log : AppendOnlyLog π) : Int := log.events.length - 1

def nextEvent (context : LogContext π) (log : AppendOnlyLog π) (partition kind : String)
    (payload : Payload π) : Event π :=
  let seq := log.events.length
  let prevHash := (log.events.getLast?.map Event.hash).getD genesis
  let tsNs := context.timeNs seq
  { seq := seq, partition := partition, kind := kind, payload := payload, tsNs := tsNs,
    prevHash := prevHash, hash := context.hashOf seq partition kind payload tsNs prevHash }

def push (context : LogContext π) (log : AppendOnlyLog π) (partition kind : String)
    (payload : Payload π) : AppendOnlyLog π where
  events := log.events ++ [log.nextEvent context partition kind payload]
  numbered := by
    rw [List.map_append, log.numbered, List.length_append]
    exact List.range_succ.symm

/-- Why `append` raises, if it does. -/
def refusal (context : LogContext π) (partition : String) (payload : Payload π) :
    Option AppendError :=
  if partition = "" then some .noPartition
  else
    match payload with
    | .action fields => if context.encodes fields = true then none else some .notEncodable
    | _ => none

/-- `events()`, which hides the control markers. -/
def visible (log : AppendOnlyLog π) : List (Event π) :=
  log.events.filter fun event => !event.isControl

theorem length_push (context : LogContext π) (log : AppendOnlyLog π) (partition kind : String)
    (payload : Payload π) :
    (log.push context partition kind payload).events.length = log.events.length + 1 := by
  simp [push]

theorem seq_lt_length (log : AppendOnlyLog π) {event : Event π} (listed : event ∈ log.events) :
    event.seq < log.events.length := by
  have numbered : event.seq ∈ log.events.map Event.seq := List.mem_map_of_mem listed
  rw [log.numbered] at numbered
  exact List.mem_range.mp numbered

end AppendOnlyLog

/-! The staging area. -/

/-- An action that waits for the gate. -/
structure Queued (π : Type) where
  partition : String
  actionType : String
  payload : π

/-- The watermark is the last promoted event's number, -1 before any promotion. -/
structure StagingArea (π : Type) where
  log : AppendOnlyLog π
  watermark : Int
  abandoned : List Nat
  pendingGate : List (Queued π)
  promoted_past : watermark < log.events.length
  abandoned_past : ∀ seq ∈ abandoned, seq < log.events.length

inductive StageError where
  | notInterior (actionType : String) (reversibility : Reversibility)
  | append (error : AppendError)
  deriving DecidableEq

namespace StagingArea

/-- A fresh area over a log, none of which counts as promoted. -/
def ofLog (log : AppendOnlyLog π) : StagingArea π where
  log := log
  watermark := -1
  abandoned := []
  pendingGate := []
  promoted_past := by omega
  abandoned_past := fun _ listed => absurd listed List.not_mem_nil

variable (context : LogContext π)

def pushEvent (area : StagingArea π) (partition kind : String) (payload : Payload π) :
    StagingArea π where
  log := area.log.push context partition kind payload
  watermark := area.watermark
  abandoned := area.abandoned
  pendingGate := area.pendingGate
  promoted_past := by
    rw [AppendOnlyLog.length_push]
    have past := area.promoted_past
    omega
  abandoned_past := by
    intro seq listed
    rw [AppendOnlyLog.length_push]
    exact Nat.lt_succ_of_lt (area.abandoned_past seq listed)

def stage (rev : ReversibilityTable) (area : StagingArea π) (partition actionType : String)
    (payload : π) : Except StageError (StagingArea π) :=
  if classify rev actionType ≠ .reversibleInterior then
    .error (.notInterior actionType (classify rev actionType))
  else
    match AppendOnlyLog.refusal context partition (.action payload) with
    | some error => .error (.append error)
    | none => .ok (area.pushEvent context partition actionType (.action payload))

def submit (area : StagingArea π) (partition actionType : String) (payload : π) : StagingArea π :=
  { area with pendingGate := area.pendingGate ++
      [{ partition := partition, actionType := actionType, payload := payload }] }

def openWindow (area : StagingArea π) (reason : String) : StagingArea π :=
  area.pushEvent context "__control__" kindWindowOpen (.windowOpen reason)

/-- The number of the last window marker; 0 is the genesis window. -/
def currentWindow (area : StagingArea π) : Nat :=
  (((area.log.events.filter fun event => event.kind = kindWindowOpen).map
    Event.seq).getLast?).getD 0

def live (area : StagingArea π) (upto : Int) : List (Event π) :=
  area.log.visible.filter fun event => event.seq ≤ upto ∧ event.seq ∉ area.abandoned

def stagedEvents (area : StagingArea π) : List (Event π) :=
  area.log.visible.filter fun event => area.watermark < event.seq ∧ event.seq ∉ area.abandoned

theorem stagedSeqs_lt (area : StagingArea π) :
    ∀ seq ∈ area.stagedEvents.map Event.seq, seq < area.log.events.length := by
  intro seq listed
  rcases List.mem_map.mp listed with ⟨event, staged, rfl⟩
  exact area.log.seq_lt_length (List.mem_of_mem_filter (List.mem_of_mem_filter staged))

theorem stagedSeqs_lt_push (area : StagingArea π) (partition kind : String) (payload : Payload π) :
    ∀ seq ∈ area.stagedEvents.map Event.seq,
      seq < (area.pushEvent context partition kind payload).log.events.length := by
  intro seq listed
  have grown : (area.pushEvent context partition kind payload).log.events.length =
      area.log.events.length + 1 := AppendOnlyLog.length_push _ _ _ _ _
  rw [grown]
  exact Nat.lt_succ_of_lt (area.stagedSeqs_lt seq listed)

/-- Abandon what is staged and empty the queue; the events stay in the log. -/
def abandonStaged (area : StagingArea π) (victims : List Nat)
    (past : ∀ seq ∈ victims, seq < area.log.events.length) : StagingArea π :=
  { area with
    abandoned := area.abandoned ++ victims
    pendingGate := []
    abandoned_past := by
      intro seq listed
      rcases List.mem_append.mp listed with old | new
      · exact area.abandoned_past seq old
      · exact past seq new }

def rollback (area : StagingArea π) (reason : String) : StagingArea π × Nat :=
  let victims := area.stagedEvents.map Event.seq
  if victims = [] ∧ area.pendingGate.length = 0 then
    (area.abandonStaged victims area.stagedSeqs_lt, victims.length)
  else
    let marker : Payload π :=
      .rollback (area.watermark + 1) area.log.lastSeq victims reason
    ((area.pushEvent context "__control__" kindRollback marker).abandonStaged victims
      (area.stagedSeqs_lt_push context "__control__" kindRollback marker), victims.length)

def clearQueue (area : StagingArea π) : StagingArea π := { area with pendingGate := [] }

def markPromoted (area : StagingArea π) (batch : Nat) : StagingArea π :=
  let marked := area.pushEvent context "__control__" kindPromote
    (.promote area.log.lastSeq batch area.currentWindow)
  { marked with
    watermark := marked.log.lastSeq
    promoted_past := by
      unfold AppendOnlyLog.lastSeq
      omega }

variable {σ : Type} (project : List (Event π) → σ)

def originState : σ := project []

def baselineState (area : StagingArea π) : σ := project (area.live area.watermark)

def stagedState (area : StagingArea π) : σ := project (area.live area.log.lastSeq)

end StagingArea

/-! The guard engine. -/

inductive InvariantClass where
  | conservation
  | monotoneNonCumulative
  | cumulative
  deriving DecidableEq

def InvariantClass.composesStatelessly (cls : InvariantClass) : Bool := cls ≠ .cumulative

structure HarmClass (σ φ : Type) where
  id : String
  quantity : σ → σ → φ
  bound : Option φ

structure Invariant (σ φ : Type) where
  id : String
  harmClass : String
  cls : InvariantClass
  predicate : (measured bound : φ) → σ → σ → Bool

inductive Phase where
  | interior
  | promotion
  deriving DecidableEq

inductive DecisionReason (φ : Type) where
  | notInterior (actionType : String) (reversibility : Reversibility)
  | uncovered (harmClass : String)
  | unsetBound (harmClass : String)
  | violated (invariant : String) (cls : InvariantClass) (harmClass : String) (measured bound : φ)

structure Decision (φ : Type) where
  admitted : Bool
  reasons : List (DecisionReason φ)
  evaluated : List String
  deferred : List String
  measured : Dict String φ
  reversibility : Reversibility

structure GuardEngine (σ φ : Type) where
  harm : Table (HarmClass.id : HarmClass σ φ → String)
  invariants : Table (Invariant.id : Invariant σ φ → String)
  rev : ReversibilityTable

inductive EngineError where
  | unknownHarmClass (id : String)
  deriving DecidableEq

namespace GuardEngine

variable {σ φ : Type} (engine : GuardEngine σ φ) (s0 sNext : σ)

def forHarmClass (id : String) : List (Invariant σ φ) :=
  engine.invariants.rows.filter fun inv => inv.harmClass = id

def checkInvariant (phase : Phase) (harmClass : String) (measured bound : φ)
    (decision : Decision φ) (inv : Invariant σ φ) : Decision φ :=
  if phase = .interior ∧ inv.cls.composesStatelessly = false then
    { decision with deferred := decision.deferred ++ [inv.id] }
  else
    let decision := { decision with evaluated := decision.evaluated ++ [inv.id] }
    if inv.predicate measured bound s0 sNext = true then decision
    else
      { decision with
        admitted := false
        reasons := decision.reasons ++
          [.violated inv.id inv.cls harmClass measured bound] }

def checkClass (phase : Phase) (decision : Decision φ) (id : String) :
    Except EngineError (Decision φ) :=
  match engine.harm.get? id with
  | none => .error (.unknownHarmClass id)
  | some hc =>
      if (engine.forHarmClass id).length = 0 then
        .ok { decision with admitted := false, reasons := decision.reasons ++ [.uncovered id] }
      else
        match hc.bound with
        | none =>
            .ok { decision with admitted := false, reasons := decision.reasons ++ [.unsetBound id] }
        | some bound =>
            let measured := hc.quantity s0 sNext
            .ok ((engine.forHarmClass id).foldl (checkInvariant s0 sNext phase id measured bound)
              { decision with measured := decision.measured.set id measured })

def evaluate (actionType : String) (phase : Phase) (harmClasses : Option (List String)) :
    Except EngineError (Decision φ) :=
  let reversibility := classify engine.rev actionType
  let decision : Decision φ :=
    { admitted := true, reasons := [], evaluated := [], deferred := [], measured := Dict.empty,
      reversibility := reversibility }
  if phase = .interior ∧ reversibility ≠ .reversibleInterior then
    .ok { decision with admitted := false, reasons := [.notInterior actionType reversibility] }
  else
    (harmClasses.getD (engine.harm.rows.map HarmClass.id)).foldlM
      (engine.checkClass s0 sNext phase) decision

/-- Every class has a bound and an invariant, and every invariant holds of its class. -/
def Admits : Prop :=
  ∀ hc ∈ engine.harm.rows, engine.forHarmClass hc.id ≠ [] ∧ ∃ bound, hc.bound = some bound ∧
    ∀ inv ∈ engine.forHarmClass hc.id,
      inv.predicate (hc.quantity s0 sNext) bound s0 sNext = true

/-- The harm from one state to another satisfies every invariant of a bounded class. -/
def InBounds : Prop :=
  ∀ inv ∈ engine.invariants.rows, ∀ hc ∈ engine.harm.rows, hc.id = inv.harmClass →
    ∀ bound, hc.bound = some bound →
      inv.predicate (hc.quantity s0 sNext) bound s0 sNext = true

theorem Admits.inBounds {engine : GuardEngine σ φ} {s0 sNext : σ}
    (admits : engine.Admits s0 sNext) : engine.InBounds s0 sNext := by
  intro inv listed hc classed same bound bounded
  rcases (admits hc classed).2 with ⟨other, given, holds⟩
  rw [bounded, Option.some.injEq] at given
  subst given
  exact holds inv (List.mem_filter.mpr ⟨listed, by simp [same]⟩)

theorem admit_checkInvariants (harmClass : String) (measured bound : φ)
    (invs : List (Invariant σ φ)) (decision : Decision φ) :
    (invs.foldl (checkInvariant s0 sNext .promotion harmClass measured bound) decision).admitted =
        true ↔
      decision.admitted = true ∧ ∀ inv ∈ invs, inv.predicate measured bound s0 sNext = true := by
  induction invs generalizing decision with
  | nil => simp
  | cons inv rest ih =>
      rw [List.foldl_cons, ih, checkInvariant, if_neg (by simp)]
      dsimp only
      split_ifs with holds
      · simp [holds]
      · simp [holds]

theorem checkClass_admit (decision : Decision φ) {hc : HarmClass σ φ}
    (classed : hc ∈ engine.harm.rows) :
    ∃ next, engine.checkClass s0 sNext .promotion decision hc.id = .ok next ∧
      (next.admitted = true ↔ decision.admitted = true ∧ engine.forHarmClass hc.id ≠ [] ∧
        ∃ bound, hc.bound = some bound ∧ ∀ inv ∈ engine.forHarmClass hc.id,
          inv.predicate (hc.quantity s0 sNext) bound s0 sNext = true) := by
  have found : engine.harm.get? hc.id = some hc := (Table.mem_rows _ _).mp classed
  unfold checkClass
  rw [found]
  dsimp only
  split_ifs with uncovered
  · refine ⟨_, rfl, ?_⟩
    simp [List.length_eq_zero_iff.mp uncovered]
  · have covered : engine.forHarmClass hc.id ≠ [] := fun none => uncovered (by rw [none]; rfl)
    cases bounded : hc.bound with
    | none => exact ⟨_, rfl, by simp⟩
    | some bound =>
        refine ⟨_, rfl, ?_⟩
        rw [admit_checkInvariants]
        simp [covered]

/-- At the gate the engine's answer does not depend on the action, and is `Admits`. -/
theorem evaluate_admit_iff (actionType : String) :
    ∃ decision, engine.evaluate s0 sNext actionType .promotion none = .ok decision ∧
      (decision.admitted = true ↔ engine.Admits s0 sNext) := by
  have walk : ∀ (classes : List (HarmClass σ φ)) (start : Decision φ),
      (∀ hc ∈ classes, hc ∈ engine.harm.rows) →
      ∃ decision, (classes.map HarmClass.id).foldlM (engine.checkClass s0 sNext .promotion) start =
          .ok decision ∧
        (decision.admitted = true ↔ start.admitted = true ∧ ∀ hc ∈ classes,
          engine.forHarmClass hc.id ≠ [] ∧ ∃ bound, hc.bound = some bound ∧
            ∀ inv ∈ engine.forHarmClass hc.id,
              inv.predicate (hc.quantity s0 sNext) bound s0 sNext = true) := by
    intro classes
    induction classes with
    | nil => exact fun start _ => ⟨start, rfl, by simp⟩
    | cons hc rest ih =>
        intro start listed
        rcases engine.checkClass_admit s0 sNext start (listed hc List.mem_cons_self) with
          ⟨next, checked, admitted⟩
        rcases ih next (fun other member => listed other (List.mem_cons_of_mem _ member)) with
          ⟨decision, walked, result⟩
        refine ⟨decision, ?_, ?_⟩
        · rw [List.map_cons, List.foldlM_cons, checked]
          exact walked
        · rw [result, admitted, List.forall_mem_cons, and_assoc]
  unfold evaluate
  simp only [reduceCtorEq, false_and, if_false, Option.getD_none]
  rcases walk engine.harm.rows _ (fun _ listed => listed) with ⟨decision, walked, result⟩
  exact ⟨decision, walked, result.trans ⟨fun both => both.2, fun admits => ⟨rfl, admits⟩⟩⟩

end GuardEngine

end Staging

end Gyza
