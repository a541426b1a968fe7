import Gyza.Staging

/-! The promotion gate: `PromotionGate.promote` of `gyza/containment/staging.py`. -/

namespace Gyza

namespace Staging

open Run (run Admissible)

variable {π σ φ : Type}

structure Escalation (φ : Type) where
  reasons : List (DecisionReason φ)
  actionTypes : List String
  provenance : List String
  batchSize : Nat

inductive PromoteError where
  | engine (error : EngineError)
  | append (error : AppendError)
  deriving DecidableEq

/-- A refused batch says how many events were rolled back. -/
inductive PromotionResult (φ : Type) where
  | promoted (batchSize : Nat) (decision : Option (Decision φ))
  | refused (batchSize : Nat) (decision : Decision φ) (escalation : Escalation φ)
      (rolledBack : Nat)
  | raised (error : PromoteError)

structure PromotionGate (π φ : Type) where
  staging : StagingArea π
  escalations : List (Escalation φ)

section Gate

variable (context : LogContext π) (project : List (Event π) → σ) (engine : GuardEngine σ φ)

def batchSize (area : StagingArea π) : Nat := area.stagedEvents.length + area.pendingGate.length

def mergeDecision (decision next : Decision φ) : Decision φ :=
  { decision with
    admitted := decision.admitted && next.admitted
    reasons := if next.admitted then decision.reasons else decision.reasons ++ next.reasons
    evaluated := decision.evaluated ++ next.evaluated
    measured := next.measured.rows.foldl (fun measured row => measured.set row.1 row.2)
      decision.measured }

/-- The staged batch, and then every queued action, against the same two states. -/
def gateDecision (area : StagingArea π) (harmClasses : Option (List String)) :
    Except EngineError (Decision φ) := do
  let s0 := StagingArea.originState project
  let sNext := area.stagedState project
  let decision ← engine.evaluate s0 sNext "stage_artifact" .promotion harmClasses
  area.pendingGate.foldlM (fun decision action => do
    let next ← engine.evaluate s0 sNext action.actionType .promotion harmClasses
    pure (mergeDecision decision next)) decision

def appendQueued (area : StagingArea π) (action : Queued π) :
    Except AppendError (StagingArea π) :=
  match AppendOnlyLog.refusal context action.partition (.action action.payload) with
  | some error => .error error
  | none =>
      .ok (area.pushEvent context action.partition action.actionType (.action action.payload))

/-- The queue written to the log, up to the action whose append raises. -/
def appendQueue (area : StagingArea π) : StagingArea π × Option AppendError :=
  Run.untilError (appendQueued context) area area.pendingGate

def promoteLocked (gate : PromotionGate π φ) (harmClasses : Option (List String)) :
    PromotionResult φ × PromotionGate π φ :=
  let area := gate.staging
  let batch := batchSize area
  if batch = 0 then (.promoted 0 none, gate)
  else
    match gateDecision project engine area harmClasses with
    | .error error => (.raised (.engine error), gate)
    | .ok decision =>
        if decision.admitted = false then
          let escalation : Escalation φ :=
            { reasons := decision.reasons
              actionTypes := ((area.pendingGate.map Queued.actionType ++
                area.stagedEvents.map Event.kind).dedup).mergeSort
              provenance := area.stagedEvents.map Event.hash
              batchSize := batch }
          let rolled := area.rollback context "promotion refused"
          (.refused batch decision escalation rolled.2,
            { staging := rolled.1, escalations := gate.escalations ++ [escalation] })
        else
          match appendQueue context area with
          | (appended, some error) => (.raised (.append error), { gate with staging := appended })
          | (appended, none) =>
              (.promoted batch (some decision),
                { gate with staging := appended.clearQueue.markPromoted context batch })

/-! A run of calls on one area and its gate. -/

inductive StagingCall (π : Type) where
  | stage (partition actionType : String) (payload : π)
  | submit (partition actionType : String) (payload : π)
  | openWindow (reason : String)
  | rollback (reason : String)
  | promote

variable (rev : ReversibilityTable)

def stagingStep (gate : PromotionGate π φ) (call : StagingCall π) : PromotionGate π φ :=
  match call with
  | .stage partition actionType payload =>
      match gate.staging.stage context rev partition actionType payload with
      | .error _ => gate
      | .ok staged => { gate with staging := staged }
  | .submit partition actionType payload =>
      { gate with staging := gate.staging.submit partition actionType payload }
  | .openWindow reason => { gate with staging := gate.staging.openWindow context reason }
  | .rollback reason => { gate with staging := (gate.staging.rollback context reason).1 }
  | .promote => (promoteLocked context project engine gate none).2

def PromotionGate.ofLog (log : AppendOnlyLog π) : PromotionGate π φ :=
  { staging := StagingArea.ofLog log, escalations := [] }

/-- What a promotion promises: a promoted baseline within every bound, and a refusal
that leaves the baseline as it was. -/
def KeepsBounds (gate : PromotionGate π φ) (call : StagingCall π) : Prop :=
  match call with
  | .promote =>
      match (promoteLocked context project engine gate none).1 with
      | .promoted _ _ =>
          engine.InBounds (StagingArea.originState project)
            ((stagingStep context project engine rev gate .promote).staging.baselineState project)
      | .refused _ _ _ _ =>
          (stagingStep context project engine rev gate .promote).staging.baselineState project =
            gate.staging.baselineState project
      | .raised _ => True
  | _ => True

/-- The state a batch would be promoted to, with its queued actions in place. -/
def queuedState (area : StagingArea π) : Option σ :=
  match appendQueue context area with
  | (_, some _) => none
  | (appended, none) => some (appended.stagedState project)

/-- An empty batch is promoted only over a baseline that was promoted before, unless the
origin is within the bounds; and an admitted batch is within them with its queue. -/
def BoundsQueue (gate : PromotionGate π φ) (call : StagingCall π) : Prop :=
  match call with
  | .promote =>
      (batchSize gate.staging = 0 → 0 ≤ gate.staging.watermark ∨
        engine.InBounds (StagingArea.originState project) (StagingArea.originState project)) ∧
      (batchSize gate.staging ≠ 0 →
        engine.Admits (StagingArea.originState project) (gate.staging.stagedState project) →
          ∀ promoted, queuedState context project gate.staging = some promoted →
            engine.InBounds (StagingArea.originState project) promoted)
  | _ => True

/-! What the baseline shows depends only on the watermark and on what is live up to it. -/

/-- Two areas with one baseline. -/
def SameBaseline (area later : StagingArea π) : Prop :=
  later.watermark = area.watermark ∧ later.live later.watermark = area.live area.watermark

theorem SameBaseline.trans {first second third : StagingArea π} (one : SameBaseline first second)
    (two : SameBaseline second third) : SameBaseline first third :=
  ⟨two.1.trans one.1, two.2.trans one.2⟩

variable {context project engine rev}

theorem SameBaseline.baselineState_eq {area later : StagingArea π}
    (same : SameBaseline area later) :
    later.baselineState project = area.baselineState project :=
  congrArg project same.2

theorem visible_pushEvent (area : StagingArea π) (partition kind : String) (payload : Payload π) :
    (area.pushEvent context partition kind payload).log.visible =
      area.log.visible ++ [area.log.nextEvent context partition kind payload].filter
        fun event => !event.isControl := by
  unfold StagingArea.pushEvent AppendOnlyLog.visible AppendOnlyLog.push
  rw [List.filter_append]

theorem live_pushEvent (area : StagingArea π) (partition kind : String) (payload : Payload π)
    {upto : Int} (past : upto < area.log.events.length) :
    (area.pushEvent context partition kind payload).live upto = area.live upto := by
  unfold StagingArea.live
  rw [visible_pushEvent, List.filter_append]
  have hidden : ([area.log.nextEvent context partition kind payload].filter
      fun event => !event.isControl).filter (fun event => decide (event.seq ≤ upto ∧
        event.seq ∉ (area.pushEvent context partition kind payload).abandoned)) = [] := by
    apply List.filter_eq_nil_iff.mpr
    intro event listed
    rcases List.mem_singleton.mp (List.mem_of_mem_filter listed) with rfl
    have numbered : (area.log.nextEvent context partition kind payload).seq =
        area.log.events.length := rfl
    rw [numbered]
    simp only [decide_eq_true_eq]
    omega
  rw [hidden, List.append_nil]
  rfl

theorem sameBaseline_pushEvent (area : StagingArea π) (partition kind : String)
    (payload : Payload π) : SameBaseline area (area.pushEvent context partition kind payload) :=
  ⟨rfl, live_pushEvent area partition kind payload area.promoted_past⟩

theorem sameBaseline_abandonStaged (area : StagingArea π) (victims : List Nat)
    (past : ∀ seq ∈ victims, seq < area.log.events.length)
    (staged : ∀ seq ∈ victims, area.watermark < seq) :
    SameBaseline area (area.abandonStaged victims past) := by
  refine ⟨rfl, ?_⟩
  unfold StagingArea.live
  apply List.filter_congr
  intro event _
  have same : event.seq ∉ (area.abandonStaged victims past).abandoned ↔
      event.seq ∉ area.abandoned ∧ event.seq ∉ victims := by
    unfold StagingArea.abandonStaged
    rw [List.mem_append, not_or]
  simp only [same, decide_eq_decide]
  constructor
  · rintro ⟨promoted, live, -⟩
    exact ⟨promoted, live⟩
  · rintro ⟨promoted, live⟩
    refine ⟨promoted, live, fun victim => ?_⟩
    have above := staged event.seq victim
    have kept : (area.abandonStaged victims past).watermark = area.watermark := rfl
    omega

theorem stagedEvents_above (area : StagingArea π) :
    ∀ seq ∈ area.stagedEvents.map Event.seq, area.watermark < seq := by
  intro seq listed
  rcases List.mem_map.mp listed with ⟨event, staged, rfl⟩
  have both := List.of_mem_filter staged
  simp only [decide_eq_true_eq] at both
  exact both.1

/-- A rollback gives up only what is above the watermark. -/
theorem sameBaseline_rollback (area : StagingArea π) (reason : String) :
    SameBaseline area (area.rollback context reason).1 := by
  unfold StagingArea.rollback
  dsimp only
  split_ifs
  · exact sameBaseline_abandonStaged area _ area.stagedSeqs_lt (stagedEvents_above area)
  · exact (sameBaseline_pushEvent area _ _ _).trans (sameBaseline_abandonStaged _ _
      (area.stagedSeqs_lt_push context _ _ _) (stagedEvents_above area))

theorem sameBaseline_appendQueue (area : StagingArea π) :
    SameBaseline area (appendQueue context area).1 := by
  unfold appendQueue
  apply Run.untilError_invariant
  · intro before after action _ same appended
    unfold appendQueued at appended
    split at appended
    · cases appended
    · rw [← Except.ok.inj appended]
      exact same.trans (sameBaseline_pushEvent before _ _ _)
  · exact ⟨rfl, rfl⟩

/-- The promoted baseline is the state that was staged when the watermark moved. -/
theorem baselineState_markPromoted (area : StagingArea π) (batch : Nat) :
    (area.markPromoted context batch).baselineState project = area.stagedState project := by
  unfold StagingArea.baselineState StagingArea.stagedState
  congr 1
  have marker : [area.log.nextEvent context "__control__" kindPromote
      (.promote area.log.lastSeq batch area.currentWindow)].filter
        (fun event => !event.isControl) = [] := rfl
  have visible : (area.markPromoted context batch).log.visible = area.log.visible := by
    change (area.pushEvent context _ _ _).log.visible = _
    rw [visible_pushEvent, marker, List.append_nil]
  have moved : (area.markPromoted context batch).watermark = area.log.events.length := by
    unfold StagingArea.markPromoted StagingArea.pushEvent AppendOnlyLog.lastSeq
    dsimp only
    rw [AppendOnlyLog.length_push]
    omega
  have kept : (area.markPromoted context batch).abandoned = area.abandoned := rfl
  unfold StagingArea.live
  rw [visible, moved, kept]
  apply List.filter_congr
  intro event listed
  have below := area.log.seq_lt_length (List.mem_of_mem_filter listed)
  unfold AppendOnlyLog.lastSeq
  simp only [decide_eq_decide, and_congr_left_iff]
  intro _
  omega

/-- Below zero nothing is promoted, and the baseline is the origin. -/
theorem baselineState_origin {area : StagingArea π} (fresh : area.watermark < 0) :
    area.baselineState project = StagingArea.originState project := by
  unfold StagingArea.baselineState StagingArea.originState
  congr 1
  apply List.filter_eq_nil_iff.mpr
  intro event _
  simp only [decide_eq_true_eq]
  omega

variable (context project engine)

theorem gateDecision_admit_iff (area : StagingArea π) :
    ∃ decision, gateDecision project engine area none = .ok decision ∧
      (decision.admitted = true ↔
        engine.Admits (StagingArea.originState project) (area.stagedState project)) := by
  have walk : ∀ (queue : List (Queued π)) (start : Decision φ),
      (start.admitted = true ↔
        engine.Admits (StagingArea.originState project) (area.stagedState project)) →
      ∃ decision, queue.foldlM (fun decision action => do
          let next ← engine.evaluate (StagingArea.originState project) (area.stagedState project)
            action.actionType .promotion none
          pure (mergeDecision decision next)) start = Except.ok decision ∧
        (decision.admitted = true ↔
          engine.Admits (StagingArea.originState project) (area.stagedState project)) := by
    intro queue
    induction queue with
    | nil => exact fun start admitted => ⟨start, rfl, admitted⟩
    | cons action rest ih =>
        intro start admitted
        rcases engine.evaluate_admit_iff (StagingArea.originState project)
          (area.stagedState project) action.actionType with ⟨next, evaluated, answer⟩
        rcases ih (mergeDecision start next) (by
          simp only [mergeDecision, Bool.and_eq_true, admitted, answer, and_self]) with
          ⟨decision, walked, result⟩
        refine ⟨decision, ?_, result⟩
        rw [List.foldlM_cons, evaluated]
        exact walked
  rcases engine.evaluate_admit_iff (StagingArea.originState project) (area.stagedState project)
    "stage_artifact" with ⟨start, evaluated, answer⟩
  rcases walk area.pendingGate start answer with ⟨decision, walked, result⟩
  refine ⟨decision, ?_, result⟩
  unfold gateDecision
  dsimp only
  rw [evaluated]
  exact walked

/-- Everything a promotion over all harm classes can do. -/
theorem promoteLocked_cases (gate : PromotionGate π φ) :
    (batchSize gate.staging = 0 ∧
      promoteLocked context project engine gate none = (.promoted 0 none, gate)) ∨
    (batchSize gate.staging ≠ 0 ∧
      ¬engine.Admits (StagingArea.originState project) (gate.staging.stagedState project) ∧
      (∃ batch decision escalation rolledBack,
        (promoteLocked context project engine gate none).1 =
          .refused batch decision escalation rolledBack) ∧
      (promoteLocked context project engine gate none).2.staging =
        (gate.staging.rollback context "promotion refused").1) ∨
    (batchSize gate.staging ≠ 0 ∧
      engine.Admits (StagingArea.originState project) (gate.staging.stagedState project) ∧
      ∃ appended error, appendQueue context gate.staging = (appended, some error) ∧
        promoteLocked context project engine gate none =
          (.raised (.append error), { gate with staging := appended })) ∨
    (batchSize gate.staging ≠ 0 ∧
      engine.Admits (StagingArea.originState project) (gate.staging.stagedState project) ∧
      ∃ appended decision, appendQueue context gate.staging = (appended, none) ∧
        promoteLocked context project engine gate none =
          (.promoted (batchSize gate.staging) (some decision),
            { gate with staging :=
                appended.clearQueue.markPromoted context (batchSize gate.staging) })) := by
  by_cases empty : batchSize gate.staging = 0
  · exact Or.inl ⟨empty, by simp only [promoteLocked, empty, if_true]⟩
  · right
    rcases gateDecision_admit_iff project engine gate.staging with ⟨decision, decided, admitted⟩
    cases answer : decision.admitted with
    | false =>
        left
        refine ⟨empty, fun admits => ?_, ?_, ?_⟩
        · rw [← admitted, answer] at admits
          cases admits
        · simp only [promoteLocked, empty, if_false, decided, answer, if_true]
          exact ⟨_, _, _, _, rfl⟩
        · simp only [promoteLocked, empty, if_false, decided, answer, if_true]
    | true =>
        right
        have admits := admitted.mp answer
        rcases queue : appendQueue context gate.staging with ⟨appended, _ | error⟩
        · right
          refine ⟨empty, admits, appended, decision, rfl, ?_⟩
          simp only [promoteLocked, empty, if_false, decided, answer, Bool.true_eq_false, queue]
        · left
          refine ⟨empty, admits, appended, error, rfl, ?_⟩
          simp only [promoteLocked, empty, if_false, decided, answer, Bool.true_eq_false, queue]

/-- With nothing queued the gate measures the very state it promotes. -/
theorem boundsQueue_of_empty_queue {gate : PromotionGate π φ} (empty : gate.staging.pendingGate = [])
    (based : 0 ≤ gate.staging.watermark ∨
      engine.InBounds (StagingArea.originState project) (StagingArea.originState project)) :
    BoundsQueue context project engine gate .promote := by
  refine ⟨fun _ => based, ?_⟩
  intro _ admits promoted queued
  simp only [queuedState, appendQueue, empty, Run.untilError, Option.some.injEq] at queued
  rw [← queued]
  exact admits.inBounds

/-- A baseline that was promoted is within every bound. -/
def BaselineInBounds (gate : PromotionGate π φ) : Prop :=
  0 ≤ gate.staging.watermark →
    engine.InBounds (StagingArea.originState project) (gate.staging.baselineState project)

theorem baselineInBounds_of_same {gate later : PromotionGate π φ}
    (bounded : BaselineInBounds project engine gate)
    (same : SameBaseline gate.staging later.staging) :
    BaselineInBounds project engine later := by
  intro promoted
  rw [same.baselineState_eq]
  exact bounded (same.1 ▸ promoted)

variable (rev)

theorem keepsBounds_iff (gate : PromotionGate π φ) (call : StagingCall π)
    (bounded : BaselineInBounds project engine gate) :
    KeepsBounds context project engine rev gate call ↔
      BoundsQueue context project engine gate call := by
  cases call with
  | promote =>
      unfold KeepsBounds BoundsQueue stagingStep
      dsimp only
      rcases promoteLocked_cases context project engine gate with
        ⟨empty, result⟩ | ⟨batch, refused, ⟨_, _, _, _, answer⟩, rolled⟩ |
        ⟨batch, admits, appended, error, queue, result⟩ |
        ⟨batch, admits, appended, decision, queue, result⟩
      · simp only [result, empty, forall_const, ne_eq, not_true_eq_false, false_implies, and_true]
        constructor
        · intro inBounds
          rcases lt_or_ge gate.staging.watermark 0 with fresh | promoted
          · rw [baselineState_origin fresh] at inBounds
            exact Or.inr inBounds
          · exact Or.inl promoted
        · rintro (promoted | origin)
          · exact bounded promoted
          · rcases lt_or_ge gate.staging.watermark 0 with fresh | promoted
            · rwa [baselineState_origin fresh]
            · exact bounded promoted
      · simp only [answer, rolled, batch, refused]
        simp [(sameBaseline_rollback gate.staging "promotion refused").baselineState_eq]
      · simp [result, batch, queuedState, queue]
      · simp only [result, batch, false_implies, true_and, ne_eq, not_false_eq_true, forall_const,
          queuedState, queue, Option.some.injEq, forall_eq', admits]
        rw [baselineState_markPromoted]
        rfl
  | stage partition actionType payload => exact Iff.rfl
  | submit partition actionType payload => exact Iff.rfl
  | openWindow reason => exact Iff.rfl
  | rollback reason => exact Iff.rfl

theorem baselineInBounds_step (gate : PromotionGate π φ) (call : StagingCall π)
    (bounded : BaselineInBounds project engine gate)
    (allowed : BoundsQueue context project engine gate call) :
    BaselineInBounds project engine (stagingStep context project engine rev gate call) := by
  cases call with
  | promote =>
      have fine := (keepsBounds_iff context project engine rev gate .promote bounded).mpr allowed
      unfold KeepsBounds at fine
      dsimp only at fine
      rcases promoteLocked_cases context project engine gate with
        ⟨empty, result⟩ | ⟨batch, refused, -, rolled⟩ |
        ⟨batch, admits, appended, error, queue, result⟩ |
        ⟨batch, admits, appended, decision, queue, result⟩
      · apply baselineInBounds_of_same project engine bounded
        simp only [stagingStep, result]
        exact ⟨rfl, rfl⟩
      · apply baselineInBounds_of_same project engine bounded
        simp only [stagingStep, rolled]
        exact sameBaseline_rollback gate.staging _
      · apply baselineInBounds_of_same project engine bounded
        simp only [stagingStep, result]
        have kept : SameBaseline gate.staging (appendQueue context gate.staging).1 :=
          sameBaseline_appendQueue gate.staging
        rwa [queue] at kept
      · rw [result] at fine
        exact fun _ => fine
  | stage partition actionType payload =>
      apply baselineInBounds_of_same project engine bounded
      unfold stagingStep
      dsimp only
      split
      · exact ⟨rfl, rfl⟩
      · rename_i staged done
        unfold StagingArea.stage at done
        split_ifs at done
        split at done
        · cases done
        · rw [← Except.ok.inj done]
          exact sameBaseline_pushEvent gate.staging _ _ _
  | submit partition actionType payload =>
      exact baselineInBounds_of_same project engine bounded ⟨rfl, rfl⟩
  | openWindow reason =>
      exact baselineInBounds_of_same project engine bounded (sameBaseline_pushEvent _ _ _ _)
  | rollback reason =>
      exact baselineInBounds_of_same project engine bounded (sameBaseline_rollback _ reason)

/-- In every run, each promotion keeps its promise exactly when every batch is within
the bounds with its queue, and no empty batch is promoted over an origin outside them. -/
theorem promotions_keep_bounds_iff (log : AppendOnlyLog π) (calls : List (StagingCall π)) :
    (∀ front call back, calls = front ++ call :: back →
      KeepsBounds context project engine rev
        (run (stagingStep context project engine rev) (PromotionGate.ofLog log) front) call) ↔
      Admissible (stagingStep context project engine rev) (BoundsQueue context project engine)
        (PromotionGate.ofLog log) calls :=
  Run.all_fine_iff_admissible _ _ _ (BaselineInBounds project engine)
    (fun gate call bounded => keepsBounds_iff context project engine rev gate call bounded)
    (fun gate call bounded allowed =>
      baselineInBounds_step context project engine rev gate call bounded allowed)
    _ calls (fun promoted => absurd (show (0 : Int) ≤ -1 from promoted) (by decide))

end Gate

/-! The harm is the number of events, and none is allowed. -/

namespace QueuedSend

def context : LogContext Unit where
  hashOf := fun seq _ _ _ _ _ => toString seq
  encodes := fun _ => true
  timeNs := fun seq => seq

def project (events : List (Event Unit)) : Int := events.length

def harmClass : HarmClass Int Int where
  id := "H3_egress"
  quantity := fun s0 s => s - s0
  bound := some 0

def invariant : Invariant Int Int where
  id := "I3_egress"
  harmClass := "H3_egress"
  cls := .cumulative
  predicate := fun measured bound _ _ => decide (measured ≤ bound)

def engine : GuardEngine Int Int where
  harm := { rows := [harmClass], distinct := List.nodup_singleton _ }
  invariants := { rows := [invariant], distinct := List.nodup_singleton _ }
  rev := defaultTable

end QueuedSend

open QueuedSend in
/-- A queued message is not in the state the gate measures, and is in the one it promotes. -/
theorem queued_action_exceeds_bound :
    (∀ hc ∈ engine.harm.rows, hc.bound.isSome = true ∧ engine.forHarmClass hc.id ≠ []) ∧
      ¬KeepsBounds context project engine defaultTable
        (run (stagingStep context project engine defaultTable)
          (PromotionGate.ofLog AppendOnlyLog.empty) [.submit "peer" "send_message" ()]) .promote := by
  constructor
  · intro hc listed
    rw [List.mem_singleton.mp listed]
    exact ⟨rfl, List.cons_ne_nil _ _⟩
  · intro keeps
    have bounded : engine.InBounds 0 1 := keeps
    have within := bounded invariant (List.mem_singleton_self _) harmClass
      (List.mem_singleton_self _) rfl 0 rfl
    exact absurd within (by decide)

end Staging

end Gyza
