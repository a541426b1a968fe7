import Gyza.Promotion

/-! The origin of an accounting window, re-derived from the live log after every operation
(`gyza/containment/staging.py`).

The window is the number of its marker, which no operation rewrites. What was live before
the marker is another matter: a rollback gives up everything since the last promotion,
also from before the window. -/

namespace Gyza

namespace Staging

open Run (run Admissible)

variable {π σ φ : Type}

namespace StagingArea

/-- The live events from before the window. -/
def originEvents (area : StagingArea π) : List (Event π) :=
  (area.live area.log.lastSeq).filter fun event => event.seq < area.currentWindow

def windowOriginState (project : List (Event π) → σ) (area : StagingArea π) : σ :=
  project area.originEvents

/-- Everything live from before the window has been promoted. -/
def SettledBefore (area : StagingArea π) : Prop :=
  ∀ event ∈ area.stagedEvents, area.currentWindow ≤ event.seq

end StagingArea

/-- The operations within a window. -/
inductive WindowCall (π : Type) where
  | stage (partition actionType : String) (payload : π)
  | submit (partition actionType : String) (payload : π)
  | rollback (reason : String)
  | promote (harmClasses : Option (List String))

section Window

variable (context : LogContext π) (project : List (Event π) → σ) (engine : GuardEngine σ φ)
  (rev : ReversibilityTable)

def windowStep (gate : PromotionGate π φ) (call : WindowCall π) : PromotionGate π φ :=
  match call with
  | .stage partition actionType payload =>
      stagingStep context project engine rev gate (.stage partition actionType payload)
  | .submit partition actionType payload =>
      stagingStep context project engine rev gate (.submit partition actionType payload)
  | .rollback reason => stagingStep context project engine rev gate (.rollback reason)
  | .promote harmClasses => (promoteLocked context project engine gate harmClasses).2

/-- The queued actions that a promotion writes to the log. -/
def writtenQueue (area : StagingArea π) : List (Queued π) :=
  area.pendingGate.takeWhile fun action =>
    AppendOnlyLog.refusal context action.partition (.action action.payload) = none

/-- What is given up was promoted or is of this window, and no action is written to the log
under the name of a window marker. -/
def KeepsOrigin (gate : PromotionGate π φ) (call : WindowCall π) : Prop :=
  match call with
  | .stage _ actionType _ =>
      classify rev actionType = .reversibleInterior → actionType ≠ kindWindowOpen
  | .submit _ _ _ => True
  | .rollback _ => gate.staging.SettledBefore
  | .promote harmClasses =>
      ∀ decision, gateDecision project engine gate.staging harmClasses = .ok decision →
        (decision.admitted = false → gate.staging.SettledBefore) ∧
        (decision.admitted = true →
          ∀ action ∈ writtenQueue context gate.staging, action.actionType ≠ kindWindowOpen)

end Window

/-! Two areas of one window and one origin. -/

structure SameOrigin (area later : StagingArea π) : Prop where
  window : later.currentWindow = area.currentWindow
  events : later.originEvents = area.originEvents

theorem SameOrigin.refl (area : StagingArea π) : SameOrigin area area := ⟨rfl, rfl⟩

theorem SameOrigin.trans {first second third : StagingArea π} (one : SameOrigin first second)
    (two : SameOrigin second third) : SameOrigin first third :=
  ⟨two.window.trans one.window, two.events.trans one.events⟩

theorem currentWindow_le (area : StagingArea π) : area.currentWindow ≤ area.log.events.length := by
  unfold StagingArea.currentWindow
  cases last : ((area.log.events.filter fun event => event.kind = kindWindowOpen).map
      Event.seq).getLast? with
  | none => exact Nat.zero_le _
  | some seq =>
      rcases List.mem_map.mp (List.mem_of_getLast? last) with ⟨event, listed, rfl⟩
      exact (area.log.seq_lt_length (List.mem_of_mem_filter listed)).le

/-- Every event of the log counts as live up to its last number. -/
theorem originEvents_eq (area : StagingArea π) :
    area.originEvents = area.log.visible.filter fun event =>
      event.seq ∉ area.abandoned ∧ event.seq < area.currentWindow := by
  unfold StagingArea.originEvents StagingArea.live
  rw [List.filter_filter]
  apply List.filter_congr
  intro event listed
  have below := area.log.seq_lt_length (List.mem_of_mem_filter listed)
  have last : (event.seq : Int) ≤ area.log.lastSeq := by
    unfold AppendOnlyLog.lastSeq
    omega
  simp only [last, true_and, ← Bool.decide_and, and_comm]

section Steps

variable {context : LogContext π} {project : List (Event π) → σ} {engine : GuardEngine σ φ}
  {rev : ReversibilityTable}

variable (context) in
theorem sameOrigin_pushEvent (area : StagingArea π) (partition : String) {kind : String}
    (payload : Payload π) (other : kind ≠ kindWindowOpen) :
    SameOrigin area (area.pushEvent context partition kind payload) := by
  have named : (area.log.nextEvent context partition kind payload).kind = kind := rfl
  have numbered : (area.log.nextEvent context partition kind payload).seq =
      area.log.events.length := rfl
  have window : (area.pushEvent context partition kind payload).currentWindow =
      area.currentWindow := by
    unfold StagingArea.currentWindow StagingArea.pushEvent AppendOnlyLog.push
    dsimp only
    rw [List.filter_append, List.filter_singleton, named, decide_eq_false other]
    simp
  refine ⟨window, ?_⟩
  have bound := currentWindow_le area
  have later : ([area.log.nextEvent context partition kind payload].filter
      fun event => !event.isControl).filter (fun event => decide (event.seq ∉ area.abandoned ∧
        event.seq < area.currentWindow)) = [] := by
    apply List.filter_eq_nil_iff.mpr
    intro event listed
    rcases List.mem_singleton.mp (List.mem_of_mem_filter listed) with rfl
    rw [numbered, decide_eq_true_eq]
    omega
  have kept : (area.pushEvent context partition kind payload).abandoned = area.abandoned := rfl
  rw [originEvents_eq, originEvents_eq, window, visible_pushEvent, kept, List.filter_append, later,
    List.append_nil]

theorem sameOrigin_abandonStaged (area : StagingArea π) (victims : List Nat)
    (past : ∀ seq ∈ victims, seq < area.log.events.length)
    (within : ∀ seq ∈ victims, area.currentWindow ≤ seq) :
    SameOrigin area (area.abandonStaged victims past) := by
  refine ⟨rfl, ?_⟩
  have window : (area.abandonStaged victims past).currentWindow = area.currentWindow := rfl
  have log : (area.abandonStaged victims past).log = area.log := rfl
  have given : (area.abandonStaged victims past).abandoned = area.abandoned ++ victims := rfl
  rw [originEvents_eq, originEvents_eq, window, log, given]
  apply List.filter_congr
  intro event _
  rw [decide_eq_decide, List.mem_append, not_or]
  constructor
  · rintro ⟨⟨live, -⟩, before⟩
    exact ⟨live, before⟩
  · rintro ⟨live, before⟩
    exact ⟨⟨live, fun victim => absurd (within event.seq victim) (not_le.mpr before)⟩, before⟩

/-- A rollback that gives up nothing from before the window. -/
theorem sameOrigin_rollback (area : StagingArea π) (reason : String)
    (settled : area.SettledBefore) : SameOrigin area (area.rollback context reason).1 := by
  have within : ∀ seq ∈ area.stagedEvents.map Event.seq, area.currentWindow ≤ seq := by
    intro seq listed
    rcases List.mem_map.mp listed with ⟨event, staged, rfl⟩
    exact settled event staged
  unfold StagingArea.rollback
  dsimp only
  split_ifs
  · exact sameOrigin_abandonStaged area _ area.stagedSeqs_lt within
  · have marked := sameOrigin_pushEvent context area "__control__"
      (.rollback (area.watermark + 1) area.log.lastSeq (area.stagedEvents.map Event.seq) reason)
      (by decide : kindRollback ≠ kindWindowOpen)
    refine marked.trans (sameOrigin_abandonStaged _ _
      (area.stagedSeqs_lt_push context _ _ _) ?_)
    rw [marked.window]
    exact within

theorem sameOrigin_markPromoted (area : StagingArea π) (batch : Nat) :
    SameOrigin area (area.clearQueue.markPromoted context batch) := by
  have marked := sameOrigin_pushEvent context area.clearQueue "__control__"
    (.promote area.clearQueue.log.lastSeq batch area.clearQueue.currentWindow)
    (by decide : kindPromote ≠ kindWindowOpen)
  exact ⟨marked.window, marked.events⟩

variable (context) in
theorem sameOrigin_untilError (queue : List (Queued π)) (area : StagingArea π)
    (plain : ∀ action ∈ queue.takeWhile (fun action => AppendOnlyLog.refusal context
      action.partition (.action action.payload) = none), action.actionType ≠ kindWindowOpen) :
    SameOrigin area (Run.untilError (appendQueued context) area queue).1 := by
  induction queue generalizing area with
  | nil => exact SameOrigin.refl area
  | cons action rest ih =>
      cases refused : AppendOnlyLog.refusal context action.partition (.action action.payload) with
      | some error =>
          have raised : appendQueued context area action = .error error := by
            simp only [appendQueued, refused]
          rw [Run.untilError_cons_error _ rest raised]
          exact SameOrigin.refl area
      | none =>
          have appended : appendQueued context area action = .ok (area.pushEvent context
              action.partition action.actionType (.action action.payload)) := by
            simp only [appendQueued, refused]
          rw [List.takeWhile_cons_of_pos (by simpa using refused)] at plain
          rw [Run.untilError_cons_ok _ rest appended]
          exact (sameOrigin_pushEvent context area _ _ (plain action List.mem_cons_self)).trans
            (ih _ fun other member => plain other (List.mem_cons_of_mem _ member))

/-- Every outcome of a promotion. -/
theorem sameOrigin_promote (gate : PromotionGate π φ) (harmClasses : Option (List String))
    (keeps : KeepsOrigin context project engine rev gate (.promote harmClasses)) :
    SameOrigin gate.staging (promoteLocked context project engine gate harmClasses).2.staging := by
  rw [promoteLocked]
  split_ifs with empty
  · exact SameOrigin.refl _
  · cases decided : gateDecision project engine gate.staging harmClasses with
    | error error => exact SameOrigin.refl _
    | ok decision =>
        have admissible := keeps decision decided
        dsimp only
        split_ifs with refused
        · exact sameOrigin_rollback _ _ (admissible.1 refused)
        · have written := sameOrigin_untilError context gate.staging.pendingGate
            gate.staging (admissible.2 (by simpa using refused))
          rw [← appendQueue] at written
          rcases queue : appendQueue context gate.staging with ⟨appended, _ | error⟩
          · rw [queue] at written
            exact written.trans (sameOrigin_markPromoted appended _)
          · rw [queue] at written
            exact written

theorem sameOrigin_windowStep (gate : PromotionGate π φ) (call : WindowCall π)
    (keeps : KeepsOrigin context project engine rev gate call) :
    SameOrigin gate.staging (windowStep context project engine rev gate call).staging := by
  cases call with
  | stage partition actionType payload =>
      rw [windowStep, stagingStep, StagingArea.stage]
      split_ifs with outside
      · exact SameOrigin.refl _
      · have named := keeps (not_not.mp outside)
        cases AppendOnlyLog.refusal context partition (Payload.action payload) with
        | some error => exact SameOrigin.refl _
        | none => exact sameOrigin_pushEvent context _ _ _ named
  | submit partition actionType payload => exact ⟨rfl, rfl⟩
  | rollback reason => exact sameOrigin_rollback _ _ keeps
  | promote harmClasses => exact sameOrigin_promote gate harmClasses keeps

end Steps

/-- In a run after `open_window` in which no operation gives up unpromoted work from before
the window or writes a marker of its own, the origin stays where it was. -/
theorem window_origin_fixed (context : LogContext π) (project : List (Event π) → σ)
    (engine : GuardEngine σ φ) (rev : ReversibilityTable) (gate : PromotionGate π φ)
    (reason : String) (calls : List (WindowCall π))
    (admissible : Admissible (windowStep context project engine rev)
      (KeepsOrigin context project engine rev)
      { gate with staging := gate.staging.openWindow context reason } calls) :
    ∀ front back, calls = front ++ back →
      StagingArea.windowOriginState project (run (windowStep context project engine rev)
          { gate with staging := gate.staging.openWindow context reason } front).staging =
        StagingArea.windowOriginState project (gate.staging.openWindow context reason) := by
  intro front back split
  rw [split, Run.admissible_append] at admissible
  have same := Run.invariant_run (windowStep context project engine rev)
    (KeepsOrigin context project engine rev)
    (fun reached => SameOrigin (gate.staging.openWindow context reason) reached.staging)
    (fun state call held keeps => held.trans (sameOrigin_windowStep state call keeps))
    { gate with staging := gate.staging.openWindow context reason } front (SameOrigin.refl _)
    admissible.1
  exact congrArg project same.events

/-! A projector that counts events, of which three may be promoted. -/

namespace CountedWindow

open QueuedSend

theorem engine_distinct :
    ([{ harmClass with bound := some 3 }].map HarmClass.id).Nodup := List.nodup_singleton _

def engine : GuardEngine Int Int :=
  { QueuedSend.engine with harm := ⟨[{ harmClass with bound := some 3 }], engine_distinct⟩ }

def gate (calls : List (StagingCall Unit)) : PromotionGate Unit Int :=
  run (stagingStep context project engine defaultTable) (PromotionGate.ofLog AppendOnlyLog.empty)
    calls

/-- The state after operations in a window opened behind one staged event. -/
def after (before : List (StagingCall Unit)) (calls : List (WindowCall Unit)) :
    PromotionGate Unit Int :=
  run (windowStep context project engine defaultTable)
    { gate before with staging := (gate before).staging.openWindow context "w" } calls

end CountedWindow

open CountedWindow QueuedSend in
theorem window_origin_fixed_sample :
    StagingArea.windowOriginState project
        (after [.stage "a" "read" (), .promote] [.stage "a" "read" (), .rollback "r"]).staging =
      StagingArea.windowOriginState project
        ((gate [.stage "a" "read" (), .promote]).staging.openWindow context "w") := by
  have settled : (after [.stage "a" "read" (), .promote]
      [.stage "a" "read" ()]).staging.SettledBefore := by
    unfold StagingArea.SettledBefore
    decide +kernel
  exact window_origin_fixed context project CountedWindow.engine defaultTable
    (gate [.stage "a" "read" (), .promote]) "w" [.stage "a" "read" (), .rollback "r"]
    ⟨fun _ => by decide, settled, trivial⟩ [.stage "a" "read" (), .rollback "r"] [] rfl

open CountedWindow QueuedSend in
/-- A rollback takes back an event that was staged before the window opened; and a queued
action of the marker's name opens a window when it is promoted. -/
theorem window_origin_moves :
    (((gate [.stage "a" "read" ()]).staging.openWindow context "w").windowOriginState project = 1 ∧
      (after [.stage "a" "read" ()] [.rollback "r"]).staging.windowOriginState project = 0) ∧
    (((gate []).staging.openWindow context "w").windowOriginState project = 0 ∧
      (after [] [.stage "a" "read" (), .submit "a" "__window_open__" (),
        .promote none]).staging.windowOriginState project = 1) := by
  decide +kernel

end Staging

end Gyza
