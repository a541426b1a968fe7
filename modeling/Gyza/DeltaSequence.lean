import Gyza.Lib.Dict
import Gyza.Lib.Run

/-! Sequence numbers of published deltas (`internal/gossip/gossip.go`).

`PublishDelta` takes its number and publishes in two steps, and calls may overlap
between them; `checkAndUpdateSeq` drops what is not above the sender's high-water
mark. Signing, marshalling and the mesh stand between the two sides and are left out:
a call may fail after it took its number. -/

namespace Gyza

/-- What the two sides read of a `BlackboardDelta`. -/
structure GoDelta where
  projectId : String
  senderCompositorPubkey : String
  senderSeq : Int64
  deriving DecidableEq

inductive ProjectIdError where
  | required
  | tooLong (length : Nat)
  | invalidCharacter (character : Char) (offset : Nat)
  deriving DecidableEq

/-- The alphabet of project ids, which stand in topic names as they are. -/
def projectIdChar (character : Char) : Bool :=
  ('a' ≤ character ∧ character ≤ 'z') ∨ ('A' ≤ character ∧ character ≤ 'Z') ∨
    ('0' ≤ character ∧ character ≤ '9') ∨ character = '-' ∨ character = '_' ∨ character = '.'

/-- The loop of `ValidateProjectID`; offsets count bytes. -/
def checkCharacters (offset : Nat) : List Char → Except ProjectIdError Unit
  | [] => .ok ()
  | character :: rest =>
      if projectIdChar character then checkCharacters (offset + character.utf8Size) rest
      else .error (.invalidCharacter character offset)

def validateProjectId (projectId : String) : Except ProjectIdError Unit :=
  if projectId = "" then .error .required
  else if 128 < projectId.utf8ByteSize then .error (.tooLong projectId.utf8ByteSize)
  else checkCharacters 0 projectId.toList

inductive PublishError where
  | nilDelta
  | projectId (error : ProjectIdError)
  | notJoined (projectId : String)
  deriving DecidableEq

structure Manager where
  pubKeyHex : String
  topics : Finset String
  publishSeq : Int64 := 0
  seqBase : Int64

namespace Manager

def joinProject (manager : Manager) (projectId : String) : Manager :=
  match validateProjectId projectId with
  | .error _ => manager
  | .ok () => { manager with topics := insert projectId manager.topics }

def leaveProject (manager : Manager) (projectId : String) : Manager :=
  { manager with topics := manager.topics.erase projectId }

def nextSeq (manager : Manager) : Int64 × Manager :=
  let publishSeq := manager.publishSeq + 1
  (manager.seqBase + publishSeq, { manager with publishSeq := publishSeq })

/-- `PublishDelta` up to the number it takes. -/
def stampDelta (manager : Manager) (projectId : Option String) :
    Except PublishError (GoDelta × Manager) :=
  match projectId with
  | none => .error .nilDelta
  | some projectId =>
      match validateProjectId projectId with
      | .error error => .error (.projectId error)
      | .ok () =>
          if projectId ∉ manager.topics then .error (.notJoined projectId)
          else
            let drawn := manager.nextSeq
            .ok (⟨projectId, manager.pubKeyHex, drawn.1⟩, drawn.2)

end Manager

/-- The sending side: calls that have their number, and what the topics carry. -/
structure Publishing where
  manager : Manager
  inFlight : List GoDelta := []
  published : List GoDelta := []

inductive PublishAct where
  | join (projectId : String)
  | leave (projectId : String)
  | stamp (projectId : Option String)
  | publish (call : Nat)
  | abandon (call : Nat)

def publishStep (state : Publishing) : PublishAct → Publishing
  | .join projectId => { state with manager := state.manager.joinProject projectId }
  | .leave projectId => { state with manager := state.manager.leaveProject projectId }
  | .stamp projectId =>
      match state.manager.stampDelta projectId with
      | .error _ => state
      | .ok (delta, manager) =>
          { state with manager := manager, inFlight := state.inFlight ++ [delta] }
  | .publish call =>
      match state.inFlight[call]? with
      | none => state
      | some delta =>
          { state with
            inFlight := state.inFlight.eraseIdx call
            published := state.published ++ [delta] }
  | .abandon call => { state with inFlight := state.inFlight.eraseIdx call }

def publishedOn (projectId : String) (state : Publishing) : List GoDelta :=
  state.published.filter (fun delta => delta.projectId = projectId)

/-- A call publishes a positive number, above all that the project's topic carries. -/
def InOrder (projectId : String) (state : Publishing) : PublishAct → Prop
  | .publish call =>
      ∀ delta, state.inFlight[call]? = some delta → delta.projectId = projectId →
        0 < delta.senderSeq ∧
          ∀ earlier ∈ publishedOn projectId state, earlier.senderSeq < delta.senderSeq
  | _ => True

/-! The receiving side. Times are nanoseconds since 1970. -/

/-- Go's zero `time.Time`. -/
def zeroTime : Int := -62135596800 * 1000000000

/-- `Time.Sub`, which saturates. -/
def timeSub (later earlier : Int) : Int := max (-2 ^ 63) (min (2 ^ 63 - 1) (later - earlier))

def dedupRetention : Int := 30 * 60 * 1000000000

def dedupSweepEvery : Int := 5 * 60 * 1000000000

structure SeqEntry where
  seq : Int64
  touchedAt : Int

structure TopicState where
  projectId : String
  lastSeen : Dict String SeqEntry := Dict.empty
  lastPrune : Int := zeroTime

namespace TopicState

def sweep (topic : TopicState) (now : Int) : TopicState :=
  if timeSub now topic.lastPrune > dedupSweepEvery then
    { topic with
      lastSeen := topic.lastSeen.filterValues (fun entry => ¬timeSub now entry.touchedAt > dedupRetention)
      lastPrune := now }
  else topic

/-- A sender without an entry is read as the zero `seqEntry`. -/
def mark (topic : TopicState) (sender : String) : Int64 :=
  ((topic.lastSeen.lookup sender).map SeqEntry.seq).getD 0

def checkAndUpdateSeq (topic : TopicState) (now : Int) (delta : GoDelta) : Bool × TopicState :=
  let topic := topic.sweep now
  if delta.senderSeq ≤ topic.mark delta.senderCompositorPubkey then (false, topic)
  else
    (true, { topic with
      lastSeen := topic.lastSeen.set delta.senderCompositorPubkey ⟨delta.senderSeq, now⟩ })

end TopicState

/-- A delta with the time at which the receiver checks it. -/
structure DeltaDelivery where
  now : Int
  delta : GoDelta

def receive (topic : TopicState) (delivery : DeltaDelivery) : TopicState :=
  (topic.checkAndUpdateSeq delivery.now delivery.delta).2

/-- The delta is not the sender's, or passes. -/
def Passes (sender : String) (topic : TopicState) (delivery : DeltaDelivery) : Prop :=
  delivery.delta.senderCompositorPubkey = sender →
    (topic.checkAndUpdateSeq delivery.now delivery.delta).1 = true

/-- What a receiver gets from one sender, among the deltas of others. -/
def carriedFrom (sender : String) (deliveries : List DeltaDelivery) : List GoDelta :=
  (deliveries.map DeltaDelivery.delta).filter (fun delta => delta.senderCompositorPubkey = sender)

/-! The receiver, delta by delta. -/

section Receiver

theorem mark_sweep (topic : TopicState) (now : Int) (sender : String) :
    (topic.sweep now).mark sender = topic.mark sender ∨ (topic.sweep now).mark sender = 0 := by
  unfold TopicState.sweep TopicState.mark
  split_ifs
  · rw [Dict.lookup_filterValues]
    cases topic.lastSeen.lookup sender with
    | none => exact Or.inl rfl
    | some entry =>
        by_cases kept : timeSub now entry.touchedAt > dedupRetention
        · exact Or.inr (by simp [Option.filter, kept])
        · exact Or.inl (by simp [Option.filter, kept])
  · exact Or.inl rfl

theorem check_passes {topic : TopicState} {now : Int} {delta : GoDelta} :
    (topic.checkAndUpdateSeq now delta).1 = true ↔
      (topic.sweep now).mark delta.senderCompositorPubkey < delta.senderSeq := by
  unfold TopicState.checkAndUpdateSeq
  simp only
  split_ifs with old
  · simpa using old
  · simpa using old

theorem mark_check_passed {topic : TopicState} {now : Int} {delta : GoDelta}
    (passed : (topic.checkAndUpdateSeq now delta).1 = true) :
    (topic.checkAndUpdateSeq now delta).2.mark delta.senderCompositorPubkey = delta.senderSeq := by
  have above := check_passes.mp passed
  unfold TopicState.checkAndUpdateSeq
  simp only
  rw [if_neg (Int64.not_le.mpr above), TopicState.mark, Dict.lookup_set, if_pos rfl]
  rfl

/-- A delta of another sender leaves the mark to the sweep. -/
theorem mark_check_other {topic : TopicState} {now : Int} {delta : GoDelta} {sender : String}
    (other : delta.senderCompositorPubkey ≠ sender) :
    (topic.checkAndUpdateSeq now delta).2.mark sender = (topic.sweep now).mark sender := by
  unfold TopicState.checkAndUpdateSeq
  simp only
  split_ifs
  · rfl
  · simp only [TopicState.mark, Dict.lookup_set, if_neg other]

/-- Positive numbers that grow. -/
structure Increasing (deltas : List GoDelta) : Prop where
  positive : ∀ delta ∈ deltas, 0 < delta.senderSeq
  growing : deltas.Pairwise (fun earlier later => earlier.senderSeq < later.senderSeq)

/-- Increasing numbers above the mark all pass, whenever they are checked. -/
theorem passes_of_increasing (sender : String) (deliveries : List DeltaDelivery) :
    ∀ topic : TopicState, Increasing (carriedFrom sender deliveries) →
      (∀ delta ∈ carriedFrom sender deliveries, topic.mark sender < delta.senderSeq) →
      Run.Admissible receive (Passes sender) topic deliveries := by
  induction deliveries with
  | nil => exact fun _ _ _ => trivial
  | cons delivery rest ih =>
      intro topic increasing above
      by_cases own : delivery.delta.senderCompositorPubkey = sender
      · have split : carriedFrom sender (delivery :: rest) =
            delivery.delta :: carriedFrom sender rest := by
          simp [carriedFrom, own]
        rw [split] at increasing above
        have growing := List.pairwise_cons.mp increasing.growing
        have passed : (topic.checkAndUpdateSeq delivery.now delivery.delta).1 = true := by
          rw [check_passes, own]
          rcases mark_sweep topic delivery.now sender with same | zero
          · rw [same]
            exact above _ List.mem_cons_self
          · rw [zero]
            exact increasing.positive _ List.mem_cons_self
        refine ⟨fun _ => passed, ih _ ⟨?_, growing.2⟩ ?_⟩
        · exact fun delta member => increasing.positive delta (List.mem_cons_of_mem _ member)
        · intro delta member
          have mark := mark_check_passed passed
          rw [own] at mark
          rw [receive, mark]
          exact growing.1 delta member
      · have split : carriedFrom sender (delivery :: rest) = carriedFrom sender rest := by
          simp [carriedFrom, own]
        rw [split] at increasing above
        refine ⟨fun here => absurd here own, ih _ increasing ?_⟩
        intro delta member
        rw [receive, mark_check_other own]
        rcases mark_sweep topic delivery.now sender with same | zero
        · rw [same]
          exact above delta member
        · rw [zero]
          exact increasing.positive delta member

/-- Every entry was touched at the time the clock shows. -/
def Still (now : Int) (topic : TopicState) : Prop :=
  ∀ sender entry, topic.lastSeen.lookup sender = some entry → entry.touchedAt = now

theorem mark_sweep_still {topic : TopicState} {now : Int} (still : Still now topic)
    (sender : String) : (topic.sweep now).mark sender = topic.mark sender := by
  unfold TopicState.sweep TopicState.mark
  split_ifs
  · rw [Dict.lookup_filterValues]
    cases found : topic.lastSeen.lookup sender with
    | none => rfl
    | some entry =>
        have fresh : ¬timeSub now entry.touchedAt > dedupRetention := by
          rw [still sender entry found]
          simp [timeSub, dedupRetention]
        simp [Option.filter, fresh]
  · rfl

theorem still_check {topic : TopicState} {now : Int} (still : Still now topic) (delta : GoDelta) :
    Still now (topic.checkAndUpdateSeq now delta).2 := by
  have swept : Still now (topic.sweep now) := by
    intro sender entry found
    unfold TopicState.sweep at found
    split_ifs at found
    · rw [Dict.lookup_filterValues, Option.filter_eq_some_iff] at found
      exact still sender entry found.1
    · exact still sender entry found
  unfold TopicState.checkAndUpdateSeq
  simp only
  split_ifs
  · exact swept
  · intro sender entry found
    rw [Dict.lookup_set] at found
    split_ifs at found
    · cases found
      rfl
    · exact swept sender entry found

/-- Under a clock that stands still nothing is evicted: what passes grows. -/
theorem increasing_of_passes (now : Int) (sender : String) (deltas : List GoDelta) :
    ∀ topic : TopicState, Still now topic → (∀ delta ∈ deltas, delta.senderCompositorPubkey = sender) →
      Run.Admissible receive (Passes sender) topic (deltas.map (DeltaDelivery.mk now)) →
      (∀ delta ∈ deltas, topic.mark sender < delta.senderSeq) ∧
        deltas.Pairwise (fun earlier later => earlier.senderSeq < later.senderSeq) := by
  induction deltas with
  | nil => exact fun _ _ _ _ => ⟨by simp, List.Pairwise.nil⟩
  | cons delta rest ih =>
      intro topic still own passes
      have mine : delta.senderCompositorPubkey = sender := own delta List.mem_cons_self
      have passed := passes.1 mine
      have above : topic.mark sender < delta.senderSeq := by
        have checked := check_passes.mp passed
        rw [mark_sweep_still still] at checked
        exact mine ▸ checked
      have mark := mark_check_passed passed
      rcases ih _ (still_check still delta)
        (fun other member => own other (List.mem_cons_of_mem _ member)) passes.2 with
        ⟨later, growing⟩
      simp only [mine] at mark
      simp only [mark] at later
      refine ⟨?_, List.pairwise_cons.mpr ⟨later, growing⟩⟩
      intro other member
      rcases List.mem_cons.mp member with rfl | further
      · exact above
      · exact Int64.lt_trans above (later other further)

end Receiver

/-! The sender, step by step. -/

section Sender

theorem increasing_concat (deltas : List GoDelta) (delta : GoDelta) :
    Increasing (deltas ++ [delta]) ↔
      Increasing deltas ∧ 0 < delta.senderSeq ∧
        ∀ earlier ∈ deltas, earlier.senderSeq < delta.senderSeq := by
  constructor
  · intro increasing
    rcases List.pairwise_append.mp increasing.growing with ⟨growing, _, last⟩
    refine ⟨⟨?_, growing⟩, ?_, ?_⟩
    · exact fun earlier member => increasing.positive earlier (List.mem_append_left _ member)
    · exact increasing.positive delta (by simp)
    · exact fun earlier member => last earlier member delta (by simp)
  · intro ⟨increasing, positive, last⟩
    constructor
    · intro other member
      rcases List.mem_append.mp member with before | new
      · exact increasing.positive other before
      · exact List.mem_singleton.mp new ▸ positive
    · rw [List.pairwise_append]
      refine ⟨increasing.growing, List.pairwise_singleton _ _, ?_⟩
      intro earlier member other new
      exact List.mem_singleton.mp new ▸ last earlier member

/-- One step: what the topic carries stays increasing exactly if the step is in order. -/
theorem increasing_step (projectId : String) (state : Publishing) (act : PublishAct) :
    Increasing (publishedOn projectId (publishStep state act)) ↔
      Increasing (publishedOn projectId state) ∧ InOrder projectId state act := by
  cases act with
  | join other => exact (and_iff_left trivial).symm
  | leave other => exact (and_iff_left trivial).symm
  | abandon call => exact (and_iff_left trivial).symm
  | stamp other =>
      unfold publishStep
      simp only
      split
      · exact (and_iff_left trivial).symm
      · exact (and_iff_left trivial).symm
  | publish call =>
      unfold publishStep InOrder
      simp only
      cases found : state.inFlight[call]? with
      | none => simp
      | some delta =>
          simp only [publishedOn, List.filter_append, Option.some.injEq, forall_eq']
          by_cases here : delta.projectId = projectId
          · rw [List.filter_singleton, decide_eq_true here, cond_true, increasing_concat]
            simp only [here, forall_const]
          · rw [List.filter_singleton, decide_eq_false here, cond_false, List.append_nil]
            simp only [here, false_implies, and_true]

theorem increasing_run (projectId : String) (acts : List PublishAct) (start : Publishing) :
    Increasing (publishedOn projectId (Run.run publishStep start acts)) ↔
      Increasing (publishedOn projectId start) ∧
        Run.Admissible publishStep (InOrder projectId) start acts := by
  induction acts generalizing start with
  | nil => exact (and_iff_left trivial).symm
  | cons act rest ih =>
      rw [Run.run_cons, ih, increasing_step, and_assoc]
      rfl

/-- Every delta carries the pubkey of the manager that stamped it. -/
structure Stamped (sender : String) (state : Publishing) : Prop where
  manager : state.manager.pubKeyHex = sender
  inFlight : ∀ delta ∈ state.inFlight, delta.senderCompositorPubkey = sender
  published : ∀ delta ∈ state.published, delta.senderCompositorPubkey = sender

theorem stampDelta_ok {manager after : Manager} {projectId : Option String} {delta : GoDelta}
    (ok : manager.stampDelta projectId = .ok (delta, after)) :
    delta.senderCompositorPubkey = manager.pubKeyHex ∧ after.pubKeyHex = manager.pubKeyHex := by
  unfold Manager.stampDelta at ok
  split at ok
  · cases ok
  · split at ok
    · cases ok
    · split_ifs at ok
      cases ok
      exact ⟨rfl, rfl⟩

theorem stamped_step {sender : String} (state : Publishing) (act : PublishAct)
    (stamped : Stamped sender state) : Stamped sender (publishStep state act) := by
  cases act with
  | join projectId =>
      refine ⟨?_, stamped.inFlight, stamped.published⟩
      unfold publishStep Manager.joinProject
      simp only
      split
      · exact stamped.manager
      · exact stamped.manager
  | leave projectId => exact ⟨stamped.manager, stamped.inFlight, stamped.published⟩
  | stamp projectId =>
      unfold publishStep
      simp only
      split
      · exact stamped
      · rename_i delta manager ok
        rcases stampDelta_ok ok with ⟨signed, kept⟩
        refine ⟨kept.trans stamped.manager, ?_, stamped.published⟩
        intro other member
        rcases List.mem_append.mp member with before | new
        · exact stamped.inFlight other before
        · rw [List.mem_singleton.mp new]
          exact signed.trans stamped.manager
  | publish call =>
      unfold publishStep
      simp only
      split
      · exact stamped
      · rename_i delta found
        refine ⟨stamped.manager, ?_, ?_⟩
        · exact fun other member => stamped.inFlight other (List.mem_of_mem_eraseIdx member)
        · intro other member
          rcases List.mem_append.mp member with before | new
          · exact stamped.published other before
          · rw [List.mem_singleton.mp new]
            exact stamped.inFlight delta (List.mem_of_getElem? found)
  | abandon call =>
      refine ⟨stamped.manager, ?_, stamped.published⟩
      exact fun other member => stamped.inFlight other (List.mem_of_mem_eraseIdx member)

theorem stamped_run (manager : Manager) (acts : List PublishAct) :
    Stamped manager.pubKeyHex (Run.run publishStep { manager := manager } acts) := by
  apply Run.kept_run publishStep (Stamped manager.pubKeyHex) stamped_step
  exact ⟨rfl, by simp, by simp⟩

end Sender

/-- Whatever times a receiver checks at and whatever other senders publish, every delta of a
sender passes, for the one time it is delivered, exactly if the sender's calls publish on the
project in the order of their numbers. -/
theorem deltas_pass_iff (manager : Manager) (acts : List PublishAct) (projectId : String) :
    (∀ deliveries, carriedFrom manager.pubKeyHex deliveries =
        publishedOn projectId (Run.run publishStep { manager := manager } acts) →
      Run.Admissible receive (Passes manager.pubKeyHex) { projectId := projectId } deliveries) ↔
    Run.Admissible publishStep (InOrder projectId) { manager := manager } acts := by
  have start : Increasing (publishedOn projectId { manager := manager }) :=
    ⟨by simp [publishedOn], List.Pairwise.nil⟩
  have blank : ({ projectId := projectId } : TopicState).mark manager.pubKeyHex = 0 := rfl
  have ordered := increasing_run projectId acts { manager := manager }
  rw [and_iff_right start] at ordered
  rw [← ordered]
  constructor
  · intro pass
    have own : ∀ delta ∈ publishedOn projectId (Run.run publishStep { manager := manager } acts),
        delta.senderCompositorPubkey = manager.pubKeyHex :=
      fun delta member => (stamped_run manager acts).published delta (List.mem_of_mem_filter member)
    obtain ⟨positive, growing⟩ := increasing_of_passes 0 manager.pubKeyHex _ _
      (by intro sender entry found; cases found) own (pass _ (by
        rw [carriedFrom, List.map_map]
        exact (congrArg _ (List.map_id _)).trans
          (List.filter_eq_self.mpr (fun delta member => by simpa using own delta member))))
    exact ⟨fun delta member => blank ▸ positive delta member, growing⟩
  · intro increasing deliveries carried
    rw [← carried] at increasing
    apply passes_of_increasing _ _ _ increasing
    intro delta member
    rw [blank]
    exact increasing.positive delta member

namespace Sample

def deltaManager : Manager :=
  { pubKeyHex := "aa", topics := {"project"}, seqBase := 1700000000000000000 }

/-- Two calls take their numbers; the second publishes first. -/
def overtaking : List PublishAct :=
  [.stamp (some "project"), .stamp (some "project"), .publish 1, .publish 0]

/-- Both deltas as they were published, checked at one time. -/
def inPublicationOrder : List DeltaDelivery :=
  [⟨1700000001000000000, "project", "aa", 1700000000000000002⟩,
    ⟨1700000001000000000, "project", "aa", 1700000000000000001⟩]

end Sample

/-- The delta that was overtaken is dropped. -/
theorem overtaken_delta_lost :
    carriedFrom "aa" Sample.inPublicationOrder =
        publishedOn "project"
          (Run.run publishStep { manager := Sample.deltaManager } Sample.overtaking) ∧
      ¬Run.Admissible receive (Passes "aa") { projectId := "project" } Sample.inPublicationOrder := by
  refine ⟨by decide +kernel, ?_⟩
  intro ⟨_, second, _⟩
  have passed := second rfl
  revert passed
  decide +kernel

end Gyza
