import Gyza.Crypto
import Gyza.DeltaSequence

/-! What the subscribers of a daemon read (`internal/gossip/gossip.go`): the receive loop of
every joined topic, and the fan-out into bounded channels.

A topic hands over whatever anybody published on it, in any order and any number of times.
Marshalling is a parameter. -/

namespace Gyza.Gossip

open Hex (Bytes)

structure WireDelta extends GoDelta where
  timestampNs : Int64
  payload : Bytes
  appSignature : Bytes
  deriving DecidableEq

/-- The fields under the signature. -/
def WireDelta.unsigned (delta : WireDelta) : WireDelta := { delta with appSignature := [] }

def signatureSize : Nat := 64

def publicKeySize : Nat := 32

def subscriberBufferSize : Nat := 256

section Daemon

/-! `marshal` is the deterministic `proto.Marshal`, which can refuse a delta. -/

variable (crypto : Crypto) (marshal : WireDelta → Option Bytes)

def verifyAppSignature (delta : WireDelta) : Bool :=
  if delta.appSignature.length ≠ signatureSize then false
  else
    match Hex.decode delta.senderCompositorPubkey, marshal delta.unsigned with
    | some pubBytes, some preSig =>
        pubBytes.length = publicKeySize &&
          crypto.ed25519Verify pubBytes (crypto.blake3 preSig) delta.appSignature
    | _, _ => false

/-- A subscription's channel. What it holds can still be read after it was closed; `taken`
is the history of what was read. -/
structure Channel where
  projectFilter : Finset String
  isOpen : Bool := true
  queue : List WireDelta := []
  taken : List WireDelta := []

/-- The case of a `select` with a default: a full channel drops the delta. -/
def Channel.offer (channel : Channel) (delta : WireDelta) : Channel :=
  if channel.isOpen = false then channel
  else if channel.projectFilter ≠ ∅ ∧ delta.projectId ∉ channel.projectFilter then channel
  else if channel.queue.length < subscriberBufferSize then
    { channel with queue := channel.queue ++ [delta] }
  else channel

def Channel.receive (channel : Channel) : Channel :=
  match channel.queue with
  | [] => channel
  | delta :: rest => { channel with queue := rest, taken := channel.taken ++ [delta] }

structure Daemon where
  topics : Dict String TopicState := Dict.empty
  channels : Dict Nat Channel := Dict.empty
  subSeq : Nat := 0

def fanOut (channels : Dict Nat Channel) (delta : WireDelta) : Dict Nat Channel :=
  channels.mapValues fun channel => channel.offer delta

/-- One round of `receiveLoop`; `none` does not unmarshal. -/
def receiveMessage (daemon : Daemon) (topic : TopicState) (now : Int) (message : Option WireDelta) :
    Daemon :=
  match message with
  | none => daemon
  | some delta =>
      if delta.projectId ≠ topic.projectId then daemon
      else if verifyAppSignature crypto marshal delta = false then daemon
      else
        let checked := topic.checkAndUpdateSeq now delta.toGoDelta
        let topics := daemon.topics.set topic.projectId checked.2
        if checked.1 then
          { daemon with topics := topics, channels := fanOut daemon.channels delta }
        else { daemon with topics := topics }

inductive DaemonEvent where
  | join (projectId : String)
  | leave (projectId : String)
  | subscribe (projectFilter : Finset String)
  | cancel (id : Nat)
  | message (projectId : String) (now : Int) (message : Option WireDelta)
  | read (id : Nat)

def daemonStep (daemon : Daemon) : DaemonEvent → Daemon
  | .join projectId =>
      match validateProjectId projectId with
      | .error _ => daemon
      | .ok () =>
          { daemon with topics := daemon.topics.setdefault projectId { projectId := projectId } }
  | .leave projectId => { daemon with topics := daemon.topics.pop projectId }
  | .subscribe projectFilter =>
      { daemon with
        channels := daemon.channels.set (daemon.subSeq + 1) { projectFilter := projectFilter }
        subSeq := daemon.subSeq + 1 }
  | .cancel id =>
      match daemon.channels.lookup id with
      | none => daemon
      | some channel =>
          { daemon with channels := daemon.channels.set id { channel with isOpen := false } }
  | .message projectId now message =>
      match daemon.topics.lookup projectId with
      | none => daemon
      | some topic => receiveMessage crypto marshal daemon topic now message
  | .read id =>
      match daemon.channels.lookup id with
      | none => daemon
      | some channel => { daemon with channels := daemon.channels.set id channel.receive }

/-- What a channel was given, read or not. -/
def Channel.given (channel : Channel) : List WireDelta := channel.taken ++ channel.queue

def givenOn (sender projectId : String) (channel : Channel) : List WireDelta :=
  channel.given.filter fun delta =>
    delta.senderCompositorPubkey = sender ∧ delta.projectId = projectId

/-- The event leaves what is remembered of a sender on a project: the project is not left,
and the check of a delta does not sweep the sender away. -/
def Remembers (sender projectId : String) (daemon : Daemon) : DaemonEvent → Prop
  | .leave left => left ≠ projectId
  | .message arrived now _ => arrived = projectId →
      ∀ topic, daemon.topics.lookup projectId = some topic →
        (topic.sweep now).mark sender = topic.mark sender
  | _ => True

end Daemon

section Channels

theorem given_offer (channel : Channel) (delta : WireDelta) :
    (channel.offer delta).given = channel.given ∨
      (channel.offer delta).given = channel.given ++ [delta] := by
  unfold Channel.offer
  split_ifs
  · exact Or.inl rfl
  · exact Or.inl rfl
  · exact Or.inr (List.append_assoc _ _ _).symm
  · exact Or.inl rfl

theorem given_receive (channel : Channel) : channel.receive.given = channel.given := by
  obtain ⟨projectFilter, isOpen, queue, taken⟩ := channel
  cases queue with
  | nil => rfl
  | cons delta rest => simp [Channel.receive, Channel.given]

end Channels

/-! What holds of every channel, one event after the other. -/

section Steps

variable {crypto : Crypto} {marshal : WireDelta → Option Bytes} {sender projectId : String}
  {daemon : Daemon}

/-- A message changes the topics and the channels, or nothing. -/
theorem receiveMessage_cases (crypto : Crypto) (marshal : WireDelta → Option Bytes)
    (daemon : Daemon) (topic : TopicState) (now : Int)
    (message : Option WireDelta) :
    receiveMessage crypto marshal daemon topic now message = daemon ∨
      ∃ delta, message = some delta ∧ delta.projectId = topic.projectId ∧
        verifyAppSignature crypto marshal delta = true ∧
          receiveMessage crypto marshal daemon topic now message =
            { daemon with
              topics := daemon.topics.set topic.projectId
                (topic.checkAndUpdateSeq now delta.toGoDelta).2
              channels := if (topic.checkAndUpdateSeq now delta.toGoDelta).1 then
                fanOut daemon.channels delta else daemon.channels } := by
  unfold receiveMessage
  cases message with
  | none => exact Or.inl rfl
  | some delta =>
      simp only
      split_ifs with misplaced forged passed
      · exact Or.inl rfl
      · exact Or.inl rfl
      · exact Or.inr ⟨delta, rfl, not_not.mp misplaced, by simpa using forged, by simp [passed]⟩
      · exact Or.inr ⟨delta, rfl, not_not.mp misplaced, by simpa using forged, by simp [passed]⟩

/-- Whatever is done, a channel was given verified deltas only. -/
def Authentic (crypto : Crypto) (marshal : WireDelta → Option Bytes) (daemon : Daemon) : Prop :=
  ∀ id channel, daemon.channels.lookup id = some channel →
    ∀ delta ∈ channel.given, verifyAppSignature crypto marshal delta = true

theorem Authentic.set (authentic : Authentic crypto marshal daemon) {id : Nat} (channel : Channel)
    (verified : ∀ delta ∈ channel.given, verifyAppSignature crypto marshal delta = true)
    (topics : Dict String TopicState) (subSeq : Nat) :
    Authentic crypto marshal ⟨topics, daemon.channels.set id channel, subSeq⟩ := by
  intro other held found
  rw [Dict.lookup_set] at found
  split_ifs at found
  · cases found
    exact verified
  · exact authentic other held found

theorem authentic_step (event : DaemonEvent) (authentic : Authentic crypto marshal daemon) :
    Authentic crypto marshal (daemonStep crypto marshal daemon event) := by
  cases event with
  | join projectId =>
      simp only [daemonStep]
      cases validateProjectId projectId with
      | error error => exact authentic
      | ok _ => exact authentic
  | leave projectId => exact authentic
  | subscribe projectFilter => exact authentic.set _ (by simp [Channel.given]) _ _
  | cancel id =>
      simp only [daemonStep]
      cases found : daemon.channels.lookup id with
      | none => exact authentic
      | some channel =>
          exact authentic.set { channel with isOpen := false } (authentic id channel found) _ _
  | read id =>
      simp only [daemonStep]
      cases found : daemon.channels.lookup id with
      | none => exact authentic
      | some channel =>
          refine authentic.set channel.receive ?_ _ _
          rw [given_receive]
          exact authentic id channel found
  | message projectId now message =>
      simp only [daemonStep]
      cases found : daemon.topics.lookup projectId with
      | none => exact authentic
      | some topic =>
          rcases receiveMessage_cases crypto marshal daemon topic now message with same |
            ⟨delta, _, _, verified, changed⟩
          · simpa only [same] using authentic
          · intro id channel held
            simp only [changed] at held
            split_ifs at held
            · rw [fanOut, Dict.lookup_mapValues, Option.map_eq_some_iff] at held
              obtain ⟨before, held, rfl⟩ := held
              intro other member
              rcases given_offer before delta with kept | longer
              · exact authentic id before held other (kept ▸ member)
              · rw [longer] at member
                rcases List.mem_append.mp member with earlier | new
                · exact authentic id before held other earlier
                · exact List.mem_singleton.mp new ▸ verified
            · exact authentic id channel held

/-- What a channel was given of a sender's deltas on a project, against what the topic
remembers of the sender. -/
structure Ordered (sender projectId : String) (daemon : Daemon) : Prop where
  named : ∀ place topic, daemon.topics.lookup place = some topic → topic.projectId = place
  fresh : daemon.topics.lookup projectId = none → ∀ id channel,
    daemon.channels.lookup id = some channel → givenOn sender projectId channel = []
  below : ∀ topic, daemon.topics.lookup projectId = some topic → ∀ id channel,
    daemon.channels.lookup id = some channel →
      ∀ delta ∈ givenOn sender projectId channel, delta.senderSeq ≤ topic.mark sender
  growing : ∀ id channel, daemon.channels.lookup id = some channel →
    (givenOn sender projectId channel).Pairwise fun earlier later =>
      earlier.senderSeq < later.senderSeq

theorem ordered_empty (sender projectId : String) : Ordered sender projectId {} := by
  constructor
  · intro place topic found
    cases found
  · intro _ id channel found
    cases found
  · intro topic found
    cases found
  · intro id channel found
    cases found

/-- A channel that was given the same may take the place of another. -/
theorem Ordered.set (ordered : Ordered sender projectId daemon) {id : Nat} (channel : Channel)
    (subSeq : Nat)
    (same : channel.given = [] ∨ ∃ before, daemon.channels.lookup id = some before ∧
      channel.given = before.given) :
    Ordered sender projectId ⟨daemon.topics, daemon.channels.set id channel, subSeq⟩ := by
  have held : ∀ other now, (daemon.channels.set id channel).lookup other = some now →
      givenOn sender projectId now = [] ∨ ∃ before,
        daemon.channels.lookup other = some before ∧
          givenOn sender projectId now = givenOn sender projectId before := by
    intro other now found
    rw [Dict.lookup_set] at found
    split_ifs at found with here
    · cases found
      rcases same with nothing | ⟨before, stored, given⟩
      · exact Or.inl (by rw [givenOn, nothing, List.filter_nil])
      · exact Or.inr ⟨before, here ▸ stored, by rw [givenOn, given, ← givenOn]⟩
    · exact Or.inr ⟨now, found, rfl⟩
  constructor
  · exact ordered.named
  · intro unjoined other now found
    rcases held other now found with nothing | ⟨before, stored, given⟩
    · exact nothing
    · rw [given]
      exact ordered.fresh unjoined other before stored
  · intro topic joined other now found delta member
    rcases held other now found with nothing | ⟨before, stored, given⟩
    · rw [nothing] at member
      cases member
    · rw [given] at member
      exact ordered.below topic joined other before stored delta member
  · intro other now found
    rcases held other now found with nothing | ⟨before, stored, given⟩
    · rw [nothing]
      exact List.Pairwise.nil
    · rw [given]
      exact ordered.growing other before stored

theorem lookup_fanOut {channels : Dict Nat Channel} {delta : WireDelta} {id : Nat}
    {after : Channel} (found : (fanOut channels delta).lookup id = some after) :
    ∃ before, channels.lookup id = some before ∧
      (after.given = before.given ∨ after.given = before.given ++ [delta]) := by
  rw [fanOut, Dict.lookup_mapValues, Option.map_eq_some_iff] at found
  obtain ⟨before, found, rfl⟩ := found
  exact ⟨before, found, given_offer before delta⟩

theorem mark_check_failed {topic : TopicState} {now : Int} {delta : GoDelta}
    (stale : (topic.checkAndUpdateSeq now delta).1 = false) (sender : String) :
    (topic.checkAndUpdateSeq now delta).2.mark sender = (topic.sweep now).mark sender := by
  unfold TopicState.checkAndUpdateSeq at stale ⊢
  simp only at stale ⊢
  split_ifs at stale ⊢ with old
  · rfl

theorem projectId_check (topic : TopicState) (now : Int) (delta : GoDelta) :
    (topic.checkAndUpdateSeq now delta).2.projectId = topic.projectId := by
  unfold TopicState.checkAndUpdateSeq TopicState.sweep
  simp only
  split_ifs <;> rfl

/-- The channels after a delta was checked: as before, or with the delta behind. -/
theorem lookup_checked {channels : Dict Nat Channel} {topic : TopicState} {now : Int}
    {delta : WireDelta} {id : Nat} {after : Channel}
    (found : (if (topic.checkAndUpdateSeq now delta.toGoDelta).1 then fanOut channels delta
      else channels).lookup id = some after) :
    ∃ before, channels.lookup id = some before ∧ (after.given = before.given ∨
      ((topic.checkAndUpdateSeq now delta.toGoDelta).1 = true ∧
        after.given = before.given ++ [delta])) := by
  split_ifs at found with passed
  · obtain ⟨before, stored, given⟩ := lookup_fanOut found
    exact ⟨before, stored, given.imp_right fun longer => ⟨passed, longer⟩⟩
  · exact ⟨after, found, Or.inl rfl⟩

theorem givenOn_same {before after : Channel} (same : after.given = before.given)
    (sender projectId : String) :
    givenOn sender projectId after = givenOn sender projectId before := by
  rw [givenOn, same, ← givenOn]

theorem givenOn_longer {before after : Channel} {delta : WireDelta}
    (longer : after.given = before.given ++ [delta]) (sender projectId : String) :
    givenOn sender projectId after = givenOn sender projectId before ++
      if delta.senderCompositorPubkey = sender ∧ delta.projectId = projectId then [delta]
      else [] := by
  rw [givenOn, longer, List.filter_append, ← givenOn, List.filter_singleton]
  simp only [Bool.cond_decide]

/-- A delta of another sender or on another project adds nothing. -/
theorem givenOn_other {channels : Dict Nat Channel} {topic : TopicState} {now : Int}
    {delta : WireDelta} {id : Nat} {after : Channel}
    (other : ¬(delta.senderCompositorPubkey = sender ∧ delta.projectId = projectId))
    (found : (if (topic.checkAndUpdateSeq now delta.toGoDelta).1 then fanOut channels delta
      else channels).lookup id = some after) :
    ∃ before, channels.lookup id = some before ∧
      givenOn sender projectId after = givenOn sender projectId before := by
  obtain ⟨before, stored, same | ⟨_, longer⟩⟩ := lookup_checked found
  · exact ⟨before, stored, givenOn_same same sender projectId⟩
  · refine ⟨before, stored, ?_⟩
    rw [givenOn_longer longer, if_neg other, List.append_nil]

/-- Channels and marks that keep what they say of the sender. -/
theorem Ordered.carry (ordered : Ordered sender projectId daemon) {after : Daemon}
    (named : ∀ place topic, after.topics.lookup place = some topic → topic.projectId = place)
    (marks : ∀ topic, after.topics.lookup projectId = some topic →
      ∃ before, daemon.topics.lookup projectId = some before ∧
        topic.mark sender = before.mark sender)
    (unjoined : after.topics.lookup projectId = none → daemon.topics.lookup projectId = none)
    (channels : ∀ id channel, after.channels.lookup id = some channel → ∃ before,
      daemon.channels.lookup id = some before ∧
        givenOn sender projectId channel = givenOn sender projectId before) :
    Ordered sender projectId after := by
  constructor
  · exact named
  · intro absent id channel found
    obtain ⟨before, stored, given⟩ := channels id channel found
    rw [given]
    exact ordered.fresh (unjoined absent) id before stored
  · intro topic joined id channel found delta member
    obtain ⟨before, stored, given⟩ := channels id channel found
    obtain ⟨old, present, mark⟩ := marks topic joined
    rw [given] at member
    rw [mark]
    exact ordered.below old present id before stored delta member
  · intro id channel found
    obtain ⟨before, stored, given⟩ := channels id channel found
    rw [given]
    exact ordered.growing id before stored

theorem Ordered.message (ordered : Ordered sender projectId daemon) {place : String}
    {topic : TopicState} (joined : daemon.topics.lookup place = some topic) {now : Int}
    {delta : WireDelta} (placed : delta.projectId = topic.projectId)
    (remembers : place = projectId → (topic.sweep now).mark sender = topic.mark sender) :
    Ordered sender projectId
      { daemon with
        topics := daemon.topics.set topic.projectId
          (topic.checkAndUpdateSeq now delta.toGoDelta).2
        channels := if (topic.checkAndUpdateSeq now delta.toGoDelta).1 then
          fanOut daemon.channels delta else daemon.channels } := by
  have name : topic.projectId = place := ordered.named place topic joined
  rw [name] at placed ⊢
  have named : ∀ other held, (daemon.topics.set place
      (topic.checkAndUpdateSeq now delta.toGoDelta).2).lookup other = some held →
        held.projectId = other := by
    intro other held found
    rw [Dict.lookup_set] at found
    split_ifs at found with same
    · cases found
      rw [projectId_check, name, same]
    · exact ordered.named other held found
  by_cases here : place = projectId
  · obtain rfl := here
    have present : (daemon.topics.set place
        (topic.checkAndUpdateSeq now delta.toGoDelta).2).lookup place =
          some (topic.checkAndUpdateSeq now delta.toGoDelta).2 := by
      rw [Dict.lookup_set, if_pos rfl]
    have kept := remembers rfl
    by_cases own : delta.senderCompositorPubkey = sender ∧
        (topic.checkAndUpdateSeq now delta.toGoDelta).1 = true
    · obtain ⟨mine, passed⟩ := own
      have mark : (topic.checkAndUpdateSeq now delta.toGoDelta).2.mark sender =
          delta.senderSeq := mine ▸ mark_check_passed passed
      have above : topic.mark sender < delta.senderSeq := by
        have checked := check_passes.mp passed
        rw [mine, kept] at checked
        exact checked
      have given : ∀ id channel, (if (topic.checkAndUpdateSeq now delta.toGoDelta).1 then
          fanOut daemon.channels delta else daemon.channels).lookup id = some channel →
          ∃ before, daemon.channels.lookup id = some before ∧
            (givenOn sender place channel = givenOn sender place before ∨
              givenOn sender place channel = givenOn sender place before ++ [delta]) := by
        intro id channel found
        obtain ⟨before, stored, same | ⟨_, longer⟩⟩ := lookup_checked found
        · exact ⟨before, stored, Or.inl (givenOn_same same sender place)⟩
        · refine ⟨before, stored, Or.inr ?_⟩
          rw [givenOn_longer longer, if_pos ⟨mine, placed⟩]
      constructor
      · exact named
      · intro absent
        rw [present] at absent
        cases absent
      · intro held found id channel stored other member
        rw [present] at found
        cases found
        rw [mark]
        obtain ⟨before, old, same | longer⟩ := given id channel stored
        · rw [same] at member
          exact Int64.le_of_lt (Int64.lt_of_le_of_lt
            (ordered.below topic joined id before old other member) above)
        · rw [longer] at member
          rcases List.mem_append.mp member with earlier | new
          · exact Int64.le_of_lt (Int64.lt_of_le_of_lt
              (ordered.below topic joined id before old other earlier) above)
          · rw [List.mem_singleton.mp new]
            exact Int64.le_refl _
      · intro id channel stored
        obtain ⟨before, old, same | longer⟩ := given id channel stored
        · rw [same]
          exact ordered.growing id before old
        · rw [longer, List.pairwise_append]
          refine ⟨ordered.growing id before old, List.pairwise_singleton _ _, ?_⟩
          intro earlier member later new
          rw [List.mem_singleton.mp new]
          exact Int64.lt_of_le_of_lt (ordered.below topic joined id before old earlier member)
            above
    · apply ordered.carry named
      · intro held found
        rw [present] at found
        cases found
        refine ⟨topic, joined, ?_⟩
        rw [← kept]
        by_cases mine : delta.senderCompositorPubkey = sender
        · exact mark_check_failed (by simpa using fun passed => own ⟨mine, passed⟩) sender
        · exact mark_check_other mine
      · intro absent
        rw [present] at absent
        cases absent
      · intro id channel found
        obtain ⟨before, stored, same | ⟨passed, longer⟩⟩ := lookup_checked found
        · exact ⟨before, stored, givenOn_same same sender place⟩
        · refine ⟨before, stored, ?_⟩
          rw [givenOn_longer longer, if_neg fun mine => own ⟨mine.1, passed⟩, List.append_nil]
  · have elsewhere : ∀ topics : Dict String TopicState, ∀ held,
        (topics.set place held).lookup projectId = topics.lookup projectId := by
      intro topics held
      rw [Dict.lookup_set, if_neg here]
    apply ordered.carry named
    · intro held found
      rw [elsewhere] at found
      exact ⟨held, found, rfl⟩
    · intro absent
      rwa [elsewhere] at absent
    · intro id channel found
      apply givenOn_other _ found
      rintro ⟨_, same⟩
      exact here (placed.symm.trans same)

theorem Ordered.join (ordered : Ordered sender projectId daemon) (place : String) :
    Ordered sender projectId
      { daemon with
        topics := daemon.topics.setdefault place { projectId := place } } := by
  have named : ∀ other topic, (daemon.topics.setdefault place { projectId := place }).lookup other =
      some topic → topic.projectId = other := by
    intro other topic found
    rcases (Dict.lookup_setdefault_eq_some _ _ _ _ _).mp found with old | ⟨_, same, rfl⟩
    · exact ordered.named other topic old
    · exact same
  by_cases first : place = projectId ∧ daemon.topics.lookup projectId = none
  · obtain ⟨rfl, unjoined⟩ := first
    have nothing := ordered.fresh unjoined
    constructor
    · exact named
    · exact fun _ => nothing
    · intro topic _ id channel found delta member
      rw [nothing id channel found] at member
      cases member
    · exact ordered.growing
  · have kept : (daemon.topics.setdefault place { projectId := place }).lookup projectId =
        daemon.topics.lookup projectId := by
      rw [Dict.lookup_setdefault]
      split_ifs with same
      · cases held : daemon.topics.lookup projectId with
        | none => exact absurd ⟨same, held⟩ first
        | some topic => rfl
      · rfl
    apply ordered.carry named
    · intro topic found
      exact ⟨topic, kept ▸ found, rfl⟩
    · exact fun absent => kept ▸ absent
    · exact fun id channel found => ⟨channel, found, rfl⟩

theorem Ordered.leave (ordered : Ordered sender projectId daemon) {place : String}
    (other : place ≠ projectId) :
    Ordered sender projectId { daemon with topics := daemon.topics.pop place } := by
  have kept : (daemon.topics.pop place).lookup projectId = daemon.topics.lookup projectId := by
    rw [Dict.lookup_pop, if_neg other]
  apply ordered.carry
  · intro held topic found
    rw [Dict.lookup_pop] at found
    split_ifs at found
    exact ordered.named held topic found
  · intro topic found
    exact ⟨topic, kept ▸ found, rfl⟩
  · exact fun absent => kept ▸ absent
  · exact fun id channel found => ⟨channel, found, rfl⟩

theorem ordered_step (daemon : Daemon) (event : DaemonEvent)
    (ordered : Ordered sender projectId daemon)
    (remembers : Remembers sender projectId daemon event) :
    Ordered sender projectId (daemonStep crypto marshal daemon event) := by
  cases event with
  | join place =>
      simp only [daemonStep]
      cases validateProjectId place with
      | error error => exact ordered
      | ok _ => exact ordered.join place
  | leave place => exact ordered.leave remembers
  | subscribe projectFilter =>
      exact ordered.set { projectFilter := projectFilter } _ (Or.inl rfl)
  | cancel id =>
      simp only [daemonStep]
      cases found : daemon.channels.lookup id with
      | none => exact ordered
      | some channel =>
          exact ordered.set { channel with isOpen := false } _ (Or.inr ⟨channel, found, rfl⟩)
  | read id =>
      simp only [daemonStep]
      cases found : daemon.channels.lookup id with
      | none => exact ordered
      | some channel =>
          exact ordered.set channel.receive _ (Or.inr ⟨channel, found, given_receive channel⟩)
  | message place now message =>
      simp only [daemonStep]
      cases joined : daemon.topics.lookup place with
      | none => exact ordered
      | some topic =>
          rcases receiveMessage_cases crypto marshal daemon topic now message with same |
            ⟨delta, _, placed, _, changed⟩
          · simpa only [same] using ordered
          · simp only [changed]
            apply ordered.message joined placed
            rintro rfl
            exact remembers rfl topic joined

end Steps

/-! An honest sender. -/

/-- What the holder of a key published, in order: its own deltas, each signed once, with
numbers that grow on every project. -/
structure HonestSender (crypto : Crypto) (marshal : WireDelta → Option Bytes) where
  pubKeyHex : String
  published : List WireDelta
  own : ∀ delta ∈ published, delta.senderCompositorPubkey = pubKeyHex
  growing : ∀ projectId, (published.filter fun delta => delta.projectId = projectId).Pairwise
    fun earlier later => earlier.senderSeq < later.senderSeq

theorem published_of_verified {crypto : Crypto} {marshal : WireDelta → Option Bytes}
    {honest : HonestSender crypto marshal} (ideal : Function.Injective crypto.blake3)
    (unforgeable : ∀ pubBytes message sig, Hex.decode honest.pubKeyHex = some pubBytes →
      crypto.ed25519Verify pubBytes message sig = true → ∃ signed ∈ honest.published,
        ∃ preSig, marshal signed.unsigned = some preSig ∧ message = crypto.blake3 preSig)
    (faithful : ∀ delta other bytes, marshal delta = some bytes → marshal other = some bytes →
      delta = other)
    {delta : WireDelta} (verified : verifyAppSignature crypto marshal delta = true)
    (mine : delta.senderCompositorPubkey = honest.pubKeyHex) :
    ∃ signed ∈ honest.published, signed.unsigned = delta.unsigned := by
  unfold verifyAppSignature at verified
  split_ifs at verified
  split at verified
  · rename_i pubBytes preSig decoded marshalled
    rw [Bool.and_eq_true] at verified
    rw [mine] at decoded
    obtain ⟨signed, published, bytes, written, digest⟩ := unforgeable _ _ _ decoded verified.2
    rw [ideal digest] at marshalled
    exact ⟨signed, published, faithful _ _ bytes written marshalled⟩
  · cases verified

end Gyza.Gossip

namespace Gyza.Sample

open Gossip

def gossiped : WireDelta where
  projectId := "project"
  senderCompositorPubkey := Hex.encode (List.replicate 32 1)
  senderSeq := 5
  timestampNs := 0
  payload := []
  appSignature := List.replicate 64 0

/-- The one delta of the sample. -/
def marshalOne (delta : WireDelta) : Option Hex.Bytes :=
  if delta = gossiped.unsigned then some [1] else none

def oneMessage : Crypto where
  blake3 := id
  ed25519Verify _ message _ := message = [1]

def gossipSender : HonestSender oneMessage marshalOne where
  pubKeyHex := gossiped.senderCompositorPubkey
  published := [gossiped]
  own := by simp
  growing _ := (List.pairwise_singleton _ _).filter _

/-- A subscriber joins, the delta comes twice, and is read. -/
def gossipEvents : List DaemonEvent :=
  [.join "project", .subscribe ∅, .message "project" 7 (some gossiped),
    .message "project" 8 (some gossiped), .read 1]

/-- What the subscriber was given of the sender. -/
def gossipGiven : List WireDelta :=
  match (Run.run (daemonStep oneMessage marshalOne) {} gossipEvents).channels.lookup 1 with
  | some channel => givenOn gossiped.senderCompositorPubkey "project" channel
  | none => []

/-- Nothing is swept that was touched just now. -/
def gossipTopic : Option TopicState :=
  (Run.run (daemonStep oneMessage marshalOne) {} (gossipEvents.take 3)).topics.lookup "project"

theorem gossipTopic_kept : ∀ topic, gossipTopic = some topic →
    (topic.sweep 8).mark gossiped.senderCompositorPubkey =
      topic.mark gossiped.senderCompositorPubkey := by
  have marks : gossipTopic.map (fun topic =>
      (topic.sweep 8).mark gossiped.senderCompositorPubkey) =
        gossipTopic.map (fun topic => topic.mark gossiped.senderCompositorPubkey) := by
    decide +kernel
  intro topic found
  rw [found] at marks
  exact Option.some.inj marks

end Gyza.Sample

namespace Gyza.Gossip

end Gyza.Gossip
