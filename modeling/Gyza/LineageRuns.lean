import Gyza.Lineage
import Gyza.SpawnRuns

/-! Runners that share one board: whether the lineage of every item verifies, over all
ways in which they claim, decompose and complete the items. -/

namespace Gyza

open Forest (HasChild Line)
open Spawn (Agent Decomposes ExecuteResult Execution Grows Postable maxTaskDepth)

namespace Lineage

variable {ι : Type}

/-- The runners' agents and keys, and how each checks a lineage before it claims. -/
structure Fleet (ι : Type) where
  crypto : Crypto
  agents : ι → Agent
  keys : ι → LocalCompositor crypto
  manifestHashes : ι → String
  verifyChainBeforeClaim : ι → Bool
  strictChainVerification : ι → Bool
  shared : ∀ runner, (agents runner).crypto = crypto
  /-- The text of a UUID is not empty. -/
  named : ∀ runner n, (agents runner).uuid7 n ≠ ""

/-- Where a runner is in its loop; it works on its own copy of the item. -/
inductive Phase where
  | idle
  | claimed (item : WorkItem)
  | executed (item : WorkItem) (result : ExecuteResult)

def Phase.item? : Phase → Option WorkItem
  | .idle => none
  | .claimed item => some item
  | .executed item _ => some item

structure Runner where
  lastEnvelope : Option ICPEnvelope := none
  /-- The ids drawn so far. -/
  drawn : Nat := 0
  phase : Phase := .idle

structure Cluster (ι : Type) where
  board : Board
  envelopes : EnvelopeLog
  runners : ι → Runner

/-- Work items come from outside as roots; all others are subtasks. -/
inductive Action (ι : Type) where
  | postIntent (intentId goalSpecJson : String) (createdAtNs : Int)
  | postRoot (item : WorkItem) (isRoot : item.parentId = none)
  | claim (runner : ι) (workItemId : String) (hlcL hlcC : Int) (hlcNode : String)
      (claimantTier : Option Int)
  | execute (runner : ι) (execution : Execution)
  | complete (runner : ι) (timestampNs completedAtNs : Int)
  | reclaim (leaseNs : Option Int) (nowNs : Int)
  | restart (runner : ι)

/-- The outputs of the other children, in the order of `children_of`. -/
def siblingOutputs (board : Board) (item : WorkItem) (parentId : String) : List String :=
  ((board.childrenOf parentId).filter (fun child => child.id ≠ item.id)).filterMap
    (fun child => child.outputHash.filter (fun hash => hash ≠ ""))

/-- `_gather_inputs`: the item with the inputs it is run on. A combiner adds the outputs
of its siblings, and is refused while one of them is missing. -/
def gatherInputs (board : Board) (item : WorkItem) : Option WorkItem :=
  match item.parentId with
  | none => some item
  | some parentId =>
      if Board.isCombine item ∧ parentId ≠ "" then
        if (board.pendingSiblings item).isEmpty then
          some { item with
            inputHashes := item.inputHashes ++
              (siblingOutputs board item parentId).filter (fun hash => hash ∉ item.inputHashes) }
        else none
      else some item

/-- `"00" * 32`. -/
def nothingRead : String := String.ofList (List.replicate 64 '0')

/-- The inputs that `_complete` signs. -/
def signedInputs (item : WorkItem) (contextHash : Option String) : List String :=
  let declared := if item.inputHashes = [] then [nothingRead] else item.inputHashes
  match contextHash with
  | none => declared
  | some hash => if hash = "" ∨ hash ∈ declared then declared else declared ++ [hash]

section Steps

variable [DecidableEq ι] (fleet : Fleet ι)

/-- `sign_action`, with the runner's previous envelope as the parent. -/
def signAction (runner : ι) (item : WorkItem) (result : ExecuteResult)
    (parentEnvelope : Option ICPEnvelope) (timestampNs : Int) : ICPEnvelope :=
  signEnvelope (fleet.keys runner) {
    intentId := item.lineageRoot
    actionId := item.id
    agentPubkey := (fleet.keys runner).pubkeyHex
    capabilityManifestHash := fleet.manifestHashes runner
    inputHashes := signedInputs item result.contextHash
    outputHash := result.outputHash
    parentEnvelopeHash := parentEnvelope.map (computeEnvelopeHash fleet.crypto)
    timestampNs := timestampNs
    inferenceBackend := result.inferenceBackend
    modelIdentifier := result.modelIdentifier
    durationMs := result.durationMs
    tokensIn := result.tokensIn
    tokensOut := result.tokensOut }

namespace Cluster

def set (cluster : Cluster ι) (runner : ι) (changed : Runner) : Cluster ι :=
  { cluster with runners := Function.update cluster.runners runner changed }

/-- The runner does not check, the item is a root, or its lineage verifies. -/
def admits (cluster : Cluster ι) (runner : ι) (item : WorkItem) : Bool :=
  !fleet.verifyChainBeforeClaim runner || item.parentId.isNone ||
    verifyLineage fleet.crypto (fleet.strictChainVerification runner) cluster.board
      cluster.envelopes item = some true

def wins (board : Board) (workItemId agentPubkey : String) (hlcL hlcC : Int) (hlcNode : String)
    (claimantTier : Option Int) : Bool :=
  match board.tryClaimDirect workItemId agentPubkey hlcL hlcC hlcNode claimantTier with
  | .ok (won, _) => won
  | .error _ => false

def claimed (cluster : Cluster ι) (runner : ι) (workItemId : String) (hlcL hlcC : Int)
    (hlcNode : String) (claimantTier : Option Int) : Cluster ι :=
  match (cluster.runners runner).phase, cluster.board.items.get? workItemId with
  | .idle, some item =>
      if cluster.admits fleet runner item ∧ wins cluster.board workItemId
          (fleet.keys runner).pubkeyHex hlcL hlcC hlcNode claimantTier then
        { cluster with
          board := boardStep cluster.board (.tryClaim workItemId (fleet.keys runner).pubkeyHex
            hlcL hlcC hlcNode claimantTier) }.set runner
              { cluster.runners runner with phase := .claimed item }
      else cluster
  | _, _ => cluster

/-- An execution that raises releases the item, with whatever it has posted until then. -/
def executed (cluster : Cluster ι) (runner : ι) (execution : Execution) : Cluster ι :=
  match (cluster.runners runner).phase with
  | .claimed item =>
      match gatherInputs cluster.board item with
      | none =>
          { cluster with board := boardStep cluster.board (.releaseClaim item.id) }.set runner
            { cluster.runners runner with phase := .idle }
      | some gathered =>
          match Spawn.execute (fleet.agents runner) gathered
              { board := cluster.board, drawn := (cluster.runners runner).drawn } execution with
          | (left, .ok result) =>
              { cluster with board := left.board }.set runner
                { cluster.runners runner with drawn := left.drawn, phase := .executed gathered result }
          | (left, .error _) =>
              { cluster with board := boardStep left.board (.releaseClaim item.id) }.set runner
                { cluster.runners runner with drawn := left.drawn, phase := .idle }
  | _ => cluster

/-- A completion that the board refuses leaves its envelope in the log. -/
def completed (cluster : Cluster ι) (runner : ι) (timestampNs completedAtNs : Int) : Cluster ι :=
  match (cluster.runners runner).phase with
  | .executed item result =>
      let envelope := signAction fleet runner item result (cluster.runners runner).lastEnvelope
        timestampNs
      { cluster with
        board := boardStep cluster.board (.completeWorkItem item.id result.outputHash
          (computeEnvelopeHash fleet.crypto envelope) true completedAtNs
            (some (fleet.keys runner).pubkeyHex))
        envelopes := afterStore fleet.crypto cluster.envelopes envelope }.set runner
          { cluster.runners runner with lastEnvelope := some envelope, phase := .idle }
  | _ => cluster

def step (cluster : Cluster ι) : Action ι → Cluster ι
  | .postIntent intentId goalSpecJson createdAtNs =>
      { cluster with
        board := boardStep cluster.board (.postIntent intentId goalSpecJson createdAtNs) }
  | .postRoot item _ =>
      { cluster with board := (Spawn.postWorkItem cluster.board item).toOption.getD cluster.board }
  | .claim runner workItemId hlcL hlcC hlcNode claimantTier =>
      cluster.claimed fleet runner workItemId hlcL hlcC hlcNode claimantTier
  | .execute runner execution => cluster.executed fleet runner execution
  | .complete runner timestampNs completedAtNs =>
      cluster.completed fleet runner timestampNs completedAtNs
  | .reclaim leaseNs nowNs =>
      { cluster with board := boardStep cluster.board (.reclaimExpiredClaims leaseNs nowNs) }
  | .restart runner =>
      cluster.set runner { cluster.runners runner with lastEnvelope := none, phase := .idle }

def start : Cluster ι := ⟨Board.empty, Table.empty, fun _ => {}⟩

/-- The item is completed, and its envelope stored. -/
def Done (cluster : Cluster ι) (workItemId : String) : Prop :=
  (∃ row, cluster.board.items.get? workItemId = some row ∧ row.completedAtNs ≠ none) ∧
    (envelopeForAction cluster.envelopes workItemId).isSome

/-- Every item below another has its ancestors, and verifies where they are all done. -/
def Verifies (cluster : Cluster ι) : Prop :=
  ∀ item ∈ cluster.board.items.rows, ∀ parent, item.parentId = some parent →
    ∃ path, Line (parents cluster.board) parent path ∧
      ((∀ ancestor ∈ path, cluster.Done ancestor) →
        ∀ strict, verifyLineage fleet.crypto strict cluster.board cluster.envelopes item = some true)

/-- A runner that completes an item with children has the envelope of the item's parent as
its previous one, unless the ancestors are not all signed. One that decomposes an item
whose chain is signed finds the chain in order. -/
def InLine (cluster : Cluster ι) : Action ι → Prop
  | .execute runner execution => ∀ item gathered,
      (cluster.runners runner).phase = .claimed item →
        gatherInputs cluster.board item = some gathered →
          ∀ fields first rest, Decomposes (fleet.agents runner) cluster.board gathered execution fields
              (first :: rest) →
            Postable (fleet.agents runner) cluster.board gathered (cluster.runners runner).drawn first →
              Settled (parents cluster.board) cluster.envelopes item.id →
                Linked fleet.crypto (parents cluster.board) cluster.envelopes item.id
  | .complete runner timestampNs _ => ∀ item result,
      (cluster.runners runner).phase = .executed item result →
        Continues fleet.crypto (parents cluster.board) cluster.envelopes item.id
          ((cluster.runners runner).lastEnvelope.map (computeEnvelopeHash fleet.crypto)) timestampNs
  | _ => True

end Cluster

end Steps

/-! Only posting changes the parents. -/

theorem rowRule_parent : RowRule fun row changed =>
    changed.id = row.id ∧ changed.parentId = row.parentId where
  refl _ := ⟨rfl, rfl⟩
  trans _ _ _ earlier later := ⟨later.1.trans earlier.1, later.2.trans earlier.2⟩
  claim _ _ _ _ _ := ⟨rfl, rfl⟩
  completion _ _ _ _ _ := ⟨rfl, rfl⟩
  release _ := ⟨rfl, rfl⟩
  reclaim _ := ⟨rfl, rfl⟩

theorem parents_boardStep (board : Board) (call : BoardCall)
    (posts : ∀ item, call ≠ .postWorkItem item) : parents (boardStep board call) = parents board := by
  rcases (rowRule_parent.boardStep board call posts).get? (fun _ _ same => same.1) with
    ⟨change, changed, found⟩
  funext id
  rw [parents, found, Option.map_map, parents]
  congr 1
  funext row
  exact (changed row).2

/-! The depth that bounds a decomposition bounds the lines. -/

theorem depthFrom_line {board : Board} (unnamed : ∀ parent, parents board "" ≠ some (some parent))
    {id : String} {path : List String} (line : Line (parents board) id path) (hops depth : Nat)
    (seen : List String) (enough : path.length ≤ hops)
    (fresh : ∀ ancestor ∈ path, ancestor ≠ id → ancestor ∉ seen) :
    path.length + depth ≤ Spawn.depthFrom board hops (board.items.get? id) seen depth + 2 := by
  induction line generalizing hops depth seen with
  | @root node isRoot =>
      obtain ⟨hops, rfl⟩ : ∃ n, hops = n + 1 := ⟨hops - 1, by simp at enough; omega⟩
      rcases Option.map_eq_some_iff.mp isRoot with ⟨row, found, isRoot⟩
      simp only [Spawn.depthFrom, found, Option.bind_some, isRoot]
      rw [List.length_singleton]
      omega
  | @child node parent path under line ih =>
      obtain ⟨hops, rfl⟩ : ∃ n, hops = n + 1 := ⟨hops - 1, by simp at enough; omega⟩
      rcases Option.map_eq_some_iff.mp under with ⟨row, found, rowParent⟩
      rw [List.length_append, List.length_singleton] at enough ⊢
      have other : ∀ ancestor ∈ path, ancestor ≠ node :=
        fun _ member => (Line.child under line).apart member
      rcases line.last with ⟨front, rfl⟩
      simp only [Spawn.depthFrom, found, Option.bind_some, rowParent]
      split_ifs with stops
      · rcases stops with rfl | met
        · rcases line.rest with ⟨_, rfl⟩ | ⟨parent, named, _⟩
          · simp
            omega
          · exact absurd named (unnamed parent)
        · exact absurd met (fresh parent (by simp) (other parent (by simp)))
      · have deeper := ih hops (depth + 1) (parent :: seen) (by omega) (by
          intro ancestor member different
          rw [List.mem_cons, not_or]
          exact ⟨different, fresh ancestor (List.mem_append_left _ member) (other ancestor member)⟩)
        omega

theorem lineageDepth_line {board : Board} (unnamed : ∀ parent, parents board "" ≠ some (some parent))
    {id : String} {path : List String} (line : Line (parents board) id path)
    (short : path.length ≤ 64) : path.length ≤ Spawn.lineageDepth board id + 2 := by
  have found := depthFrom_line unnamed line 64 0 [id] short (by
    intro ancestor _ different
    simpa using different)
  exact found

/-! One step keeps the spine. -/

namespace Cluster

variable {fleet : Fleet ι} {cluster next : Cluster ι}

/-- The runner's copy of its item has the parent that the board has. -/
def Holds (cluster : Cluster ι) (board : Board) : Prop :=
  ∀ runner item, (cluster.runners runner).phase.item? = some item →
    parents board item.id = some item.parentId

structure Sound (fleet : Fleet ι) (cluster : Cluster ι) : Prop where
  honest : Honest fleet.crypto cluster.envelopes
  rooted : ∀ id parent, parents cluster.board id = some parent →
    ∃ path, Line (parents cluster.board) id path ∧ path.length ≤ maxTaskDepth + 2
  unnamed : ∀ parent, parents cluster.board "" ≠ some (some parent)
  holds : cluster.Holds cluster.board
  spine : Spine fleet.crypto (parents cluster.board) cluster.envelopes

theorem sound_start (fleet : Fleet ι) : Sound fleet start where
  honest := fun _ member => (List.not_mem_nil member).elim
  rooted := by
    intro id parent present
    cases present
  unnamed := fun _ => by simp [parents, start, Board.empty, Table.get?, Table.empty]
  holds := by
    intro runner item held
    cases held
  spine := by
    intro id hasChild
    rcases hasChild with ⟨child, present⟩
    cases present

/-- A step that posts and signs nothing. -/
theorem Sound.quiet (sound : Sound fleet cluster)
    (sameParents : parents next.board = parents cluster.board)
    (sameLog : next.envelopes = cluster.envelopes) (holds : next.Holds cluster.board) :
    Sound fleet next where
  honest := by
    rw [sameLog]
    exact sound.honest
  rooted := by
    rw [sameParents]
    exact sound.rooted
  unnamed := by
    rw [sameParents]
    exact sound.unnamed
  holds := by
    intro runner item held
    rw [sameParents]
    exact holds runner item held
  spine := by
    rw [sameParents, sameLog]
    exact sound.spine

/-- A board with more roots, or with more children of an item that has room below it. -/
structure Extends (fleet : Fleet ι) (cluster : Cluster ι) (board : Board) : Prop where
  kept : ∀ id parent, parents cluster.board id = some parent → parents board id = some parent
  new : ∀ id, parents cluster.board id = none →
    parents board id = none ∨ parents board id = some none ∨
      id ≠ "" ∧ ∃ parent path, parents board id = some (some parent) ∧
        Line (parents cluster.board) parent path ∧ path.length ≤ maxTaskDepth + 1 ∧
          (Settled (parents cluster.board) cluster.envelopes parent →
            Linked fleet.crypto (parents cluster.board) cluster.envelopes parent)

theorem Extends.of_same {board board' : Board} (extension : Extends fleet cluster board)
    (same : parents board' = parents board) : Extends fleet cluster board' where
  kept := by
    rw [same]
    exact extension.kept
  new := by
    rw [same]
    exact extension.new

/-- A step that posts, and signs nothing. -/
theorem Sound.grow (sound : Sound fleet cluster) (grows : Extends fleet cluster next.board)
    (sameLog : next.envelopes = cluster.envelopes) (holds : next.Holds cluster.board) :
    Sound fleet next where
  honest := by
    rw [sameLog]
    exact sound.honest
  rooted := by
    intro id parent present
    cases old : parents cluster.board id with
    | some parent =>
        rcases sound.rooted id parent old with ⟨path, line, short⟩
        exact ⟨path, line.mono grows.kept, short⟩
    | none =>
        rcases grows.new id old with absent | isRoot | ⟨_, higher, path, under, line, short, _⟩
        · rw [absent] at present
          cases present
        · exact ⟨[id], Line.root isRoot, by simp⟩
        · refine ⟨path ++ [id], Line.child under (line.mono grows.kept), ?_⟩
          rw [List.length_append, List.length_singleton]
          omega
  unnamed := by
    intro parent under
    cases old : parents cluster.board "" with
    | some other =>
        cases (grows.kept "" other old).symm.trans under
        exact sound.unnamed parent old
    | none =>
        rcases grows.new "" old with absent | isRoot | ⟨named, _⟩
        · rw [absent] at under
          cases under
        · rw [isRoot] at under
          cases under
        · exact named rfl
  holds := fun runner item held => grows.kept item.id item.parentId (holds runner item held)
  spine := by
    rw [sameLog]
    apply sound.spine.grow
    · intro id parent present
      rcases sound.rooted id parent present with ⟨path, line, _⟩
      exact ⟨path, line⟩
    · exact grows.kept
    · intro id parent old under
      rcases grows.new id old with absent | isRoot | ⟨_, higher, path, under', line, _, links⟩
      · rw [absent] at under
        cases under
      · rw [isRoot] at under
        cases under
      · cases under'.symm.trans under
        exact ⟨line.present, links⟩

theorem extends_postRoot {board : Board} {item : WorkItem} (isRoot : item.parentId = none)
    (posted : Spawn.postWorkItem cluster.board item = .ok board) : Extends fleet cluster board := by
  have found : ∀ id, parents board id = if item.id = id then
      some (((cluster.board.items.get? id).getD item).parentId) else parents cluster.board id := by
    intro id
    rw [parents, Spawn.postWorkItem_get? posted]
    split_ifs
    · rfl
    · rfl
  constructor
  · intro id parent present
    rw [found]
    split_ifs
    · rcases Option.map_eq_some_iff.mp present with ⟨row, stored, under⟩
      rw [stored, Option.getD_some, under]
    · exact present
  · intro id absent
    rw [found]
    split_ifs
    · rw [Option.map_eq_none_iff.mp absent, Option.getD_none, isRoot]
      exact Or.inr (Or.inl rfl)
    · exact Or.inl absent

/-- Subtasks are posted below an item whose depth leaves room for them. -/
theorem Sound.extends_execute (sound : Sound fleet cluster) {runner : ι} {item : WorkItem}
    {drawn : Nat} {execution : Execution} (known : parents cluster.board item.id = some item.parentId)
    (linked : ∀ fields first rest, Decomposes (fleet.agents runner) cluster.board item execution fields
      (first :: rest) → Postable (fleet.agents runner) cluster.board item drawn first →
        Settled (parents cluster.board) cluster.envelopes item.id →
          Linked fleet.crypto (parents cluster.board) cluster.envelopes item.id) :
    Extends fleet cluster (Spawn.execute (fleet.agents runner) item
      { board := cluster.board, drawn := drawn } execution).1.board := by
  rcases Spawn.execute_grows item { board := cluster.board, drawn := drawn } execution
    with same | ⟨⟨fields, first, rest, decomposes, postable⟩, grows⟩
  · rw [same]
    exact ⟨fun _ _ present => present, fun _ absent => Or.inl absent⟩
  · rcases sound.rooted item.id item.parentId known with ⟨path, line, short⟩
    have depth := lineageDepth_line sound.unnamed line (by unfold maxTaskDepth at short; omega)
    have room : Spawn.lineageDepth cluster.board item.id + 1 ≤ maxTaskDepth := decomposes.depth
    have apart : ∀ id, parents cluster.board id ≠ none →
        parents (Spawn.execute (fleet.agents runner) item
          { board := cluster.board, drawn := drawn } execution).1.board id = parents cluster.board id := by
      intro id present
      rcases grows id with same | ⟨absent, _⟩
      · rw [parents, same, parents]
      · rw [parents, absent] at present
        exact absurd rfl present
    constructor
    · intro id parent present
      rw [apart id (by rw [present]; exact Option.some_ne_none _), present]
    · intro id absent
      rcases grows id with same | ⟨_, ⟨n, rfl⟩, child, present, under⟩
      · left
        rw [parents, same]
        exact absent
      · right
        right
        refine ⟨fleet.named runner n, item.id, path, ?_, line, by omega,
          linked fields first rest decomposes postable⟩
        rw [parents, present, Option.map_some, under]

variable [DecidableEq ι]

/-- A change of one runner, whose item the board knows. -/
theorem Holds.set {board : Board} (holds : cluster.Holds board) (runner : ι) (changed : Runner)
    (known : ∀ item, changed.phase.item? = some item → parents board item.id = some item.parentId) :
    (cluster.set runner changed).Holds board := by
  intro other item held
  by_cases same : other = runner
  · subst same
    simp only [Cluster.set, Function.update_self] at held
    exact known item held
  · simp only [Cluster.set, Function.update_of_ne same] at held
    exact holds other item held

theorem gatherInputs_fields {board : Board} {item gathered : WorkItem}
    (gathers : gatherInputs board item = some gathered) :
    gathered.id = item.id ∧ gathered.parentId = item.parentId := by
  unfold gatherInputs at gathers
  split at gathers
  · cases gathers
    exact ⟨rfl, rfl⟩
  · split_ifs at gathers
    · cases gathers
      exact ⟨rfl, rfl⟩
    · cases gathers
      exact ⟨rfl, rfl⟩

theorem Sound.postRoot (sound : Sound fleet cluster) (item : WorkItem) (isRoot : item.parentId = none) :
    Sound fleet (cluster.step fleet (.postRoot item isRoot)) := by
  rw [step]
  cases posted : Spawn.postWorkItem cluster.board item with
  | error error => exact sound
  | ok board => exact sound.grow (extends_postRoot isRoot posted) rfl sound.holds

theorem Sound.claim (sound : Sound fleet cluster) (runner : ι) (workItemId : String)
    (hlcL hlcC : Int) (hlcNode : String) (claimantTier : Option Int) :
    Sound fleet (cluster.claimed fleet runner workItemId hlcL hlcC hlcNode claimantTier) := by
  unfold claimed
  split
  · next item _ stored =>
      split_ifs
      · apply sound.quiet
        · exact parents_boardStep _ _ (fun _ => nofun)
        · rfl
        · apply Holds.set sound.holds
          intro claimed same
          cases same
          rw [((Table.get?_eq_some _ _ _).mp stored).2, parents, stored]
          rfl
      · exact sound
  · exact sound

theorem known_idle {board : Board} (item : WorkItem) (held : Phase.idle.item? = some item) :
    parents board item.id = some item.parentId := by
  cases held

theorem Sound.execute (sound : Sound fleet cluster) (runner : ι) (execution : Execution)
    (inLine : cluster.InLine fleet (.execute runner execution)) :
    Sound fleet (cluster.executed fleet runner execution) := by
  unfold executed
  split
  · next item working =>
      have known := sound.holds runner item (by rw [working]; rfl)
      cases gathers : gatherInputs cluster.board item with
      | none =>
          apply sound.quiet
          · exact parents_boardStep _ _ (fun _ => nofun)
          · rfl
          · exact Holds.set sound.holds runner _ known_idle
      | some gathered =>
          rcases gatherInputs_fields gathers with ⟨sameId, sameParent⟩
          rw [← sameId, ← sameParent] at known
          have grows : Extends fleet cluster (Spawn.execute (fleet.agents runner) gathered
              { board := cluster.board, drawn := (cluster.runners runner).drawn } execution).1.board := by
            apply sound.extends_execute known
            intro fields first rest decomposes postable
            rw [sameId]
            exact inLine item gathered working gathers fields first rest decomposes postable
          split
          · next gone =>
              cases gone
          · next other gathers' =>
              cases gathers'
              split
              · next left result ran =>
                  rw [ran] at grows
                  apply sound.grow grows
                  · rfl
                  · apply Holds.set sound.holds
                    intro item' held
                    cases held
                    exact known
              · next left error ran =>
                  rw [ran] at grows
                  apply sound.grow
                  · exact grows.of_same (parents_boardStep _ _ (fun _ => nofun))
                  · rfl
                  · exact Holds.set sound.holds runner _ known_idle
  · exact sound

theorem signedInputs_ne_nil (item : WorkItem) (contextHash : Option String) :
    signedInputs item contextHash ≠ [] := by
  have declared : (if item.inputHashes = [] then [nothingRead] else item.inputHashes) ≠ [] := by
    split_ifs with empty
    · exact List.cons_ne_nil _ _
    · exact empty
  unfold signedInputs
  generalize (if item.inputHashes = [] then [nothingRead] else item.inputHashes) = inputs at declared
  cases contextHash with
  | none => exact declared
  | some hash =>
      simp only
      split_ifs
      · exact declared
      · exact List.append_ne_nil_of_left_ne_nil declared _

theorem Sound.complete (ideal : Function.Injective fleet.crypto.blake3) (sound : Sound fleet cluster)
    (runner : ι) (timestampNs completedAtNs : Int)
    (inLine : cluster.InLine fleet (.complete runner timestampNs completedAtNs)) :
    Sound fleet (cluster.completed fleet runner timestampNs completedAtNs) := by
  unfold completed
  split
  · next item result working =>
      have continues := inLine item result working
      have signed : selfVerifies fleet.crypto (signAction fleet runner item result
          (cluster.runners runner).lastEnvelope timestampNs) = true :=
        signEnvelope_verifies _ _ rfl
      have honest := honest_afterStore sound.honest signed
        (signedInputs_ne_nil item result.contextHash)
      have spine : Spine fleet.crypto (parents cluster.board) (afterStore fleet.crypto
          cluster.envelopes (signAction fleet runner item result
            (cluster.runners runner).lastEnvelope timestampNs)) :=
        sound.spine.store ideal sound.honest continues
      have same : ∀ envelopeHash, parents (boardStep cluster.board (.completeWorkItem item.id
          result.outputHash envelopeHash true completedAtNs
            (some (fleet.keys runner).pubkeyHex))) = parents cluster.board :=
        fun _ => parents_boardStep _ _ (fun _ => nofun)
      exact {
        honest := honest
        rooted := by
          simp only [Cluster.set, same]
          exact sound.rooted
        unnamed := by
          simp only [Cluster.set, same]
          exact sound.unnamed
        holds := by
          intro other item' held
          simp only [Cluster.set, same]
          exact Holds.set sound.holds runner _ known_idle other item' held
        spine := by
          simp only [Cluster.set, same]
          exact spine }
  · exact sound

theorem Sound.step (ideal : Function.Injective fleet.crypto.blake3) (sound : Sound fleet cluster)
    (action : Action ι) (inLine : cluster.InLine fleet action) :
    Sound fleet (cluster.step fleet action) := by
  cases action with
  | postIntent intentId goalSpecJson createdAtNs =>
      exact sound.quiet (parents_boardStep _ _ (fun _ => nofun)) rfl sound.holds
  | postRoot item isRoot => exact sound.postRoot item isRoot
  | claim runner workItemId hlcL hlcC hlcNode claimantTier =>
      exact sound.claim runner workItemId hlcL hlcC hlcNode claimantTier
  | execute runner execution => exact sound.execute runner execution inLine
  | complete runner timestampNs completedAtNs =>
      exact sound.complete ideal runner timestampNs completedAtNs inLine
  | reclaim leaseNs nowNs =>
      exact sound.quiet (parents_boardStep _ _ (fun _ => nofun)) rfl sound.holds
  | restart runner => exact sound.quiet rfl rfl (Holds.set sound.holds runner _ known_idle)

omit [DecidableEq ι] in
theorem Sound.verifies (sound : Sound fleet cluster) : cluster.Verifies fleet := by
  intro item member parent under
  have present : parents cluster.board item.id = some (some parent) := by
    rw [parents, (Table.mem_rows _ item).mp member, Option.map_some, under]
  rcases sound.rooted item.id _ present with ⟨path, line, short⟩
  rcases line.last with ⟨front, rfl⟩
  rcases line.rest with ⟨isRoot, _⟩ | ⟨other, under', above⟩
  · rw [present] at isRoot
    cases isRoot
  · cases present.symm.trans under'
    refine ⟨front, above, ?_⟩
    intro done strict
    rw [List.length_append, List.length_singleton] at short
    unfold maxTaskDepth at short
    exact verifyLineage_line sound.honest sound.spine under above (by omega) ⟨item.id, present⟩
      (fun ancestor listed => (done ancestor listed).2) strict

/-- Over every run of any runners on one board, of any decompositions and in any order: an
item whose ancestors are all done has a lineage that verifies, as long as each completion of
an item with children follows the envelope of the item's parent. -/
theorem lineage_verifies (fleet : Fleet ι) (ideal : Function.Injective fleet.crypto.blake3)
    (actions : List (Action ι))
    (inLine : Run.Admissible (step fleet) (InLine fleet) start actions) :
    (Run.run (step fleet) start actions).Verifies fleet := by
  apply Sound.verifies
  exact Run.invariant_run (step fleet) (InLine fleet) (Sound fleet)
    (fun _ action sound allowed => sound.step ideal action allowed) start actions (sound_start fleet)
    inLine

/-! A run whose second root does not follow. -/

/-- The log and a runner's previous envelope are those of its last completion. -/
structure Signed (cluster : Cluster ι) (runner : ι) (log : EnvelopeLog) (last : Option ICPEnvelope) :
    Prop where
  log : cluster.envelopes = log
  last : (cluster.runners runner).lastEnvelope = last

variable {runner : ι} {log : EnvelopeLog} {last : Option ICPEnvelope}

/-- A change of a runner that keeps its previous envelope. -/
theorem Signed.set (signed : cluster.Signed runner log last) (sameLog : next.envelopes = cluster.envelopes)
    (sameRunners : next.runners = cluster.runners) (other : ι) (changed : Runner)
    (same : changed.lastEnvelope = (cluster.runners other).lastEnvelope) :
    (next.set other changed).Signed runner log last := by
  refine ⟨sameLog.trans signed.log, ?_⟩
  simp only [Cluster.set, sameRunners]
  by_cases own : runner = other
  · subst own
    rw [Function.update_self, same, signed.last]
  · rw [Function.update_of_ne own, signed.last]

theorem Signed.claimed (signed : cluster.Signed runner log last) (other : ι) (workItemId : String)
    (hlcL hlcC : Int) (hlcNode : String) (claimantTier : Option Int) :
    (cluster.claimed fleet other workItemId hlcL hlcC hlcNode claimantTier).Signed runner log last := by
  unfold Cluster.claimed
  split
  · split_ifs
    · apply signed.set
      · rfl
      · rfl
      · rfl
    · exact signed
  · exact signed

theorem Signed.executed (signed : cluster.Signed runner log last) (other : ι) (execution : Execution) :
    (cluster.executed fleet other execution).Signed runner log last := by
  unfold Cluster.executed
  split
  · split
    · apply signed.set
      · rfl
      · rfl
      · rfl
    · split
      · apply signed.set
        · rfl
        · rfl
        · rfl
      · apply signed.set
        · rfl
        · rfl
        · rfl
  · exact signed

/-- The actions that neither sign nor forget. -/
def Silent : Action ι → Prop
  | .complete .. => False
  | .restart _ => False
  | _ => True

theorem Signed.run (signed : cluster.Signed runner log last) (actions : List (Action ι))
    (silent : ∀ action ∈ actions, Silent action) :
    (Run.run (step fleet) cluster actions).Signed runner log last := by
  induction actions generalizing cluster with
  | nil => exact signed
  | cons action rest ih =>
      rw [Run.run_cons]
      apply ih
      · cases action with
        | postIntent intentId goalSpecJson createdAtNs => exact ⟨signed.log, signed.last⟩
        | postRoot item isRoot => exact ⟨signed.log, signed.last⟩
        | claim other workItemId hlcL hlcC hlcNode claimantTier =>
            exact signed.claimed other workItemId hlcL hlcC hlcNode claimantTier
        | execute other execution => exact signed.executed other execution
        | complete other timestampNs completedAtNs =>
            exact (silent _ List.mem_cons_self).elim
        | reclaim leaseNs nowNs => exact ⟨signed.log, signed.last⟩
        | restart other => exact (silent _ List.mem_cons_self).elim
      · exact fun other member => silent other (List.mem_cons_of_mem _ member)

theorem Signed.completed (signed : cluster.Signed runner log last) {item : WorkItem}
    {result : ExecuteResult} (working : (cluster.runners runner).phase = .executed item result)
    (timestampNs completedAtNs : Int) :
    (cluster.completed fleet runner timestampNs completedAtNs).Signed runner
      (afterStore fleet.crypto log (signAction fleet runner item result last timestampNs))
      (some (signAction fleet runner item result last timestampNs)) := by
  rcases signed with ⟨rfl, rfl⟩
  simp only [Cluster.completed, working]
  exact ⟨rfl, by simp [Cluster.set]⟩

end Cluster

end Lineage

namespace Sample

open Lineage (Action Cluster Fleet)

def runners : Fleet Unit where
  crypto := crypto
  agents _ := planner
  keys _ := compositor 1
  manifestHashes _ := "m1"
  verifyChainBeforeClaim _ := true
  strictChainVerification _ := true
  shared _ := rfl
  named _ n := by
    intro empty
    have letters := congrArg String.toList empty
    simp [planner] at letters

def firstItem : WorkItem := { sampleItem with id := "item-0" }

theorem sampleItem_root : sampleItem.parentId = none := rfl

theorem firstItem_root : firstItem.parentId = none := rfl

/-- An execution without subtasks. -/
def report : Spawn.Execution where
  raw := some (.dict [("text", .str "report")])
  recentActions := none
  artifactStored := true
  durationMs := 1
  contextHash := none

def claimOf (workItemId : String) : Action Unit := .claim () workItemId 1 0 "node" none

def executeFirst : List (Action Unit) :=
  [.postIntent "intent-1" "goal" 1, .postRoot firstItem firstItem_root, .postRoot sampleItem sampleItem_root,
    claimOf "item-0", .execute () report]

def completeFirst : List (Action Unit) := executeFirst ++ [.complete () 1 1]

def executeSecond : List (Action Unit) :=
  completeFirst ++ [claimOf "item-1", .execute () (plan (.int 3))]

/-- A root is completed, and then another one, which has been decomposed. -/
def twoRoots : List (Action Unit) := executeSecond ++ [.complete () 2 2]

def claimAlone : List (Action Unit) :=
  [.postIntent "intent-1" "goal" 1, .postRoot sampleItem sampleItem_root, claimOf "item-1"]

/-- The second root alone. -/
def oneRoot : List (Action Unit) :=
  claimAlone ++ [.execute () (plan (.int 3)), .complete () 1 1]

end Sample

open Lineage Cluster in
theorem lineage_verifies_sample :
    (Run.run (step Sample.runners) start Sample.oneRoot).Verifies Sample.runners ∧
      (Run.run (step Sample.runners) start Sample.oneRoot).board.items.rows.map
        (fun row => (row.parentId, row.completedAtNs)) = [(none, some 1), (some "item-1", none)] := by
  refine ⟨?_, by decide +kernel⟩
  have claimed : (Run.run (step Sample.runners) start Sample.claimAlone).Signed () Table.empty none := by
    apply Signed.run ⟨rfl, rfl⟩
    simp [Sample.claimAlone, Sample.claimOf, Silent]
  have executed : (Run.run (step Sample.runners) (Run.run (step Sample.runners) start Sample.claimAlone)
      [.execute () (Sample.plan (.int 3))]).Signed () Table.empty none := by
    apply Signed.run claimed
    simp [Silent]
  rw [Run.run_cons, Run.run_nil] at executed
  apply lineage_verifies Sample.runners Sample.blake3_injective
  rw [Sample.oneRoot, Run.admissible_append]
  refine ⟨⟨trivial, trivial, trivial, trivial⟩, ?_, ?_, trivial⟩
  · intro item gathered _ _ fields first rest _ _ settled
    rcases settled with ⟨path, line, stored⟩
    rcases line.last with ⟨front, rfl⟩
    have present := stored item.id (by simp)
    rw [claimed.log] at present
    cases present
  · intro item result _ _ _ _ _
    refine ⟨?_, ?_⟩
    · rw [executed.last, executed.log]
      cases (parents (step Sample.runners (Run.run (step Sample.runners) start Sample.claimAlone)
          (.execute () (Sample.plan (.int 3)))).board item.id).join
      · rfl
      · rfl
    · intro child _ _
      rw [executed.log]
      rfl

open Lineage Cluster in
/-- Where a run has executed an item, the next completion signs it. -/
theorem Sample.completes (actions : List (Action Unit)) (workItemId : String) {log : EnvelopeLog}
    {last : Option ICPEnvelope} (timestampNs : Int)
    (signed : (Run.run (step Sample.runners) start actions).Signed () log last)
    (working : (match ((Run.run (step Sample.runners) start actions).runners ()).phase with
      | .executed item _ => decide (item.id = workItemId)
      | _ => false) = true) :
    ∃ env : ICPEnvelope, env.actionId = workItemId ∧ env.timestampNs = timestampNs ∧
      env.parentEnvelopeHash = last.map (computeEnvelopeHash Sample.crypto) ∧
      (Run.run (step Sample.runners) start (actions ++ [.complete () timestampNs timestampNs])).Signed ()
        (afterStore Sample.crypto log env) (some env) := by
  split at working
  · next item result phase =>
      have named : item.id = workItemId := by simpa using working
      refine ⟨signAction Sample.runners () item result last timestampNs, named, rfl, rfl, ?_⟩
      rw [Run.run_append]
      exact signed.completed phase timestampNs timestampNs
  · cases working

open Lineage Cluster in
/-- The second root points at the first one's envelope, so the lineage of its child is refused. -/
theorem honest_lineage_fails :
    Function.Injective Sample.runners.crypto.blake3 ∧
      ¬(Run.run (step Sample.runners) start Sample.twoRoots).Verifies Sample.runners := by
  refine ⟨Sample.blake3_injective, ?_⟩
  intro verifies
  have executed : (Run.run (step Sample.runners) start Sample.executeFirst).Signed () Table.empty none := by
    apply Signed.run ⟨rfl, rfl⟩
    simp [Sample.executeFirst, Sample.claimOf, Silent]
  rcases Sample.completes Sample.executeFirst "item-0" 1 executed (by decide +kernel) with
    ⟨first, firstAction, firstTime, _, signed⟩
  have executed' : (Run.run (step Sample.runners) start Sample.executeSecond).Signed ()
      (afterStore Sample.crypto Table.empty first) (some first) := by
    rw [Sample.executeSecond, Run.run_append]
    apply Signed.run signed
    simp [Sample.claimOf, Silent]
  rcases Sample.completes Sample.executeSecond "item-1" 2 executed' (by decide +kernel) with
    ⟨second, secondAction, secondTime, secondParent, signed'⟩
  have unsigned : envelopeForAction (afterStore Sample.crypto Table.empty first) second.actionId = none := by
    rw [envelopeForAction_afterStore_other Sample.blake3_injective
      (fun _ member => (List.not_mem_nil member).elim)]
    · rfl
    · rw [firstTime]
      decide
    · rw [firstAction, secondAction]
      decide
  have found : envelopeForAction (Run.run (step Sample.runners) start Sample.twoRoots).envelopes
      "item-1" = some second := by
    rw [Sample.twoRoots, signed'.log, ← secondAction]
    apply envelopeForAction_afterStore_first _ unsigned
    rw [secondTime]
    decide
  have childRow : ((Run.run (step Sample.runners) start Sample.twoRoots).board.items.get? "c").map
      WorkItem.parentId = some (some "item-1") := by
    decide +kernel
  have rootRow : ((Run.run (step Sample.runners) start Sample.twoRoots).board.items.get? "item-1").map
      (fun row => (row.parentId, row.completedAtNs)) = some (none, some 2) := by
    decide +kernel
  rcases Option.map_eq_some_iff.mp childRow with ⟨child, childStored, under⟩
  rcases Option.map_eq_some_iff.mp rootRow with ⟨root, rootStored, rootFields⟩
  rcases Prod.mk.inj rootFields with ⟨isRoot, rootDone⟩
  have line : Line (parents (Run.run (step Sample.runners) start Sample.twoRoots).board) "item-1"
      ["item-1"] := by
    apply Line.root
    rw [parents, rootStored, Option.map_some, isRoot]
  rcases verifies child ((Table.get?_eq_some _ _ _).mp childStored).1 "item-1" under with
    ⟨path, line', verified⟩
  cases line'.unique line
  have accepted := verified (by
    intro ancestor member
    rw [List.mem_singleton.mp member]
    refine ⟨⟨root, rootStored, ?_⟩, ?_⟩
    · rw [rootDone]
      exact Option.some_ne_none _
    · rw [found]
      rfl) true
  have chain : reconstructChain (Run.run (step Sample.runners) start Sample.twoRoots).board
      (Run.run (step Sample.runners) start Sample.twoRoots).envelopes "item-1" = some ([second], "") := by
    rw [reconstructChain, Forest.climb_line line 10000 (by decide)]
    simp only [List.append_nil, collect, found]
  have refused : (verifyChain Sample.crypto [second]).1 = false := by
    apply verifyChain_unrooted
    rw [secondParent]
    exact Option.some_ne_none _
  rw [verifyLineage, under, Option.getD_some, chain, Option.map_some] at accepted
  simp [Sample.runners, refused] at accepted

end Gyza
