import Gyza.Audit
import Gyza.BoardRuns

/-! Decomposition in the runner (`AgentRunner._execute`, `_spawn_subtasks`) on a single
node: an execution posts its children one by one, before its own artifact is built. -/

namespace Gyza

open CanonJson (Doc Json)
open Hex (utf8)
open PyValue (Fields Value dictGet)

namespace Spawn

def maxTaskDepth : Nat := 3

/-- Conversions of the values in one subtask; `none` is an exception, in the conversion
or when the row is written. -/
structure Reader where
  text : Value → String
  float : Value → Option Float
  int : Value → Option Int
  hashes : Value → Option (List String)
  dict : Value → Option (List (String × Json))
  embedding : Value → Option (List Float32)

/-- One agent: its signed manifest, and what the process it runs in gives it. -/
structure Agent where
  crypto : Crypto
  python : Audit.Python
  reader : Reader
  manifest : Fields
  requireEnforcement : Bool
  /-- The n-th id that `uuid.uuid7()` gives out. -/
  uuid7 : Nat → String
  /-- `time.time_ns()`, twice for each child. -/
  clock : Nat → Int × Int

inductive SpawnError where
  | nothing
  | manifest (error : Audit.AuditError)
  | noAuthority (cap : Int)
  | overCap (subtasks : Nat) (cap : Int)
  | depthCap (depth : Nat)
  | malformed
  | unknownRoot (lineageRoot : String)
  | board (error : BoardError)

section Posting

variable (agent : Agent)

def manifestMaxChildren : Except Audit.AuditError Int :=
  match dictGet agent.manifest "capabilities" (.dict []) with
  | .dict capabilities => do
      let spawn ← Audit.blockOf capabilities "spawn"
      if (dictGet spawn "permitted" .none).truthy then do
        let budget ← Audit.blockOf spawn "resource_budget"
        Audit.maxChildren agent.python budget
      else pure 0
  | _ => .error .attributeError

/-- The loop of `lineage_depth`, with so many hops left of its cap. -/
def depthFrom (board : Board) : Nat → Option WorkItem → List String → Nat → Nat
  | 0, _, _, depth => depth
  | hops + 1, cur, seen, depth =>
      match cur.bind WorkItem.parentId with
      | none => depth
      | some parentId =>
          if parentId = "" ∨ parentId ∈ seen then depth
          else depthFrom board hops (board.items.get? parentId) (parentId :: seen) (depth + 1)

def lineageDepth (board : Board) (workItemId : String) : Nat :=
  depthFrom board 64 (board.items.get? workItemId) [workItemId] 0

def postWorkItem (board : Board) (item : WorkItem) : Except SpawnError Board :=
  if (board.intents.get? item.lineageRoot).isNone then .error (.unknownRoot item.lineageRoot)
  else (board.postWorkItemDirect item).mapError .board

def isCombineSpec (spec : List (String × Json)) : Bool :=
  match spec.lookup "kind" with
  | some (.str kind) => kind = "combine"
  | _ => false

/-- `spec[key] = value`. -/
def setField (spec : List (String × Json)) (key : String) (value : Json) : List (String × Json) :=
  if spec.any (fun field => field.1 = key) then
    spec.map (fun field => if field.1 = key then (key, value) else field)
  else spec ++ [(key, value)]

/-- `_child_output_spec`. -/
def childOutputSpec (parent : WorkItem) (fields : Fields) : Option (List (String × Json)) :=
  ((fields.lookup "output_spec").elim (some [("kind", .str "subtask")]) agent.reader.dict).map
    (fun spec => if isCombineSpec spec then setField spec "of" (.str parent.id) else spec)

def readEmbedding (parent : WorkItem) : Value → Option (List Float32)
  | .none => some parent.descEmbedding
  | given => agent.reader.embedding given

/-- The child of one subtask; `none` where its conversion or `WorkItem` raises. -/
def readChild (parent : WorkItem) (drawn : Nat) (subtask : Value) : Option WorkItem :=
  match subtask with
  | .dict fields => do
      let embedding ← readEmbedding agent parent (dictGet fields "embedding" .none)
      let reward ← (fields.lookup "reward").elim (some parent.reward) agent.reader.float
      let tier ← (fields.lookup "required_tier").elim (some parent.requiredTier) agent.reader.int
      let inputHashes ← (fields.lookup "input_hashes").elim (some []) agent.reader.hashes
      let outputSpec ← childOutputSpec agent parent fields
      if valid : embedding.length = embeddingDim ∧ (0 ≤ reward ∧ reward ≤ 1) ∧
          0 ≤ min tier parent.requiredTier ∧ min tier parent.requiredTier ≤ 3 then
        some {
          id := agent.uuid7 drawn
          lineageRoot := parent.lineageRoot
          parentId := some parent.id
          description := agent.reader.text (dictGet fields "description" (.str "subtask"))
          descEmbedding := embedding
          reward := reward
          rewardUpdatedNs := (agent.clock drawn).1
          requiredTier := min tier parent.requiredTier
          inputHashes := inputHashes
          outputSpec := outputSpec
          streamingOk := false
          claimedBy := none
          claimedAtNs := none
          claimHlcL := 0
          claimHlcC := 0
          claimHlcNode := ""
          completedAtNs := none
          outputHash := none
          icpEnvelopeHash := none
          success := none
          createdAtNs := (agent.clock drawn).2
          ttlNs := parent.ttlNs
          descEmbedding_shape := valid.1
          reward_range := valid.2.1
          requiredTier_range := valid.2.2 }
      else none
  | _ => none

/-- Between two children: the board, how many ids have been drawn, and the results. -/
structure Posting where
  board : Board
  drawn : Nat
  made : List String := []
  combineId : Option String := none

/-- One pass of the loop. The id of a pass that raises is given to nothing. -/
def postChild (parent : WorkItem) (posting : Posting) (subtask : Value) :
    Except SpawnError Posting :=
  match readChild agent parent posting.drawn subtask with
  | none => .error .malformed
  | some child =>
      match postWorkItem posting.board child with
      | .error error => .error error
      | .ok board =>
          .ok {
            board := board
            drawn := posting.drawn + 1
            made := posting.made ++ [child.id]
            combineId := if Board.isCombine child then some child.id else posting.combineId }

/-- What `_spawn_subtasks` leaves, and what it raises. Without subtasks it returns a
list, which its caller cannot unpack. -/
def spawnSubtasks (parent : WorkItem) (posting : Posting) (subtasks : List Value) :
    Posting × Option SpawnError :=
  if subtasks.isEmpty then (posting, some .nothing)
  else
    match manifestMaxChildren agent with
    | .error error => (posting, some (.manifest error))
    | .ok cap =>
        if cap ≤ 0 then (posting, some (.noAuthority cap))
        else if cap < subtasks.length then (posting, some (.overCap subtasks.length cap))
        else if maxTaskDepth < lineageDepth posting.board parent.id + 1 then
          (posting, some (.depthCap (lineageDepth posting.board parent.id + 1)))
        else Run.untilError (postChild agent parent) posting subtasks

end Posting

/-! The execution around it. -/

/-- What one execution meets: what the executor returned (nothing where it or a step
before it raised), the actions signed in the rate window, whether the artifact went into
the table, the time it took, and the hash of its prompt. -/
structure Execution where
  raw : Option Value
  recentActions : Option Nat
  artifactStored : Bool
  durationMs : Int
  contextHash : Option String

structure ExecuteResult where
  contextHash : Option String
  output : Value
  outputHash : String
  durationMs : Int
  tokensIn : Int
  tokensOut : Int
  modelIdentifier : String
  inferenceBackend : String

inductive ExecuteError where
  | notRun
  | notResult
  | noEnforcement
  | gateRaised (raised : Raised)
  | outOfBounds (why : GateFault)
  | rateCap (cap : Int)
  | storage
  | notIterable
  | spawn (error : SpawnError)
  | notSerialisable
  | conversion (error : Audit.AuditError)

section Execute

variable (agent : Agent)

/-- `isinstance(raw, dict)` and `"text" in raw`. -/
def resultFields : Value → Option Fields
  | .dict fields => if (fields.lookup "text").isSome then some fields else none
  | _ => none

def checkEnforcement (enforcement : Value) : Except ExecuteError Unit :=
  match enforcement with
  | .none => if agent.requireEnforcement then .error .noEnforcement else .ok ()
  | record =>
      match enforcementSatisfiesManifest agent.python.str record (.dict agent.manifest) with
      | .error raised => .error (.gateRaised raised)
      | .ok (.error why) => .error (.outOfBounds why)
      | .ok (.ok ()) => .ok ()

def checkRate (recentActions : Option Nat) : Except ExecuteError Unit :=
  match (specFromManifest agent.python.str (.dict agent.manifest)).rateCap with
  | none => .ok ()
  | some cap =>
      match recentActions with
      | none => .error .storage
      | some used => if cap ≤ used then .error (.rateCap cap) else .ok ()

/-- Everything between the executor's return and the decomposition. -/
def checkResult (execution : Execution) : Except ExecuteError Fields :=
  match execution.raw with
  | none => .error .notRun
  | some raw =>
      match resultFields raw with
      | none => .error .notResult
      | some fields => do
          checkEnforcement agent (Audit.enforcementOf fields)
          checkRate agent execution.recentActions
          pure fields

def enforcementPart : Value → Fields
  | .none => []
  | record => [("__enforcement__", record)]

/-- `artifact_obj`; a decomposition adds its children, and which of them combines. -/
def artifactObject (fields : Fields) (posting : Option Posting) : Fields :=
  [("text", dictGet fields "text" (.str ""))] ++ enforcementPart (Audit.enforcementOf fields) ++
    posting.elim [] (fun spawned =>
      ("__subtasks__", .collection .list (spawned.made.map .str)) ::
        spawned.combineId.elim [] (fun child => if child = "" then [] else [("__combine__", .str child)]))

/-- The hash of the artifact's canonical JSON. -/
def artifactHash (artifact : Fields) : Option String :=
  (Audit.toDoc (.dict artifact)).map (fun document =>
    agent.crypto.hexdigest (utf8 (Doc.dumps agent.python.floatRepr document.normal)))

/-- From the artifact to the result. -/
def finish (execution : Execution) (fields : Fields) (posting : Option Posting) :
    Except ExecuteError ExecuteResult :=
  match artifactHash agent (artifactObject fields posting) with
  | none => .error .notSerialisable
  | some outputHash =>
      if execution.artifactStored = false then .error .storage
      else do
        let tokensIn ← (Audit.toInt agent.python (dictGet fields "tokens_in" (.int 0))).mapError .conversion
        let tokensOut ←
          (Audit.toInt agent.python (dictGet fields "tokens_out" (.int 0))).mapError .conversion
        pure {
          contextHash := execution.contextHash
          output := dictGet fields "text" (.str "")
          outputHash := outputHash
          durationMs := max 1 execution.durationMs
          tokensIn := tokensIn
          tokensOut := tokensOut
          modelIdentifier := agent.python.str (dictGet fields "model_identifier" (.str "unknown"))
          inferenceBackend := agent.python.str (dictGet fields "inference_backend" (.str "mock")) }

/-- What an execution of the item leaves on the board, and what it returns or raises. -/
def execute (item : WorkItem) (posting : Posting) (execution : Execution) :
    Posting × Except ExecuteError ExecuteResult :=
  match checkResult agent execution with
  | .error error => (posting, .error error)
  | .ok fields =>
      if (Audit.subtasksOf fields).truthy then
        match (Audit.subtasksOf fields).iterate with
        | none => (posting, .error .notIterable)
        | some subtasks =>
            match spawnSubtasks agent item posting subtasks with
            | (left, some error) => (left, .error (.spawn error))
            | (spawned, none) => (spawned, finish agent execution fields (some spawned))
      else (posting, finish agent execution fields none)

/-- The gates, the cap and the depth let the execution decompose into these subtasks. -/
structure Decomposes (board : Board) (item : WorkItem) (execution : Execution) (fields : Fields)
    (subtasks : List Value) : Prop where
  checked : checkResult agent execution = .ok fields
  asked : (Audit.subtasksOf fields).truthy = true
  listed : (Audit.subtasksOf fields).iterate = some subtasks
  within : ∃ cap, manifestMaxChildren agent = .ok cap ∧ (subtasks.length : Int) ≤ cap
  depth : lineageDepth board item.id + 1 ≤ maxTaskDepth

/-- The subtask gives a child that the board takes. -/
def Postable (board : Board) (parent : WorkItem) (drawn : Nat) (subtask : Value) : Prop :=
  ∃ child, readChild agent parent drawn subtask = some child ∧ child.Binds ∧
    (board.intents.get? parent.lineageRoot).isSome

end Execute

variable {agent : Agent}

theorem readChild_fields {parent child : WorkItem} {drawn : Nat} {subtask : Value}
    (read : readChild agent parent drawn subtask = some child) :
    child.id = agent.uuid7 drawn ∧ child.lineageRoot = parent.lineageRoot ∧
      child.parentId = some parent.id := by
  unfold readChild at read
  split at read
  · simp only [bind, Option.bind_eq_some_iff] at read
    rcases read with ⟨_, _, _, _, _, _, _, _, _, _, built⟩
    split_ifs at built
    cases built
    exact ⟨rfl, rfl, rfl⟩
  · cases read

theorem postWorkItem_get? {board next : Board} {child : WorkItem}
    (posted : postWorkItem board child = .ok next) (id : String) :
    next.items.get? id =
      if child.id = id then some ((board.items.get? id).getD child) else board.items.get? id := by
  simp only [postWorkItem, Board.postWorkItemDirect] at posted
  split_ifs at posted with unknown binds taken known
  · cases posted
    rcases Option.isSome_iff_exists.mp taken with ⟨old, present⟩
    by_cases same : child.id = id
    · subst same
      simp [present]
    · simp [same]
  · cases posted
    exact Table.get?_insertOrIgnore _ child id
  · cases posted
  · cases posted

/-- The board after one child: it is there, or its id was taken. -/
theorem postChild_get? {parent : WorkItem} {posting next : Posting} {subtask : Value}
    (ok : postChild agent parent posting subtask = .ok next) :
    ∃ child, (∃ drawn, child.id = agent.uuid7 drawn) ∧ child.parentId = some parent.id ∧
      ∀ id, next.board.items.get? id =
        if child.id = id then some ((posting.board.items.get? id).getD child)
        else posting.board.items.get? id := by
  unfold postChild at ok
  cases read : readChild agent parent posting.drawn subtask with
  | none =>
      rw [read] at ok
      cases ok
  | some child =>
      rcases readChild_fields read with ⟨own, _, parentId⟩
      simp only [read] at ok
      cases posted : postWorkItem posting.board child with
      | error error =>
          rw [posted] at ok
          cases ok
      | ok board =>
          rw [posted] at ok
          cases ok
          exact ⟨child, ⟨_, own⟩, parentId, postWorkItem_get? posted⟩

/-- A pass that succeeds has posted its child. -/
theorem postable_of_ok {parent : WorkItem} {posting next : Posting} {subtask : Value}
    (ok : postChild agent parent posting subtask = .ok next) :
    Postable agent posting.board parent posting.drawn subtask := by
  unfold postChild at ok
  cases read : readChild agent parent posting.drawn subtask with
  | none =>
      rw [read] at ok
      cases ok
  | some child =>
      simp only [read] at ok
      cases posted : postWorkItem posting.board child with
      | error error =>
          rw [posted] at ok
          cases ok
      | ok board =>
          unfold postWorkItem at posted
          split_ifs at posted with unknown
          cases direct : posting.board.postWorkItemDirect child with
          | error error =>
              rw [direct] at posted
              cases posted
          | ok written =>
              refine ⟨child, read, (Board.postWorkItemDirect_intents direct).1, ?_⟩
              rw [← (readChild_fields read).2.1]
              exact Option.isSome_iff_ne_none.mpr (by simpa using unknown)

/-- The rows that were there stay, and the new ones are children of the item. -/
def Grows (agent : Agent) (parentId : String) (before after : Board) : Prop :=
  ∀ id, after.items.get? id = before.items.get? id ∨
    before.items.get? id = none ∧ (∃ drawn, id = agent.uuid7 drawn) ∧
      ∃ child, after.items.get? id = some child ∧ child.parentId = some parentId

theorem execute_decomposes {item : WorkItem} {posting : Posting} {execution : Execution}
    {fields : Fields} {first : Value} {rest : List Value}
    (decomposes : Decomposes agent posting.board item execution fields (first :: rest)) :
    execute agent item posting execution =
      match Run.untilError (postChild agent item) posting (first :: rest) with
      | (left, some error) => (left, .error (.spawn error))
      | (spawned, none) => (spawned, finish agent execution fields (some spawned)) := by
  rcases decomposes.within with ⟨cap, granted, within⟩
  have positive : ¬cap ≤ 0 := by
    rw [List.length_cons] at within
    omega
  have spawns : spawnSubtasks agent item posting (first :: rest) =
      Run.untilError (postChild agent item) posting (first :: rest) := by
    rw [spawnSubtasks, if_neg (by simp), granted]
    simp only
    rw [if_neg positive, if_neg (not_lt.mpr within), if_neg (not_lt.mpr decomposes.depth)]
  simp only [execute, decomposes.checked, decomposes.asked, decomposes.listed, spawns, if_true]

/-- Where nothing is decomposed, the board and the ids stay. -/
theorem execute_idle {item : WorkItem} {posting : Posting} {execution : Execution}
    (idle : ∀ fields first rest,
      ¬Decomposes agent posting.board item execution fields (first :: rest)) :
    (execute agent item posting execution).1 = posting := by
  unfold execute
  cases checked : checkResult agent execution with
  | error error => rfl
  | ok fields =>
      simp only
      split_ifs with asked
      · cases listed : (Audit.subtasksOf fields).iterate with
        | none => rfl
        | some subtasks =>
            have unspawned : (spawnSubtasks agent item posting subtasks).1 = posting ∧
                (spawnSubtasks agent item posting subtasks).2 ≠ none := by
              unfold spawnSubtasks
              cases subtasks with
              | nil => simp
              | cons first rest =>
                  rw [if_neg (by simp)]
                  cases granted : manifestMaxChildren agent with
                  | error error => simp
                  | ok cap =>
                      simp only
                      split_ifs with ungranted beyond deep
                      · simp
                      · simp
                      · simp
                      · exact absurd ⟨checked, asked, listed, ⟨cap, granted, not_lt.mp beyond⟩,
                          not_lt.mp deep⟩ (idle fields first rest)
            simp only
            split
            · next left error spawned =>
                rw [spawned] at unspawned
                exact unspawned.1
            · next left spawned =>
                rw [spawned] at unspawned
                exact absurd rfl unspawned.2
      · rfl

theorem Grows.loop (parent : WorkItem) (subtasks : List Value) (posting : Posting) :
    Grows agent parent.id posting.board
      (Run.untilError (postChild agent parent) posting subtasks).1.board := by
  apply Run.untilError_invariant (postChild agent parent)
    (fun left => Grows agent parent.id posting.board left.board)
  · intro before next subtask _ grows ok id
    rcases postChild_get? ok with ⟨child, ⟨drawn, own⟩, parentId, found⟩
    rw [found]
    by_cases same : child.id = id
    · rw [if_pos same]
      rcases grows id with kept | ⟨absent, drawn', new, present, under⟩
      · rw [kept]
        cases posting.board.items.get? id with
        | none => exact Or.inr ⟨rfl, ⟨drawn, same.symm.trans own⟩, child, rfl, parentId⟩
        | some row => exact Or.inl rfl
      · rw [present]
        exact Or.inr ⟨absent, drawn', new, rfl, under⟩
    · rw [if_neg same]
      exact grows id
  · exact fun _ => Or.inl rfl

/-- An execution leaves the board, or adds children to the item it decomposes. -/
theorem execute_grows (item : WorkItem) (posting : Posting) (execution : Execution) :
    (execute agent item posting execution).1.board = posting.board ∨
      (∃ fields first rest, Decomposes agent posting.board item execution fields (first :: rest) ∧
        Postable agent posting.board item posting.drawn first) ∧
        Grows agent item.id posting.board (execute agent item posting execution).1.board := by
  by_cases idle : ∀ fields first rest,
      ¬Decomposes agent posting.board item execution fields (first :: rest)
  · left
    rw [execute_idle idle]
  · push Not at idle
    rcases idle with ⟨fields, first, rest, decomposes⟩
    have left : (execute agent item posting execution).1 =
        (Run.untilError (postChild agent item) posting (first :: rest)).1 := by
      rw [execute_decomposes decomposes]
      split
      · next same => rw [same]
      · next same => rw [same]
    rw [left]
    cases result : postChild agent item posting first with
    | error error =>
        left
        rw [Run.untilError_cons_error _ rest result]
    | ok next =>
        right
        exact ⟨⟨fields, first, rest, decomposes, postable_of_ok result⟩,
          Grows.loop item (first :: rest) posting⟩

end Spawn

end Gyza
