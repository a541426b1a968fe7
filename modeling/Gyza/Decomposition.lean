import Gyza.SpawnRuns

/-! Whether the items of a decomposition can always be served: a combiner waits for its
siblings (`get_unclaimed`, `_spawn_subtasks`). -/

namespace Gyza

open PyValue (Value)
open Run (AllowedUntil)

namespace Spawn

/-- One board for any number of agents, and the ids drawn so far. -/
structure Pool where
  board : Board
  drawn : Nat

/-- Roots come from outside, all others from `_spawn_subtasks`; `poll` is a look at
the board at a time. -/
inductive PoolAct where
  | postIntent (intentId goalSpecJson : String) (createdAtNs : Int)
  | postRoot (item : WorkItem) (isRoot : item.parentId = none)
  | spawn (agent : Agent) (workItemId : String) (subtasks : List Value)
  | call (call : BoardCall) (claims : ClaimCall call)
  | poll (nowNs : Int)

def OpenAt (nowNs : Int) (item : WorkItem) : Prop :=
  item.completedAtNs = none ∧ nowNs < item.createdAtNs + item.ttlNs

instance (nowNs : Int) (item : WorkItem) : Decidable (OpenAt nowNs item) :=
  inferInstanceAs (Decidable (_ ∧ _))

/-- The second item is another child of the first one's parent. -/
def Siblings (first second : WorkItem) : Prop :=
  second.parentId = first.parentId ∧ first.parentId ≠ none ∧ first.parentId ≠ some "" ∧
    second.id ≠ first.id

instance (first second : WorkItem) : Decidable (Siblings first second) :=
  inferInstanceAs (Decidable (_ ∧ _))

/-- No uncompleted item is claimed. -/
def NoneClaimed (board : Board) : Prop :=
  ∀ item ∈ board.items.rows, item.completedAtNs = none → item.claimedBy = none

instance (board : Board) : Decidable (NoneClaimed board) :=
  inferInstanceAs (Decidable (∀ item ∈ board.items.rows, _ → _))

/-- Where nothing is claimed, every lineage with an open item is offered one. -/
def Served (board : Board) (nowNs : Int) : Prop :=
  NoneClaimed board → ∀ item ∈ board.items.rows, OpenAt nowNs item →
    ∃ served, board.getUnclaimed 0 3 none nowNs = .ok served ∧
      ∃ offered ∈ served, offered.lineageRoot = item.lineageRoot

/-- The cap and the depth let `_spawn_subtasks` begin to post. -/
structure Granted (agent : Agent) (board : Board) (parent : WorkItem) (subtasks : List Value) :
    Prop where
  within : ∃ cap, manifestMaxChildren agent = .ok cap ∧ (subtasks.length : Int) ≤ cap
  depth : lineageDepth board parent.id + 1 ≤ maxTaskDepth

/-- A combiner is posted only beside combiners that are completed. -/
def LoneCombiner (agent : Agent) (parent : WorkItem) (posting : Posting) (subtask : Value) : Prop :=
  ∀ child ∈ readChild agent parent posting.drawn subtask,
    (postWorkItem posting.board child).toOption.isSome → posting.board.items.get? child.id = none →
      Board.isCombine child = true → parent.id ≠ "" →
        ∀ row ∈ posting.board.items.rows, row.parentId = some parent.id →
          Board.isCombine row = true → row.completedAtNs ≠ none

instance (agent : Agent) (parent : WorkItem) (posting : Posting) (subtask : Value) :
    Decidable (LoneCombiner agent parent posting subtask) :=
  inferInstanceAs (Decidable (∀ child ∈ readChild agent parent posting.drawn subtask,
    _ → _ → _ → _ → ∀ row ∈ posting.board.items.rows, _ → _ → _))

/-- An open combiner that still waits has an open sibling to wait for. -/
def WaitsInTime (board : Board) (nowNs : Int) : Prop :=
  FitsInt64 nowNs ∧ ∀ combiner ∈ board.items.rows, Board.isCombine combiner = true →
    OpenAt nowNs combiner → ∀ pending ∈ board.items.rows, Siblings combiner pending →
      pending.completedAtNs = none →
        ∃ sibling ∈ board.items.rows, Siblings combiner sibling ∧ OpenAt nowNs sibling

instance (board : Board) (nowNs : Int) : Decidable (WaitsInTime board nowNs) :=
  inferInstanceAs (Decidable (_ ∧ _))

namespace Pool

def step (pool : Pool) : PoolAct → Pool
  | .postIntent intentId goalSpecJson createdAtNs =>
      { pool with board := boardStep pool.board (.postIntent intentId goalSpecJson createdAtNs) }
  | .postRoot item _ => { pool with board := (postWorkItem pool.board item).toOption.getD pool.board }
  | .spawn agent workItemId subtasks =>
      match pool.board.items.get? workItemId with
      | none => pool
      | some parent =>
          let left := (spawnSubtasks agent parent { board := pool.board, drawn := pool.drawn }
            subtasks).1
          ⟨left.board, left.drawn⟩
  | .call call _ => { pool with board := boardStep pool.board call }
  | .poll _ => pool

def start : Pool := ⟨Board.empty, 0⟩

def Unblocked (pool : Pool) : PoolAct → Prop
  | .spawn agent workItemId subtasks => ∀ parent ∈ pool.board.items.get? workItemId,
      Granted agent pool.board parent subtasks →
        AllowedUntil (postChild agent parent) (LoneCombiner agent parent)
          { board := pool.board, drawn := pool.drawn } subtasks
  | .poll nowNs => WaitsInTime pool.board nowNs
  | _ => True

end Pool

/-! The invariant: children stay in their parent's lineage, and of the uncompleted
combiners of one parent there is at most one. -/

structure WellPosted (board : Board) : Prop where
  rooted : ∀ row ∈ board.items.rows, ∀ parentId, row.parentId = some parentId →
    ∃ parent ∈ board.items.rows, parent.id = parentId ∧ parent.lineageRoot = row.lineageRoot
  lone : ∀ first ∈ board.items.rows, ∀ second ∈ board.items.rows, Siblings first second →
    Board.isCombine first = true → Board.isCombine second = true →
      first.completedAtNs = none → second.completedAtNs ≠ none

/-- What a call that posts nothing may do to a row. -/
structure Kept (before after : WorkItem) : Prop where
  id : after.id = before.id
  parentId : after.parentId = before.parentId
  lineageRoot : after.lineageRoot = before.lineageRoot
  outputSpec : after.outputSpec = before.outputSpec
  uncompleted : after.completedAtNs = none → before.completedAtNs = none

structure Evolves (before after : Board) : Prop where
  origin : ∀ row ∈ after.items.rows, ∃ old ∈ before.items.rows, Kept old row
  image : ∀ old ∈ before.items.rows, ∃ row ∈ after.items.rows, Kept old row

theorem Kept.trans {first second third : WorkItem} (earlier : Kept first second)
    (later : Kept second third) : Kept first third where
  id := later.id.trans earlier.id
  parentId := later.parentId.trans earlier.parentId
  lineageRoot := later.lineageRoot.trans earlier.lineageRoot
  outputSpec := later.outputSpec.trans earlier.outputSpec
  uncompleted last := earlier.uncompleted (later.uncompleted last)

theorem rowRule_kept : RowRule Kept where
  refl _ := ⟨rfl, rfl, rfl, rfl, id⟩
  trans _ _ _ := Kept.trans
  claim _ _ _ _ _ := ⟨rfl, rfl, rfl, rfl, id⟩
  completion _ _ _ _ _ :=
    ⟨rfl, rfl, rfl, rfl, fun uncompleted => absurd uncompleted (Option.some_ne_none _)⟩
  release _ := ⟨rfl, rfl, rfl, rfl, id⟩
  reclaim _ := ⟨rfl, rfl, rfl, rfl, id⟩

theorem claimCall_evolves (board : Board) (call : BoardCall) (claims : ClaimCall call) :
    Evolves board (boardStep board call) := by
  rcases rowRule_kept.boardStep board call (ClaimCall.posts_nothing claims) with ⟨change, changed, rows⟩
  constructor
  · intro row member
    rw [rows] at member
    rcases List.mem_map.mp member with ⟨old, stored, rfl⟩
    exact ⟨old, stored, changed old⟩
  · intro old stored
    refine ⟨change old, ?_, changed old⟩
    rw [rows]
    exact List.mem_map_of_mem stored

theorem Kept.isCombine {before after : WorkItem} (kept : Kept before after) :
    Board.isCombine after = Board.isCombine before := by
  simp only [Board.isCombine, kept.outputSpec]

theorem WellPosted.evolve {before after : Board} (posted : WellPosted before)
    (evolves : Evolves before after) : WellPosted after := by
  constructor
  · intro row member parentId under
    rcases evolves.origin row member with ⟨old, stored, kept⟩
    rcases posted.rooted old stored parentId (kept.parentId.symm.trans under) with
      ⟨parent, above, named, same⟩
    rcases evolves.image parent above with ⟨parent', above', kept'⟩
    exact ⟨parent', above', kept'.id.trans named,
      kept'.lineageRoot.trans (same.trans kept.lineageRoot.symm)⟩
  · intro first member second member' siblings combines combines' uncompleted uncompleted'
    rcases evolves.origin first member with ⟨old, stored, kept⟩
    rcases evolves.origin second member' with ⟨old', stored', kept'⟩
    apply posted.lone old stored old' stored' _ (kept.isCombine ▸ combines)
      (kept'.isCombine ▸ combines') (kept.uncompleted uncompleted) (kept'.uncompleted uncompleted')
    rcases siblings with ⟨same, some, named, apart⟩
    exact ⟨kept'.parentId.symm.trans (same.trans kept.parentId), kept.parentId ▸ some,
      kept.parentId ▸ named, kept.id ▸ kept'.id ▸ apart⟩

/-! Posting. -/

theorem mem_postWorkItem {board next : Board} {child : WorkItem}
    (posted : postWorkItem board child = .ok next) (row : WorkItem) :
    row ∈ next.items.rows ↔
      row ∈ board.items.rows ∨ row = child ∧ board.items.get? child.id = none := by
  rw [Table.mem_rows, Table.mem_rows, postWorkItem_get? posted]
  by_cases same : child.id = row.id
  · rw [if_pos same, same]
    cases stored : board.items.get? row.id with
    | none =>
        simp only [Option.getD_none, Option.some.injEq, reduceCtorEq, false_or, and_true]
        exact eq_comm
    | some old => simp
  · rw [if_neg same]
    simp only [iff_self_or]
    rintro ⟨rfl, _⟩
    exact absurd rfl same

theorem WellPosted.post {board next : Board} {child : WorkItem} (well : WellPosted board)
    (posted : postWorkItem board child = .ok next)
    (rooted : ∀ parentId, child.parentId = some parentId →
      ∃ parent ∈ board.items.rows, parent.id = parentId ∧ parent.lineageRoot = child.lineageRoot)
    (lone : board.items.get? child.id = none → Board.isCombine child = true →
      child.parentId ≠ none → child.parentId ≠ some "" →
        ∀ row ∈ board.items.rows, row.parentId = child.parentId → Board.isCombine row = true →
          row.completedAtNs ≠ none) : WellPosted next := by
  constructor
  · intro row member parentId under
    have above : ∃ parent ∈ board.items.rows, parent.id = parentId ∧
        parent.lineageRoot = row.lineageRoot := by
      rcases (mem_postWorkItem posted row).mp member with old | ⟨rfl, _⟩
      · exact well.rooted row old parentId under
      · exact rooted parentId under
    rcases above with ⟨parent, stored, named, same⟩
    exact ⟨parent, (mem_postWorkItem posted parent).mpr (Or.inl stored), named, same⟩
  · intro first member second member' siblings combines combines' uncompleted
    rcases siblings with ⟨same, some, named, apart⟩
    rcases (mem_postWorkItem posted first).mp member with old | ⟨rfl, fresh⟩
    · rcases (mem_postWorkItem posted second).mp member' with old' | ⟨rfl, fresh⟩
      · exact well.lone first old second old' ⟨same, some, named, apart⟩ combines combines' uncompleted
      · exact absurd uncompleted
          (lone fresh combines' (same ▸ some) (same ▸ named) first old same.symm combines)
    · rcases (mem_postWorkItem posted second).mp member' with old' | ⟨rfl, _⟩
      · exact lone fresh combines some named second old' same combines'
      · exact absurd rfl apart

/-- One pass of the loop keeps the invariant, and the parent on the board. -/
theorem WellPosted.postChild {agent : Agent} {parent : WorkItem} {posting next : Posting}
    {subtask : Value} (well : WellPosted posting.board) (above : parent ∈ posting.board.items.rows)
    (alone : LoneCombiner agent parent posting subtask)
    (ok : Spawn.postChild agent parent posting subtask = .ok next) :
    WellPosted next.board ∧ parent ∈ next.board.items.rows := by
  unfold Spawn.postChild at ok
  split at ok
  · cases ok
  · rename_i child read
    split at ok
    · cases ok
    · rename_i board posted
      cases ok
      rcases readChild_fields read with ⟨_, root, under⟩
      refine ⟨well.post posted ?_ ?_, (mem_postWorkItem posted parent).mpr (Or.inl above)⟩
      · intro parentId named
        rw [under, Option.some.injEq] at named
        exact ⟨parent, above, named, root.symm⟩
      · intro fresh combines _ named
        rw [under] at named ⊢
        apply alone child read (by simp [posted, Except.toOption]) fresh combines
        rintro empty
        exact named (by rw [empty])

theorem spawnSubtasks_left (agent : Agent) (parent : WorkItem) (posting : Posting)
    (subtasks : List Value) :
    (spawnSubtasks agent parent posting subtasks).1 = posting ∨
      Granted agent posting.board parent subtasks ∧
        (spawnSubtasks agent parent posting subtasks).1 =
          (Run.untilError (Spawn.postChild agent parent) posting subtasks).1 := by
  by_cases empty : subtasks.isEmpty = true
  · left
    rw [spawnSubtasks, if_pos empty]
  · cases granted : manifestMaxChildren agent with
    | error error =>
        left
        rw [spawnSubtasks, if_neg empty, granted]
    | ok cap =>
        rw [spawnSubtasks, if_neg empty, granted]
        dsimp only
        split_ifs with nothing beyond deep
        · exact Or.inl rfl
        · exact Or.inl rfl
        · exact Or.inl rfl
        · exact Or.inr ⟨⟨⟨cap, granted, not_lt.mp beyond⟩, not_lt.mp deep⟩, rfl⟩

theorem WellPosted.step (pool : Pool) (act : PoolAct) (well : WellPosted pool.board)
    (unblocked : pool.Unblocked act) : WellPosted (pool.step act).board := by
  cases act with
  | postIntent intentId goalSpecJson createdAtNs =>
      have same := postIntent_items pool.board intentId goalSpecJson createdAtNs
      exact ⟨by rw [Pool.step, same]; exact well.rooted, by rw [Pool.step, same]; exact well.lone⟩
  | postRoot item isRoot =>
      simp only [Pool.step]
      cases posted : postWorkItem pool.board item with
      | error error => exact well
      | ok next =>
          apply well.post posted
          · intro parentId named
            rw [isRoot] at named
            cases named
          · intro _ _ parented
            exact absurd isRoot parented
  | spawn agent workItemId subtasks =>
      simp only [Pool.step]
      cases stored : pool.board.items.get? workItemId with
      | none => exact well
      | some parent =>
          rcases spawnSubtasks_left agent parent { board := pool.board, drawn := pool.drawn } subtasks
            with same | ⟨granted, same⟩
          · dsimp only
            rw [same]
            exact well
          · dsimp only
            rw [same]
            have above : parent ∈ pool.board.items.rows :=
              ((Table.get?_eq_some _ _ _).mp stored).1
            exact (Run.untilError_allowed (Spawn.postChild agent parent) (LoneCombiner agent parent)
              (fun posting => WellPosted posting.board ∧ parent ∈ posting.board.items.rows)
              (fun _ _ _ holds alone ok => holds.1.postChild holds.2 alone ok) subtasks _
              ⟨well, above⟩ (unblocked parent stored granted)).1
  | call call claims => exact well.evolve (claimCall_evolves pool.board call claims)
  | poll nowNs => exact well

theorem wellPosted_start : WellPosted Pool.start.board := by
  constructor
  · intro row member
    cases member
  · intro first member
    cases member

/-! Serving. -/

theorem servable_iff (board : Board) (item : WorkItem) :
    board.servable item = true ↔ (Board.isCombine item = true →
      ∀ sibling ∈ board.items.rows, Siblings item sibling → sibling.completedAtNs ≠ none) := by
  have waits : (board.pendingSiblings item).isEmpty = true ↔
      ∀ sibling ∈ board.items.rows, Siblings item sibling → sibling.completedAtNs ≠ none := by
    unfold Board.pendingSiblings
    split
    · rename_i orphan
      simp [Siblings, orphan]
    · rename_i unnamed
      simp [Siblings, unnamed]
    · rename_i parentId named under
      simp only [List.isEmpty_iff, List.map_eq_nil_iff, List.filter_eq_nil_iff, Board.childrenOf,
        List.mem_insertionSort, List.mem_filter, decide_eq_true_eq, Siblings, under]
      constructor
      · intro all sibling member siblings uncompleted
        exact all sibling ⟨member, siblings.1⟩ ⟨siblings.2.2.2, uncompleted⟩
      · rintro all sibling ⟨member, below⟩ ⟨apart, uncompleted⟩
        exact all sibling member ⟨below, Option.some_ne_none _, by simpa using named, apart⟩ uncompleted
  rw [Board.servable, Bool.or_eq_true, waits, Bool.not_eq_true', ← Bool.not_eq_true, imp_iff_not_or]

theorem offered_of_open {board : Board} {item : WorkItem} {nowNs : Int} (fits : FitsInt64 nowNs)
    (member : item ∈ board.items.rows) (opens : OpenAt nowNs item) (free : item.claimedBy = none)
    (ready : board.servable item = true) :
    ∃ served, board.getUnclaimed 0 3 none nowNs = .ok served ∧ item ∈ served := by
  have bound : FitsInt64 3 ∧ FitsInt64 nowNs ∧ ∀ bound ∈ (none : Option Int), FitsInt64 bound :=
    ⟨by decide, fits, fun _ impossible => by cases impossible⟩
  rw [Board.getUnclaimed, if_pos bound]
  refine ⟨_, rfl, ?_⟩
  rw [Board.limited, List.mem_filter, List.mem_insertionSort, List.mem_filter]
  exact ⟨⟨member, decide_eq_true
    ⟨free, item.reward_range.1, item.requiredTier_range.2, opens.2⟩⟩, ready⟩

/-- Where combiners are alone and wait in time, an open lineage is served. -/
theorem WellPosted.served {board : Board} {nowNs : Int} (well : WellPosted board)
    (inTime : WaitsInTime board nowNs) : Served board nowNs := by
  intro free item member opens
  by_cases ready : board.servable item = true
  · rcases offered_of_open inTime.1 member opens (free item member opens.1) ready with
      ⟨served, answer, offered⟩
    exact ⟨served, answer, item, offered, rfl⟩
  · rw [servable_iff] at ready
    push Not at ready
    rcases ready with ⟨combines, pending, present, siblings, uncompleted⟩
    rcases inTime.2 item member combines opens pending present siblings uncompleted with
      ⟨sibling, stored, siblings', opens'⟩
    -- the sibling it waits for is no combiner, so nothing holds it back
    have plain : Board.isCombine sibling ≠ true := by
      intro combines'
      exact well.lone item member sibling stored siblings' combines combines' opens.1 opens'.1
    have ready' : board.servable sibling = true :=
      (servable_iff board sibling).mpr fun combines' => absurd combines' plain
    rcases offered_of_open inTime.1 stored opens' (free sibling stored opens'.1) ready' with
      ⟨served, answer, offered⟩
    refine ⟨served, answer, sibling, offered, ?_⟩
    rcases siblings' with ⟨same, parented, _, _⟩
    rcases Option.ne_none_iff_exists'.mp parented with ⟨parentId, under⟩
    rcases well.rooted item member parentId under with ⟨parent, above, named, root⟩
    rcases well.rooted sibling stored parentId (same.trans under) with ⟨parent', above', named', root'⟩
    have one : parent = parent' := by
      have first := (Table.mem_rows _ _).mp above
      have second := (Table.mem_rows _ _).mp above'
      rw [named] at first
      rw [named', first] at second
      exact Option.some.inj second
    rw [← root, ← root', one]

/-- In every run that posts no combiner beside an uncompleted one, each look that finds
the waiting combiners in time is served from every open lineage. -/
theorem decomposition_served (acts : List PoolAct)
    (unblocked : Run.Admissible Pool.step Pool.Unblocked Pool.start acts) (front back : List PoolAct)
    (nowNs : Int) (split : acts = front ++ .poll nowNs :: back) :
    Served (Run.run Pool.step Pool.start front).board nowNs := by
  rw [split, Run.admissible_append] at unblocked
  have well := Run.invariant_run Pool.step Pool.Unblocked (fun pool => WellPosted pool.board)
    WellPosted.step Pool.start front wellPosted_start unblocked.1
  exact well.served unblocked.2.1

/-- Two uncompleted combiners of one parent are never served. -/
theorem combiners_wait {board : Board} {first second : WorkItem} (member : second ∈ board.items.rows)
    (siblings : Siblings first second) (combines : Board.isCombine first = true)
    (uncompleted : second.completedAtNs = none) {minReward : Float} {tier : Int} {limit : Option Int}
    {nowNs : Int} {served : List WorkItem}
    (answer : board.getUnclaimed minReward tier limit nowNs = .ok served) : first ∉ served := by
  intro offered
  simp only [Board.getUnclaimed] at answer
  split_ifs at answer
  cases answer
  have ready := (servable_iff board first).mp (List.mem_filter.mp offered).2
  exact ready combines second member siblings uncompleted

end Spawn

namespace Sample

open Spawn

/-- Every output spec asks this agent for a combiner. -/
def combiningPlanner : Agent :=
  { planner with reader := { reader with dict := fun _ => some [("kind", .str "combine")] } }

def combineTask : Value := .dict [("output_spec", .dict [])]

/-- A root is claimed, decomposed and completed. -/
def decompose (subtasks : List Value) : List PoolAct :=
  [.postIntent "intent-1" "goal" 1, .postRoot sampleItem rfl,
    .call (.tryClaim "item-1" "planner" 1 0 "node" none) trivial,
    .spawn combiningPlanner "item-1" subtasks,
    .call (.completeWorkItem "item-1" "out" "env" true 2 (some "planner")) trivial]

def claimedBoard : Board := (Run.run Pool.step Pool.start ((decompose []).take 3)).board

end Sample

open Spawn in
theorem decomposition_served_sample :
    Served (Run.run Pool.step Pool.start (Sample.decompose [.dict [], Sample.combineTask])).board 5 := by
  apply decomposition_served (Sample.decompose [.dict [], Sample.combineTask] ++ [.poll 5]) _ _ [] 5 rfl
  refine ⟨trivial, trivial, trivial, ?_, trivial, ?_, trivial⟩
  · intro parent stored _
    have alone : ∀ parent ∈ Sample.claimedBoard.items.get? "item-1",
        LoneCombiner Sample.combiningPlanner parent ⟨Sample.claimedBoard, 0, [], none⟩ (.dict []) ∧
          ∀ next ∈ (postChild Sample.combiningPlanner parent ⟨Sample.claimedBoard, 0, [], none⟩
            (.dict [])).toOption,
              LoneCombiner Sample.combiningPlanner parent next Sample.combineTask := by
      decide +kernel
    rcases alone parent stored with ⟨first, second⟩
    refine ⟨first, ?_⟩
    intro next posted
    exact ⟨second next (congrArg Except.toOption posted), fun _ _ => trivial⟩
  · change WaitsInTime _ 5
    decide +kernel

open Spawn in
/-- Both children combine, and each waits for the other. -/
theorem combiners_deadlock :
    ¬ Served (Run.run Pool.step Pool.start
      (Sample.decompose [Sample.combineTask, Sample.combineTask])).board 5 := by
  intro served
  have stuck : (NoneClaimed (Run.run Pool.step Pool.start
        (Sample.decompose [Sample.combineTask, Sample.combineTask])).board ∧
      ∃ item ∈ (Run.run Pool.step Pool.start
        (Sample.decompose [Sample.combineTask, Sample.combineTask])).board.items.rows,
          OpenAt 5 item) ∧
      ((Run.run Pool.step Pool.start
        (Sample.decompose [Sample.combineTask, Sample.combineTask])).board.getUnclaimed 0 3 none
          5).toOption.map List.length = some 0 := by
    decide +kernel
  rcases stuck with ⟨⟨free, item, member, opens⟩, empty⟩
  rcases served free item member opens with ⟨offers, answer, offered, listed, _⟩
  rw [answer] at empty
  simp only [Except.toOption, Option.map_some, Option.some.injEq, List.length_eq_zero_iff] at empty
  rw [empty] at listed
  cases listed

end Gyza
