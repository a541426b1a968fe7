import Gyza.Spawn

/-! How many children one agent posts under an item, over all claims, executions,
failures, releases and completions. -/

namespace Gyza

open PyValue (Fields Value dictGet)

namespace Spawn

/-- The calls that post nothing. -/
def ClaimCall : BoardCall → Prop
  | .tryClaim .. => True
  | .completeWorkItem .. => True
  | .releaseClaim .. => True
  | .reclaimExpiredClaims .. => True
  | _ => False

theorem ClaimCall.posts_nothing {call : BoardCall} (claims : ClaimCall call) (item : WorkItem) :
    call ≠ .postWorkItem item := by
  rintro rfl
  exact claims

/-- The board, the ids drawn so far, and the children the agent has posted, each behind
its parent. -/
structure Node where
  board : Board
  drawn : Nat
  posted : List (String × String)

inductive Action where
  | call (call : BoardCall) (claims : ClaimCall call)
  | execute (workItemId : String) (execution : Execution)

/-- The manifest's cap; one that cannot be read, or is negative, grants no child. -/
def childCap (agent : Agent) : Nat := ((manifestMaxChildren agent).toOption.getD 0).toNat

namespace Node

def children (node : Node) (parentId : String) : List String :=
  (node.posted.filter (fun pair => pair.1 = parentId)).map Prod.snd

section Steps

variable (agent : Agent)

/-- The execution of an item by the agent, from the state it finds. -/
def executed (node : Node) (item : WorkItem) (execution : Execution) :
    Posting × Except ExecuteError ExecuteResult :=
  execute agent item { board := node.board, drawn := node.drawn } execution

def step (node : Node) : Action → Node
  | .call call _ => { node with board := boardStep node.board call }
  | .execute workItemId execution =>
      match node.board.items.get? workItemId with
      | none => node
      | some item =>
          { board := (node.executed agent item execution).1.board
            drawn := (node.executed agent item execution).1.drawn
            posted := node.posted ++
              (node.executed agent item execution).1.made.map (fun child => (workItemId, child)) }

def start (board : Board) : Node := ⟨board, 0, []⟩

/-- An execution that raises after the executor has returned leaves the work items. -/
def Atomic (node : Node) (action : Action) : Prop :=
  match action with
  | .call _ _ => True
  | .execute workItemId execution => ∀ item, node.board.items.get? workItemId = some item →
      execution.raw ≠ none → (∃ error, (node.executed agent item execution).2 = .error error) →
        (node.step agent action).board.items = node.board.items

def AllPostable (board : Board) (parent : WorkItem) (drawn : Nat) (subtasks : List Value) : Prop :=
  ∀ k subtask, subtasks[k]? = some subtask → Postable agent board parent (drawn + k) subtask

/-- Nothing raises between the last child and the result. -/
structure Finishes (execution : Execution) (fields : Fields) : Prop where
  text : (Audit.toDoc (dictGet fields "text" (.str ""))).isSome
  enforcement : (Audit.toDoc (Audit.enforcementOf fields)).isSome
  stored : execution.artifactStored = true
  tokensIn : ∃ count, Audit.toInt agent.python (dictGet fields "tokens_in" (.int 0)) = .ok count
  tokensOut : ∃ count, Audit.toInt agent.python (dictGet fields "tokens_out" (.int 0)) = .ok count

/-- An execution that posts a child posts all of them, with room for them under the cap,
and then returns. -/
def SpawnsInFull (cap : Nat) (node : Node) : Action → Prop
  | .call _ _ => True
  | .execute workItemId execution => ∀ item, node.board.items.get? workItemId = some item →
      ∀ fields first rest, Decomposes agent node.board item execution fields (first :: rest) →
        Postable agent node.board item node.drawn first →
          AllPostable agent node.board item node.drawn (first :: rest) ∧
            Finishes agent execution fields ∧
            (node.children workItemId).toFinset.card + (first :: rest).length ≤ cap

end Steps

variable {agent : Agent}

/-! The loop. -/

/-- No row has an id that is still to be drawn. -/
def Unused (agent : Agent) (board : Board) (drawn : Nat) : Prop :=
  ∀ n, drawn ≤ n → agent.uuid7 n ∉ board.items.rows.map WorkItem.id

/-- One pass posts the child behind the other rows. -/
theorem postChild_postable {parent : WorkItem} {posting : Posting} {subtask : Value}
    (unused : Unused agent posting.board posting.drawn)
    (postable : Postable agent posting.board parent posting.drawn subtask) :
    ∃ child next, postChild agent parent posting subtask = .ok next ∧
      next.board.items.rows = posting.board.items.rows ++ [child] ∧
      next.board.intents = posting.board.intents ∧ next.drawn = posting.drawn + 1 ∧
      next.made = posting.made ++ [agent.uuid7 posting.drawn] ∧
      child.id = agent.uuid7 posting.drawn ∧ child.parentId = some parent.id := by
  rcases postable with ⟨child, read, binds, known⟩
  rcases readChild_fields read with ⟨id, root, parentId⟩
  have fresh : posting.board.items.get? child.id = none := by
    rw [Table.get?_eq_none, id]
    exact unused posting.drawn (Nat.le_refl _)
  rw [← root] at known
  have posted : postWorkItem posting.board child =
      .ok { posting.board with items := posting.board.items.append child fresh } := by
    rw [postWorkItem, if_neg (by simpa using Option.isSome_iff_ne_none.mp known),
      Board.postWorkItemDirect, if_pos binds, if_neg (by simp [fresh]), if_pos known,
      Table.insertOrIgnore, dif_pos fresh]
    rfl
  have ok : postChild agent parent posting subtask = .ok {
      board := { posting.board with items := posting.board.items.append child fresh }
      drawn := posting.drawn + 1
      made := posting.made ++ [child.id]
      combineId := if Board.isCombine child then some child.id else posting.combineId } := by
    simp only [postChild, read, posted]
  exact ⟨child, _, ok, rfl, rfl, rfl, by rw [id], id, parentId⟩

/-- What the loop leaves: the rows of the children it has posted, behind the others. -/
structure Posted (agent : Agent) (parent : WorkItem) (subtasks : List Value) (posting left : Posting)
    (error : Option SpawnError) (children : List WorkItem) : Prop where
  rows : left.board.items.rows = posting.board.items.rows ++ children
  intents : left.board.intents = posting.board.intents
  drawn : left.drawn = posting.drawn + children.length
  made : left.made = posting.made ++ children.map WorkItem.id
  ids : children.map WorkItem.id = (List.range' posting.drawn children.length).map agent.uuid7
  under : ∀ child ∈ children, child.parentId = some parent.id
  whole : error = none ↔ AllPostable agent posting.board parent posting.drawn subtasks
  length : error = none → children.length = subtasks.length
  first : children = [] ↔ ∀ subtask ∈ subtasks.head?,
    ¬Postable agent posting.board parent posting.drawn subtask

theorem loop_posted (distinct : Function.Injective agent.uuid7) (parent : WorkItem)
    (subtasks : List Value) (posting : Posting)
    (unused : Unused agent posting.board posting.drawn) :
    ∃ children, Posted agent parent subtasks posting
      (Run.untilError (postChild agent parent) posting subtasks).1
      (Run.untilError (postChild agent parent) posting subtasks).2 children := by
  induction subtasks generalizing posting with
  | nil =>
      refine ⟨[], by simp [Run.untilError], rfl, rfl, by simp [Run.untilError], rfl, ?_, ?_, ?_, ?_⟩
      · exact fun _ member => by cases member
      · refine ⟨?_, fun _ => rfl⟩
        intro _ k subtask found
        simp at found
      · exact fun _ => rfl
      · simp
  | cons subtask rest ih =>
      by_cases postable : Postable agent posting.board parent posting.drawn subtask
      · rcases postChild_postable unused postable with
          ⟨child, next, ok, rows, intents, drawn, made, id, parentId⟩
        have unused' : Unused agent next.board next.drawn := by
          intro n later
          rw [drawn] at later
          rw [rows, List.map_append, List.map_singleton, List.mem_append, List.mem_singleton, id, not_or]
          refine ⟨unused n (by omega), ?_⟩
          intro same
          have equal := distinct same
          omega
        rcases ih next unused' with ⟨children, spec⟩
        rw [Run.untilError_cons_ok _ rest ok]
        have later : AllPostable agent next.board parent next.drawn rest ↔
            AllPostable agent posting.board parent posting.drawn (subtask :: rest) := by
          unfold AllPostable Postable
          rw [intents, drawn]
          constructor
          · intro all k other found
            cases k with
            | zero =>
                cases found
                exact postable
            | succ k =>
                have shifted := all k other found
                rwa [Nat.add_assoc, Nat.add_comm 1 k] at shifted
          · intro all k other found
            have shifted := all (k + 1) other found
            rwa [Nat.add_comm k 1, ← Nat.add_assoc] at shifted
        refine ⟨child :: children, ?_, spec.intents.trans intents, ?_, ?_, ?_, ?_, ?_, ?_, ?_⟩
        · rw [spec.rows, rows, List.append_assoc, List.singleton_append]
        · rw [spec.drawn, drawn, List.length_cons]
          omega
        · rw [spec.made, made, List.append_assoc, List.singleton_append, List.map_cons, id]
        · rw [List.map_cons, List.length_cons, List.range'_succ, List.map_cons, spec.ids, id, drawn]
        · rw [List.forall_mem_cons]
          exact ⟨parentId, spec.under⟩
        · rw [spec.whole, later]
        · intro none
          rw [List.length_cons, List.length_cons, spec.length none]
        · simp [postable]
      · cases result : postChild agent parent posting subtask with
        | ok next => exact absurd (postable_of_ok result) postable
        | error error =>
            rw [Run.untilError_cons_error _ rest result]
            refine ⟨[], by simp, rfl, rfl, by simp, rfl, ?_, ?_, ?_, ?_⟩
            · exact fun _ member => by cases member
            · refine ⟨fun impossible => absurd impossible (Option.some_ne_none _), ?_⟩
              intro all
              exact absurd (all 0 subtask rfl) postable
            · exact fun impossible => absurd impossible (Option.some_ne_none _)
            · simp [postable]

/-! The end of an execution. -/

theorem itemsToDoc_isSome (items : List Value) :
    (Audit.itemsToDoc items).isSome ↔ ∀ item ∈ items, (Audit.toDoc item).isSome := by
  induction items with
  | nil => simp [Audit.itemsToDoc]
  | cons item rest ih =>
      rw [Audit.itemsToDoc, List.forall_mem_cons, ← ih]
      cases first : Audit.toDoc item with
      | none => simp
      | some document =>
          cases others : Audit.itemsToDoc rest with
          | none => simp
          | some documents => simp

theorem fieldsToDoc_isSome (fields : Fields) :
    (Audit.fieldsToDoc fields).isSome ↔ ∀ field ∈ fields, (Audit.toDoc field.2).isSome := by
  induction fields with
  | nil => simp [Audit.fieldsToDoc]
  | cons field rest ih =>
      rcases field with ⟨name, value⟩
      rw [Audit.fieldsToDoc, List.forall_mem_cons, ← ih]
      cases first : Audit.toDoc value with
      | none => simp
      | some document =>
          cases others : Audit.fieldsToDoc rest with
          | none => simp
          | some documents => simp

/-- The children are texts, so the artifact has a text when the rest of it does. -/
theorem artifactHash_isSome (fields : Fields) (posting : Posting) :
    (artifactHash agent (artifactObject fields (some posting))).isSome ↔
      (Audit.toDoc (dictGet fields "text" (.str ""))).isSome ∧
        (Audit.toDoc (Audit.enforcementOf fields)).isSome := by
  have made : (Audit.toDoc (.collection .list (posting.made.map .str))).isSome := by
    rw [Audit.toDoc, Option.isSome_map, itemsToDoc_isSome]
    intro item member
    rcases List.mem_map.mp member with ⟨child, _, rfl⟩
    rfl
  have combine : ∀ field ∈ posting.combineId.elim ([] : Fields)
      (fun child => if child = "" then [] else [("__combine__", .str child)]),
      (Audit.toDoc field.2).isSome := by
    intro field member
    cases combined : posting.combineId with
    | none =>
        rw [combined] at member
        cases member
    | some child =>
        rw [combined, Option.elim_some] at member
        split_ifs at member
        · cases member
        · rw [List.mem_singleton.mp member]
          rfl
  have record : (∀ field ∈ enforcementPart (Audit.enforcementOf fields), (Audit.toDoc field.2).isSome) ↔
      (Audit.toDoc (Audit.enforcementOf fields)).isSome := by
    cases Audit.enforcementOf fields with
    | none => simp [enforcementPart, Audit.toDoc]
    | _ => simp [enforcementPart]
  rw [artifactHash, Option.isSome_map, Audit.toDoc, Option.isSome_map, fieldsToDoc_isSome,
    artifactObject, List.forall_mem_append, List.forall_mem_append, List.forall_mem_singleton, record,
    Option.elim_some, List.forall_mem_cons]
  exact ⟨fun parts => parts.1, fun parts => ⟨parts, made, combine⟩⟩

theorem finish_ok_iff (execution : Execution) (fields : Fields) (posting : Posting) :
    (∃ result, finish agent execution fields (some posting) = .ok result) ↔
      Finishes agent execution fields := by
  have hash : (artifactHash agent (artifactObject fields (some posting))).isSome ↔ _ :=
    artifactHash_isSome fields posting
  constructor
  · intro ⟨result, ok⟩
    unfold finish at ok
    cases hashed : artifactHash agent (artifactObject fields (some posting)) with
    | none =>
        rw [hashed] at ok
        cases ok
    | some outputHash =>
        rcases hash.mp (by rw [hashed]; rfl) with ⟨text, enforcement⟩
        rw [hashed] at ok
        simp only at ok
        split_ifs at ok with missing
        cases first : Audit.toInt agent.python (dictGet fields "tokens_in" (.int 0)) with
        | error error =>
            rw [first] at ok
            cases ok
        | ok tokensIn =>
            cases second : Audit.toInt agent.python (dictGet fields "tokens_out" (.int 0)) with
            | error error =>
                rw [first, second] at ok
                cases ok
            | ok tokensOut =>
                exact ⟨text, enforcement, by simpa using missing, ⟨tokensIn, first⟩, ⟨tokensOut, second⟩⟩
  · intro finishes
    rcases Option.isSome_iff_exists.mp
      (hash.mpr ⟨finishes.text, finishes.enforcement⟩) with ⟨outputHash, hashed⟩
    rcases finishes.tokensIn with ⟨tokensIn, first⟩
    rcases finishes.tokensOut with ⟨tokensOut, second⟩
    rw [finish, hashed]
    simp only [finishes.stored, first, second]
    exact ⟨_, rfl⟩

/-! A run. -/

theorem claimCall_ids (board : Board) (call : BoardCall) (claims : ClaimCall call) :
    (boardStep board call).items.rows.map WorkItem.id = board.items.rows.map WorkItem.id :=
  (rowRule_id.boardStep board call (ClaimCall.posts_nothing claims)).map_column WorkItem.id
    fun _ _ same => same

/-- Every child posted has an id of its own, and the next ids are free. -/
structure Sound (agent : Agent) (node : Node) : Prop where
  unused : Unused agent node.board node.drawn
  drawn : ∀ pair ∈ node.posted, ∃ k < node.drawn, pair.2 = agent.uuid7 k
  distinct : (node.posted.map Prod.snd).Nodup

theorem Sound.card {node : Node} (sound : Sound agent node) (parentId : String) :
    (node.children parentId).toFinset.card = (node.children parentId).length :=
  List.toFinset_card_of_nodup (sound.distinct.sublist (List.filter_sublist.map Prod.snd))

/-- An execution that posts these children. -/
structure Spawns (agent : Agent) (node : Node) (workItemId : String) (item : WorkItem)
    (execution : Execution) (fields : Fields) (first : Value) (rest : List Value)
    (children : List WorkItem) : Prop where
  decomposes : Decomposes agent node.board item execution fields (first :: rest)
  rows : (node.step agent (.execute workItemId execution)).board.items.rows =
    node.board.items.rows ++ children
  posted : (node.step agent (.execute workItemId execution)).posted =
    node.posted ++ children.map (fun child => (workItemId, child.id))
  drawn : (node.step agent (.execute workItemId execution)).drawn = node.drawn + children.length
  ids : children.map WorkItem.id = (List.range' node.drawn children.length).map agent.uuid7
  raises : (∃ error, (node.executed agent item execution).2 = .error error) ↔
    ¬(AllPostable agent node.board item node.drawn (first :: rest) ∧ Finishes agent execution fields)
  whole : AllPostable agent node.board item node.drawn (first :: rest) →
    children.length = (first :: rest).length
  none : children = [] ↔ ¬Postable agent node.board item node.drawn first

theorem execute_cases (distinct : Function.Injective agent.uuid7) {node : Node}
    (sound : Sound agent node) {workItemId : String} {item : WorkItem}
    (stored : node.board.items.get? workItemId = some item) (execution : Execution) :
    ((∀ fields first rest, ¬Decomposes agent node.board item execution fields (first :: rest)) ∧
        node.step agent (.execute workItemId execution) = node) ∨
      ∃ fields first rest children,
        Spawns agent node workItemId item execution fields first rest children := by
  by_cases idle : ∀ fields first rest,
      ¬Decomposes agent node.board item execution fields (first :: rest)
  · left
    refine ⟨idle, ?_⟩
    have same : (node.executed agent item execution).1 = { board := node.board, drawn := node.drawn } :=
      execute_idle idle
    simp only [step, stored, same, List.map_nil, List.append_nil]
  · right
    push Not at idle
    rcases idle with ⟨fields, first, rest, decomposes⟩
    rcases loop_posted distinct item (first :: rest)
      { board := node.board, drawn := node.drawn } sound.unused with ⟨children, spec⟩
    have executes : node.executed agent item execution = _ := execute_decomposes decomposes
    have left : (node.executed agent item execution).1 =
        (Run.untilError (postChild agent item) { board := node.board, drawn := node.drawn }
          (first :: rest)).1 := by
      rw [executes]
      split
      · next same => rw [same]
      · next same => rw [same]
    have raises : (∃ error, (node.executed agent item execution).2 = .error error) ↔
        ¬(AllPostable agent node.board item node.drawn (first :: rest) ∧
          Finishes agent execution fields) := by
      have whole := spec.whole
      rw [executes]
      split
      · next posting error same =>
          rw [same] at whole
          have partial' : ¬AllPostable agent node.board item node.drawn (first :: rest) :=
            fun all => absurd (whole.mpr all) (Option.some_ne_none _)
          exact ⟨fun _ both => partial' both.1, fun _ => ⟨_, rfl⟩⟩
      · next posting same =>
          rw [same] at whole
          have all : AllPostable agent node.board item node.drawn (first :: rest) := whole.mp rfl
          rw [← finish_ok_iff execution fields posting]
          cases finished : finish agent execution fields (some posting) with
          | error error => simp
          | ok result => simp [all]
    refine ⟨fields, first, rest, children, decomposes, ?_, ?_, ?_, spec.ids, raises, ?_, ?_⟩
    · simp only [step, stored, left, spec.rows]
    · simp only [step, stored, left, spec.made, List.nil_append, List.map_map, Function.comp_def]
    · simp only [step, stored, left, spec.drawn]
    · intro all
      exact spec.length (spec.whole.mpr all)
    · rw [spec.first]
      simp

theorem Sound.step (distinct : Function.Injective agent.uuid7) {node : Node}
    (sound : Sound agent node) (action : Action) : Sound agent (node.step agent action) := by
  cases action with
  | call call claims =>
      refine ⟨?_, sound.drawn, sound.distinct⟩
      intro n later
      rw [Node.step, claimCall_ids node.board call claims]
      exact sound.unused n later
  | execute workItemId execution =>
      cases stored : node.board.items.get? workItemId with
      | none =>
          have same : node.step agent (.execute workItemId execution) = node := by
            simp only [Node.step, stored]
          rw [same]
          exact sound
      | some item =>
          rcases execute_cases distinct sound stored execution with
            ⟨_, same⟩ | ⟨fields, first, rest, children, spawns⟩
          · rw [same]
            exact sound
          · have drawnIds : ∀ child ∈ children, ∃ k < children.length,
                child.id = agent.uuid7 (node.drawn + k) := by
              intro child member
              have listed : child.id ∈ (List.range' node.drawn children.length).map agent.uuid7 :=
                spawns.ids ▸ List.mem_map_of_mem member
              rcases List.mem_map.mp listed with ⟨n, within, same⟩
              rw [List.mem_range'_1] at within
              exact ⟨n - node.drawn, by omega, by rw [← same]; congr 1; omega⟩
            refine ⟨?_, ?_, ?_⟩
            · intro n later
              rw [spawns.drawn] at later
              rw [spawns.rows, List.map_append, List.mem_append, not_or]
              refine ⟨sound.unused n (by omega), ?_⟩
              intro taken
              rcases List.mem_map.mp taken with ⟨child, member, same⟩
              rcases drawnIds child member with ⟨k, bound, id⟩
              have equal := distinct (id.symm.trans same)
              omega
            · rw [spawns.posted, spawns.drawn, List.forall_mem_append]
              refine ⟨?_, ?_⟩
              · intro pair member
                rcases sound.drawn pair member with ⟨k, bound, id⟩
                exact ⟨k, by omega, id⟩
              · intro pair member
                rcases List.mem_map.mp member with ⟨child, present, rfl⟩
                rcases drawnIds child present with ⟨k, bound, id⟩
                exact ⟨node.drawn + k, by omega, id⟩
            · rw [spawns.posted, List.map_append, List.map_map, List.nodup_append]
              have ids : children.map (Prod.snd ∘ fun child => (workItemId, child.id)) =
                  (List.range' node.drawn children.length).map agent.uuid7 := spawns.ids
              rw [ids]
              refine ⟨sound.distinct, List.Nodup.map distinct List.nodup_range', ?_⟩
              intro id earlier other later same
              rcases List.mem_map.mp earlier with ⟨pair, member, rfl⟩
              rcases sound.drawn pair member with ⟨k, bound, drawn⟩
              rcases List.mem_map.mp later with ⟨n, within, rfl⟩
              rw [List.mem_range'_1] at within
              have equal := distinct (drawn.symm.trans same)
              omega

theorem children_append (node : Node) (workItemId parentId : String) (children : List WorkItem)
    {next : Node}
    (posted : next.posted = node.posted ++ children.map (fun child => (workItemId, child.id))) :
    next.children parentId = node.children parentId ++
      if workItemId = parentId then children.map WorkItem.id else [] := by
  rw [Node.children, posted, List.filter_append, List.map_append, Node.children, List.filter_map,
    List.map_map]
  by_cases same : workItemId = parentId
  · simp [same, Function.comp_def]
  · simp [same, Function.comp_def]

theorem returned_of_checked {execution : Execution} {fields : Fields}
    (checked : checkResult agent execution = .ok fields) : execution.raw ≠ none := by
  intro missing
  rw [checkResult, missing] at checked
  cases checked

section Spawning

variable {node : Node} {workItemId : String} {item : WorkItem} {execution : Execution}
  {fields : Fields} {first : Value} {rest : List Value} {children : List WorkItem}

theorem Spawns.card (distinct : Function.Injective agent.uuid7) (sound : Sound agent node)
    (spawns : Spawns agent node workItemId item execution fields first rest children)
    (parentId : String) :
    ((node.step agent (.execute workItemId execution)).children parentId).toFinset.card =
      (node.children parentId).toFinset.card +
        if workItemId = parentId then children.length else 0 := by
  have later := sound.step distinct (.execute workItemId execution)
  rw [later.card, sound.card, children_append node workItemId parentId children spawns.posted,
    List.length_append]
  by_cases same : workItemId = parentId
  · simp [same]
  · simp [same]

/-- What was posted cannot be taken back, so nothing may be left unposted. -/
theorem Spawns.in_full (distinct : Function.Injective agent.uuid7) (sound : Sound agent node)
    (stored : node.board.items.get? workItemId = some item)
    (spawns : Spawns agent node workItemId item execution fields first rest children) {cap : Nat}
    (atomic : node.Atomic agent (.execute workItemId execution))
    (capped : ∀ parentId, ((node.step agent
      (.execute workItemId execution)).children parentId).toFinset.card ≤ cap) :
    SpawnsInFull agent cap node (.execute workItemId execution) := by
  intro other found fields' first' rest' decomposes postable
  cases stored.symm.trans found
  cases spawns.decomposes.checked.symm.trans decomposes.checked
  cases spawns.decomposes.listed.symm.trans decomposes.listed
  have some' : children ≠ [] := fun empty => (spawns.none.mp empty) postable
  have full : AllPostable agent node.board item node.drawn (first :: rest) ∧
      Finishes agent execution fields := by
    by_contra failed
    have kept := atomic item stored
      (returned_of_checked spawns.decomposes.checked) (spawns.raises.mpr failed)
    have rows := spawns.rows
    rw [kept] at rows
    exact some' (List.self_eq_append_right.mp rows)
  refine ⟨full.1, full.2, ?_⟩
  have most := capped workItemId
  rwa [spawns.card distinct sound, if_pos rfl, spawns.whole full.1] at most

theorem Spawns.of_full (distinct : Function.Injective agent.uuid7) (sound : Sound agent node)
    (stored : node.board.items.get? workItemId = some item)
    (spawns : Spawns agent node workItemId item execution fields first rest children) {cap : Nat}
    (capped : ∀ parentId, (node.children parentId).toFinset.card ≤ cap)
    (full : SpawnsInFull agent cap node (.execute workItemId execution)) :
    node.Atomic agent (.execute workItemId execution) ∧ ∀ parentId,
      ((node.step agent (.execute workItemId execution)).children parentId).toFinset.card ≤ cap := by
  have cards := spawns.card distinct sound
  by_cases postable : Postable agent node.board item node.drawn first
  · rcases full item stored fields first rest spawns.decomposes postable with
      ⟨all, finishes, room⟩
    constructor
    · intro other found _ raised
      cases stored.symm.trans found
      exact absurd ⟨all, finishes⟩ (spawns.raises.mp raised)
    · intro parentId
      rw [cards]
      split_ifs with same
      · rw [spawns.whole all, ← same]
        exact room
      · exact capped parentId
  · have empty := spawns.none.mpr postable
    constructor
    · intro _ _ _ _
      apply Table.ext
      rw [spawns.rows, empty, List.append_nil]
    · intro parentId
      rw [cards, empty]
      simpa using capped parentId

end Spawning

/-- Under the cap, a step is atomic and stays under it exactly when it spawns in full. -/
theorem Sound.step_capped_iff (distinct : Function.Injective agent.uuid7) {cap : Nat} {node : Node}
    (sound : Sound agent node)
    (capped : ∀ parentId, (node.children parentId).toFinset.card ≤ cap) (action : Action) :
    (node.Atomic agent action ∧
        ∀ parentId, ((node.step agent action).children parentId).toFinset.card ≤ cap) ↔
      SpawnsInFull agent cap node action := by
  cases action with
  | call call claims => exact ⟨fun _ => trivial, fun _ => ⟨trivial, capped⟩⟩
  | execute workItemId execution =>
      cases stored : node.board.items.get? workItemId with
      | none =>
          have same : node.step agent (.execute workItemId execution) = node := by
            simp only [Node.step, stored]
          rw [same]
          constructor
          · intro _ item found
            rw [stored] at found
            cases found
          · intro _
            refine ⟨?_, capped⟩
            intro item found
            rw [stored] at found
            cases found
      | some item =>
          rcases execute_cases distinct sound stored execution with
            ⟨idle, same⟩ | ⟨fields, first, rest, children, spawns⟩
          · constructor
            · intro _ other found fields first rest decomposes
              cases stored.symm.trans found
              exact absurd decomposes (idle fields first rest)
            · intro _
              rw [same]
              refine ⟨?_, capped⟩
              intro _ _ _ _
              rw [same]
          · constructor
            · intro both
              exact spawns.in_full distinct sound stored both.1 both.2
            · exact spawns.of_full distinct sound stored capped

/-- Over every run on one board: whatever raises after the executor has returned leaves the
work items, and no item gets more children than the manifest grants, exactly when each
execution that posts a child posts all of them, with room for them, and then returns. -/
theorem spawn_bounded_iff (agent : Agent) (distinct : Function.Injective agent.uuid7)
    (board : Board) (unused : Unused agent board 0) (actions : List Action) :
    (∀ front action back, actions = front ++ action :: back →
      (Run.run (step agent) (start board) front).Atomic agent action ∧
        ∀ parentId, ((Run.run (step agent) (start board)
          (front ++ [action])).children parentId).toFinset.card ≤ childCap agent) ↔
      Run.Admissible (step agent) (SpawnsInFull agent (childCap agent)) (start board) actions := by
  have sound : ∀ inputs, Sound agent (Run.run (step agent) (start board) inputs) := by
    intro inputs
    exact Run.kept_run (step agent) (Sound agent) (fun _ action holds => holds.step distinct action)
      (start board) inputs ⟨unused, fun _ member => (List.not_mem_nil member).elim, List.nodup_nil⟩
  rw [← Run.fine_iff_admissible (step agent) (SpawnsInFull agent (childCap agent)) (Atomic agent)
    (fun node => Sound agent node ∧
      ∀ parentId, (node.children parentId).toFinset.card ≤ childCap agent)
    (by
      intro node action ⟨holds, capped⟩
      rw [← holds.step_capped_iff distinct capped action]
      exact ⟨fun kept => ⟨kept.1, kept.2.2⟩,
        fun kept => ⟨kept.1, holds.step distinct action, kept.2⟩⟩)
    (start board) actions ⟨sound [], by simp [start, children]⟩]
  simp only [sound, true_and]

end Node

end Spawn

namespace Sample

open Spawn

/-- Nothing but texts can be read. -/
def reader : Reader where
  text value :=
    match value with
    | .str text => text
    | _ => ""
  float _ := none
  int _ := none
  hashes _ := none
  dict _ := none
  embedding _ := none

/-- An agent that may post two children for an item. -/
def planner : Agent where
  crypto := crypto
  python := {
    loads := fun _ => .malformed
    str := pathText
    floatRepr := fun _ => []
    truncate := fun _ => 0
    intOfText := fun _ => none }
  reader := reader
  manifest := [("capabilities", .dict [("spawn", .dict [("permitted", .bool true),
    ("resource_budget", .dict [("max_children", .int 2)])])])]
  requireEnforcement := false
  uuid7 n := String.ofList (List.replicate (n + 1) 'c')
  clock n := (n, n)

/-- One subtask, and a token count to convert. -/
def plan (tokensIn : Value) : Execution where
  raw := some (.dict [("text", .str "plan"), ("__subtasks__", .collection .list [.dict []]),
    ("tokens_in", tokensIn)])
  recentActions := none
  artifactStored := true
  durationMs := 1
  contextHash := none

def oneItem : Board :=
  Run.run boardStep Board.empty [.postIntent "intent-1" "goal" 1, .postWorkItem sampleItem]

theorem planner_distinct : Function.Injective planner.uuid7 := by
  intro n m same
  have letters : List.replicate (n + 1) 'c' = List.replicate (m + 1) 'c' :=
    String.ofList_injective same
  simpa using congrArg List.length letters

theorem planner_unused : Node.Unused planner oneItem 0 := by
  intro n _ taken
  have ids : oneItem.items.rows.map WorkItem.id = [String.ofList ['i', 't', 'e', 'm', '-', '1']] := by
    decide +kernel
  rw [ids, List.mem_singleton] at taken
  have letters := String.ofList_injective taken
  rw [List.replicate_succ] at letters
  cases letters

def claimItem : Spawn.Action := .call (.tryClaim "item-1" "planner" 1 0 "node" none) trivial

def releaseItem : Spawn.Action := .call (.releaseClaim "item-1") trivial

def failedPlan : Spawn.Action := .execute "item-1" (plan (.str "many"))

end Sample

open Spawn Node in
theorem spawn_bounded_sample :
    (∀ front action back, [Sample.claimItem, .execute "item-1" (Sample.plan (.int 3))] =
        front ++ action :: back →
      (Run.run (step Sample.planner) (start Sample.oneItem) front).Atomic Sample.planner action ∧
        ∀ parentId, ((Run.run (step Sample.planner) (start Sample.oneItem)
          (front ++ [action])).children parentId).toFinset.card ≤ childCap Sample.planner) ∧
      ((Run.run (step Sample.planner) (start Sample.oneItem) [Sample.claimItem,
        .execute "item-1" (Sample.plan (.int 3))]).children "item-1").toFinset.card = 1 := by
  refine ⟨?_, by decide +kernel⟩
  apply (spawn_bounded_iff Sample.planner Sample.planner_distinct Sample.oneItem
    Sample.planner_unused _).mpr
  refine ⟨trivial, ?_, trivial⟩
  intro item stored fields first rest decomposes postable
  have checked : checkResult Sample.planner (Sample.plan (.int 3)) = .ok [("text", .str "plan"),
      ("__subtasks__", .collection .list [.dict []]), ("tokens_in", .int 3)] := rfl
  cases checked.symm.trans decomposes.checked
  have listed : (Audit.subtasksOf [("text", .str "plan"), ("__subtasks__", .collection .list [.dict []]),
      ("tokens_in", .int 3)]).iterate = some [.dict []] := rfl
  cases listed.symm.trans decomposes.listed
  refine ⟨?_, ⟨rfl, rfl, rfl, ⟨3, rfl⟩, ⟨0, rfl⟩⟩, by decide⟩
  intro k subtask found
  cases k with
  | zero =>
      cases found
      exact postable
  | succ k => simp at found

open Spawn Node in
/-- Each execution posts its child and then raises, so a third one makes three children. -/
theorem spawn_repeats :
    Function.Injective Sample.planner.uuid7 ∧ Unused Sample.planner Sample.oneItem 0 ∧
      childCap Sample.planner = 2 ∧
      ¬(Run.run (step Sample.planner) (start Sample.oneItem) [Sample.claimItem]).Atomic Sample.planner
        Sample.failedPlan ∧
      ((Run.run (step Sample.planner) (start Sample.oneItem)
        [Sample.claimItem, Sample.failedPlan, Sample.releaseItem, Sample.claimItem, Sample.failedPlan,
          Sample.releaseItem, Sample.claimItem, Sample.failedPlan]).children "item-1").toFinset.card =
            3 := by
  refine ⟨Sample.planner_distinct, Sample.planner_unused, by decide, ?_, by decide +kernel⟩
  intro atomic
  have raised : ((Run.run (step Sample.planner) (start Sample.oneItem)
      [Sample.claimItem]).board.items.get? "item-1").map (fun item =>
        ((Run.run (step Sample.planner) (start Sample.oneItem) [Sample.claimItem]).executed
          Sample.planner item (Sample.plan (.str "many"))).2.toOption.isNone) = some true := by
    decide +kernel
  rcases Option.map_eq_some_iff.mp raised with ⟨item, stored, failed⟩
  have error : ∃ error, ((Run.run (step Sample.planner) (start Sample.oneItem)
      [Sample.claimItem]).executed Sample.planner item (Sample.plan (.str "many"))).2 =
        .error error := by
    cases result : ((Run.run (step Sample.planner) (start Sample.oneItem)
        [Sample.claimItem]).executed Sample.planner item (Sample.plan (.str "many"))).2 with
    | ok value =>
        rw [result] at failed
        cases failed
    | error error => exact ⟨error, rfl⟩
  have kept := congrArg (fun items => items.rows.length) (atomic item stored (by simp [Sample.plan]) error)
  have grown : ((Run.run (step Sample.planner) (start Sample.oneItem)
      [Sample.claimItem]).step Sample.planner Sample.failedPlan).board.items.rows.length = 2 := by
    decide +kernel
  have before : (Run.run (step Sample.planner) (start Sample.oneItem)
      [Sample.claimItem]).board.items.rows.length = 1 := by
    decide +kernel
  have same := grown.symm.trans (kept.trans before)
  cases same

end Gyza
