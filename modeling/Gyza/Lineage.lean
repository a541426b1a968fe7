import Gyza.Board
import Gyza.EnvelopeLog
import Gyza.Lib.Forest

/-! The chain of a work item's ancestors (`reconstruct_chain`, `AgentRunner._verify_lineage`).

The ancestors are found along the parents of the work items; their envelopes are then
verified along the spine that each agent signs. -/

namespace Gyza

open Forest (Climb HasChild Line climb)

namespace Lineage

def parents (board : Board) (workItemId : String) : Option (Option String) :=
  (board.items.get? workItemId).map WorkItem.parentId

/-- `ORDER BY timestamp_ns DESC LIMIT 1`: of several with one timestamp, the first. -/
def newestRow (rows : List EnvelopeRow) : Option EnvelopeRow :=
  @List.argmax EnvelopeRow Int Int.instLinearOrder.toPreorder _ EnvelopeRow.timestampNs rows

def envelopeForAction (log : EnvelopeLog) (actionId : String) : Option ICPEnvelope :=
  (newestRow (log.rows.filter (fun row => row.actionId = actionId))).map EnvelopeRow.payload

/-- The loop over the ancestors: the chain, and the first action without an envelope. -/
def collect (log : EnvelopeLog) : List String → List ICPEnvelope × String
  | [] => ([], "")
  | actionId :: rest =>
      match envelopeForAction log actionId with
      | none => ([], actionId)
      | some env => (env :: (collect log rest).1, (collect log rest).2)

/-- `reconstruct_chain`; `none` is the `RuntimeError` of a climb that does not end. -/
def reconstructChain (board : Board) (log : EnvelopeLog) (workItemId : String) :
    Option (List ICPEnvelope × String) :=
  match climb (parents board) 10000 (some workItemId) [] with
  | .tooFar => none
  | .unknown cursorId => some ([], cursorId)
  | .path ancestors => some (collect log ancestors)

/-- `_verify_lineage`: an empty id counts as nothing missing. -/
def verifyLineage (crypto : Crypto) (strict : Bool) (board : Board) (log : EnvelopeLog)
    (item : WorkItem) : Option Bool :=
  (reconstructChain board log (item.parentId.getD "")).map (fun found =>
    if found.2 ≠ "" then !strict
    else if found.1.isEmpty then true
    else (verifyChain crypto found.1).1)

/-! The newest envelope of each action. -/

section Log

variable (crypto : Crypto)

/-- A row as an honest agent writes it. -/
structure Authored (row : EnvelopeRow) : Prop where
  own : row = envelopeRow crypto row.payload
  verifies : selfVerifies crypto row.payload = true
  reads : row.payload.inputHashes ≠ []

def Honest (log : EnvelopeLog) : Prop := ∀ row ∈ log.rows, Authored crypto row

structure Newest (log : EnvelopeLog) (row : EnvelopeRow) : Prop where
  stored : row ∈ log.rows
  latest : ∀ other ∈ log.rows, other.actionId = row.actionId → other.timestampNs ≤ row.timestampNs

/-- The newest envelopes of the action point at the envelope of its parent, or at none. -/
def Linked (above : String → Option (Option String)) (log : EnvelopeLog) (actionId : String) : Prop :=
  ∀ row, Newest log row → row.actionId = actionId → row.parentEnvelopeHash =
    ((above actionId).join.bind (envelopeForAction log)).map (computeEnvelopeHash crypto)

/-- The action and all its ancestors have envelopes. -/
def Settled (above : String → Option (Option String)) (log : EnvelopeLog) (actionId : String) : Prop :=
  ∃ path, Line above actionId path ∧ ∀ ancestor ∈ path, (envelopeForAction log ancestor).isSome

/-- An envelope for the action, with this parent hash and time, would continue the chain that
items wait below: nothing below the action is signed yet. -/
def Continues (above : String → Option (Option String)) (log : EnvelopeLog) (actionId : String)
    (parentHash : Option String) (now : Int) : Prop :=
  FitsInt64 now → (∀ old, envelopeForAction log actionId = some old → old.timestampNs ≤ now) →
    HasChild above actionId →
      (∀ parent, above actionId = some (some parent) → Settled above log parent) →
        parentHash =
            ((above actionId).join.bind (envelopeForAction log)).map (computeEnvelopeHash crypto) ∧
          ∀ child, above child = some (some actionId) → HasChild above child →
            envelopeForAction log child = none

/-- Wherever a chain ends above an item, the two orders agree. -/
def Spine (above : String → Option (Option String)) (log : EnvelopeLog) : Prop :=
  ∀ actionId, HasChild above actionId → Settled above log actionId → Linked crypto above log actionId

end Log

variable {crypto : Crypto} {log : EnvelopeLog} {env : ICPEnvelope}

theorem honest_afterStore (honest : Honest crypto log) (verifies : selfVerifies crypto env = true)
    (reads : env.inputHashes ≠ []) : Honest crypto (afterStore crypto log env) := by
  by_cases fits : FitsInt64 env.timestampNs
  · intro row member
    rw [afterStore_fits fits, Table.mem_insertOrReplace] at member
    rcases member with rfl | ⟨member, _⟩
    · exact ⟨rfl, verifies, reads⟩
    · exact honest row member
  · rw [afterStore_overflow fits]
    exact honest

/-- A row that a store replaces has the action and the timestamp of the new one. -/
theorem Authored.same_action (ideal : Function.Injective crypto.blake3) {row : EnvelopeRow}
    (authored : Authored crypto row) (same : row.envelopeHash = computeEnvelopeHash crypto env) :
    row.actionId = env.actionId ∧ row.timestampNs = env.timestampNs := by
  rw [authored.own] at same ⊢
  have unsigned : row.payload.unsigned = env.unsigned :=
    (computeEnvelopeHash_eq_iff ideal row.payload env).mp same
  have action := congrArg ICPEnvelope.actionId unsigned
  have time := congrArg ICPEnvelope.timestampNs unsigned
  exact ⟨action, time⟩

theorem envelopeForAction_isSome (log : EnvelopeLog) (actionId : String) :
    (envelopeForAction log actionId).isSome ↔ ∃ row ∈ log.rows, row.actionId = actionId := by
  rw [envelopeForAction, newestRow, Option.isSome_map, Option.isSome_iff_ne_none, ne_eq, List.argmax_eq_none,
    List.filter_eq_nil_iff]
  simp

theorem envelopeForAction_newest {actionId : String}
    (found : envelopeForAction log actionId = some env) :
    ∃ row, Newest log row ∧ row.actionId = actionId ∧ row.payload = env := by
  rcases Option.map_eq_some_iff.mp found with ⟨row, best, payload⟩
  rcases List.mem_filter.mp (List.argmax_mem best) with ⟨stored, action⟩
  have own : row.actionId = actionId := by simpa using action
  refine ⟨row, ⟨stored, ?_⟩, own, payload⟩
  intro other member same
  refine List.le_of_mem_argmax (List.mem_filter.mpr ⟨member, ?_⟩) best
  simpa using same.trans own

/-- A list without some others than its best entry has the same best entry. -/
theorem argmax_filter {α β : Type} [LinearOrder β] (score : α → β) (kept : α → Bool) (entries : List α) (best : α)
    (found : entries.argmax score = some best) (keeps : kept best = true) :
    (entries.filter kept).argmax score = some best := by
  induction entries using List.reverseRecOn generalizing best with
  | nil => cases found
  | append_singleton front last ih =>
      rw [List.argmax_concat] at found
      rw [List.filter_append, List.filter_singleton]
      cases earlier : front.argmax score with
      | none =>
          rw [earlier] at found
          cases found
          rw [List.argmax_eq_none.mp earlier, keeps]
          rfl
      | some first =>
          rw [earlier] at found
          simp only at found
          split_ifs at found with better
          · cases found
            rw [keeps, cond_true, List.argmax_concat]
            cases rest : (front.filter kept).argmax score with
            | none => rfl
            | some other =>
                have below : score other ≤ score first :=
                  List.le_of_mem_argmax (List.mem_of_mem_filter (List.argmax_mem rest)) earlier
                simp only
                rw [if_pos (lt_of_le_of_lt below better)]
          · cases found
            cases kept last with
            | false => simpa using ih best earlier keeps
            | true =>
                rw [cond_true, List.argmax_concat, ih best earlier keeps]
                simp only
                rw [if_neg better]

section Store

variable (ideal : Function.Injective crypto.blake3) (honest : Honest crypto log)
  (fits : FitsInt64 env.timestampNs)

include fits

theorem mem_afterStore (row : EnvelopeRow) : row ∈ (afterStore crypto log env).rows ↔
    row = envelopeRow crypto env ∨ row ∈ log.rows ∧ row.envelopeHash ≠ computeEnvelopeHash crypto env := by
  rw [afterStore_fits fits]
  exact Table.mem_insertOrReplace log _ row

theorem envelopeForAction_afterStore_first (unsigned : envelopeForAction log env.actionId = none) :
    envelopeForAction (afterStore crypto log env) env.actionId = some env := by
  have signed := (envelopeForAction_isSome (afterStore crypto log env) env.actionId).mpr
    ⟨envelopeRow crypto env, (mem_afterStore fits _).mpr (Or.inl rfl), rfl⟩
  rcases Option.isSome_iff_exists.mp signed with ⟨other, found⟩
  rcases envelopeForAction_newest found with ⟨row, newest, action, payload⟩
  rcases (mem_afterStore fits row).mp newest.stored with rfl | ⟨member, _⟩
  · rw [found, ← payload]
    rfl
  · have before := (envelopeForAction_isSome log env.actionId).mpr ⟨row, member, action⟩
    rw [unsigned] at before
    cases before

include ideal honest

/-- A newest row was stored now, or was a newest row before. -/
theorem newest_afterStore {row : EnvelopeRow} (newest : Newest (afterStore crypto log env) row) :
    row = envelopeRow crypto env ∨ Newest log row := by
  rcases (mem_afterStore fits row).mp newest.stored with own | ⟨member, _⟩
  · exact Or.inl own
  · right
    refine ⟨member, ?_⟩
    intro other stored action
    by_cases replaced : other.envelopeHash = computeEnvelopeHash crypto env
    · rcases (honest other stored).same_action ideal replaced with ⟨sameAction, sameTime⟩
      rw [sameTime]
      exact newest.latest (envelopeRow crypto env) ((mem_afterStore fits _).mpr (Or.inl rfl))
        (sameAction.symm.trans action)
    · exact newest.latest other ((mem_afterStore fits other).mpr (Or.inr ⟨stored, replaced⟩)) action

/-- The rows of every other action stay in their order. -/
theorem rows_afterStore_other {actionId : String} (other : env.actionId ≠ actionId) :
    (afterStore crypto log env).rows.filter (fun row => row.actionId = actionId) =
      log.rows.filter (fun row => row.actionId = actionId) := by
  rw [afterStore_fits fits]
  simp only [Table.insertOrReplace, List.filter_append, List.filter_filter]
  have own : [envelopeRow crypto env].filter (fun row => row.actionId = actionId) = [] := by
    simpa [envelopeRow] using other
  rw [own, List.append_nil]
  apply List.filter_congr
  intro row member
  by_cases action : row.actionId = actionId
  · have kept : row.envelopeHash ≠ computeEnvelopeHash crypto env := by
      intro replaced
      exact other (((honest row member).same_action ideal replaced).1.symm.trans action)
    simp [action, envelopeRow, kept]
  · simp [action]

theorem envelopeForAction_afterStore_other {actionId : String} (other : env.actionId ≠ actionId) :
    envelopeForAction (afterStore crypto log env) actionId = envelopeForAction log actionId := by
  simp only [envelopeForAction, rows_afterStore_other ideal honest fits other]

/-- An older envelope changes nothing for its action. -/
theorem envelopeForAction_afterStore_older {old : ICPEnvelope}
    (found : envelopeForAction log env.actionId = some old) (older : env.timestampNs < old.timestampNs) :
    envelopeForAction (afterStore crypto log env) env.actionId = some old := by
  rcases Option.map_eq_some_iff.mp found with ⟨row, best, payload⟩
  have stored : row ∈ log.rows := List.mem_of_mem_filter (List.argmax_mem best)
  have time : row.timestampNs = old.timestampNs := by
    rw [(honest row stored).own, payload]
    rfl
  have kept : row.envelopeHash ≠ computeEnvelopeHash crypto env := by
    intro replaced
    have same := ((honest row stored).same_action ideal replaced).2
    omega
  have own : [envelopeRow crypto env].filter (fun row => row.actionId = env.actionId) =
      [envelopeRow crypto env] := by
    simp [envelopeRow]
  have rows : (afterStore crypto log env).rows.filter (fun row => row.actionId = env.actionId) =
      (log.rows.filter (fun row => row.actionId = env.actionId)).filter
        (fun row => row.envelopeHash ≠ computeEnvelopeHash crypto env) ++ [envelopeRow crypto env] := by
    rw [afterStore_fits fits]
    simp only [Table.insertOrReplace, List.filter_append, own, List.filter_filter, Bool.and_comm]
    rfl
  have others := argmax_filter EnvelopeRow.timestampNs
    (fun row => row.envelopeHash ≠ computeEnvelopeHash crypto env) _ row best (by simpa using kept)
  have later : ¬row.timestampNs < (envelopeRow crypto env).timestampNs := by
    rw [time]
    exact not_lt.mpr (le_of_lt older)
  rw [envelopeForAction, newestRow, rows, List.argmax_concat, others]
  simp only
  rw [if_neg later, Option.map_some, payload]

variable {above : String → Option (Option String)} {actionId : String}

/-- An envelope that is not the newest of its action changes nothing. -/
theorem linked_older (spine : Spine crypto above log) {old : ICPEnvelope}
    (found : envelopeForAction log env.actionId = some old) (older : env.timestampNs < old.timestampNs)
    (hasChild : HasChild above actionId) (settled : Settled above (afterStore crypto log env) actionId) :
    Linked crypto above (afterStore crypto log env) actionId := by
  have same : envelopeForAction (afterStore crypto log env) = envelopeForAction log := by
    funext other
    by_cases own : env.actionId = other
    · rw [← own, envelopeForAction_afterStore_older ideal honest fits found older, found]
    · exact envelopeForAction_afterStore_other ideal honest fits own
  intro row newest action
  rw [same]
  rcases newest_afterStore ideal honest fits newest with rfl | before
  · rcases envelopeForAction_newest found with ⟨kept, best, own, payload⟩
    have time : kept.timestampNs = old.timestampNs := by
      rw [(honest kept best.stored).own, payload]
      rfl
    have stays : kept ∈ (afterStore crypto log env).rows := by
      refine (mem_afterStore fits kept).mpr (Or.inr ⟨best.stored, ?_⟩)
      intro replaced
      have replacedTime := ((honest kept best.stored).same_action ideal replaced).2
      omega
    have bound : kept.timestampNs ≤ env.timestampNs := newest.latest kept stays own
    omega
  · refine spine actionId hasChild ?_ row before action
    rw [Settled, same] at settled
    exact settled

/-- Beside the lines through its action, an envelope changes nothing. -/
theorem linked_apart (spine : Spine crypto above log) {path : List String}
    (hasChild : HasChild above actionId) (line : Line above actionId path)
    (stored : ∀ ancestor ∈ path, (envelopeForAction (afterStore crypto log env) ancestor).isSome)
    (unsigned : env.actionId ∉ path) :
    Linked crypto above (afterStore crypto log env) actionId := by
  have same : ∀ ancestor ∈ path, envelopeForAction (afterStore crypto log env) ancestor =
      envelopeForAction log ancestor := by
    intro ancestor member
    apply envelopeForAction_afterStore_other ideal honest fits
    rintro rfl
    exact unsigned member
  rcases line.last with ⟨front, rfl⟩
  have parentSame : (above actionId).join.bind (envelopeForAction (afterStore crypto log env)) =
      (above actionId).join.bind (envelopeForAction log) := by
    rcases line.rest with ⟨isRoot, _⟩ | ⟨parent, under, higher⟩
    · rw [isRoot]
      rfl
    · rcases higher.last with ⟨rest, rfl⟩
      rw [under]
      exact same parent (by simp)
  intro row newest action
  rw [parentSame]
  rcases newest_afterStore ideal honest fits newest with rfl | before
  · exact absurd (show env.actionId ∈ front ++ [actionId] by rw [← action]; simp [envelopeRow]) unsigned
  · refine spine actionId hasChild ⟨_, line, ?_⟩ row before action
    intro ancestor member
    rw [← same ancestor member]
    exact stored ancestor member

/-- An envelope that continues its chain is linked, and nothing below it is signed. -/
theorem linked_through (spine : Spine crypto above log) {path : List String}
    (latest : ∀ old, envelopeForAction log env.actionId = some old → old.timestampNs ≤ env.timestampNs)
    (continues : Continues crypto above log env.actionId env.parentEnvelopeHash env.timestampNs)
    (hasChild : HasChild above actionId) (line : Line above actionId path)
    (stored : ∀ ancestor ∈ path, (envelopeForAction (afterStore crypto log env) ancestor).isSome)
    (signed : env.actionId ∈ path) :
    Linked crypto above (afterStore crypto log env) actionId := by
  have elsewhere : ∀ other, other ≠ env.actionId →
      envelopeForAction (afterStore crypto log env) other = envelopeForAction log other :=
    fun other different => envelopeForAction_afterStore_other ideal honest fits different.symm
  rcases line.upTo signed with ⟨front, back, split, own⟩
  rcases own.last with ⟨rest, rfl⟩
  have settled : ∀ ancestor ∈ rest, (envelopeForAction log ancestor).isSome := by
    intro ancestor member
    rw [← elsewhere ancestor (own.apart member)]
    exact stored ancestor (by simp [split, member])
  obtain ⟨linked, unsigned⟩ := continues fits latest (line.hasChild hasChild signed) (by
    intro parent under
    rcases own.rest with ⟨isRoot, _⟩ | ⟨other, under', higher⟩
    · rw [under] at isRoot
      cases isRoot
    · cases under.symm.trans under'
      exact ⟨rest, higher, settled⟩)
  rcases line.next signed with rfl | ⟨child, listed, below⟩
  · have parentSame : (above env.actionId).join.bind (envelopeForAction (afterStore crypto log env)) =
        (above env.actionId).join.bind (envelopeForAction log) := by
      rcases own.rest with ⟨isRoot, _⟩ | ⟨parent, under, higher⟩
      · rw [isRoot]
        rfl
      · rcases higher.last with ⟨higher', rfl⟩
        rw [under]
        exact elsewhere parent (own.apart (by simp))
    intro row newest action
    rw [parentSame]
    rcases newest_afterStore ideal honest fits newest with rfl | before
    · exact linked
    · refine spine env.actionId hasChild ⟨_, own, ?_⟩ row before action
      intro ancestor member
      rcases List.mem_append.mp member with higher | last
      · exact settled ancestor higher
      · rw [List.mem_singleton.mp last]
        exact (envelopeForAction_isSome log env.actionId).mpr ⟨row, before.stored, action⟩
  · -- The line goes on below the action, through a child that would have to be signed already.
    have different : child ≠ env.actionId := by
      rintro rfl
      exact own.not_own_parent below
    have present := stored child listed
    rw [elsewhere child different, unsigned child below (line.hasChild hasChild listed)] at present
    cases present

omit honest fits in
theorem Spine.store (spine : Spine crypto above log) (honest : Honest crypto log)
    (continues : Continues crypto above log env.actionId env.parentEnvelopeHash env.timestampNs) :
    Spine crypto above (afterStore crypto log env) := by
  by_cases fits : FitsInt64 env.timestampNs
  · intro actionId hasChild settled
    by_cases latest : ∀ old, envelopeForAction log env.actionId = some old →
        old.timestampNs ≤ env.timestampNs
    · rcases settled with ⟨path, line, stored⟩
      by_cases signed : env.actionId ∈ path
      · exact linked_through ideal honest fits spine latest continues hasChild line stored signed
      · exact linked_apart ideal honest fits spine hasChild line stored signed
    · push Not at latest
      rcases latest with ⟨old, found, older⟩
      exact linked_older ideal honest fits spine found older hasChild settled
  · rw [afterStore_overflow fits]
    exact spine

end Store

variable {above above' : String → Option (Option String)}

/-- New items keep the spine: roots, and children of an item whose chain agrees so far. -/
theorem Spine.grow (spine : Spine crypto above log)
    (rooted : ∀ actionId parent, above actionId = some parent → ∃ path, Line above actionId path)
    (kept : ∀ actionId parent, above actionId = some parent → above' actionId = some parent)
    (new : ∀ actionId parent, above actionId = none → above' actionId = some (some parent) →
      (∃ higher, above parent = some higher) ∧
        (Settled above log parent → Linked crypto above log parent)) :
    Spine crypto above' log := by
  intro actionId hasChild ⟨path, line, stored⟩
  have before : (∃ parent, above actionId = some parent) ∧
      (Settled above log actionId → Linked crypto above log actionId) := by
    rcases hasChild with ⟨child, below⟩
    cases old : above child with
    | none => exact new child actionId old below
    | some parent =>
        cases (kept child parent old).symm.trans below
        rcases rooted child _ old with ⟨_, childLine⟩
        rcases childLine.last with ⟨front, rfl⟩
        rcases childLine.rest with ⟨isRoot, _⟩ | ⟨_, under, own⟩
        · rw [isRoot] at old
          cases old
        · cases old.symm.trans under
          exact ⟨own.present, spine actionId ⟨child, old⟩⟩
  rcases before with ⟨⟨parent, present⟩, links⟩
  rcases rooted actionId parent present with ⟨path', own⟩
  cases line.unique (own.mono kept)
  have linked := links ⟨path, own, stored⟩
  intro row newest action
  rw [kept actionId parent present, ← present]
  exact linked row newest action

/-! What the verification of a lineage finds. -/

theorem collect_stored (log : EnvelopeLog) (path : List String)
    (stored : ∀ ancestor ∈ path, (envelopeForAction log ancestor).isSome) :
    collect log path = (path.filterMap (envelopeForAction log), "") := by
  induction path with
  | nil => rfl
  | cons ancestor rest ih =>
      rcases Option.isSome_iff_exists.mp (stored ancestor List.mem_cons_self) with ⟨env, found⟩
      have tail := ih (fun other member => stored other (List.mem_cons_of_mem _ member))
      simp only [collect, found, tail, List.filterMap_cons]

theorem chainFrom_concat (previous : Option ICPEnvelope) (chain : List ICPEnvelope) (env : ICPEnvelope) :
    ChainFrom crypto previous (chain ++ [env]) ↔ ChainFrom crypto previous chain ∧
      selfVerifies crypto env = true ∧
        env.parentEnvelopeHash = (chain.getLast?.or previous).map (computeEnvelopeHash crypto) ∧
          env.inputHashes ≠ [] := by
  induction chain generalizing previous with
  | nil => simp [ChainFrom]
  | cons first rest ih =>
      rw [List.cons_append, ChainFrom, ChainFrom, ih (some first)]
      have last : (first :: rest).getLast?.or previous = rest.getLast?.or (some first) := by
        rw [List.getLast?_cons, Option.some_or]
        cases rest.getLast? <;> rfl
      rw [last]
      simp only [and_assoc]

theorem verifyChain_unrooted {env : ICPEnvelope} (rest : List ICPEnvelope)
    (linked : env.parentEnvelopeHash ≠ none) : (verifyChain crypto (env :: rest)).1 = false := by
  simp only [verifyChain, verifyChainFrom, Option.map_none]
  split
  · rfl
  · split_ifs
    · rfl
    · rfl
    · rfl

/-- Down the line of an item that others wait below, the envelopes are a chain. -/
theorem chain_line (honest : Honest crypto log) (spine : Spine crypto above log) {actionId : String}
    {path : List String} (line : Line above actionId path) (hasChild : HasChild above actionId)
    (stored : ∀ ancestor ∈ path, (envelopeForAction log ancestor).isSome) :
    ChainFrom crypto none (path.filterMap (envelopeForAction log)) ∧
      (path.filterMap (envelopeForAction log)).getLast? = envelopeForAction log actionId := by
  have signed : ∀ {node : String} {way : List String} {env : ICPEnvelope}, Line above node way →
      HasChild above node → (∀ ancestor ∈ way, (envelopeForAction log ancestor).isSome) →
        envelopeForAction log node = some env →
          selfVerifies crypto env = true ∧ env.parentEnvelopeHash =
            ((above node).join.bind (envelopeForAction log)).map (computeEnvelopeHash crypto) ∧
              env.inputHashes ≠ [] := by
    intro node way env own below all found
    rcases envelopeForAction_newest found with ⟨row, newest, action, rfl⟩
    have authored := honest row newest.stored
    have linked := spine node below ⟨way, own, all⟩ row newest action
    rw [authored.own] at linked
    exact ⟨authored.verifies, linked, authored.reads⟩
  induction line with
  | @root node isRoot =>
      rcases Option.isSome_iff_exists.mp (stored node List.mem_cons_self) with ⟨env, found⟩
      rcases signed (Line.root isRoot) hasChild stored found with ⟨verifies, linked, reads⟩
      rw [isRoot] at linked
      simp only [List.filterMap_cons, found, List.filterMap_nil]
      exact ⟨⟨verifies, linked, reads, trivial⟩, rfl⟩
  | @child node parent path under line ih =>
      rcases ih ⟨node, under⟩
        (fun ancestor member => stored ancestor (List.mem_append_left _ member)) with ⟨chain, last⟩
      rcases Option.isSome_iff_exists.mp
        (stored node (List.mem_append_right _ List.mem_cons_self)) with ⟨env, found⟩
      rcases signed (Line.child under line) hasChild stored found with ⟨verifies, linked, reads⟩
      rw [under] at linked
      have one : [node].filterMap (envelopeForAction log) = [env] := by
        simp [found]
      rw [List.filterMap_append, one, chainFrom_concat, last, Option.or_none]
      exact ⟨⟨chain, verifies, linked, reads⟩, by rw [List.getLast?_concat, found]⟩

/-- A child of an item whose line is stored finds its lineage in order. -/
theorem verifyLineage_line {board : Board} (honest : Honest crypto log)
    (spine : Spine crypto (parents board) log) {item : WorkItem} {parent : String}
    {path : List String} (under : item.parentId = some parent)
    (line : Line (parents board) parent path) (short : path.length < 10000)
    (hasChild : HasChild (parents board) parent)
    (stored : ∀ ancestor ∈ path, (envelopeForAction log ancestor).isSome) (strict : Bool) :
    verifyLineage crypto strict board log item = some true := by
  rcases chain_line honest spine line hasChild stored with ⟨chain, last⟩
  have accepted := (verifyChain_accepts _).mpr chain
  have found : reconstructChain board log parent =
      some (path.filterMap (envelopeForAction log), "") := by
    rw [reconstructChain, Forest.climb_line line 10000 short, List.append_nil]
    exact congrArg some (collect_stored log path stored)
  rw [verifyLineage, under, Option.getD_some, found, Option.map_some]
  simp [accepted]

end Lineage

end Gyza
