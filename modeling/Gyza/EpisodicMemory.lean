import Gyza.Lib.Hex
import Gyza.Lib.Run
import Gyza.Lib.Table

/-! The episodes an agent remembers: `EpisodicMemory` over the SQLite backend of
`gyza/memory.py`.

The buffer is taken under the lock and added to the table after it, so that other threads
may act between; an embedding is given by its float32 bytes. -/

namespace Gyza.Memory

open Hex (Bytes)

def flushBatch : Nat := 10

structure Episode where
  episodeId : String
  agentId : String
  taskEmbedding : Bytes
  intentText : String
  inputHashes : List String
  outputHash : String
  actionTypes : List String
  success : Bool
  durationMs : Int
  modelIdentifier : String
  icpEnvelopeHash : String
  timestampNs : Int
  deriving DecidableEq

abbrev EpisodeTable := Table Episode.episodeId

/-- `executemany("INSERT OR REPLACE ...")`. -/
def EpisodeTable.add (table : EpisodeTable) (episodes : List Episode) : EpisodeTable :=
  episodes.foldl (fun table episode => table.insertOrReplace episode) table

def EpisodeTable.allForAgent (table : EpisodeTable) (agentId : String) : List Episode :=
  table.rows.filter fun episode => episode.agentId = agentId

/-- A memory whose writers may be between taking the buffer and adding it: `inFlight` are
the batches taken out. -/
structure EpisodicMemory where
  agentId : String
  buffer : List Episode := []
  inFlight : List (List Episode) := []
  table : EpisodeTable := Table.empty

/-- Under the lock a write appends, and takes a full buffer. -/
def EpisodicMemory.write (memory : EpisodicMemory) (episode : Episode) : EpisodicMemory :=
  let buffer := memory.buffer ++ [episode]
  if flushBatch ≤ buffer.length then
    { memory with buffer := [], inFlight := memory.inFlight ++ [buffer] }
  else { memory with buffer := buffer }

def EpisodicMemory.flush (memory : EpisodicMemory) : EpisodicMemory :=
  if memory.buffer = [] then memory
  else { memory with buffer := [], inFlight := memory.inFlight ++ [memory.buffer] }

/-- `self._backend.add(pending)` of one of the threads. -/
def EpisodicMemory.addPending (memory : EpisodicMemory) (batch : Nat) : EpisodicMemory :=
  match memory.inFlight[batch]? with
  | none => memory
  | some pending =>
      { memory with
        inFlight := memory.inFlight.eraseIdx batch
        table := memory.table.add pending }

inductive MemoryAct where
  | write (episode : Episode)
  | flush
  | addPending (batch : Nat)

def memoryStep (memory : EpisodicMemory) : MemoryAct → EpisodicMemory
  | .write episode => memory.write episode
  | .flush => memory.flush
  | .addPending batch => memory.addPending batch

/-! Nothing that was written is lost. -/

def writtenBy : List MemoryAct → List Episode
  | [] => []
  | .write episode :: rest => episode :: writtenBy rest
  | _ :: rest => writtenBy rest

theorem writtenBy_append (front back : List MemoryAct) :
    writtenBy (front ++ back) = writtenBy front ++ writtenBy back := by
  induction front with
  | nil => rfl
  | cons act rest ih => cases act <;> simp [writtenBy, ih]

/-- All a memory holds, wherever it stands. -/
def EpisodicMemory.held (memory : EpisodicMemory) : List Episode :=
  memory.table.rows ++ (memory.inFlight.flatten ++ memory.buffer)

def OldestFirst (_ : EpisodicMemory) : MemoryAct → Prop
  | .addPending batch => batch = 0
  | _ => True

theorem add_append (table : EpisodeTable) (front back : List Episode) :
    table.add (front ++ back) = (table.add front).add back := by
  simp only [EpisodeTable.add, List.foldl_append]

/-- Episodes with new ids are appended. -/
theorem rows_add {table : EpisodeTable} {episodes : List Episode}
    (fresh : ((table.rows ++ episodes).map Episode.episodeId).Nodup) :
    (table.add episodes).rows = table.rows ++ episodes := by
  induction episodes generalizing table with
  | nil => simp [EpisodeTable.add]
  | cons episode rest ih =>
      have absent : table.get? episode.episodeId = none := by
        rw [Table.get?_eq_none]
        intro known
        rw [List.map_append, List.nodup_append] at fresh
        exact fresh.2.2 _ known _ (List.mem_map_of_mem List.mem_cons_self) rfl
      have rows := table.rows_insertOrReplace episode absent
      have step : table.add (episode :: rest) =
          EpisodeTable.add (table.insertOrReplace episode) rest := rfl
      rw [step, ih, rows, List.append_assoc, List.singleton_append]
      rw [rows, List.append_assoc, List.singleton_append]
      exact fresh

theorem held_write (memory : EpisodicMemory) (episode : Episode) :
    (memory.write episode).table = memory.table ∧
      (memory.write episode).inFlight.flatten ++ (memory.write episode).buffer =
        memory.inFlight.flatten ++ memory.buffer ++ [episode] := by
  unfold EpisodicMemory.write
  simp only
  split_ifs <;> simp

theorem held_flush (memory : EpisodicMemory) :
    memory.flush.table = memory.table ∧
      memory.flush.inFlight.flatten ++ memory.flush.buffer =
        memory.inFlight.flatten ++ memory.buffer := by
  unfold EpisodicMemory.flush
  split_ifs <;> simp

theorem flatten_eraseIdx {batches : List (List Episode)} {batch : Nat} {pending : List Episode}
    (found : batches[batch]? = some pending) :
    (pending ++ (batches.eraseIdx batch).flatten).Perm batches.flatten := by
  induction batches generalizing batch with
  | nil => cases found
  | cons first rest ih =>
      cases batch with
      | zero =>
          cases found
          exact List.Perm.refl _
      | succ batch =>
          rw [List.eraseIdx_cons_succ, List.flatten_cons, List.flatten_cons]
          have later := ih found
          calc
            pending ++ (first ++ (rest.eraseIdx batch).flatten)
              = (pending ++ first) ++ (rest.eraseIdx batch).flatten :=
                (List.append_assoc _ _ _).symm
            List.Perm _ ((first ++ pending) ++ (rest.eraseIdx batch).flatten) :=
                List.perm_append_comm.append_right _
            List.Perm _ (first ++ rest.flatten) := by
                rw [List.append_assoc]
                exact later.append_left first

/-- Each act leaves what is held, up to where it stands, apart from the episode it writes. -/
theorem held_step (memory : EpisodicMemory) (act : MemoryAct)
    (distinct : (memory.held.map Episode.episodeId).Nodup) :
    (memoryStep memory act).held.Perm (memory.held ++ writtenBy [act]) := by
  cases act with
  | write episode =>
      obtain ⟨table, rest⟩ := held_write memory episode
      rw [memoryStep, EpisodicMemory.held, table, rest, EpisodicMemory.held, writtenBy, writtenBy,
        List.append_assoc, List.append_assoc, List.append_assoc]
  | flush =>
      obtain ⟨table, rest⟩ := held_flush memory
      have nothing : writtenBy [.flush] = [] := rfl
      rw [memoryStep, EpisodicMemory.held, table, rest, nothing, List.append_nil]
      exact List.Perm.refl _
  | addPending batch =>
      have nothing : writtenBy [.addPending batch] = [] := rfl
      rw [memoryStep, nothing, List.append_nil]
      unfold EpisodicMemory.addPending
      cases found : memory.inFlight[batch]? with
      | none => exact List.Perm.refl _
      | some pending =>
          have moved := flatten_eraseIdx found
          have parts : (memory.table.rows ++ pending ++ ((memory.inFlight.eraseIdx batch).flatten ++
              memory.buffer)).Perm memory.held := by
            rw [EpisodicMemory.held, List.append_assoc, ← List.append_assoc pending]
            exact (moved.append_right memory.buffer).append_left memory.table.rows
          have fresh : ((memory.table.rows ++ pending).map Episode.episodeId).Nodup := by
            have whole := (parts.map Episode.episodeId).nodup_iff.mpr distinct
            rw [List.map_append, List.nodup_append] at whole
            exact whole.1
          simp only [EpisodicMemory.held]
          rw [rows_add fresh]
          exact parts

theorem held_run (memory : EpisodicMemory) (acts : List MemoryAct)
    (distinct : ((memory.held ++ writtenBy acts).map Episode.episodeId).Nodup) :
    (Run.run memoryStep memory acts).held.Perm (memory.held ++ writtenBy acts) := by
  induction acts generalizing memory with
  | nil =>
      have nothing : writtenBy [] = [] := rfl
      rw [Run.run_nil, nothing, List.append_nil]
  | cons act rest ih =>
      have split : writtenBy (act :: rest) = writtenBy [act] ++ writtenBy rest :=
        writtenBy_append [act] rest
      rw [split, ← List.append_assoc] at distinct ⊢
      have before : (memory.held.map Episode.episodeId).Nodup := by
        rw [List.map_append, List.map_append] at distinct
        exact distinct.of_append_left.of_append_left
      have step := held_step memory act before
      have after := (step.append_right (writtenBy rest)).map Episode.episodeId
      rw [Run.run_cons]
      exact (ih _ (after.nodup_iff.mpr distinct)).trans (step.append_right _)

/-- What the table comes to once all that is held elsewhere is added in order. -/
def EpisodicMemory.settled (memory : EpisodicMemory) : EpisodeTable :=
  memory.table.add (memory.inFlight.flatten ++ memory.buffer)

theorem settled_step (memory : EpisodicMemory) (act : MemoryAct)
    (oldest : OldestFirst memory act) :
    (memoryStep memory act).settled = memory.settled.add (writtenBy [act]) := by
  cases act with
  | write episode =>
      obtain ⟨table, rest⟩ := held_write memory episode
      have one : writtenBy [.write episode] = [episode] := rfl
      rw [memoryStep, EpisodicMemory.settled, table, rest, one, add_append]
      rfl
  | flush =>
      obtain ⟨table, rest⟩ := held_flush memory
      rw [memoryStep, EpisodicMemory.settled, table, rest]
      rfl
  | addPending batch =>
      have first : batch = 0 := oldest
      subst first
      rw [memoryStep]
      unfold EpisodicMemory.addPending
      cases found : memory.inFlight[0]? with
      | none => rfl
      | some pending =>
          obtain ⟨rest, batches⟩ : ∃ rest, memory.inFlight = pending :: rest := by
            cases inFlight : memory.inFlight with
            | nil => simp [inFlight] at found
            | cons first rest =>
                rw [inFlight, List.getElem?_cons_zero] at found
                exact ⟨rest, by rw [Option.some.inj found]⟩
          have nothing : writtenBy [.addPending 0] = [] := rfl
          simp only [EpisodicMemory.settled, batches, List.eraseIdx_cons_zero, List.flatten_cons,
            List.append_assoc]
          rw [add_append memory.table pending, nothing]
          rfl

theorem settled_run (memory : EpisodicMemory) (acts : List MemoryAct)
    (oldest : Run.Admissible memoryStep OldestFirst memory acts) :
    (Run.run memoryStep memory acts).settled = memory.settled.add (writtenBy acts) := by
  induction acts generalizing memory with
  | nil => rfl
  | cons act rest ih =>
      have split : writtenBy (act :: rest) = writtenBy [act] ++ writtenBy rest :=
        writtenBy_append [act] rest
      rw [Run.run_cons, ih _ oldest.2, settled_step memory act oldest.1, split, add_append]

theorem buffer_step (memory : EpisodicMemory) (act : MemoryAct)
    (short : memory.buffer.length < flushBatch) :
    (memoryStep memory act).buffer.length < flushBatch := by
  cases act with
  | write episode =>
      rw [memoryStep]
      unfold EpisodicMemory.write
      simp only
      split_ifs with full
      · exact Nat.succ_pos _
      · exact Nat.lt_of_not_le full
  | flush =>
      rw [memoryStep]
      unfold EpisodicMemory.flush
      split_ifs
      · exact short
      · exact Nat.succ_pos _
  | addPending batch =>
      rw [memoryStep]
      unfold EpisodicMemory.addPending
      split <;> exact short

theorem buffer_run (memory : EpisodicMemory) (acts : List MemoryAct)
    (short : memory.buffer.length < flushBatch) :
    (Run.run memoryStep memory acts).buffer.length < flushBatch := by
  induction acts generalizing memory with
  | nil => exact short
  | cons act rest ih => exact ih _ (buffer_step memory act short)

namespace Sample

def episode (episodeId : String) (success : Bool) : Episode where
  episodeId := episodeId
  agentId := "agent"
  taskEmbedding := [0, 0, 128, 63]
  intentText := "sort the inbox"
  inputHashes := []
  outputHash := ""
  actionTypes := ["read"]
  success := success
  durationMs := 12
  modelIdentifier := "m"
  icpEnvelopeHash := ""
  timestampNs := 1

/-- Two threads flush, and the second adds its batch first. -/
def crossed (first second : Episode) : List MemoryAct :=
  [.write first, .flush, .write second, .flush, .addPending 1, .addPending 0]

theorem held_crossed : (Run.run memoryStep { agentId := "agent" }
    (crossed (episode "a" true) (episode "b" false))).held =
      [episode "b" false, episode "a" true] := by
  decide +kernel

theorem in_order : Run.Admissible memoryStep OldestFirst { agentId := "agent" }
    [.write (episode "a" true), .flush, .write (episode "a" false), .flush, .addPending 0] := by
  simp only [Run.Admissible, OldestFirst, and_self]

end Sample

end Gyza.Memory
