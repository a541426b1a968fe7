import Gyza.Lib.ReadModifyWrite

/-! Reputation scores shared by several processes (`gyza/economy/reputation.py`).

An update reads the row of a pubkey, computes the next score and count, and writes both. The
lock around it belongs to one `ReputationStore`, so the statements of two stores on one
database can alternate. -/

namespace Gyza.Reputation

open ReadModifyWrite (runFrom Serial)

def neutralScore : Float := 0.5

def defaultAlpha : Float := 0.05

inductive Outcome where
  | success
  | failure
  | dispute
  deriving DecidableEq

def Outcome.value : Outcome → Float
  | .success => 1.0
  | .failure => -0.5
  | .dispute => -1.0

structure Row where
  score : Float
  eventCount : Nat

/-- A call of `_update`, with the learning rate of its store. -/
structure Record where
  alpha : Float
  outcome : Outcome

/-- `get`. -/
def score (row : Option Row) : Float :=
  match row with
  | none => neutralScore
  | some row => row.score

def eventCount (row : Option Row) : Nat :=
  match row with
  | none => 0
  | some row => row.eventCount

/-- The moving average, clamped to `[0, 1]`. -/
def ewma (old : Float) (record : Record) : Float :=
  let outcomeNorm := (record.outcome.value + 1.0) / 2.0
  let new := (1.0 - record.alpha) * old + record.alpha * outcomeNorm
  if new < 0.0 then 0.0 else if new > 1.0 then 1.0 else new

/-- The row that is written, computed from the row that was read. -/
def updated (row : Option Row) (record : Record) : Option Row :=
  some { score := ewma (score row) record, eventCount := eventCount row + 1 }

def rows : ReadModifyWrite.Spec Record (Option Row) where
  update := updated
  initial := none
  size := eventCount
  size_initial := rfl
  size_update _ _ := rfl

/-- `record_success`, `record_failure` and `record_dispute` as the statements they execute. -/
inductive Statement (ι : Type) where
  | select (store : ι) (pubkey : String) (outcome : Outcome)
  | upsert (store : ι)

section Stores

variable {ι : Type} [DecidableEq ι] (alpha : ι → Float)

def Statement.event : Statement ι → ReadModifyWrite.Event ι String Record
  | .select store pubkey outcome => .read store pubkey ⟨alpha store, outcome⟩
  | .upsert store => .write store

/-- The database after the statements, all its tables empty before. -/
def database (statements : List (Statement ι)) :
    ReadModifyWrite.State ι String Record (Option Row) :=
  runFrom rows (ReadModifyWrite.start rows) (statements.map (Statement.event alpha))

/-- The calls made for a pubkey, as far as their first statement. -/
def calls (statements : List (Statement ι)) (pubkey : String) : List Record :=
  (database alpha statements).begun pubkey

structure EventsKept (statements : List (Statement ι)) : Prop where
  counted : ∀ pubkey, eventCount ((database alpha statements).cells pubkey) =
    (calls alpha statements pubkey).length
  scored : ∀ pubkey, ∃ order : List Record, order.Perm (calls alpha statements pubkey) ∧
    score ((database alpha statements).cells pubkey) = order.foldl ewma neutralScore

/-- No call for a pubkey begins while another call for it is between its statements. -/
def NoOverlap (statements : List (Statement ι)) : Prop :=
  Run.Admissible (ReadModifyWrite.step rows) Serial (ReadModifyWrite.start rows)
    (statements.map (Statement.event alpha))

theorem score_foldl (records : List Record) (row : Option Row) :
    score (records.foldl updated row) = records.foldl ewma (score row) := by
  induction records generalizing row with
  | nil => rfl
  | cons record rest ih =>
      rw [List.foldl_cons, List.foldl_cons, ih]
      rfl

theorem events_kept_iff (statements : List (Statement ι))
    (finished : (database alpha statements).pending = []) :
    EventsKept alpha statements ↔ NoOverlap alpha statements := by
  constructor
  · intro kept
    exact ReadModifyWrite.serial_of_counted rows _ finished fun pubkey => (kept.counted pubkey).ge
  · intro serial
    have folded := ReadModifyWrite.folded_of_serial rows _ finished serial
    constructor
    · intro pubkey
      rcases folded pubkey with ⟨order, perm, same⟩
      calc
        eventCount ((database alpha statements).cells pubkey) =
            rows.size (order.foldl rows.update rows.initial) := congrArg eventCount same
        _ = order.length := by rw [ReadModifyWrite.size_foldl, rows.size_initial, Nat.zero_add]
        _ = (calls alpha statements pubkey).length := perm.length_eq
    · intro pubkey
      rcases folded pubkey with ⟨order, perm, same⟩
      exact ⟨order, perm, (congrArg score same).trans (score_foldl order none)⟩

end Stores

namespace Sample

def together : List (Statement (Fin 2)) :=
  [.select 0 "a1" .success, .select 1 "a1" .dispute, .upsert 0, .upsert 1]

def inTurn : List (Statement (Fin 2)) :=
  [.select 0 "a1" .success, .upsert 0, .select 1 "a1" .dispute, .upsert 1]

end Sample

theorem events_kept_in_turn : EventsKept (fun _ => defaultAlpha) Sample.inTurn := by
  have finished : (database (fun _ => defaultAlpha) Sample.inTurn).pending = [] := rfl
  apply (events_kept_iff (fun _ => defaultAlpha) Sample.inTurn finished).mpr
  simp [NoOverlap, Sample.inTurn, Statement.event, Run.Admissible, Serial, ReadModifyWrite.Free,
    ReadModifyWrite.step, ReadModifyWrite.start, ReadModifyWrite.State.open?]

/-- Both stores read an empty row, and both write a count of one. -/
theorem events_lost_together :
    (database (fun _ => defaultAlpha) Sample.together).pending = [] ∧
      ¬EventsKept (fun _ => defaultAlpha) Sample.together := by
  refine ⟨rfl, ?_⟩
  intro kept
  have counted := kept.counted "a1"
  have one : eventCount ((database (fun _ => defaultAlpha) Sample.together).cells "a1") = 1 := rfl
  have two : (calls (fun _ => defaultAlpha) Sample.together "a1").length = 2 := rfl
  rw [one, two] at counted
  cases counted

end Gyza.Reputation
