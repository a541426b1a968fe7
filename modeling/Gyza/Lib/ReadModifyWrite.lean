import Gyza.Lib.Run

/-! Cells that workers update in two steps: read the cell, then write back what was
computed from it.

A worker has one update open at a time. Two updates of one cell that are open together
lose one of them: both write what they computed from the same reading, or from an earlier
one. `size` counts the updates a value has seen, so that a loss shows. -/

namespace Gyza.ReadModifyWrite

variable {ι κ μ ρ : Type}

/-- What a value becomes, and how many updates it has seen. -/
structure Spec (μ ρ : Type) where
  update : ρ → μ → ρ
  initial : ρ
  size : ρ → Nat
  size_initial : size initial = 0
  size_update : ∀ value input, size (update value input) = size value + 1

structure Pending (κ μ ρ : Type) where
  key : κ
  input : μ
  reading : ρ

/-- The cells and the open updates, each with its worker; the updates begun and the updates
written so far. -/
structure State (ι κ μ ρ : Type) where
  cells : κ → ρ
  pending : List (ι × Pending κ μ ρ)
  begun : κ → List μ
  written : κ → List μ

inductive Event (ι κ μ : Type) where
  | read (worker : ι) (key : κ) (input : μ)
  | write (worker : ι)

def openInputs [DecidableEq κ] (key : κ) (pending : List (ι × Pending κ μ ρ)) : List μ :=
  (pending.filter (fun entry => entry.2.key = key)).map (fun entry => entry.2.input)

section Step

variable [DecidableEq ι] [DecidableEq κ] (spec : Spec μ ρ)

def start : State ι κ μ ρ where
  cells _ := spec.initial
  pending := []
  begun _ := []
  written _ := []

def State.open? (state : State ι κ μ ρ) (worker : ι) : Option (ι × Pending κ μ ρ) :=
  state.pending.find? (fun entry => entry.1 = worker)

/-- A worker with an open update waits before it reads again. -/
def step (state : State ι κ μ ρ) : Event ι κ μ → State ι κ μ ρ
  | .read worker key input =>
      match state.open? worker with
      | some _ => state
      | none =>
          { state with
            pending := (worker, ⟨key, input, state.cells key⟩) :: state.pending
            begun := Function.update state.begun key (state.begun key ++ [input]) }
  | .write worker =>
      match state.open? worker with
      | none => state
      | some entry =>
          { state with
            cells := Function.update state.cells entry.2.key
              (spec.update entry.2.reading entry.2.input)
            pending := state.pending.eraseP (fun entry => entry.1 = worker)
            written := Function.update state.written entry.2.key
              (state.written entry.2.key ++ [entry.2.input]) }

/-- No update of the cell is open. -/
def Free (state : State ι κ μ ρ) (key : κ) : Prop := ∀ entry ∈ state.pending, entry.2.key ≠ key

/-- An update is begun only on a cell that is free. -/
def Serial (state : State ι κ μ ρ) : Event ι κ μ → Prop
  | .read worker key _ => state.open? worker = none → Free state key
  | .write _ => True

/-- A step waits, begins an update, or writes one and closes it. -/
inductive Steps (state : State ι κ μ ρ) : Event ι κ μ → State ι κ μ ρ → Prop where
  | waits (event : Event ι κ μ) : Steps state event state
  | begins {worker : ι} {key : κ} {input : μ} (idle : ∀ entry ∈ state.pending, entry.1 ≠ worker) :
      Steps state (.read worker key input)
        { state with
          pending := (worker, ⟨key, input, state.cells key⟩) :: state.pending
          begun := Function.update state.begun key (state.begun key ++ [input]) }
  | writes {worker : ι} {done : Pending κ μ ρ} {rest : List (ι × Pending κ μ ρ)}
      (closes : state.pending.Perm ((worker, done) :: rest)) :
      Steps state (.write worker)
        { state with
          cells := Function.update state.cells done.key (spec.update done.reading done.input)
          pending := rest
          written := Function.update state.written done.key
            (state.written done.key ++ [done.input]) }

omit [DecidableEq κ] in
theorem open?_eq_none (state : State ι κ μ ρ) (worker : ι) :
    state.open? worker = none ↔ ∀ entry ∈ state.pending, entry.1 ≠ worker := by
  simp [State.open?]

theorem step_steps (state : State ι κ μ ρ) (event : Event ι κ μ) :
    Steps spec state event (step spec state event) := by
  cases event with
  | read worker key input =>
      rw [step]
      cases found : state.open? worker with
      | some entry => exact .waits _
      | none => exact .begins ((open?_eq_none state worker).mp found)
  | write worker =>
      rw [step]
      cases found : state.open? worker with
      | none => exact .waits _
      | some entry =>
          rcases List.find?_eq_some_iff_append.mp found with ⟨named, before, after, split, others⟩
          obtain ⟨owner, done⟩ := entry
          obtain rfl : owner = worker := of_decide_eq_true named
          have erased : state.pending.eraseP (fun entry => entry.1 = owner) = before ++ after := by
            rw [split, List.eraseP_append_right _ (by simpa using others)]
            simp
          have closes : state.pending.Perm ((owner, done) ::
              state.pending.eraseP (fun entry => entry.1 = owner)) := by
            rw [erased, split]
            exact List.perm_middle
          exact .writes closes

end Step

/-! What every step keeps. -/

/-- The updates begun are those written and those open, and no value has seen more updates
than were written. -/
structure Accounted [DecidableEq κ] (spec : Spec μ ρ) (state : State ι κ μ ρ) : Prop where
  workers : (state.pending.map Prod.fst).Nodup
  begun : ∀ key, (state.begun key).Perm (state.written key ++ openInputs key state.pending)
  cells : ∀ key, spec.size (state.cells key) ≤ (state.written key).length
  readings : ∀ entry ∈ state.pending,
    spec.size entry.2.reading ≤ (state.written entry.2.key).length

/-- Every cell holds the fold of its written updates, and every open update has read it. -/
structure Chained (spec : Spec μ ρ) (state : State ι κ μ ρ) : Prop where
  cells : ∀ key, state.cells key = (state.written key).foldl spec.update spec.initial
  readings : ∀ entry ∈ state.pending, entry.2.reading = state.cells entry.2.key
  alone : ∀ entry ∈ state.pending, ∀ other ∈ state.pending, entry.2.key = other.2.key →
    entry.1 = other.1

section Kept

variable [DecidableEq κ] {spec : Spec μ ρ} {state next : State ι κ μ ρ}
  {event : Event ι κ μ}

/-- The state in which an update has been begun. -/
def State.begins (state : State ι κ μ ρ) (worker : ι) (key : κ) (input : μ) : State ι κ μ ρ :=
  { state with
    pending := (worker, ⟨key, input, state.cells key⟩) :: state.pending
    begun := Function.update state.begun key (state.begun key ++ [input]) }

/-- The state in which an update has been written; `rest` is still open. -/
def State.writes (spec : Spec μ ρ) (state : State ι κ μ ρ) (done : Pending κ μ ρ)
    (rest : List (ι × Pending κ μ ρ)) : State ι κ μ ρ :=
  { state with
    cells := Function.update state.cells done.key (spec.update done.reading done.input)
    pending := rest
    written := Function.update state.written done.key (state.written done.key ++ [done.input]) }

@[simp] theorem State.writes_written (done : Pending κ μ ρ) (rest : List (ι × Pending κ μ ρ)) :
    (state.writes spec done rest).written done.key = state.written done.key ++ [done.input] :=
  Function.update_self ..

@[simp] theorem State.writes_cells (done : Pending κ μ ρ) (rest : List (ι × Pending κ μ ρ)) :
    (state.writes spec done rest).cells done.key = spec.update done.reading done.input :=
  Function.update_self ..

variable (spec) in
theorem State.writes_other {done : Pending κ μ ρ} (rest : List (ι × Pending κ μ ρ)) {key : κ}
    (other : key ≠ done.key) : (state.writes spec done rest).written key = state.written key ∧
      (state.writes spec done rest).cells key = state.cells key :=
  ⟨Function.update_of_ne other .., Function.update_of_ne other ..⟩

theorem openInputs_cons (key : κ) (worker : ι) (done : Pending κ μ ρ)
    (rest : List (ι × Pending κ μ ρ)) :
    openInputs key ((worker, done) :: rest) =
      if done.key = key then done.input :: openInputs key rest else openInputs key rest := by
  rw [openInputs, List.filter_cons]
  split_ifs <;> simp_all [openInputs]

theorem openInputs_perm (key : κ) {pending rest : List (ι × Pending κ μ ρ)}
    (perm : pending.Perm rest) : (openInputs key pending).Perm (openInputs key rest) :=
  (perm.filter _).map _

theorem accounted_start : Accounted spec (start spec : State ι κ μ ρ) where
  workers := List.nodup_nil
  begun _ := List.Perm.refl []
  cells _ := by simp [start, spec.size_initial]
  readings _ member := by cases member

theorem accounted_begins (accounted : Accounted spec state) {worker : ι} {key : κ} {input : μ}
    (idle : ∀ entry ∈ state.pending, entry.1 ≠ worker) :
    Accounted spec (state.begins worker key input) := by
  constructor
  · rw [State.begins, List.map_cons, List.nodup_cons]
    refine ⟨fun member => ?_, accounted.workers⟩
    obtain ⟨entry, held, same⟩ := List.mem_map.mp member
    exact idle entry held same
  · intro other
    rw [State.begins]
    dsimp only
    rw [openInputs_cons]
    by_cases same : key = other
    · subst same
      rw [Function.update_self, if_pos rfl]
      calc
        (state.begun key ++ [input]).Perm
            (state.written key ++ openInputs key state.pending ++ [input]) :=
          (accounted.begun key).append_right [input]
        _ = state.written key ++ (openInputs key state.pending ++ [input]) := List.append_assoc ..
        (state.written key ++ (openInputs key state.pending ++ [input])).Perm
            (state.written key ++ input :: openInputs key state.pending) :=
          (List.perm_append_singleton _ _).append_left _
    · rw [Function.update_of_ne (Ne.symm same), if_neg same]
      exact accounted.begun other
  · exact accounted.cells
  · intro entry member
    rcases List.mem_cons.mp member with rfl | member
    · exact accounted.cells key
    · exact accounted.readings entry member

/-- What was written of a cell only grows. -/
theorem written_grows (done : Pending κ μ ρ) (rest : List (ι × Pending κ μ ρ)) (key : κ) :
    (state.written key).length ≤ ((state.writes spec done rest).written key).length := by
  by_cases same : key = done.key
  · subst same
    rw [State.writes_written, List.length_append]
    omega
  · rw [(State.writes_other spec rest same).1]

theorem accounted_writes (accounted : Accounted spec state) {worker : ι} {done : Pending κ μ ρ}
    {rest : List (ι × Pending κ μ ρ)} (closes : state.pending.Perm ((worker, done) :: rest)) :
    Accounted spec (state.writes spec done rest) := by
  have member (entry : ι × Pending κ μ ρ) (held : entry ∈ rest) : entry ∈ state.pending :=
    closes.mem_iff.mpr (List.mem_cons_of_mem _ held)
  have read := accounted.readings (worker, done) (closes.mem_iff.mpr List.mem_cons_self)
  constructor
  · have workers := (closes.map Prod.fst).nodup_iff.mp accounted.workers
    exact (List.nodup_cons.mp workers).2
  · intro other
    have opened := openInputs_perm other closes
    rw [openInputs_cons] at opened
    by_cases same : other = done.key
    · subst same
      rw [if_pos rfl] at opened
      rw [State.writes_written, List.append_assoc]
      exact (accounted.begun done.key).trans (opened.append_left _)
    · rw [if_neg (Ne.symm same)] at opened
      rw [(State.writes_other spec rest same).1]
      exact (accounted.begun other).trans (opened.append_left _)
  · intro other
    by_cases same : other = done.key
    · subst same
      rw [State.writes_cells, State.writes_written, spec.size_update, List.length_append]
      exact Nat.add_le_add_right read 1
    · rw [(State.writes_other spec rest same).1, (State.writes_other spec rest same).2]
      exact accounted.cells other
  · intro entry held
    calc
      spec.size entry.2.reading ≤ (state.written entry.2.key).length :=
        accounted.readings entry (member entry held)
      _ ≤ ((state.writes spec done rest).written entry.2.key).length :=
        written_grows done rest entry.2.key

theorem accounted_step (accounted : Accounted spec state) (steps : Steps spec state event next) :
    Accounted spec next := by
  cases steps with
  | waits => exact accounted
  | begins idle => exact accounted_begins accounted idle
  | writes closes => exact accounted_writes accounted closes

omit [DecidableEq κ] in
theorem chained_start : Chained spec (start spec : State ι κ μ ρ) where
  cells _ := rfl
  readings _ member := by cases member
  alone _ member := by cases member

theorem chained_begins (chained : Chained spec state) {worker : ι} {key : κ} {input : μ}
    (free : Free state key) :
    Chained spec (state.begins worker key input) := by
  constructor
  · exact chained.cells
  · intro entry member
    rcases List.mem_cons.mp member with rfl | member
    · rfl
    · exact chained.readings entry member
  · intro entry member other member' same
    rcases List.mem_cons.mp member with rfl | held
    · rcases List.mem_cons.mp member' with rfl | held'
      · rfl
      · exact absurd same.symm (free other held')
    · rcases List.mem_cons.mp member' with rfl | held'
      · exact absurd same (free entry held)
      · exact chained.alone entry held other held' same

/-- Writing back what was read is the next update of the cell, and no other reading is of it. -/
theorem chained_writes (accounted : Accounted spec state) (chained : Chained spec state)
    {worker : ι} {done : Pending κ μ ρ} {rest : List (ι × Pending κ μ ρ)}
    (closes : state.pending.Perm ((worker, done) :: rest)) :
    Chained spec (state.writes spec done rest) := by
  have own : (worker, done) ∈ state.pending := closes.mem_iff.mpr List.mem_cons_self
  have member (entry : ι × Pending κ μ ρ) (held : entry ∈ rest) : entry ∈ state.pending :=
    closes.mem_iff.mpr (List.mem_cons_of_mem _ held)
  have apart (entry : ι × Pending κ μ ρ) (held : entry ∈ rest) : entry.2.key ≠ done.key := by
    intro same
    have worker' := chained.alone entry (member entry held) (worker, done) own same
    have workers := (closes.map Prod.fst).nodup_iff.mp accounted.workers
    exact (List.nodup_cons.mp workers).1 (List.mem_map.mpr ⟨entry, held, worker'⟩)
  constructor
  · intro key
    by_cases same : key = done.key
    · subst same
      rw [State.writes_cells, State.writes_written, List.foldl_append, ← chained.cells,
        ← chained.readings (worker, done) own]
      rfl
    · rw [(State.writes_other spec rest same).1, (State.writes_other spec rest same).2]
      exact chained.cells key
  · intro entry held
    rw [(State.writes_other spec rest (apart entry held)).2]
    exact chained.readings entry (member entry held)
  · intro entry held other held'
    exact chained.alone entry (member entry held) other (member other held')

end Kept

/-! Two updates of one cell that are open together. -/

/-- The value has seen fewer updates than were written, and so has every open reading. -/
structure Lossy (spec : Spec μ ρ) (state : State ι κ μ ρ) (key : κ) : Prop where
  cell : spec.size (state.cells key) < (state.written key).length
  readings : ∀ entry ∈ state.pending, entry.2.key = key →
    spec.size entry.2.reading < (state.written key).length

/-- An open update has read a value that has been overwritten since. -/
def Outdated (spec : Spec μ ρ) (state : State ι κ μ ρ) (key : κ) : Prop :=
  ∃ entry ∈ state.pending, entry.2.key = key ∧
    spec.size entry.2.reading < (state.written key).length

def Racing (state : State ι κ μ ρ) (key : κ) : Prop :=
  ∃ entry ∈ state.pending, ∃ other ∈ state.pending, entry.1 ≠ other.1 ∧ entry.2.key = key ∧
    other.2.key = key

def Broken (spec : Spec μ ρ) (state : State ι κ μ ρ) (key : κ) : Prop :=
  Lossy spec state key ∨ Outdated spec state key ∨ Racing state key

section Broken

variable [DecidableEq κ] {spec : Spec μ ρ} {state next : State ι κ μ ρ} {event : Event ι κ μ}
  {key : κ}

theorem broken_begins (broken : Broken spec state key)
    {worker : ι} {other : κ} {input : μ} :
    Broken spec (state.begins worker other input) key := by
  obtain lossy | ⟨entry, member, named, outdated⟩ | ⟨entry, member, other, member', racing⟩ :=
    broken
  · refine Or.inl ⟨lossy.cell, fun entry held named => ?_⟩
    rcases List.mem_cons.mp held with rfl | held
    · dsimp only at named ⊢
      rw [named]
      exact lossy.cell
    · exact lossy.readings entry held named
  · exact Or.inr (Or.inl ⟨entry, List.mem_cons_of_mem _ member, named, outdated⟩)
  · exact Or.inr (Or.inr ⟨entry, List.mem_cons_of_mem _ member, other,
      List.mem_cons_of_mem _ member', racing⟩)

section Writes

variable {worker : ι} {done : Pending κ μ ρ} {rest : List (ι × Pending κ μ ρ)}
  (closes : state.pending.Perm ((worker, done) :: rest))

include closes

omit [DecidableEq κ] in
theorem closes_cases {entry : ι × Pending κ μ ρ} (held : entry ∈ state.pending) :
    entry = (worker, done) ∨ entry ∈ rest := List.mem_cons.mp (closes.mem_iff.mp held)

/-- An update of the cell that is still open has read what is now overwritten. -/
theorem overwritten (accounted : Accounted spec state) {entry : ι × Pending κ μ ρ}
    (held : entry ∈ rest) (named : entry.2.key = done.key) :
    spec.size entry.2.reading < ((state.writes spec done rest).written done.key).length := by
  have bound := accounted.readings entry (closes.mem_iff.mpr (List.mem_cons_of_mem _ held))
  rw [named] at bound
  rw [State.writes_written, List.length_append]
  exact Nat.lt_succ_of_le bound

theorem broken_writes_same (accounted : Accounted spec state)
    (broken : Broken spec state done.key) :
    Broken spec (state.writes spec done rest) done.key := by
  have lossy (early : spec.size done.reading < (state.written done.key).length) :
      Broken spec (state.writes spec done rest) done.key := by
    refine Or.inl ⟨?_, fun entry held named => overwritten closes accounted held named⟩
    rw [State.writes_cells, State.writes_written, spec.size_update, List.length_append]
    exact Nat.add_lt_add_right early 1
  have outdated {entry : ι × Pending κ μ ρ} (held : entry ∈ rest)
      (named : entry.2.key = done.key) : Broken spec (state.writes spec done rest) done.key :=
    Or.inr (Or.inl ⟨entry, held, named, overwritten closes accounted held named⟩)
  obtain before | ⟨entry, held, named, early⟩ |
    ⟨entry, held, other, held', differ, named, named'⟩ := broken
  · exact lossy (before.readings (worker, done) (closes.mem_iff.mpr List.mem_cons_self) rfl)
  · obtain rfl | inside := closes_cases closes held
    · exact lossy early
    · exact outdated inside named
  · obtain rfl | inside := closes_cases closes held
    · obtain rfl | inside' := closes_cases closes held'
      · exact absurd rfl differ
      · exact outdated inside' named'
    · exact outdated inside named

theorem broken_writes_other (broken : Broken spec state key) (other : key ≠ done.key) :
    Broken spec (state.writes spec done rest) key := by
  obtain ⟨written, cells⟩ := State.writes_other spec rest other
  have left {entry : ι × Pending κ μ ρ} (held : entry ∈ state.pending)
      (named : entry.2.key = key) : entry ∈ rest := by
    obtain rfl | inside := closes_cases closes held
    · exact absurd named.symm other
    · exact inside
  obtain before | ⟨entry, held, named, early⟩ |
    ⟨entry, held, entry', held', differ, named, named'⟩ := broken
  · refine Or.inl ⟨?_, ?_⟩
    · rw [written, cells]
      exact before.cell
    · rw [written]
      intro entry held
      exact before.readings entry (closes.mem_iff.mpr (List.mem_cons_of_mem _ held))
  · refine Or.inr (Or.inl ⟨entry, left held named, named, ?_⟩)
    rwa [written]
  · exact Or.inr (Or.inr ⟨entry, left held named, entry', left held' named', differ, named, named'⟩)

theorem broken_writes (accounted : Accounted spec state) (broken : Broken spec state key) :
    Broken spec (state.writes spec done rest) key := by
  by_cases same : key = done.key
  · subst same
    exact broken_writes_same closes accounted broken
  · exact broken_writes_other closes broken same

end Writes

end Broken

/-! Runs. -/

section Runs

variable [DecidableEq ι] [DecidableEq κ] (spec : Spec μ ρ)

abbrev runFrom (state : State ι κ μ ρ) (events : List (Event ι κ μ)) : State ι κ μ ρ :=
  Run.run (step spec) state events

theorem accounted_run (events : List (Event ι κ μ)) :
    Accounted spec (runFrom spec (start spec) events) :=
  Run.kept_run (step spec) (Accounted spec)
    (fun state event accounted => accounted_step accounted (step_steps spec state event))
    (start spec) events accounted_start

/-- Without two open updates of one cell, every cell is the fold of its written updates. -/
theorem chained_run (events : List (Event ι κ μ))
    (serial : Run.Admissible (step spec) Serial (start spec) events) :
    Chained spec (runFrom spec (start spec) events) := by
  have both : Accounted spec (runFrom spec (start spec) events) ∧
      Chained spec (runFrom spec (start spec) events) := by
    apply Run.invariant_run (step spec) Serial
      (fun state => Accounted spec state ∧ Chained spec state) _ (start spec) events
      ⟨accounted_start, chained_start⟩ serial
    intro state event holds allowed
    have steps := step_steps spec state event
    refine ⟨accounted_step holds.1 steps, ?_⟩
    generalize step spec state event = next at steps
    cases steps with
    | waits => exact holds.2
    | begins idle =>
        exact chained_begins holds.2 (allowed ((open?_eq_none state _).mpr idle))
    | writes closes => exact chained_writes holds.1 holds.2 closes
  exact both.2

/-- What is broken stays broken. -/
theorem broken_run (state : State ι κ μ ρ) (events : List (Event ι κ μ)) (key : κ)
    (accounted : Accounted spec state) (broken : Broken spec state key) :
    Broken spec (runFrom spec state events) key := by
  have both : Accounted spec (runFrom spec state events) ∧
      Broken spec (runFrom spec state events) key := by
    apply Run.kept_run (step spec) (fun state => Accounted spec state ∧ Broken spec state key) _
      state events ⟨accounted, broken⟩
    intro before event holds
    have steps := step_steps spec before event
    refine ⟨accounted_step holds.1 steps, ?_⟩
    generalize step spec before event = next at steps
    cases steps with
    | waits => exact holds.2
    | begins => exact broken_begins holds.2
    | writes closes => exact broken_writes closes holds.1 holds.2
  exact both.2

theorem size_foldl (inputs : List μ) (value : ρ) :
    spec.size (inputs.foldl spec.update value) = spec.size value + inputs.length := by
  induction inputs generalizing value with
  | nil => rfl
  | cons input rest ih =>
      rw [List.foldl_cons, ih, spec.size_update, List.length_cons]
      omega

section Finished

variable (events : List (Event ι κ μ))
  (finished : (runFrom spec (start spec) events).pending = [])

include finished

theorem begun_perm_written (key : κ) :
    ((runFrom spec (start spec) events).begun key).Perm
      ((runFrom spec (start spec) events).written key) := by
  have begun := (accounted_run spec events).begun key
  rwa [finished, openInputs, List.filter_nil, List.map_nil, List.append_nil] at begun

/-- Once nothing is open, a broken cell has lost an update. -/
theorem lost_of_broken {key : κ} (broken : Broken spec (runFrom spec (start spec) events) key) :
    spec.size ((runFrom spec (start spec) events).cells key) <
      ((runFrom spec (start spec) events).begun key).length := by
  rw [(begun_perm_written spec events finished key).length_eq]
  rcases broken with lossy | ⟨entry, held, -⟩ | ⟨entry, held, -⟩
  · exact lossy.cell
  · rw [finished] at held
    cases held
  · rw [finished] at held
    cases held

/-- Where no two updates of one cell are open together, each cell is the fold of the updates
begun on it, in the order they were written. -/
theorem folded_of_serial (serial : Run.Admissible (step spec) Serial (start spec) events)
    (key : κ) : ∃ order : List μ, order.Perm ((runFrom spec (start spec) events).begun key) ∧
      (runFrom spec (start spec) events).cells key = order.foldl spec.update spec.initial :=
  ⟨_, (begun_perm_written spec events finished key).symm,
    (chained_run spec events serial).cells key⟩

/-- Two updates of one cell that were open together leave it short. -/
theorem serial_of_counted (counted : ∀ key, ((runFrom spec (start spec) events).begun key).length ≤
      spec.size ((runFrom spec (start spec) events).cells key)) :
    Run.Admissible (step spec) Serial (start spec) events := by
  apply Run.admissible_of_steps
  intro front event back split
  cases event with
  | write => trivial
  | read worker key input =>
      intro idle entry held named
      have idle' := (open?_eq_none _ worker).mp idle
      have races : Racing (step spec (runFrom spec (start spec) front) (.read worker key input))
          key := by
        rw [step, idle]
        exact ⟨_, List.mem_cons_self, entry, List.mem_cons_of_mem _ held,
          (idle' entry held).symm, rfl, named⟩
      have accounted := accounted_step (accounted_run spec front)
        (step_steps spec _ (.read worker key input))
      have broken := broken_run spec _ back key accounted (Or.inr (Or.inr races))
      have ends : runFrom spec (step spec (runFrom spec (start spec) front)
          (.read worker key input)) back = runFrom spec (start spec) events := by
        rw [split]
        exact (Run.run_append (step spec) (start spec) front (_ :: back)).symm
      rw [ends] at broken
      exact absurd (counted key) (not_le.mpr (lost_of_broken spec events finished broken))

end Finished

end Runs

end Gyza.ReadModifyWrite
