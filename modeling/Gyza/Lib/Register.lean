import Mathlib.Tactic

/-! Last-writer-wins registers.

A register keeps the write with the greatest stamp it has taken. Writes that
are not valid are refused and leave it as it was. What it ends with depends
only on which valid writes were offered, not on their order or number. -/

namespace Gyza.Register

variable {ρ μ κ : Type} [LinearOrder κ]

/-- A register, its writes and their stamps; a write replaces the one before it. -/
structure Spec (ρ μ κ : Type) where
  stampOf : ρ → κ
  stamp : μ → κ
  write : ρ → μ → ρ
  stampOf_write : ∀ state input, stampOf (write state input) = stamp input
  write_write : ∀ state first second, write (write state first) second = write state second

variable (spec : Spec ρ μ κ) (valid : μ → Prop)

/-- The greatest valid write of the inputs that exceeds the register's stamp. -/
structure Top (state : ρ) (inputs : List μ) (top : μ) : Prop where
  listed : top ∈ inputs
  valid_top : valid top
  exceeds : spec.stampOf state < spec.stamp top
  greatest : ∀ input ∈ inputs, valid input → spec.stamp input ≤ spec.stamp top

/-- No valid write of the inputs exceeds the register's stamp. -/
def Stale (state : ρ) (inputs : List μ) : Prop :=
  ∀ input ∈ inputs, valid input → spec.stamp input ≤ spec.stampOf state

theorem stale_cons_of_stale {state : ρ} {input : μ} {rest : List μ}
    (now : ¬valid input ∨ spec.stamp input ≤ spec.stampOf state)
    (stale : Stale spec valid state rest) : Stale spec valid state (input :: rest) := by
  intro other member validOther
  rcases List.mem_cons.mp member with rfl | later
  · rcases now with refused | older
    · exact absurd validOther refused
    · exact older
  · exact stale other later validOther

theorem top_cons_of_top {state : ρ} {input top : μ} {rest : List μ}
    (now : ¬valid input ∨ spec.stamp input ≤ spec.stampOf state)
    (isTop : Top spec valid state rest top) : Top spec valid state (input :: rest) top := by
  constructor
  · exact List.mem_cons_of_mem _ isTop.listed
  · exact isTop.valid_top
  · exact isTop.exceeds
  · intro other member validOther
    rcases List.mem_cons.mp member with rfl | later
    · rcases now with refused | older
      · exact absurd validOther refused
      · exact older.trans isTop.exceeds.le
    · exact isTop.greatest other later validOther

/-- The stamp of the greatest valid write is the same whichever write carries it. -/
theorem Top.stamp_eq {valid : μ → Prop} {state : ρ} {inputs : List μ} {first second : μ}
    (one : Top spec valid state inputs first) (two : Top spec valid state inputs second) :
    spec.stamp first = spec.stamp second :=
  le_antisymm (two.greatest first one.listed one.valid_top)
    (one.greatest second two.listed two.valid_top)

theorem Top.not_stale {valid : μ → Prop} {state : ρ} {inputs : List μ} {top : μ}
    (isTop : Top spec valid state inputs top) : ¬Stale spec valid state inputs :=
  fun stale => absurd (stale top isTop.listed isTop.valid_top) (not_le.mpr isTop.exceeds)

variable [DecidablePred valid]

def merge (state : ρ) (input : μ) : ρ :=
  if spec.stamp input ≤ spec.stampOf state then state
  else if valid input then spec.write state input
  else state

theorem merge_skips {state : ρ} {input : μ}
    (now : ¬valid input ∨ spec.stamp input ≤ spec.stampOf state) :
    merge spec valid state input = state := by
  unfold merge
  split_ifs with older taken
  · rfl
  · rcases now with refused | smaller
    · exact absurd taken refused
    · exact absurd smaller older
  · rfl

theorem merge_takes {state : ρ} {input : μ} (validInput : valid input)
    (newer : spec.stampOf state < spec.stamp input) :
    merge spec valid state input = spec.write state input := by
  unfold merge
  rw [if_neg (not_le.mpr newer), if_pos validInput]

/-- After any inputs the register holds the greatest valid write, or what it held. -/
theorem foldl_merge (inputs : List μ) (state : ρ) :
    (∃ top, Top spec valid state inputs top ∧
      inputs.foldl (merge spec valid) state = spec.write state top) ∨
    (Stale spec valid state inputs ∧ inputs.foldl (merge spec valid) state = state) := by
  induction inputs generalizing state with
  | nil =>
      right
      exact ⟨fun input member => absurd member List.not_mem_nil, rfl⟩
  | cons input rest ih =>
      rw [List.foldl_cons]
      by_cases now : ¬valid input ∨ spec.stamp input ≤ spec.stampOf state
      · rw [merge_skips spec valid now]
        rcases ih state with ⟨top, isTop, result⟩ | ⟨stale, result⟩
        · exact Or.inl ⟨top, top_cons_of_top spec valid now isTop, result⟩
        · exact Or.inr ⟨stale_cons_of_stale spec valid now stale, result⟩
      · rw [not_or, not_not, not_le] at now
        rcases now with ⟨validInput, newer⟩
        rw [merge_takes spec valid validInput newer]
        left
        rcases ih (spec.write state input) with ⟨top, isTop, result⟩ | ⟨stale, result⟩
        · have above := isTop.exceeds
          rw [spec.stampOf_write] at above
          refine ⟨top, ⟨List.mem_cons_of_mem _ isTop.listed, isTop.valid_top, newer.trans above, ?_⟩, ?_⟩
          · intro other member validOther
            rcases List.mem_cons.mp member with rfl | later
            · exact above.le
            · exact isTop.greatest other later validOther
          · rw [result, spec.write_write]
        · refine ⟨input, ⟨List.mem_cons_self, validInput, newer, ?_⟩, result⟩
          intro other member validOther
          rcases List.mem_cons.mp member with rfl | later
          · exact le_rfl
          · have older := stale other later validOther
            rwa [spec.stampOf_write] at older

variable {valid}

theorem foldl_merge_of_top {state : ρ} {inputs : List μ} {top : μ}
    (isTop : Top spec valid state inputs top)
    (functional : ∀ input ∈ inputs, spec.stamp input = spec.stamp top →
      spec.write state input = spec.write state top) :
    inputs.foldl (merge spec valid) state = spec.write state top := by
  rcases foldl_merge spec valid inputs state with ⟨other, isOther, result⟩ | ⟨stale, _⟩
  · rw [result]
    exact functional other isOther.listed (isOther.stamp_eq spec isTop)
  · exact absurd stale (isTop.not_stale spec)

end Gyza.Register
