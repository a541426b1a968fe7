import Mathlib.Tactic

/-! Reading one item off a stream that arrives in pieces.

A scan of what has arrived so far needs more, fails, or finds the item and what is left over
behind it. -/

namespace Gyza.StreamScan

inductive Scan (β ε α : Type) where
  | more
  | failed (error : ε)
  | whole (item : α) (rest : List β)

variable {β ε α : Type}

/-- What arrives behind an item is left over. -/
def Scan.followed (rest : List β) : Scan β ε α → Scan β ε α
  | .more => .more
  | .failed error => .failed error
  | .whole item left => .whole item (left ++ rest)

/-- What a scan has decided is not changed by what arrives later. -/
def Stable (scan : List β → Scan β ε α) : Prop :=
  ∀ front rest, scan front = .more ∨ scan (front ++ rest) = (scan front).followed rest

/-- In front of the end of a lone item a scan needs more. -/
theorem Stable.of_front {scan : List β → Scan β ε α} (stable : Stable scan) {front text : List β}
    {item : α} (lone : scan text = .whole item []) (begins : front <+: text) :
    scan front = .more ∨ front = text := by
  obtain ⟨rest, rfl⟩ := begins
  rcases stable front rest with more | decided
  · exact Or.inl more
  · right
    rw [lone] at decided
    cases scanned : scan front with
    | more =>
        rw [scanned] at decided
        cases decided
    | failed error =>
        rw [scanned] at decided
        cases decided
    | whole found left =>
        rw [scanned] at decided
        have nothing : [] = left ++ rest := (Scan.whole.inj decided).2
        rw [(List.append_eq_nil_iff.mp nothing.symm).2, List.append_nil]

end Gyza.StreamScan
