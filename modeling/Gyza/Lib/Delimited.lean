import Mathlib.Tactic

/-! Four fields joined by a separator, the second drawn from a known format.

The format never contains the separator, the other fields may. `join4_unique`
says when the joined list can be read back in only one way. -/

namespace Gyza.Delimited

variable {α : Type} {sep : α}

/-- A separator-free tail is matched by the other tail, or sits at its end. -/
theorem split_at_last {first last first' last' : List α} (clean : sep ∉ last)
    (same : first ++ sep :: last = first' ++ sep :: last') :
    (first = first' ∧ last = last') ∨
      ∃ middle, last' = middle ++ sep :: last ∧ first = first' ++ sep :: middle := by
  rcases List.append_eq_append_iff.mp same with ⟨gap, grow, rest⟩ | ⟨gap, grow, rest⟩
  · cases gap with
    | nil =>
        left
        simp only [List.append_nil, List.nil_append, List.cons.injEq, true_and] at grow rest
        exact ⟨grow.symm, rest⟩
    | cons head gap =>
        simp only [List.cons_append, List.cons.injEq] at rest
        exact absurd (by rw [rest.2]; simp) clean
  · cases gap with
    | nil =>
        left
        simp only [List.append_nil, List.nil_append, List.cons.injEq, true_and] at grow rest
        exact ⟨grow, rest.symm⟩
    | cons head gap =>
        right
        simp only [List.cons_append, List.cons.injEq] at rest
        rcases rest with ⟨rfl, rest⟩
        exact ⟨gap, rest, grow⟩

/-- Two separator-free tails are equal, and so is what precedes them. -/
theorem split_at_clean {first last first' last' : List α} (clean : sep ∉ last)
    (clean' : sep ∉ last') (same : first ++ sep :: last = first' ++ sep :: last') :
    first = first' ∧ last = last' := by
  rcases split_at_last clean same with equal | ⟨middle, tail, _⟩
  · exact equal
  · exact absurd (by rw [tail]; simp) clean'

/-- A segment after the first separator of `field` in the given format. -/
def HasSegment (sep : α) (format : List α → Prop) (field : List α) : Prop :=
  ∃ front text, format text ∧
    (field = front ++ sep :: text ∨ ∃ rest, field = (front ++ sep :: text) ++ sep :: rest)

theorem mem_of_hasSegment {format : List α → Prop} {field : List α}
    (segment : HasSegment sep format field) : sep ∈ field := by
  rcases segment with ⟨front, text, _, rfl | ⟨rest, rfl⟩⟩ <;> simp

def join4 (sep : α) (first second third fourth : List α) : List α :=
  ((first ++ sep :: second) ++ sep :: third) ++ sep :: fourth

variable {format : List α → Prop}

/-- A front that ends in a formatted field, followed by anything, hides a segment. -/
private theorem absorbed {first second front text tail : List α} (clean : sep ∉ second)
    (formatted : format text)
    (same : first ++ sep :: second = (front ++ sep :: text) ++ sep :: tail) :
    HasSegment sep format first := by
  rcases split_at_last clean same with ⟨equal, _⟩ | ⟨middle, _, equal⟩
  · exact ⟨front, text, formatted, Or.inl equal⟩
  · exact ⟨front, text, formatted, Or.inr ⟨middle, equal⟩⟩

theorem join4_unique {first second third fourth first' second' third' fourth' : List α}
    (cleanThird : sep ∉ third) (cleanFourth : sep ∉ fourth)
    (plain : ¬ HasSegment sep format first) (cleanSecond : sep ∉ second)
    (cleanSecond' : sep ∉ second') (formatted : format second')
    (same : join4 sep first second third fourth = join4 sep first' second' third' fourth') :
    first = first' ∧ second = second' ∧ third = third' ∧ fourth = fourth' := by
  rcases split_at_last cleanFourth same with ⟨front, rfl⟩ | ⟨middle, _, front⟩
  · rcases split_at_last cleanThird front with ⟨head, rfl⟩ | ⟨middle, _, head⟩
    · rcases split_at_clean cleanSecond cleanSecond' head with ⟨rfl, rfl⟩
      exact ⟨rfl, rfl, rfl, rfl⟩
    · exact absurd (absorbed cleanSecond formatted head) plain
  · -- the fourth field of the other reading swallowed a separator
    rcases split_at_last cleanThird front with ⟨head, _⟩ | ⟨gap, _, head⟩
    · exact absurd (absorbed cleanSecond formatted head) plain
    · rw [List.append_assoc, List.cons_append] at head
      exact absurd (absorbed cleanSecond formatted head) plain

private theorem ne_of_longer {field front tail : List α} (longer : field = front ++ sep :: tail) :
    field ≠ front := by
  intro same
  have length := congrArg List.length (same.symm.trans longer)
  simp at length

/-- In every other case there is a second reading. -/
theorem join4_ambiguous {first second third fourth : List α} (formatted : format second)
    (mixed : sep ∈ third ∨ sep ∈ fourth ∨ HasSegment sep format first) :
    ∃ first' second' third' fourth', format second' ∧
      join4 sep first second third fourth = join4 sep first' second' third' fourth' ∧
      (first ≠ first' ∨ third ≠ third') := by
  rcases mixed with inThird | inFourth | ⟨front, text, textFormatted, split⟩
  · rcases List.append_of_mem inThird with ⟨left, right, rfl⟩
    refine ⟨first, second, left, right ++ sep :: fourth, formatted, ?_, Or.inr (ne_of_longer rfl)⟩
    simp [join4]
  · rcases List.append_of_mem inFourth with ⟨left, right, rfl⟩
    refine ⟨first, second, third ++ sep :: left, right, formatted, ?_,
      Or.inr (ne_of_longer rfl).symm⟩
    simp [join4]
  · rcases split with rfl | ⟨rest, rfl⟩
    · refine ⟨front, text, second, third ++ sep :: fourth, textFormatted, ?_,
        Or.inl (ne_of_longer rfl)⟩
      simp [join4]
    · refine ⟨front, text, rest, second ++ sep :: (third ++ sep :: fourth), textFormatted, ?_,
        Or.inl (ne_of_longer (List.append_assoc front _ _))⟩
      simp [join4]

end Gyza.Delimited
