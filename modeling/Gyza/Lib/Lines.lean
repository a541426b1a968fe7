import Mathlib.Tactic

/-! Text files read line by line.

A file is read with universal newlines and split as `str.splitlines` does, which knows
more boundaries than the newline. A line appended to a file whose last line is
complete is read back as one more line. -/

namespace Gyza.Lines

/-- The boundaries of `str.splitlines`. -/
def isBoundary (c : Char) : Bool :=
  c ∈ ['\n', '\r', '\x0b', '\x0c', '\x1c', '\x1d', '\x1e', '\u0085', '\u2028', '\u2029']

/-- Universal newlines; the flag says that the last character was a carriage return. -/
def newlines : Bool → List Char → List Char
  | _, [] => []
  | afterReturn, c :: rest =>
      if c = '\r' then '\n' :: newlines true rest
      else if c = '\n' ∧ afterReturn = true then newlines false rest
      else c :: newlines false rest

def splitFrom : List Char → List Char → List (List Char)
  | current, [] => if current = [] then [] else [current]
  | current, c :: rest =>
      if isBoundary c then current :: splitFrom [] rest else splitFrom (current ++ [c]) rest

/-- The lines of a file's text. -/
def fileLines (text : List Char) : List (List Char) := splitFrom [] (newlines false text)

/-- The last line of the text, if there is one, is ended by a newline. -/
def Complete (text : List Char) : Prop := text = [] ∨ ∃ front, text = front ++ ['\n']

theorem complete_line (text line : List Char) : Complete (text ++ (line ++ ['\n'])) :=
  Or.inr ⟨text ++ line, (List.append_assoc _ _ _).symm⟩

theorem newlines_append_newline (front rest : List Char) (afterReturn : Bool) :
    newlines afterReturn (front ++ '\n' :: rest) =
      newlines afterReturn (front ++ ['\n']) ++ newlines false rest := by
  induction front generalizing afterReturn with
  | nil => cases afterReturn <;> simp [newlines]
  | cons c front ih =>
      simp only [List.cons_append, newlines]
      split_ifs
      · rw [ih, List.cons_append]
      · exact ih _
      · rw [ih, List.cons_append]

theorem complete_newlines (front : List Char) (afterReturn : Bool) :
    Complete (newlines afterReturn (front ++ ['\n'])) := by
  have behind : ∀ {c text}, Complete text → Complete ('\n' :: text) ∧
      (text ≠ [] → Complete (c :: text)) := by
    rintro c text (rfl | ⟨front, rfl⟩)
    · exact ⟨Or.inr ⟨[], rfl⟩, fun nonempty => absurd rfl nonempty⟩
    · exact ⟨Or.inr ⟨'\n' :: front, rfl⟩, fun _ => Or.inr ⟨c :: front, rfl⟩⟩
  induction front generalizing afterReturn with
  | nil => cases afterReturn <;> simp [newlines, Complete]
  | cons c front ih =>
      simp only [List.cons_append, newlines]
      split_ifs with carriage newline
      · exact (@behind c _ (ih true)).1
      · exact ih false
      · refine (behind (ih false)).2 ?_
        cases front with
        | nil => simp [newlines]
        | cons next front =>
            simp only [List.cons_append, newlines]
            split_ifs <;> simp_all

theorem newlines_plain {line : List Char} (plain : ∀ c ∈ line, isBoundary c = false)
    (rest : List Char) : newlines false (line ++ rest) = line ++ newlines false rest := by
  induction line with
  | nil => rfl
  | cons c line ih =>
      rw [List.forall_mem_cons] at plain
      have other : c ≠ '\r' := by
        rintro rfl
        cases plain.1
      simp only [List.cons_append, newlines, if_neg other]
      rw [if_neg (by simp), ih plain.2]

theorem splitFrom_append_newline (current front rest : List Char) :
    splitFrom current (front ++ '\n' :: rest) =
      splitFrom current (front ++ ['\n']) ++ splitFrom [] rest := by
  induction front generalizing current with
  | nil =>
      have boundary : isBoundary '\n' = true := by decide
      simp [splitFrom, boundary]
  | cons c front ih =>
      simp only [List.cons_append, splitFrom]
      split_ifs
      · rw [ih, List.cons_append]
      · exact ih _

theorem splitFrom_plain {line : List Char} (plain : ∀ c ∈ line, isBoundary c = false)
    (current : List Char) : splitFrom current (line ++ ['\n']) = [current ++ line] := by
  induction line generalizing current with
  | nil =>
      have boundary : isBoundary '\n' = true := by decide
      simp [splitFrom, boundary]
  | cons c line ih =>
      rw [List.forall_mem_cons] at plain
      simp only [List.cons_append, splitFrom, plain.1, Bool.false_eq_true, if_false]
      rw [ih plain.2, List.append_assoc, List.singleton_append]

/-- A line added to complete lines is read back behind them. -/
theorem fileLines_append {text line : List Char} (complete : Complete text)
    (plain : ∀ c ∈ line, isBoundary c = false) :
    fileLines (text ++ (line ++ ['\n'])) = fileLines text ++ [line] := by
  have alone : newlines false (line ++ ['\n']) = line ++ ['\n'] := by
    rw [newlines_plain plain]
    rfl
  rcases complete with rfl | ⟨front, rfl⟩
  · rw [List.nil_append, fileLines, alone, splitFrom_plain plain]
    rfl
  · rw [fileLines, List.append_assoc, List.singleton_append, newlines_append_newline, alone,
      fileLines]
    rcases complete_newlines front false with empty | ⟨front', same⟩
    · rw [empty, List.nil_append, splitFrom_plain plain]
      rfl
    · rw [same, List.append_assoc, List.singleton_append, splitFrom_append_newline,
        splitFrom_plain plain, List.nil_append]

end Gyza.Lines
