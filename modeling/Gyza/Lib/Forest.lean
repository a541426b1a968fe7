import Mathlib.Tactic

/-! Forests given by parent pointers.

A node that is there is a root or names its parent. The line of a node is the path to
it from a root; a node below a cycle, or below one that is not there, has none. -/

namespace Gyza.Forest

variable {κ : Type}

inductive Line (parents : κ → Option (Option κ)) : κ → List κ → Prop where
  | root {node : κ} (isRoot : parents node = some none) : Line parents node [node]
  | child {node parent : κ} {path : List κ} (under : parents node = some (some parent))
      (line : Line parents parent path) : Line parents node (path ++ [node])

def HasChild (parents : κ → Option (Option κ)) (node : κ) : Prop :=
  ∃ child, parents child = some (some node)

inductive Climb (κ : Type) where
  | path (nodes : List κ)
  | unknown (node : κ)
  | tooFar

/-- Climbs to a root in so many steps; the path grows at its front. -/
def climb (parents : κ → Option (Option κ)) : Nat → Option κ → List κ → Climb κ
  | 0, _, _ => .tooFar
  | _ + 1, none, path => .path path
  | steps + 1, some node, path =>
      match parents node with
      | none => .unknown node
      | some parent => climb parents steps parent (node :: path)

variable {parents parents' : κ → Option (Option κ)}

theorem Line.unique {node : κ} {path path' : List κ} (line : Line parents node path)
    (line' : Line parents node path') : path = path' := by
  induction line generalizing path' with
  | root isRoot =>
      cases line' with
      | root _ => rfl
      | child under _ =>
          rw [isRoot] at under
          cases under
  | child under _ ih =>
      cases line' with
      | root isRoot =>
          rw [isRoot] at under
          cases under
      | child under' line' =>
          cases under.symm.trans under'
          rw [ih line']

theorem Line.mono {node : κ} {path : List κ}
    (kept : ∀ other parent, parents other = some parent → parents' other = some parent)
    (line : Line parents node path) : Line parents' node path := by
  induction line with
  | root isRoot => exact Line.root (kept _ _ isRoot)
  | child under _ ih => exact Line.child (kept _ _ under) ih

theorem Line.present {node : κ} {path : List κ} (line : Line parents node path) :
    ∃ parent, parents node = some parent := by
  cases line with
  | root isRoot => exact ⟨_, isRoot⟩
  | child under _ => exact ⟨_, under⟩

/-- Every node of a line has the part up to it for its own line. -/
theorem Line.upTo {node other : κ} {path : List κ} (line : Line parents node path)
    (member : other ∈ path) : ∃ front back, path = front ++ back ∧ Line parents other front := by
  induction line with
  | root isRoot =>
      rw [List.mem_singleton.mp member]
      exact ⟨_, [], (List.append_nil _).symm, Line.root isRoot⟩
  | @child node parent path under line ih =>
      rcases List.mem_append.mp member with above | last
      · rcases ih above with ⟨front, back, split, own⟩
        exact ⟨front, back ++ [node], by rw [split, List.append_assoc], own⟩
      · rw [List.mem_singleton.mp last]
        exact ⟨path ++ [node], [], (List.append_nil _).symm, Line.child under line⟩

theorem Line.nodup {node : κ} {path : List κ} (line : Line parents node path) : path.Nodup := by
  induction line with
  | root _ => exact List.nodup_singleton _
  | @child node parent path under line ih =>
      rw [← List.concat_eq_append, List.nodup_concat]
      refine ⟨?_, ih⟩
      intro above
      rcases line.upTo above with ⟨front, back, split, own⟩
      have same := congrArg List.length (own.unique (Line.child under line))
      have longer := congrArg List.length split
      rw [List.length_append] at same longer
      rw [List.length_singleton] at same
      omega

theorem Line.last {node : κ} {path : List κ} (line : Line parents node path) :
    ∃ front, path = front ++ [node] := by
  cases line with
  | root _ => exact ⟨[], rfl⟩
  | child _ _ => exact ⟨_, rfl⟩

theorem Line.apart {node other : κ} {front : List κ} (line : Line parents node (front ++ [node]))
    (member : other ∈ front) : other ≠ node := by
  have once := line.nodup
  rw [← List.concat_eq_append, List.nodup_concat] at once
  rintro rfl
  exact once.1 member

theorem Line.not_own_parent {node : κ} {path : List κ} (line : Line parents node path) :
    parents node ≠ some (some node) := by
  intro under
  have same := congrArg List.length (line.unique (Line.child under line))
  rw [List.length_append, List.length_singleton] at same
  omega

/-- The parent of a node, where it has one, ends the rest of its line. -/
theorem Line.rest {node : κ} {front : List κ} (line : Line parents node (front ++ [node])) :
    (parents node = some none ∧ front = []) ∨
      ∃ parent, parents node = some (some parent) ∧ Line parents parent front := by
  generalize whole : front ++ [node] = path at line
  cases line with
  | root isRoot => exact Or.inl ⟨isRoot, by simpa using whole⟩
  | child under line =>
      rw [(List.append_inj_left' whole rfl)]
      exact Or.inr ⟨_, under, line⟩

/-- Every node of a line but the last has a child there. -/
theorem Line.next {node other : κ} {path : List κ} (line : Line parents node path)
    (member : other ∈ path) : other = node ∨ ∃ child ∈ path, parents child = some (some other) := by
  induction line with
  | root _ => exact Or.inl (List.mem_singleton.mp member)
  | @child node parent path under line ih =>
      rcases List.mem_append.mp member with above | last
      · right
        rcases ih above with rfl | ⟨child, listed, below⟩
        · exact ⟨node, List.mem_append_right _ List.mem_cons_self, under⟩
        · exact ⟨child, List.mem_append_left _ listed, below⟩
      · exact Or.inl (List.mem_singleton.mp last)

theorem Line.hasChild {node other : κ} {path : List κ} (line : Line parents node path)
    (hasChild : HasChild parents node) (member : other ∈ path) : HasChild parents other := by
  rcases line.next member with rfl | ⟨child, _, below⟩
  · exact hasChild
  · exact ⟨child, below⟩

/-- The climb from a node finds its line, with one step to spare for the end. -/
theorem climb_line {node : κ} {path : List κ} (line : Line parents node path) (steps : Nat)
    (enough : path.length < steps) (below : List κ) :
    climb parents steps (some node) below = .path (path ++ below) := by
  induction line generalizing steps below with
  | root isRoot =>
      obtain ⟨steps, rfl⟩ : ∃ n, steps = n + 2 := ⟨steps - 2, by simp at enough; omega⟩
      simp only [climb, isRoot, List.singleton_append]
  | @child node parent path under line ih =>
      obtain ⟨steps, rfl⟩ : ∃ n, steps = n + 1 := ⟨steps - 1, by omega⟩
      rw [List.length_append, List.length_singleton] at enough
      simp only [climb, under]
      rw [ih steps (by omega) (node :: below), List.append_assoc, List.singleton_append]

end Gyza.Forest
