import Mathlib.Tactic

/-! Append-only logs in which every entry names the entry before it by its link.

`link` is what the next entry must name, `prev` what an entry does name; the first
entry names `start`. -/

namespace Gyza.HashChain

variable {ε κ : Type} (prev link : ε → κ)

/-- What the next entry of the log must name. -/
def head (start : κ) (log : List ε) : κ := log.foldl (fun _ entry => link entry) start

def Linked : κ → List ε → Prop
  | _, [] => True
  | start, entry :: rest => prev entry = start ∧ Linked (link entry) rest

@[simp] theorem head_nil (start : κ) : head link start [] = start := rfl

@[simp] theorem head_cons (start : κ) (entry : ε) (rest : List ε) :
    head link start (entry :: rest) = head link (link entry) rest := rfl

@[simp] theorem head_append (start : κ) (log : List ε) (entry : ε) :
    head link start (log ++ [entry]) = link entry := by
  simp [head]

variable {prev link}

/-- A log grows into a linked one exactly by an entry that names its head. -/
theorem linked_append (start : κ) (log : List ε) (entry : ε) :
    Linked prev link start (log ++ [entry]) ↔
      Linked prev link start log ∧ prev entry = head link start log := by
  induction log generalizing start with
  | nil => simp [Linked]
  | cons first rest ih => simp [Linked, ih, and_assoc]

theorem linked_left (start : κ) (front back : List ε)
    (linked : Linked prev link start (front ++ back)) : Linked prev link start front := by
  induction front generalizing start with
  | nil => trivial
  | cons first rest ih => exact ⟨linked.1, ih _ linked.2⟩

/-- Where entries of one link name one entry before them, and no link is the start
again, no link comes twice in a linked log. -/
theorem links_nodup (start : κ) (log : List ε)
    (commits : ∀ entry ∈ log, ∀ entry' ∈ log, link entry = link entry' → prev entry = prev entry')
    (fresh : ∀ entry ∈ log, link entry ≠ start) (linked : Linked prev link start log) :
    (log.map link).Nodup := by
  induction log using List.reverseRecOn with
  | nil => simp
  | append_singleton init last ih =>
      rcases (linked_append start init last).mp linked with ⟨first, named⟩
      have distinct : (init.map link).Nodup := by
        apply ih
        · intro entry member entry' member'
          exact commits entry (by simp [member]) entry' (by simp [member'])
        · intro entry member
          exact fresh entry (by simp [member])
        · exact first
      rw [List.map_append, List.nodup_append]
      refine ⟨distinct, by simp, ?_⟩
      intro old member other single same
      rcases List.mem_map.mp member with ⟨entry, present, rfl⟩
      rw [List.map_singleton, List.mem_singleton] at single
      subst single
      have before : prev entry = head link start init :=
        (commits entry (by simp [present]) last (by simp) same).trans named
      -- the entry names the head of what comes before it, which is not the head of the whole
      rcases List.append_of_mem present with ⟨front, back, rfl⟩
      have own : prev entry = head link start front := by
        have upTo : Linked prev link start ((front ++ [entry]) ++ back) := by simpa using first
        exact ((linked_append start front entry).mp (linked_left start _ _ upTo)).2
      have behind : ∃ later ∈ entry :: back, head link start (front ++ entry :: back) = link later := by
        rcases (entry :: back).eq_nil_or_concat with empty | ⟨rest, later, shape⟩
        · cases empty
        · rw [List.concat_eq_append] at shape
          rw [shape, ← List.append_assoc, head_append]
          exact ⟨later, by simp, rfl⟩
      rcases behind with ⟨later, after, closes⟩
      rw [own, closes] at before
      rcases front.eq_nil_or_concat with rfl | ⟨rest, earlier, rfl⟩
      · exact fresh later (by simp only [List.nil_append, List.mem_append]; exact Or.inl after)
          before.symm
      · rw [List.concat_eq_append, head_append] at before
        rw [List.concat_eq_append, List.map_append, List.nodup_append] at distinct
        exact distinct.2.2 (link earlier) (by simp) (link later) (List.mem_map_of_mem after) before

/-- Logs with the same head agree entry by entry on all that a link commits to,
as long as no link is the start again. -/
theorem same_core {γ : Type} (core : ε → γ) (start : κ) (log other : List ε)
    (commits : ∀ entry ∈ log, ∀ entry' ∈ other, link entry = link entry' →
      core entry = core entry' ∧ prev entry = prev entry')
    (fresh : ∀ entry ∈ log ++ other, link entry ≠ start)
    (linked : Linked prev link start log) (linked' : Linked prev link start other)
    (heads : head link start log = head link start other) :
    log.map core = other.map core := by
  induction log using List.reverseRecOn generalizing other with
  | nil =>
      rcases other.eq_nil_or_concat with rfl | ⟨init, last, rfl⟩
      · rfl
      · rw [List.concat_eq_append] at heads fresh
        rw [head_append, head_nil] at heads
        exact absurd heads.symm (fresh last (by simp))
  | append_singleton init last ih =>
      rcases other.eq_nil_or_concat with rfl | ⟨init', last', rfl⟩
      · rw [head_append, head_nil] at heads
        exact absurd heads (fresh last (by simp))
      · rw [List.concat_eq_append] at heads fresh linked' commits ⊢
        rw [head_append, head_append] at heads
        rcases (linked_append start init last).mp linked with ⟨first, named⟩
        rcases (linked_append start init' last').mp linked' with ⟨first', named'⟩
        rcases commits last (by simp) last' (by simp) heads with ⟨cores, prevs⟩
        have before : head link start init = head link start init' := by
          rw [← named, ← named', prevs]
        have rest : init.map core = init'.map core := by
          apply ih init' _ _ first first' before
          · intro entry member entry' member'
            exact commits entry (by simp [member]) entry' (by simp [member'])
          · intro entry member
            apply fresh entry
            simp only [List.mem_append, List.mem_singleton] at member ⊢
            tauto
        rw [List.map_append, List.map_append, rest, List.map_singleton, List.map_singleton, cores]

end Gyza.HashChain
