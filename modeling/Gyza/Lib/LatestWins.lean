import Mathlib.Tactic

/-! Lists of keyed items, where a put replaces the first item under its key unless that one
is newer. -/

namespace Gyza.LatestWins

variable {α κ τ : Type} [DecidableEq κ] [LinearOrder τ] (key : α → κ) (stamp : α → τ)

def put : List α → α → List α
  | [], item => [item]
  | held :: rest, item =>
      if key held = key item then
        if stamp held ≤ stamp item then item :: rest else held :: rest
      else held :: put rest item

/-- The items under a key. -/
def entries (items : List α) (k : κ) : List α := items.filter (fun item => key item = k)

theorem mem_entries (items : List α) (k : κ) (item : α) :
    item ∈ entries key items k ↔ item ∈ items ∧ key item = k := by
  simp [entries]

theorem entries_put_other (items : List α) (item : α) {k : κ} (other : key item ≠ k) :
    entries key (put key stamp items item) k = entries key items k := by
  induction items with
  | nil => simp [put, entries, other]
  | cons held rest ih =>
      unfold entries at ih ⊢
      rw [put]
      split_ifs with same newer
      · rw [List.filter_cons_of_neg (by simpa using other),
          List.filter_cons_of_neg (by simpa [same] using other)]
      · rfl
      · rw [List.filter_cons, List.filter_cons, ih]

theorem entries_put_own (items : List α) (item : α) :
    entries key (put key stamp items item) (key item) =
      put key stamp (entries key items (key item)) item := by
  induction items with
  | nil => simp [put, entries]
  | cons held rest ih =>
      unfold entries at ih ⊢
      rw [put]
      by_cases same : key held = key item
      · rw [if_pos same, List.filter_cons_of_pos (by simpa using same), put, if_pos same]
        split_ifs with newer
        · rw [List.filter_cons_of_pos (by simp)]
        · rw [List.filter_cons_of_pos (by simpa using same)]
      · rw [if_neg same, List.filter_cons_of_neg (by simpa using same),
          List.filter_cons_of_neg (by simpa using same), ih]

/-- What is held under a key that has only been put to: nothing before the first put, and then
a latest of the puts. -/
def Latest (puts held : List α) : Prop :=
  (puts = [] ∧ held = []) ∨
    ∃ best ∈ puts, held = [best] ∧ ∀ item ∈ puts, stamp item ≤ stamp best

variable {key stamp}

theorem Latest.none {held : List α} (latest : Latest stamp [] held) : held = [] := by
  rcases latest with ⟨_, empty⟩ | ⟨best, member, _⟩
  · exact empty
  · cases member

theorem Latest.append {puts items : List α} {item : α}
    (latest : Latest stamp puts (entries key items (key item))) :
    Latest stamp (puts ++ [item]) (entries key (put key stamp items item) (key item)) := by
  rw [entries_put_own]
  right
  rcases latest with ⟨rfl, empty⟩ | ⟨best, member, held, greatest⟩
  · rw [empty, put]
    exact ⟨item, by simp, rfl, by simp⟩
  · have own : key best = key item := by
      have listed : best ∈ entries key items (key item) := by simp [held]
      exact ((mem_entries key items _ best).mp listed).2
    rw [held, put, if_pos own]
    split_ifs with newer
    · refine ⟨item, by simp, rfl, ?_⟩
      intro other listed
      rcases List.mem_append.mp listed with earlier | last
      · exact (greatest other earlier).trans newer
      · rw [List.mem_singleton.mp last]
    · refine ⟨best, List.mem_append_left _ member, rfl, ?_⟩
      intro other listed
      rcases List.mem_append.mp listed with earlier | last
      · exact greatest other earlier
      · rw [List.mem_singleton.mp last]
        exact (not_le.mp newer).le

/-- Every put is held, or a later one is. -/
theorem Latest.exists_ge {puts held : List α} (latest : Latest stamp puts held) {item : α}
    (member : item ∈ puts) : ∃ best ∈ held, stamp item ≤ stamp best := by
  rcases latest with ⟨none, _⟩ | ⟨best, _, alone, greatest⟩
  · rw [none] at member
    cases member
  · exact ⟨best, by simp [alone], greatest item member⟩

end Gyza.LatestWins
