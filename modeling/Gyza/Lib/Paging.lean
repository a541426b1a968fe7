import Mathlib.Tactic

/-! Reading a list page by page through a key cursor.

A page holds the first entries whose key is past the cursor, and its last entry
is the next cursor. Nothing requires the list to be sorted by the key; the main
result says for which lists the pages still add up to the whole. -/

namespace Gyza.Paging

variable {α κ : Type} [LinearOrder κ] (size : Nat) (key : α → κ)

def after (entries : List α) (cursor : κ) : List α :=
  entries.filter (fun entry => decide (cursor < key entry))

/-- The key of the last entry of a page; an empty page echoes the cursor. -/
def nextCursor (page : List α) (cursor : κ) : κ :=
  match page.getLast? with
  | some last => key last
  | none => cursor

/-- At most `fuel` pages; `none` when there would be more. -/
def drain (entries : List α) : Nat → κ → Option (List α)
  | 0, _ => none
  | fuel + 1, cursor =>
      let page := (after key entries cursor).take size
      if size < (after key entries cursor).length then
        (drain entries fuel (nextCursor key page cursor)).map (page ++ ·)
      else some page

/-- Every full page that is not the last one ends in the greatest key so far,
and all later keys are greater. -/
def CleanPages (entries : List α) : Prop :=
  ∀ front last back, entries = front ++ last :: back → size ∣ front.length + 1 → back ≠ [] →
    (∀ entry ∈ front, key entry ≤ key last) ∧ ∀ entry ∈ back, key last < key entry

variable {size key}

theorem mem_after {entries : List α} {cursor : κ} {entry : α} :
    entry ∈ after key entries cursor ↔ entry ∈ entries ∧ cursor < key entry := by
  simp only [after, List.mem_filter, decide_eq_true_eq]

theorem after_eq_self {entries : List α} {cursor : κ} :
    after key entries cursor = entries ↔ ∀ entry ∈ entries, cursor < key entry := by
  simp only [after, List.filter_eq_self, decide_eq_true_eq]

/-- Entries below an earlier cursor play no part later on. -/
theorem after_after {entries : List α} {cursor later : κ} (le : cursor ≤ later) :
    after key (after key entries cursor) later = after key entries later := by
  simp only [after, List.filter_filter]
  congr 1
  funext entry
  by_cases past : later < key entry
  · simp [past, lt_of_le_of_lt le past]
  · simp [past]

/-- A full page is everything before its last entry, and that entry. -/
theorem take_split (positive : 0 < size) {entries : List α} (more : size < entries.length) :
    ∃ front last, entries.take size = front ++ [last] ∧ front.length + 1 = size ∧
      entries = front ++ last :: entries.drop size ∧ entries.drop size ≠ [] := by
  have nonempty : entries.take size ≠ [] := by
    intro empty
    have length := List.length_take_of_le (le_of_lt more)
    rw [empty] at length
    simp only [List.length_nil] at length
    omega
  refine ⟨(entries.take size).dropLast, (entries.take size).getLast nonempty,
    (List.dropLast_append_getLast nonempty).symm, ?_, ?_, ?_⟩
  · rw [List.length_dropLast, List.length_take_of_le (le_of_lt more)]
    omega
  · calc
      entries = entries.take size ++ entries.drop size := (List.take_append_drop size entries).symm
      _ = _ := by
        nth_rewrite 1 [← List.dropLast_append_getLast nonempty]
        rw [List.append_assoc, List.singleton_append]
  · intro empty
    have length := congrArg List.length empty
    simp only [List.length_drop, List.length_nil] at length
    omega

omit [LinearOrder κ] in
theorem nextCursor_append (front : List α) (last : α) (cursor : κ) :
    nextCursor key (front ++ [last]) cursor = key last := by
  simp [nextCursor]

theorem drain_last {entries : List α} {fuel : Nat} {cursor : κ}
    (few : (after key entries cursor).length ≤ size) :
    drain size key entries (fuel + 1) cursor = some (after key entries cursor) := by
  simp only [drain, if_neg (not_lt.mpr few), List.take_of_length_le few]

theorem drain_more {entries : List α} {fuel : Nat} {cursor : κ}
    (more : size < (after key entries cursor).length) {front : List α} {last : α}
    (page : (after key entries cursor).take size = front ++ [last]) :
    drain size key entries (fuel + 1) cursor =
      (drain size key entries fuel (key last)).map ((front ++ [last]) ++ ·) := by
  simp only [drain, if_pos more, page, nextCursor_append]

/-- Draining looks only at what is past the cursor. -/
theorem drain_after (positive : 0 < size) (entries : List α) (fuel : Nat) (cursor later : κ)
    (le : cursor ≤ later) :
    drain size key (after key entries cursor) fuel later = drain size key entries fuel later := by
  induction fuel generalizing later with
  | zero => rfl
  | succ fuel ih =>
      have same : after key (after key entries cursor) later = after key entries later :=
        after_after le
      by_cases more : size < (after key entries later).length
      · rcases take_split positive more with ⟨front, last, page, _, whole, _⟩
        have member : last ∈ after key entries later := by
          rw [whole]
          simp
        have forward : later < key last := (mem_after.mp member).2
        rw [drain_more more page, drain_more (same ▸ more) (same ▸ page),
          ih (key last) (le_trans le (le_of_lt forward))]
      · have few := not_lt.mp more
        rw [drain_last few, drain_last (same ▸ few), same]

theorem mem_drain {entries got : List α} {fuel : Nat} {cursor : κ} (positive : 0 < size)
    (done : drain size key entries fuel cursor = some got) :
    ∀ entry ∈ got, entry ∈ entries ∧ cursor < key entry := by
  induction fuel generalizing cursor got with
  | zero => cases done
  | succ fuel ih =>
      intro entry member
      by_cases more : size < (after key entries cursor).length
      · rcases take_split positive more with ⟨front, last, page, _, whole, _⟩
        rw [drain_more more page] at done
        rcases Option.map_eq_some_iff.mp done with ⟨rest, drained, joined⟩
        rw [← joined] at member
        have past : ∀ item ∈ front ++ [last], item ∈ entries ∧ cursor < key item := by
          intro item inPage
          rw [← page] at inPage
          exact mem_after.mp (List.mem_of_mem_take inPage)
        rcases List.mem_append.mp member with inPage | inRest
        · exact past entry inPage
        · rcases ih drained entry inRest with ⟨stored, later⟩
          have forward := (past last (by simp)).2
          exact ⟨stored, lt_trans forward later⟩
      · rw [drain_last (not_lt.mp more)] at done
        cases done
        exact mem_after.mp member

/-- The first entry past the cursor is always delivered. -/
theorem head_mem_drain {entries got back : List α} {fuel : Nat} {cursor : κ} {first : α}
    (positive : 0 < size) (pending : after key entries cursor = first :: back)
    (done : drain size key entries fuel cursor = some got) : first ∈ got := by
  cases fuel with
  | zero => cases done
  | succ fuel =>
      have inPage : first ∈ (after key entries cursor).take size := by
        rw [pending]
        cases size with
        | zero => cases positive
        | succ size => simp
      by_cases more : size < (after key entries cursor).length
      · simp only [drain, if_pos more] at done
        rcases Option.map_eq_some_iff.mp done with ⟨rest, _, joined⟩
        rw [← joined]
        exact List.mem_append.mpr (Or.inl inPage)
      · simp only [drain, if_neg more] at done
        cases done
        exact inPage

/-- Each page moves the cursor past at least one entry, so draining ends. -/
theorem drain_ends (positive : 0 < size) (entries : List α) (cursor : κ) :
    ∃ fuel got, drain size key entries fuel cursor = some got := by
  induction pending : (after key entries cursor).length using Nat.strong_induction_on
    generalizing cursor with
  | _ count ih =>
      by_cases more : size < (after key entries cursor).length
      · rcases take_split positive more with ⟨front, last, page, _, whole, _⟩
        have member : last ∈ after key entries cursor := by
          rw [whole]
          simp
        have forward : cursor < key last := (mem_after.mp member).2
        have fewer : (after key entries (key last)).length < count := by
          rw [← pending, ← after_after (le_of_lt forward)]
          apply List.length_filter_lt_length_iff_exists.mpr
          exact ⟨last, member, by simp⟩
        rcases ih _ fewer (key last) rfl with ⟨fuel, rest, drained⟩
        exact ⟨fuel + 1, (front ++ [last]) ++ rest, by rw [drain_more more page, drained]; rfl⟩
      · exact ⟨1, _, drain_last (not_lt.mp more)⟩

theorem cleanPages_drop {entries : List α} (clean : CleanPages size key entries)
    (more : size ≤ entries.length) : CleanPages size key (entries.drop size) := by
  intro front last back split divides nonempty
  have whole : entries = (entries.take size ++ front) ++ last :: back := by
    rw [List.append_assoc, ← split, List.take_append_drop]
  have aligned : size ∣ (entries.take size ++ front).length + 1 := by
    rw [List.length_append, List.length_take_of_le more, add_assoc]
    exact Dvd.dvd.add (dvd_refl size) divides
  rcases clean _ last back whole aligned nonempty with ⟨below, above⟩
  exact ⟨fun entry member => below entry (List.mem_append.mpr (Or.inr member)), above⟩

/-- The entries past a clean page end are those the page left out. -/
theorem after_page_end {entries front back : List α} {last : α}
    (whole : entries = front ++ last :: back)
    (below : ∀ entry ∈ front, key entry ≤ key last) (above : ∀ entry ∈ back, key last < key entry) :
    after key entries (key last) = back := by
  have dropped : after key front (key last) = [] := by
    apply List.filter_eq_nil_iff.mpr
    intro entry member
    simpa using below entry member
  have kept : after key back (key last) = back := after_eq_self.mpr above
  have joined : after key entries (key last) =
      after key front (key last) ++ after key [last] (key last) ++ after key back (key last) := by
    rw [whole]
    simp [after]
  rw [joined, dropped, kept]
  simp [after]

/-- Over clean pages the drained list is the list itself. -/
theorem drain_complete (positive : 0 < size) {entries got : List α} {fuel : Nat} {cursor : κ}
    (past : ∀ entry ∈ entries, cursor < key entry) (clean : CleanPages size key entries)
    (done : drain size key entries fuel cursor = some got) : got = entries := by
  induction fuel generalizing entries got cursor with
  | zero => cases done
  | succ fuel ih =>
      have all : after key entries cursor = entries := after_eq_self.mpr past
      by_cases more : size < entries.length
      · rcases take_split positive more with ⟨front, last, page, count, whole, nonempty⟩
        have ends := clean front last _ whole (count ▸ dvd_refl _) nonempty
        have rest := after_page_end whole ends.1 ends.2
        rw [drain_more (all.symm ▸ more) (all.symm ▸ page)] at done
        rcases Option.map_eq_some_iff.mp done with ⟨tail, drained, joined⟩
        rw [← drain_after positive entries fuel (key last) (key last) le_rfl, rest] at drained
        have same := ih ends.2 (cleanPages_drop clean (le_of_lt more)) drained
        rw [← joined, same, ← page, List.take_append_drop]
      · rw [drain_last (all.symm ▸ not_lt.mp more), all] at done
        exact (Option.some.inj done).symm

/-- Clean pages of the tail, below which the first page lies, are clean pages of the whole. -/
theorem cleanPages_of_drop {entries front : List α} {last : α}
    (whole : entries = front ++ last :: entries.drop size) (count : front.length + 1 = size)
    (below : ∀ entry ∈ front, key entry ≤ key last)
    (above : ∀ entry ∈ entries.drop size, key last < key entry)
    (clean : CleanPages size key (entries.drop size)) : CleanPages size key entries := by
  intro before final back split divides nonempty
  have reach : size ≤ before.length + 1 := Nat.le_of_dvd (Nat.succ_pos _) divides
  by_cases first : before.length + 1 = size
  · have same : before ++ final :: back = front ++ last :: entries.drop size := by
      rw [← split, ← whole]
    rcases List.append_inj same (by omega) with ⟨frontEq, tailEq⟩
    cases tailEq
    rw [frontEq]
    exact ⟨below, above⟩
  · -- a later page end: its page lies wholly in the tail
    have within : size ≤ before.length := by omega
    have tail : entries.drop size = before.drop size ++ final :: back := by
      rw [split, List.drop_append_of_le_length within]
    have page : before.take size = front ++ [last] := by
      have taken : entries.take size = before.take size := by
        rw [split, List.take_append_of_le_length within]
      rw [← taken]
      nth_rewrite 1 [whole]
      rw [← List.singleton_append, ← List.append_assoc, List.take_left' (by simp [count])]
    have still : size ∣ (before.drop size).length + 1 := by
      have length : before.length + 1 = size + ((before.drop size).length + 1) := by
        rw [List.length_drop]
        omega
      rw [length] at divides
      exact (Nat.dvd_add_right (dvd_refl size)).mp divides
    rcases clean _ final back tail still nonempty with ⟨belowTail, aboveTail⟩
    have beyond : key last < key final := above final (by rw [tail]; simp)
    refine ⟨?_, aboveTail⟩
    intro entry member
    rw [← List.take_append_drop size before, page] at member
    rcases List.mem_append.mp member with inPage | inTail
    · rcases List.mem_append.mp inPage with inFront | isLast
      · exact le_of_lt (lt_of_le_of_lt (below entry inFront) beyond)
      · rw [List.mem_singleton.mp isLast]
        exact le_of_lt beyond
    · exact belowTail entry inTail

/-- An entry of the page past its end would be delivered a second time. -/
theorem page_below (positive : 0 < size) {entries front back tail : List α} {last : α}
    {fuel : Nat} (whole : entries = front ++ last :: back) (distinct : entries.Nodup)
    (drained : drain size key entries fuel (key last) = some tail)
    (inside : ∀ entry ∈ tail, entry ∈ back) : ∀ entry ∈ front, key entry ≤ key last := by
  cases pending : after key front (key last) with
  | nil =>
      intro entry member
      have short := List.filter_eq_nil_iff.mp pending entry member
      simpa using short
  | cons first more =>
      have again : after key entries (key last) =
          first :: (more ++ after key (last :: back) (key last)) := by
        rw [← List.cons_append, ← pending, whole]
        simp only [after, List.filter_append]
      have inBack := inside first (head_mem_drain positive again drained)
      have inFront : first ∈ front := by
        have member : first ∈ after key front (key last) := by
          rw [pending]
          simp
        exact (mem_after.mp member).1
      rw [whole] at distinct
      exact absurd (List.mem_cons_of_mem last inBack) (List.disjoint_of_nodup_append distinct inFront)

/-- A drained list that is the list up to order comes from clean pages. -/
theorem cleanPages_of_perm (positive : 0 < size) {entries got : List α} {fuel : Nat} {cursor : κ}
    (distinct : (entries.map key).Nodup) (done : drain size key entries fuel cursor = some got)
    (perm : got.Perm entries) :
    (∀ entry ∈ entries, cursor < key entry) ∧ CleanPages size key entries := by
  have past : ∀ entry ∈ entries, cursor < key entry := by
    intro entry member
    exact (mem_drain positive done entry (perm.mem_iff.mpr member)).2
  refine ⟨past, ?_⟩
  induction fuel generalizing entries got cursor with
  | zero => cases done
  | succ fuel ih =>
      have all : after key entries cursor = entries := after_eq_self.mpr past
      by_cases more : size < entries.length
      · rcases take_split positive more with ⟨front, last, page, count, whole, _⟩
        rw [drain_more (all.symm ▸ more) (all.symm ▸ page)] at done
        rcases Option.map_eq_some_iff.mp done with ⟨tail, drained, joined⟩
        have tailPerm : tail.Perm (entries.drop size) := by
          rw [← joined, ← page] at perm
          nth_rewrite 2 [← List.take_append_drop size entries] at perm
          exact (List.perm_append_left_iff _).mp perm
        have above : ∀ entry ∈ entries.drop size, key last < key entry := by
          intro entry member
          exact (mem_drain positive drained entry (tailPerm.mem_iff.mpr member)).2
        have below := page_below positive whole (List.Nodup.of_map key distinct) drained
          (fun entry => tailPerm.mem_iff.mp)
        have rest := after_page_end whole below above
        rw [← drain_after positive entries fuel (key last) (key last) le_rfl, rest] at drained
        have dropped : ((entries.drop size).map key).Nodup :=
          distinct.sublist ((List.drop_sublist size entries).map key)
        exact cleanPages_of_drop whole count below above
          (ih dropped drained tailPerm above)
      · intro front last back split divides nonempty
        have reach : size ≤ front.length + 1 := Nat.le_of_dvd (Nat.succ_pos _) divides
        have length := congrArg List.length split
        rw [List.length_append, List.length_cons] at length
        have empty : back = [] := by
          apply List.eq_nil_of_length_eq_zero
          omega
        exact absurd empty nonempty

/-- Whenever draining ends it has delivered the whole list, if and only if the
list starts past the cursor and has clean pages. -/
theorem drain_perm_iff (positive : 0 < size) {entries : List α} (cursor : κ)
    (distinct : (entries.map key).Nodup) :
    (∀ fuel got, drain size key entries fuel cursor = some got → got.Perm entries) ↔
      (∀ entry ∈ entries, cursor < key entry) ∧ CleanPages size key entries := by
  constructor
  · intro lossless
    rcases drain_ends positive entries cursor with ⟨fuel, got, done⟩
    exact cleanPages_of_perm positive distinct done (lossless fuel got done)
  · intro conditions fuel got done
    rw [drain_complete positive conditions.1 conditions.2 done]

/-! A limit that is applied before a filter. -/

theorem filter_take_eq_iff (keep : α → Bool) (rows : List α) (bound : Nat) :
    (rows.take bound).filter keep = (rows.filter keep).take bound ↔
      (∀ row ∈ rows.take bound, keep row = true) ∨ ∀ row ∈ rows.drop bound, keep row = false := by
  have split : rows.filter keep = (rows.take bound).filter keep ++ (rows.drop bound).filter keep := by
    rw [← List.filter_append, List.take_append_drop]
  have shorter : ((rows.take bound).filter keep).length ≤ (rows.take bound).length :=
    List.length_filter_le _ _
  have bounded : (rows.take bound).length = min bound rows.length := List.length_take
  have extra : (rows.filter keep).take bound = (rows.take bound).filter keep ++
      ((rows.drop bound).filter keep).take (bound - ((rows.take bound).filter keep).length) := by
    rw [split, List.take_append, List.take_of_length_le (by omega)]
  rw [extra, List.self_eq_append_right, List.take_eq_nil_iff, List.filter_eq_nil_iff]
  constructor
  · intro ends
    rcases ends with full | empty
    · left
      exact List.length_filter_eq_length_iff.mp (by omega)
    · right
      simpa using empty
  · intro ends
    rcases ends with all | none
    · by_cases short : rows.length ≤ bound
      · right
        rw [List.drop_eq_nil_of_le short]
        simp
      · left
        rw [List.length_filter_eq_length_iff.mpr all]
        omega
    · right
      simpa using none

end Gyza.Paging
