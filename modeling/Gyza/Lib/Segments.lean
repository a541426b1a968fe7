import Mathlib.Tactic

/-! Texts made of segments, each behind a separator, and a search in them for a segment that
stands between two separators. -/

namespace Gyza.Segments

variable {α β : Type}

def join (sep : α) (segments : List (List α)) : List α := segments.flatMap (sep :: ·)

section Search

variable [DecidableEq α]

/-- What follows the first occurrence of a text that is not empty. -/
def after (needle : List α) : List α → Option (List α)
  | [] => none
  | c :: text =>
      if needle.isPrefixOf (c :: text) then some ((c :: text).drop needle.length)
      else after needle text

/-- What follows the first of the marked items. -/
def following (marker : α) : List α → Option α
  | [] => none
  | first :: rest => if first = marker then rest.head? else following marker rest

end Search

theorem following_map [DecidableEq α] [DecidableEq β] {f : α → β} (injective : Function.Injective f)
    (marker : α) (items : List α) :
    following (f marker) (items.map f) = (following marker items).map f := by
  induction items with
  | nil => rfl
  | cons first rest ih =>
      rw [List.map_cons, following, following, ih, List.head?_map]
      by_cases same : first = marker
      · rw [if_pos same, if_pos (congrArg f same)]
      · rw [if_neg same, if_neg (injective.ne same)]

variable {sep : α}

theorem join_cons (first : List α) (rest : List (List α)) :
    join sep (first :: rest) = sep :: (first ++ join sep rest) := rfl

variable [DecidableEq α]

/-- A segment ends where the next separator is. -/
theorem takeWhile_segment {segment : List α} (clean : sep ∉ segment) (rest : List (List α)) :
    (segment ++ join sep rest).takeWhile (· ≠ sep) = segment := by
  induction segment with
  | nil =>
      cases rest with
      | nil => rfl
      | cons next rest => simp [join_cons]
  | cons c tail ih =>
      obtain ⟨other, later⟩ := not_or.mp (mt List.mem_cons.mpr clean)
      rw [List.cons_append, List.takeWhile_cons, if_pos (by simpa using Ne.symm other), ih later]

theorem after_skip {needle : List α} (opens : needle.head? = some sep) {front : List α}
    (clean : sep ∉ front) (back : List α) : after needle (front ++ back) = after needle back := by
  obtain ⟨body, rfl⟩ := List.head?_eq_some_iff.mp opens
  induction front with
  | nil => rfl
  | cons c tail ih =>
      obtain ⟨other, later⟩ := not_or.mp (mt List.mem_cons.mpr clean)
      rw [List.cons_append, after, List.isPrefixOf, if_neg (by simp [other]), ih later]

/-- A marker between separators stands at the front only as the first segment of several. -/
theorem marked_iff {marker segment : List α} (clean : sep ∉ marker) (clean' : sep ∉ segment)
    (rest : List (List α)) :
    (sep :: (marker ++ [sep])) <+: join sep (segment :: rest) ↔
      segment = marker ∧ rest ≠ [] := by
  rw [join_cons, List.prefix_cons_inj]
  constructor
  · rintro ⟨tail, split⟩
    have same : marker = segment := by
      have apart : ∀ c ∈ marker, decide (c ≠ sep) = true := by
        intro c member
        exact decide_eq_true (ne_of_mem_of_not_mem member clean)
      rw [← takeWhile_segment clean' rest, ← split, List.append_assoc,
        List.takeWhile_append_of_pos apart]
      simp
    subst same
    refine ⟨rfl, ?_⟩
    rintro rfl
    have lengths := congrArg List.length split
    simp [join] at lengths
  · rintro ⟨rfl, several⟩
    obtain ⟨next, others, rfl⟩ := List.exists_cons_of_ne_nil several
    exact ⟨next ++ join sep others, by rw [join_cons, List.append_assoc]; rfl⟩

/-- Searching the text for a marker between separators finds what follows the first marked
segment. -/
theorem after_join {marker : List α} (clean : sep ∉ marker) {segments : List (List α)}
    (cleans : ∀ segment ∈ segments, sep ∉ segment) :
    (after (sep :: (marker ++ [sep])) (join sep segments)).map (List.takeWhile (· ≠ sep)) =
      following marker segments := by
  induction segments with
  | nil => rfl
  | cons first rest ih =>
      obtain ⟨clean', later⟩ := List.forall_mem_cons.mp cleans
      have marked := marked_iff clean clean' rest
      rw [following]
      by_cases same : first = marker
      · subst same
        rw [if_pos rfl]
        cases rest with
        | nil =>
            have absent : ¬(sep :: (first ++ [sep])) <+: join sep [first] := by
              rw [marked]
              simp
            rw [join_cons, after, if_neg (by rwa [List.isPrefixOf_iff_prefix, ← join_cons]),
              after_skip rfl clean']
            rfl
        | cons next others =>
            have present := marked.mpr ⟨rfl, List.cons_ne_nil next others⟩
            rw [join_cons] at present ⊢
            rw [after, if_pos (List.isPrefixOf_iff_prefix.mpr present), join_cons]
            have dropped : (sep :: (first ++ sep :: (next ++ join sep others))).drop
                (sep :: (first ++ [sep])).length = next ++ join sep others := by
              have split : sep :: (first ++ sep :: (next ++ join sep others)) =
                  (sep :: (first ++ [sep])) ++ (next ++ join sep others) := by simp
              rw [split, List.drop_left]
            rw [dropped, Option.map_some, takeWhile_segment (later next List.mem_cons_self)]
            rfl
      · have absent : ¬(sep :: (marker ++ [sep])) <+: join sep (first :: rest) :=
          fun present => same (marked.mp present).1
        rw [if_neg same, ← ih later, join_cons, after,
          if_neg (by rwa [List.isPrefixOf_iff_prefix, ← join_cons]), after_skip rfl clean']

end Gyza.Segments
