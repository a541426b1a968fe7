import Mathlib.Data.List.TakeWhile
import Mathlib.Tactic

/-! Sorting by a key, where items with the same key keep their order.

What the sorted list shows does not depend on the order of the items exactly when items with
the same key show the same. -/

namespace Gyza.KeyedSort

variable {α κ ω : Type} [LinearOrder κ] (key : α → κ)

def sortBy (items : List α) : List α := items.insertionSort fun left right => key left ≤ key right

theorem sortBy_perm (items : List α) : (sortBy key items).Perm items :=
  List.perm_insertionSort _ _

theorem sortBy_pairwise (items : List α) :
    (sortBy key items).Pairwise fun left right => key left ≤ key right := by
  have total : Std.Total fun left right => key left ≤ key right :=
    ⟨fun left right => le_total (key left) (key right)⟩
  have trans : IsTrans α fun left right => key left ≤ key right :=
    ⟨fun _ _ _ => le_trans⟩
  exact List.pairwise_insertionSort _ _

/-- Two items with the same key at the front stay next to each other and in order. -/
theorem sortBy_cons_cons {left right : α} (same : key left = key right) (rest : List α) :
    ∃ before after, sortBy key (left :: right :: rest) = before ++ left :: right :: after ∧
      sortBy key (right :: left :: rest) = before ++ right :: left :: after := by
  have inserted : ∀ first second : α, key first = key second →
      sortBy key (first :: second :: rest) =
        (sortBy key rest).takeWhile (fun item => ¬ key second ≤ key item) ++
          first :: second ::
            (sortBy key rest).dropWhile (fun item => ¬ key second ≤ key item) := by
    intro first second equal
    have inner : sortBy key (second :: rest) =
        (sortBy key rest).takeWhile (fun item => ¬ key second ≤ key item) ++
          second :: (sortBy key rest).dropWhile (fun item => ¬ key second ≤ key item) :=
      List.orderedInsert_eq_take_drop _ _ _
    have outer : sortBy key (first :: second :: rest) =
        (sortBy key (second :: rest)).takeWhile (fun item => ¬ key first ≤ key item) ++
          first :: (sortBy key (second :: rest)).dropWhile (fun item => ¬ key first ≤ key item) :=
      List.orderedInsert_eq_take_drop _ _ _
    have lower : ∀ item ∈ (sortBy key rest).takeWhile (fun item => ¬ key second ≤ key item),
        decide (¬ key first ≤ key item) = true := by
      intro item member
      have lower := List.mem_takeWhile_imp member
      rwa [equal]
    rw [outer, inner, List.takeWhile_append_of_pos lower, List.dropWhile_append_of_pos lower,
      List.takeWhile_cons_of_neg (by simp [equal]), List.dropWhile_cons_of_neg (by simp [equal]),
      List.append_nil]
  refine ⟨_, _, inserted left right same, ?_⟩
  rw [inserted right left same.symm, same]

variable (view : α → ω)

theorem view_of_swap {left right : α} (same : key left = key right) (rest : List α)
    (agree : (sortBy key (left :: right :: rest)).map view =
      (sortBy key (right :: left :: rest)).map view) : view left = view right := by
  obtain ⟨before, after, first, second⟩ := sortBy_cons_cons key same rest
  rw [first, second, List.map_append, List.map_append] at agree
  exact (List.cons.inj (List.append_cancel_left agree)).1

/-- The view shows the key, and items with the same key show the same. -/
theorem map_sortBy_eq (keyOf : ω → κ) (shows : ∀ item, keyOf (view item) = key item)
    {items others : List α} (alike : ∀ left ∈ items, ∀ right ∈ items, key left = key right →
      view left = view right) (moved : (items.map view).Perm (others.map view)) :
    (sortBy key items).map view = (sortBy key others).map view := by
  have sorted : ∀ given, ((sortBy key given).map view).Pairwise
      fun left right => keyOf left ≤ keyOf right := by
    intro given
    rw [List.pairwise_map]
    simpa only [shows] using sortBy_pairwise key given
  have perm : ((sortBy key items).map view).Perm ((sortBy key others).map view) :=
    ((sortBy_perm key items).map view).trans
      (moved.trans ((sortBy_perm key others).map view).symm)
  refine perm.eq_of_pairwise ?_ (sorted items) (sorted others)
  intro first second present present' below above
  have member := ((sortBy_perm key items).map view).mem_iff.mp present
  have member' := ((sortBy_perm key items).map view).mem_iff.mp (perm.mem_iff.mpr present')
  obtain ⟨left, inside, rfl⟩ := List.mem_map.mp member
  obtain ⟨right, inside', rfl⟩ := List.mem_map.mp member'
  rw [shows, shows] at below above
  exact alike left inside right inside' (le_antisymm below above)

/-! With a key that tells the items apart, only which items there are matters. -/

section Injective

variable {key} (injective : Function.Injective key)

include injective in
theorem eq_sortBy {items others : List α} (moved : items.Perm others)
    (sorted : items.Pairwise fun left right => key left ≤ key right) :
    items = sortBy key others := by
  refine (moved.trans (sortBy_perm key others).symm).eq_of_pairwise ?_ sorted
    (sortBy_pairwise key others)
  intro left right _ _ below above
  exact injective (le_antisymm below above)

include injective in
theorem sortBy_eq_of_perm {items others : List α} (moved : items.Perm others) :
    sortBy key items = sortBy key others :=
  eq_sortBy injective ((sortBy_perm key items).trans moved) (sortBy_pairwise key items)

include injective in
theorem filter_sortBy (keep : α → Bool) (items : List α) :
    (sortBy key items).filter keep = sortBy key (items.filter keep) :=
  eq_sortBy injective ((sortBy_perm key items).filter keep)
    ((sortBy_pairwise key items).filter keep)

end Injective

/-! The heaviest items first. -/

section Heaviest

variable {M : Type} [AddCommMonoid M] [LinearOrder M] [IsOrderedAddMonoid M] {weight : α → M}

/-- Of the items listed by falling weight the first ones weigh at least as much as any others. -/
theorem sum_le_sum_take {items : List α}
    (falling : items.Pairwise fun left right => weight right ≤ weight left)
    (nonneg : ∀ item ∈ items, 0 ≤ weight item) {chosen : List α} (distinct : chosen.Nodup)
    (among : ∀ item ∈ chosen, item ∈ items) {k : Nat} (short : chosen.length ≤ k) :
    (chosen.map weight).sum ≤ ((items.take k).map weight).sum := by
  classical
  induction items generalizing chosen k with
  | nil =>
      have nothing : chosen = [] := List.eq_nil_iff_forall_not_mem.mpr fun item member =>
        List.not_mem_nil (among item member)
      simp [nothing]
  | cons heaviest rest ih =>
      obtain ⟨above, falling⟩ := List.pairwise_cons.mp falling
      have lighter : ∀ item ∈ rest, 0 ≤ weight item :=
        fun item member => nonneg item (List.mem_cons_of_mem _ member)
      cases k with
      | zero =>
          have nothing : chosen = [] := List.length_eq_zero_iff.mp (by omega)
          simp [nothing]
      | succ k =>
          rw [List.take_succ_cons, List.map_cons, List.sum_cons]
          by_cases first : heaviest ∈ chosen
          · have left : ∀ item ∈ chosen.erase heaviest, item ∈ rest := by
              intro item member
              obtain ⟨other, member⟩ := distinct.mem_erase_iff.mp member
              exact (List.mem_cons.mp (among item member)).resolve_left other
            have size : (chosen.erase heaviest).length ≤ k := by
              rw [List.length_erase_of_mem first]
              omega
            calc
              (chosen.map weight).sum
                = weight heaviest + ((chosen.erase heaviest).map weight).sum := by
                  rw [((List.perm_cons_erase first).map weight).sum_eq, List.map_cons,
                    List.sum_cons]
              _ ≤ _ := by
                  gcongr
                  exact ih falling lighter (distinct.erase heaviest) left size
          · have left : ∀ item ∈ chosen, item ∈ rest := by
              intro item member
              refine (List.mem_cons.mp (among item member)).resolve_left ?_
              rintro rfl
              exact first member
            cases chosen with
            | nil =>
                have rests : 0 ≤ ((rest.take k).map weight).sum := by
                  apply List.sum_nonneg
                  intro w member
                  obtain ⟨item, taken, rfl⟩ := List.mem_map.mp member
                  exact lighter item (List.mem_of_mem_take taken)
                simpa using add_nonneg (nonneg heaviest List.mem_cons_self) rests
            | cons item others =>
                have size : others.length ≤ k := by simpa using short
                rw [List.map_cons, List.sum_cons]
                gcongr
                · exact above item (left item List.mem_cons_self)
                · exact ih falling lighter (List.nodup_cons.mp distinct).2
                    (fun other member => left other (List.mem_cons_of_mem _ member)) size

end Heaviest

/-- Lowering the bound on falling weights adds items behind those that were there. -/
theorem filter_falling {weight : α → κ} {items : List α}
    (falling : items.Pairwise fun left right => weight right ≤ weight left) {low high : κ}
    (lower : low ≤ high) :
    items.filter (fun item => low ≤ weight item) =
      items.filter (fun item => high ≤ weight item) ++
        items.filter (fun item => low ≤ weight item ∧ weight item < high) := by
  induction items with
  | nil => rfl
  | cons item rest ih =>
      obtain ⟨above, falling⟩ := List.pairwise_cons.mp falling
      by_cases reaches : high ≤ weight item
      · have inside : low ≤ weight item := lower.trans reaches
        simp [reaches, inside, ih falling, not_lt.mpr reaches]
      · have below : ∀ other ∈ item :: rest, ¬ high ≤ weight other := by
          intro other member
          rw [List.mem_cons] at member
          cases member with
          | inl same => rwa [same]
          | inr later => exact fun up => reaches (up.trans (above other later))
        have none_above : (item :: rest).filter (fun item => high ≤ weight item) = [] := by
          rw [List.filter_eq_nil_iff]
          intro other member
          simpa using below other member
        rw [none_above, List.nil_append]
        apply List.filter_congr
        intro other member
        simp [not_le.mp (below other member)]

end Gyza.KeyedSort
