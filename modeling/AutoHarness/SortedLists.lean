import Mathlib.Data.Finset.Card
import Mathlib.Data.List.Destutter
import Mathlib.Data.List.Nodup
import Mathlib.Data.List.Sort
import Mathlib.Order.Defs.LinearOrder

namespace KeyedSort

variable {α κ : Type*} [LinearOrder κ] {key : α → κ} {x y : List α}

/-- Sorted permutations agree in their keys. -/
theorem map_eq_of_sorted (perm : x.Perm y) (hx : x.Pairwise fun a b => key a ≤ key b)
    (hy : y.Pairwise fun a b => key a ≤ key b) : x.map key = y.map key :=
  (perm.map key).eq_of_pairwise (fun _ _ _ _ => le_antisymm) (List.pairwise_map.mpr hx)
    (List.pairwise_map.mpr hy)

/-- Sorted permutations with keys of their own are the same list. -/
theorem eq_of_sorted (perm : x.Perm y) (hx : x.Pairwise fun a b => key a ≤ key b)
    (hy : y.Pairwise fun a b => key a ≤ key b) (unique : (x.map key).Nodup) : x = y := by
  refine perm.eq_of_pairwise (fun a b ha hb hab hba => ?_) hx hy
  have same : key a = key b := le_antisymm hab hba
  exact List.inj_on_of_nodup_map unique ha (perm.mem_iff.mpr hb) same

theorem mergeSort_sorted (x : List α) :
    (x.mergeSort fun a b => key a ≤ key b).Pairwise fun a b => key a ≤ key b := by
  refine (List.pairwise_mergeSort ?_ ?_ x).imp ?_
  · intro a b c hab hbc
    simp only [decide_eq_true_eq] at *
    exact hab.trans hbc
  · intro a b
    simp only [Bool.or_eq_true, decide_eq_true_eq]
    exact le_total _ _
  · intro a b hab
    exact of_decide_eq_true hab

theorem mergeSort_perm_congr (perm : x.Perm y) :
    (x.mergeSort fun a b => key a ≤ key b).Perm (y.mergeSort fun a b => key a ≤ key b) :=
  (List.mergeSort_perm x _).trans (perm.trans (List.mergeSort_perm y _).symm)

theorem map_mergeSort_eq (perm : x.Perm y) :
    (x.mergeSort fun a b => key a ≤ key b).map key = (y.mergeSort fun a b => key a ≤ key b).map key :=
  map_eq_of_sorted (mergeSort_perm_congr perm) (mergeSort_sorted x) (mergeSort_sorted y)

theorem mergeSort_eq (perm : x.Perm y)
    (unique : ((x.mergeSort fun a b => key a ≤ key b).map key).Nodup) :
    (x.mergeSort fun a b => key a ≤ key b) = y.mergeSort fun a b => key a ≤ key b :=
  eq_of_sorted (mergeSort_perm_congr perm) (mergeSort_sorted x) (mergeSort_sorted y) unique

end KeyedSort

namespace SortedDistinct

theorem mem_destutter'_ne {α : Type} [DecidableEq α] {x : α} (xs : List α) {first : α}
    (h : x ∈ first :: xs) : x ∈ xs.destutter' (· ≠ ·) first := by
  induction xs generalizing first with
  | nil => exact h
  | cons y ys ih =>
    by_cases different : first ≠ y
    · rw [List.destutter'_cons_pos _ different]
      rcases List.mem_cons.mp h with rfl | h
      · exact List.mem_cons_self
      · exact List.mem_cons_of_mem _ (ih h)
    · rw [List.destutter'_cons_neg _ different]
      refine ih ?_
      rw [not_not.mp different] at h ⊢
      simpa using h

/-- Leaving out repetitions loses no element. -/
theorem mem_destutter_ne {α : Type} [DecidableEq α] {x : α} {xs : List α} :
    x ∈ xs.destutter (· ≠ ·) ↔ x ∈ xs := by
  constructor
  · exact fun h => (List.destutter_sublist _ xs).subset h
  · intro h
    cases xs with
    | nil => cases h
    | cons first rest => exact mem_destutter'_ne rest h

variable {α : Type} [LinearOrder α]

/-- `sort` followed by `dedup`. -/
def sortDistinct (xs : List α) : List α :=
  (xs.insertionSort (· ≤ ·)).destutter (· ≠ ·)

theorem mem_sortDistinct {x : α} {xs : List α} : x ∈ sortDistinct xs ↔ x ∈ xs := by
  rw [sortDistinct, mem_destutter_ne, List.mem_insertionSort]

theorem isChain_lt {xs : List α} (sorted : xs.Pairwise (· ≤ ·)) (distinct : xs.IsChain (· ≠ ·)) :
    xs.IsChain (· < ·) := by
  induction xs with
  | nil => exact List.isChain_nil
  | cons x rest ih =>
    cases rest with
    | nil => exact List.isChain_singleton x
    | cons y later =>
      obtain ⟨front, sorted⟩ := List.pairwise_cons.mp sorted
      obtain ⟨different, distinct⟩ := List.isChain_cons_cons.mp distinct
      have below := lt_of_le_of_ne (front y (List.mem_cons_self ..)) different
      exact List.isChain_cons_cons.mpr ⟨below, ih sorted distinct⟩

theorem pairwise_sortDistinct (xs : List α) : (sortDistinct xs).Pairwise (· < ·) := by
  have sorted := (List.pairwise_insertionSort (· ≤ ·) xs).sublist
    (List.destutter_sublist (· ≠ ·) (xs.insertionSort (· ≤ ·)))
  have distinct := List.isChain_destutter (· ≠ ·) (xs.insertionSort (· ≤ ·))
  exact List.isChain_iff_pairwise.mp (isChain_lt sorted distinct)

/-- The result depends on the elements alone. -/
theorem sortDistinct_congr {xs ys : List α} (same : ∀ x, x ∈ xs ↔ x ∈ ys) :
    sortDistinct xs = sortDistinct ys := by
  apply (pairwise_sortDistinct xs).eq_of_mem_iff (pairwise_sortDistinct ys)
  intro x
  rw [mem_sortDistinct, mem_sortDistinct]
  exact same x

theorem sortDistinct_idem (xs : List α) : sortDistinct (sortDistinct xs) = sortDistinct xs :=
  sortDistinct_congr fun _ => mem_sortDistinct

theorem length_sortDistinct (xs : List α) : (sortDistinct xs).length = xs.toFinset.card := by
  have nodup : (sortDistinct xs).Nodup := (pairwise_sortDistinct xs).imp fun below => ne_of_lt below
  rw [← List.toFinset_card_of_nodup nodup]
  congr 1
  ext x
  rw [List.mem_toFinset, List.mem_toFinset, mem_sortDistinct]

theorem sortDistinct_eq_nil {xs : List α} : sortDistinct xs = [] ↔ xs = [] := by
  simp only [List.eq_nil_iff_forall_not_mem, mem_sortDistinct]

end SortedDistinct

namespace SortedNeighbours

variable {κ β : Type*} [LinearOrder κ] {f : κ → β} {ks : List κ}

/-- Two elements share a label and nothing of the list lies between them. -/
def Close (f : κ → β) (ks : List κ) : Prop :=
  ¬ ks.Nodup ∨ ∃ a ∈ ks, ∃ b ∈ ks, a < b ∧ f a = f b ∧ ∀ z ∈ ks, ¬ (a < z ∧ z < b)

theorem Close.perm {ks' : List κ} (perm : ks.Perm ks') (h : Close f ks) : Close f ks' := by
  obtain double | ⟨a, ha, b, hb, below, same, between⟩ := h
  · exact .inl fun nodup => double (perm.nodup_iff.mpr nodup)
  · exact .inr ⟨a, perm.mem_iff.mp ha, b, perm.mem_iff.mp hb, below, same,
      fun z mem => between z (perm.mem_iff.mpr mem)⟩

theorem Close.cons {a : κ} (front : ∀ b ∈ ks, a ≤ b) (h : Close f ks) : Close f (a :: ks) := by
  obtain double | ⟨x, hx, y, hy, below, same, between⟩ := h
  · exact .inl fun nodup => double (List.nodup_cons.mp nodup).2
  · refine .inr ⟨x, List.mem_cons_of_mem a hx, y, List.mem_cons_of_mem a hy, below, same, ?_⟩
    intro z mem
    obtain rfl | mem := List.mem_cons.mp mem
    · exact fun inside => absurd inside.1 (not_lt.mpr (front x hx))
    · exact between z mem

/-- What the first element of a sorted list adds. -/
theorem close_cons_cons {a b : κ} (sorted : (a :: b :: ks).Pairwise (· ≤ ·)) :
    Close f (a :: b :: ks) ↔ f a = f b ∨ Close f (b :: ks) := by
  obtain ⟨front, sorted⟩ := List.pairwise_cons.mp sorted
  have hab := front b (List.mem_cons_self ..)
  have hback : ∀ y ∈ b :: ks, b ≤ y := by
    intro y mem
    obtain rfl | mem := List.mem_cons.mp mem
    · exact le_refl _
    · exact (List.pairwise_cons.mp sorted).1 y mem
  constructor
  · intro h
    by_cases equal : a = b
    · exact .inl (congrArg f equal)
    · have below := lt_of_le_of_ne hab equal
      obtain double | ⟨x, hx, y, hy, under, same, between⟩ := h
      · refine .inr (.inl fun nodup => double (List.nodup_cons.mpr ⟨fun mem => ?_, nodup⟩))
        exact absurd (hback a mem) (not_le.mpr below)
      · have hy' : y ∈ b :: ks := by
          obtain rfl | hy := List.mem_cons.mp hy
          · obtain rfl | hx := List.mem_cons.mp hx
            · exact absurd under (lt_irrefl _)
            · exact absurd under (not_lt.mpr (front x hx))
          · exact hy
        obtain rfl | hx := List.mem_cons.mp hx
        · have hby : y = b := by
            have notBelow := between b (List.mem_cons_of_mem _ (List.mem_cons_self ..))
            have hle : y ≤ b := not_lt.mp fun inside => notBelow ⟨below, inside⟩
            exact le_antisymm hle (hback y hy')
          exact .inl (hby ▸ same)
        · exact .inr (.inr ⟨x, hx, y, hy', under, same,
            fun z mem => between z (List.mem_cons_of_mem a mem)⟩)
  · rintro (same | h)
    · obtain below | equal := lt_or_eq_of_le hab
      · refine .inr ⟨a, List.mem_cons_self .., b, List.mem_cons_of_mem a (List.mem_cons_self ..),
          below, same, ?_⟩
        rintro z mem ⟨above, under⟩
        obtain rfl | mem := List.mem_cons.mp mem
        · exact lt_irrefl _ above
        · exact absurd under (not_lt.mpr (hback z mem))
      · exact .inl fun nodup => (List.nodup_cons.mp nodup).1 (equal ▸ List.mem_cons_self ..)
    · exact h.cons front

/-- Neighbours of a sorted list share a label exactly when two elements without another one
between them do. -/
theorem exists_neighbours_iff (sorted : ks.Pairwise (· ≤ ·)) :
    (∃ pair ∈ ks.zip ks.tail, f pair.1 = f pair.2) ↔ Close f ks := by
  induction ks with
  | nil => simp [Close]
  | cons a rest ih =>
    cases rest with
    | nil => simp [Close]
    | cons b later =>
      have hrest := ih (List.pairwise_cons.mp sorted).2
      rw [close_cons_cons sorted, ← hrest]
      simp only [List.tail_cons, List.zip_cons_cons, List.exists_mem_cons_iff]

end SortedNeighbours
