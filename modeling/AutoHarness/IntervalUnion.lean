import Mathlib.Data.List.Basic
import Mathlib.Order.Defs.LinearOrder
import Mathlib.Order.MinMax

namespace IntervalUnion

section Merge

variable {α : Type*} [LinearOrder α]

/-- A point lies in one of the half-open ranges. -/
def Covers (ranges : List (α × α)) (i : α) : Prop :=
  ∃ r ∈ ranges, r.1 ≤ i ∧ i < r.2

/-- Joins a range to the last one, which stands first, when they overlap or touch. -/
def push : List (α × α) → α × α → List (α × α)
  | [], r => [r]
  | last :: merged, r =>
    if r.1 ≤ last.2 then (last.1, max last.2 r.2) :: merged else r :: last :: merged

/-- Joins ranges in the order of their starts. -/
def merge (ranges : List (α × α)) : List (α × α) :=
  (ranges.foldl push []).reverse

theorem covers_cons {r : α × α} {ranges : List (α × α)} {i : α} :
    Covers (r :: ranges) i ↔ (r.1 ≤ i ∧ i < r.2) ∨ Covers ranges i := by
  simp [Covers]

theorem covers_reverse {ranges : List (α × α)} {i : α} :
    Covers ranges.reverse i ↔ Covers ranges i := by
  simp [Covers]

/-- Filled ranges with gaps between them, the last one first. -/
structure Separated (merged : List (α × α)) : Prop where
  filled : ∀ r ∈ merged, r.1 < r.2
  apart : merged.Pairwise fun later earlier => earlier.2 < later.1

theorem separated_nil : Separated ([] : List (α × α)) :=
  ⟨fun _ mem => absurd mem List.not_mem_nil, List.Pairwise.nil⟩

/-- A range that starts no earlier than the last one keeps the gaps and adds its own points. -/
theorem push_separated {merged : List (α × α)} {r : α × α} (h : Separated merged) (filled : r.1 < r.2)
    (after : ∀ last ∈ merged, last.1 ≤ r.1) :
    Separated (push merged r) ∧ (∀ i, Covers (push merged r) i ↔ Covers merged i ∨ (r.1 ≤ i ∧ i < r.2)) ∧
      ∀ last ∈ push merged r, last.1 ≤ r.1 := by
  cases merged with
  | nil =>
    refine ⟨⟨?_, List.pairwise_singleton _ _⟩, ?_, ?_⟩
    · intro last mem
      rw [List.mem_singleton.mp mem]
      exact filled
    · intro i
      simp [push, Covers]
    · intro last mem
      rw [List.mem_singleton.mp mem]
  | cons last merged =>
    have start := after last List.mem_cons_self
    have wide := h.filled last List.mem_cons_self
    obtain ⟨gap, apart⟩ := List.pairwise_cons.mp h.apart
    by_cases touching : r.1 ≤ last.2
    · rw [push, if_pos touching]
      refine ⟨⟨?_, ?_⟩, ?_, ?_⟩
      · intro s mem
        obtain rfl | mem := List.mem_cons.mp mem
        · exact lt_of_lt_of_le wide (le_max_left _ _)
        · exact h.filled s (List.mem_cons_of_mem _ mem)
      · exact List.pairwise_cons.mpr ⟨gap, apart⟩
      · intro i
        rw [covers_cons, covers_cons]
        constructor
        · rintro (⟨low, high⟩ | there)
          · rcases lt_max_iff.mp high with high | high
            · exact .inl (.inl ⟨low, high⟩)
            · rcases lt_or_ge i r.1 with early | late
              · exact .inl (.inl ⟨low, lt_of_lt_of_le early touching⟩)
              · exact .inr ⟨late, high⟩
          · exact .inl (.inr there)
        · rintro ((⟨low, high⟩ | there) | ⟨low, high⟩)
          · exact .inl ⟨low, lt_of_lt_of_le high (le_max_left _ _)⟩
          · exact .inr there
          · exact .inl ⟨start.trans low, lt_of_lt_of_le high (le_max_right _ _)⟩
      · intro s mem
        obtain rfl | mem := List.mem_cons.mp mem
        · exact start
        · exact after s (List.mem_cons_of_mem _ mem)
    · have beyond : last.2 < r.1 := not_le.mp touching
      rw [push, if_neg touching]
      refine ⟨⟨?_, ?_⟩, ?_, ?_⟩
      · intro s mem
        obtain rfl | mem := List.mem_cons.mp mem
        · exact filled
        · exact h.filled s mem
      · refine List.pairwise_cons.mpr ⟨?_, h.apart⟩
        intro s mem
        obtain rfl | mem := List.mem_cons.mp mem
        · exact beyond
        · exact (gap s mem).trans (wide.trans beyond)
      · intro i
        rw [covers_cons, or_comm]
      · intro s mem
        obtain rfl | mem := List.mem_cons.mp mem
        · exact le_refl _
        · exact after s mem

theorem foldl_push_separated {ranges merged : List (α × α)} (h : Separated merged)
    (filled : ∀ r ∈ ranges, r.1 < r.2) (sorted : ranges.Pairwise fun a b => a.1 ≤ b.1)
    (after : ∀ last ∈ merged, ∀ r ∈ ranges, last.1 ≤ r.1) :
    Separated (ranges.foldl push merged) ∧
      ∀ i, Covers (ranges.foldl push merged) i ↔ Covers merged i ∨ Covers ranges i := by
  induction ranges generalizing merged with
  | nil => exact ⟨h, fun i => by simp [Covers]⟩
  | cons r ranges ih =>
    obtain ⟨next, sorted⟩ := List.pairwise_cons.mp sorted
    obtain ⟨pushed, covered, starts⟩ := push_separated h (filled r List.mem_cons_self)
      fun last mem => after last mem r List.mem_cons_self
    obtain ⟨separated, all⟩ := ih pushed (fun s mem => filled s (List.mem_cons_of_mem _ mem)) sorted
      fun last mem s there => (starts last mem).trans (next s there)
    refine ⟨separated, fun i => ?_⟩
    rw [List.foldl_cons, all, covered, covers_cons, or_assoc]

/-- Ranges that were merged have gaps between them and cover the same points. -/
theorem merge_spec {ranges : List (α × α)} (filled : ∀ r ∈ ranges, r.1 < r.2)
    (sorted : ranges.Pairwise fun a b => a.1 ≤ b.1) :
    (∀ r ∈ merge ranges, r.1 < r.2) ∧ (merge ranges).Pairwise (fun a b => a.2 < b.1) ∧
      ∀ i, Covers (merge ranges) i ↔ Covers ranges i := by
  obtain ⟨separated, covered⟩ := foldl_push_separated separated_nil filled sorted
    fun _ mem => absurd mem List.not_mem_nil
  refine ⟨fun r mem => separated.filled r (List.mem_reverse.mp mem),
    List.pairwise_reverse.mpr separated.apart, fun i => ?_⟩
  rw [merge, covers_reverse, covered]
  simp [Covers]

theorem mem_merge_le {ranges : List (α × α)} {bound : α} (filled : ∀ r ∈ ranges, r.1 < r.2)
    (sorted : ranges.Pairwise fun a b => a.1 ≤ b.1) (below : ∀ r ∈ ranges, r.2 ≤ bound) :
    ∀ r ∈ merge ranges, r.2 ≤ bound := by
  obtain ⟨wide, -, covered⟩ := merge_spec filled sorted
  intro r mem
  by_contra beyond
  have inside : Covers (merge ranges) (max r.1 bound) :=
    ⟨r, mem, le_max_left _ _, max_lt (wide r mem) (not_le.mp beyond)⟩
  obtain ⟨s, there, -, high⟩ := (covered _).mp inside
  exact absurd (lt_of_lt_of_le high (below s there)) (not_lt.mpr (le_max_right _ _))

end Merge

section Mask

variable {γ : Type*} (marker : List γ) (covered : Nat → Bool)

/-- The list with every maximal run of covered places replaced by the marker. -/
def maskRuns : (place : Nat) → List γ → List γ
  | _, [] => []
  | place, x :: xs =>
    if covered place then
      if place ≠ 0 ∧ covered (place - 1) then maskRuns (place + 1) xs
      else marker ++ maskRuns (place + 1) xs
    else x :: maskRuns (place + 1) xs

/-- The list with the ranges from a place on cut out and the marker in their place. -/
def cutRanges (text : List γ) : (cursor : Nat) → List (Nat × Nat) → List γ
  | cursor, [] => text.drop cursor
  | cursor, r :: ranges =>
    (text.drop cursor).take (r.1 - cursor) ++ marker ++ cutRanges text r.2 ranges

variable {marker covered}

theorem maskRuns_cons (place : Nat) (x : γ) (xs : List γ) :
    maskRuns marker covered place (x :: xs) =
      if covered place then
        if place ≠ 0 ∧ covered (place - 1) then maskRuns marker covered (place + 1) xs
        else marker ++ maskRuns marker covered (place + 1) xs
      else x :: maskRuns marker covered (place + 1) xs := rfl

theorem maskRuns_append (place : Nat) (xs ys : List γ) :
    maskRuns marker covered place (xs ++ ys) =
      maskRuns marker covered place xs ++ maskRuns marker covered (place + xs.length) ys := by
  induction xs generalizing place with
  | nil => simp [maskRuns]
  | cons x xs ih =>
    have shift : place + 1 + xs.length = place + (x :: xs).length := by
      rw [List.length_cons]
      omega
    rw [List.cons_append, maskRuns_cons, maskRuns_cons, ih, shift]
    split
    · split
      · rfl
      · rw [List.append_assoc]
    · rw [List.cons_append]

theorem maskRuns_kept {place : Nat} {xs : List γ} (free : ∀ k < xs.length, covered (place + k) = false) :
    maskRuns marker covered place xs = xs := by
  induction xs generalizing place with
  | nil => rfl
  | cons x xs ih =>
    have here := free 0 (Nat.succ_pos _)
    rw [Nat.add_zero] at here
    have rest : maskRuns marker covered (place + 1) xs = xs := by
      refine ih fun k small => ?_
      have next := free (k + 1) (Nat.succ_lt_succ small)
      rwa [← Nat.add_assoc, Nat.add_right_comm] at next
    rw [maskRuns, here, if_neg Bool.false_ne_true, rest]

theorem maskRuns_inside {place : Nat} {xs : List γ} (all : ∀ k < xs.length, covered (place + k) = true)
    (positive : place ≠ 0) (before : covered (place - 1) = true) :
    maskRuns marker covered place xs = [] := by
  induction xs generalizing place with
  | nil => rfl
  | cons x xs ih =>
    have here := all 0 (Nat.succ_pos _)
    rw [Nat.add_zero] at here
    rw [maskRuns, if_pos here, if_pos ⟨positive, before⟩]
    refine ih (fun k small => ?_) (Nat.succ_ne_zero _) here
    have next := all (k + 1) (Nat.succ_lt_succ small)
    rwa [← Nat.add_assoc, Nat.add_right_comm] at next

theorem maskRuns_run {place : Nat} {xs : List γ} (filled : xs ≠ [])
    (all : ∀ k < xs.length, covered (place + k) = true)
    (start : place = 0 ∨ covered (place - 1) = false) :
    maskRuns marker covered place xs = marker := by
  cases xs with
  | nil => exact absurd rfl filled
  | cons x xs =>
    have here := all 0 (Nat.succ_pos _)
    rw [Nat.add_zero] at here
    have first : ¬ (place ≠ 0 ∧ covered (place - 1) = true) := by
      rintro ⟨positive, before⟩
      rcases start with zero | free
      · exact positive zero
      · rw [free] at before
        cases before
    rw [maskRuns, if_pos here, if_neg first,
      maskRuns_inside (fun k small => ?_) (Nat.succ_ne_zero _) here, List.append_nil]
    have next := all (k + 1) (Nat.succ_lt_succ small)
    rwa [← Nat.add_assoc, Nat.add_right_comm] at next

/-- Cutting out separated ranges masks the runs that they cover. -/
theorem cutRanges_eq_maskRuns {text : List γ} {ranges : List (Nat × Nat)} {cursor : Nat}
    (filled : ∀ r ∈ ranges, r.1 < r.2) (apart : ranges.Pairwise fun a b => a.2 < b.1)
    (within : ∀ r ∈ ranges, r.2 ≤ text.length)
    (start : cursor = 0 ∨ ∀ r ∈ ranges, cursor < r.1)
    (spans : ∀ i, cursor ≤ i → (covered i = true ↔ Covers ranges i)) :
    cutRanges marker text cursor ranges = maskRuns marker covered cursor (text.drop cursor) := by
  induction ranges generalizing cursor with
  | nil =>
    rw [cutRanges, maskRuns_kept]
    intro k _
    rw [Bool.eq_false_iff]
    intro here
    obtain ⟨r, mem, -⟩ := (spans (cursor + k) (Nat.le_add_right _ _)).mp here
    exact absurd mem List.not_mem_nil
  | cons r ranges ih =>
    have wide := filled r List.mem_cons_self
    have bounded := within r List.mem_cons_self
    obtain ⟨next, apart⟩ := List.pairwise_cons.mp apart
    have low : cursor ≤ r.1 := by
      rcases start with rfl | later
      · exact Nat.zero_le _
      · exact (later r List.mem_cons_self).le
    have outside : ∀ i, cursor ≤ i → i < r.1 → covered i = false := by
      intro i above below
      rw [Bool.eq_false_iff]
      intro here
      rcases covers_cons.mp ((spans i above).mp here) with inside | ⟨s, mem, first, -⟩
      · omega
      · have gap := next s mem
        omega
    have inside : ∀ i, r.1 ≤ i → i < r.2 → covered i = true := fun i above below =>
      (spans i (low.trans above)).mpr ⟨r, List.mem_cons_self, above, below⟩
    have pieces : text.drop cursor = (text.drop cursor).take (r.1 - cursor) ++
        ((text.drop r.1).take (r.2 - r.1) ++ text.drop r.2) := by
      have second : text.drop r.2 = (text.drop r.1).drop (r.2 - r.1) := by
        rw [List.drop_drop]
        congr 1
        omega
      have first : text.drop r.1 = (text.drop cursor).drop (r.1 - cursor) := by
        rw [List.drop_drop]
        congr 1
        omega
      rw [second, List.take_append_drop, first, List.take_append_drop]
    have keptLength : ((text.drop cursor).take (r.1 - cursor)).length = r.1 - cursor := by
      rw [List.length_take, List.length_drop]
      omega
    have cutLength : ((text.drop r.1).take (r.2 - r.1)).length = r.2 - r.1 := by
      rw [List.length_take, List.length_drop]
      omega
    have kept : maskRuns marker covered cursor ((text.drop cursor).take (r.1 - cursor)) =
        (text.drop cursor).take (r.1 - cursor) := by
      refine maskRuns_kept fun k small => outside _ (Nat.le_add_right _ _) ?_
      omega
    have cut : maskRuns marker covered r.1 ((text.drop r.1).take (r.2 - r.1)) = marker := by
      refine maskRuns_run ?_ (fun k small => inside _ (Nat.le_add_right _ _) (by omega)) ?_
      · refine List.ne_nil_of_length_pos ?_
        omega
      · rcases Nat.eq_zero_or_pos r.1 with zero | positive
        · exact .inl zero
        · rcases start with rfl | later
          · exact .inr (outside _ (by omega) (by omega))
          · have above := later r List.mem_cons_self
            exact .inr (outside _ (by omega) (by omega))
    have rest : cutRanges marker text r.2 ranges = maskRuns marker covered r.2 (text.drop r.2) := by
      refine ih (fun s mem => filled s (List.mem_cons_of_mem _ mem)) apart
        (fun s mem => within s (List.mem_cons_of_mem _ mem)) (.inr next) fun i above => ?_
      rw [spans i (by omega), covers_cons]
      constructor
      · rintro (inside | there)
        · omega
        · exact there
      · exact .inr
    have keptEnd : cursor + (r.1 - cursor) = r.1 := by omega
    have cutEnd : r.1 + (r.2 - r.1) = r.2 := by omega
    rw [cutRanges, pieces, maskRuns_append, maskRuns_append, ← pieces, kept, keptLength, keptEnd, cut,
      cutLength, cutEnd, rest, List.append_assoc]

theorem maskRuns_congr {covered' : Nat → Bool} {place : Nat} {xs : List γ}
    (same : ∀ i < place + xs.length, covered i = covered' i) :
    maskRuns marker covered place xs = maskRuns marker covered' place xs := by
  induction xs generalizing place with
  | nil => rfl
  | cons x xs ih =>
    rw [List.length_cons] at same
    have rest := ih (fun i small => same i (by omega) : ∀ i < place + 1 + xs.length, _)
    rw [maskRuns_cons, maskRuns_cons, rest, same place (by omega), same (place - 1) (by omega)]

/-- What the mask puts in place of one element. -/
def maskWidth (marker : List γ) (covered : Nat → Bool) (place : Nat) : Nat :=
  if covered place then if place ≠ 0 ∧ covered (place - 1) then 0 else marker.length else 1

theorem length_maskRuns_cons (place : Nat) (x : γ) (xs : List γ) :
    (maskRuns marker covered place (x :: xs)).length =
      maskWidth marker covered place + (maskRuns marker covered (place + 1) xs).length := by
  rw [maskRuns_cons, maskWidth]
  split
  · split
    · rw [Nat.zero_add]
    · rw [List.length_append]
  · rw [List.length_cons, Nat.add_comm]

section Wider

variable {covered' : Nat → Bool} (more : ∀ i, covered' i = true → covered i = true)
  (starts : ∀ i, covered i = true → (i = 0 ∨ covered (i - 1) = false) → covered' i = true)

include more starts

/-- A mask that only extends runs is nowhere wider, and it is narrower where it extends one. -/
theorem maskWidth_le (place : Nat) :
    maskWidth marker covered place ≤ maskWidth marker covered' place ∧
      (covered place = true → covered' place = false →
        maskWidth marker covered place < maskWidth marker covered' place) := by
  unfold maskWidth
  cases here : covered place with
  | false =>
    have there : covered' place = false := by
      rw [Bool.eq_false_iff]
      intro there
      rw [more place there] at here
      cases here
    rw [there]
    exact ⟨le_refl _, fun absent => absurd absent Bool.false_ne_true⟩
  | true =>
    by_cases before : place ≠ 0 ∧ covered (place - 1) = true
    · rw [if_pos rfl, if_pos before]
      refine ⟨Nat.zero_le _, fun _ gone => ?_⟩
      rw [gone, if_neg Bool.false_ne_true]
      exact Nat.one_pos
    · have first : place = 0 ∨ covered (place - 1) = false := by
        rcases Nat.eq_zero_or_pos place with zero | positive
        · exact .inl zero
        · refine .inr (Bool.eq_false_iff.mpr fun earlier => before ⟨?_, earlier⟩)
          omega
      have there := starts place here first
      have before' : ¬ (place ≠ 0 ∧ covered' (place - 1) = true) := fun h =>
        before ⟨h.1, more _ h.2⟩
      rw [there, if_pos rfl, if_pos rfl, if_neg before, if_neg before']
      exact ⟨le_refl _, fun _ gone => absurd gone (by decide)⟩

theorem length_maskRuns_le (place : Nat) (xs : List γ) :
    (maskRuns marker covered place xs).length ≤ (maskRuns marker covered' place xs).length ∧
      ((∃ k < xs.length, covered (place + k) = true ∧ covered' (place + k) = false) →
        (maskRuns marker covered place xs).length < (maskRuns marker covered' place xs).length) := by
  induction xs generalizing place with
  | nil => exact ⟨le_refl _, fun ⟨k, small, _⟩ => absurd small (Nat.not_lt_zero k)⟩
  | cons x xs ih =>
    obtain ⟨width, narrower⟩ : maskWidth marker covered place ≤ maskWidth marker covered' place ∧ _ :=
      maskWidth_le more starts place
    obtain ⟨rest, shorter⟩ := ih (place + 1)
    rw [length_maskRuns_cons, length_maskRuns_cons]
    refine ⟨Nat.add_le_add width rest, ?_⟩
    rintro ⟨k, small, here, gone⟩
    cases k with
    | zero =>
      have less := narrower here gone
      omega
    | succ k =>
      have less := shorter ⟨k, Nat.lt_of_succ_lt_succ small,
        by rwa [Nat.add_assoc, Nat.add_comm 1], by rwa [Nat.add_assoc, Nat.add_comm 1]⟩
      omega

/-- Two masks of which one extends the runs of the other agree only where they cover the same. -/
theorem maskRuns_eq_iff (xs : List γ) :
    maskRuns marker covered 0 xs = maskRuns marker covered' 0 xs ↔
      ∀ i < xs.length, covered i = true → covered' i = true := by
  constructor
  · intro same i small here
    by_contra gone
    have shorter : (maskRuns marker covered 0 xs).length < (maskRuns marker covered' 0 xs).length :=
      (length_maskRuns_le more starts 0 xs).2
        ⟨i, small, by rwa [Nat.zero_add], by rw [Nat.zero_add]; exact Bool.eq_false_iff.mpr gone⟩
    rw [same] at shorter
    exact absurd shorter (Nat.lt_irrefl _)
  · intro all
    refine maskRuns_congr fun i small => ?_
    rw [Nat.zero_add] at small
    cases here : covered i with
    | true => exact (all i small here).symm
    | false =>
      symm
      rw [Bool.eq_false_iff]
      intro there
      rw [more i there] at here
      cases here

end Wider

end Mask

end IntervalUnion
