import Mathlib.Data.List.Basic

/-- One replacement inside a list. -/
structure ListSplice (α : Type*) where
  start : Nat
  deleteCount : Nat
  items : List α

namespace ListSplice

variable {α β : Type*} {xs ys : List α} {splice : ListSplice α}

def apply (splice : ListSplice α) (xs : List α) : List α :=
  xs.take splice.start ++ splice.items ++ xs.drop (splice.start + splice.deleteCount)

/-- The entries that a splice takes out. -/
def removed (splice : ListSplice α) (xs : List α) : List α :=
  (xs.drop splice.start).take splice.deleteCount

theorem decompose (splice : ListSplice α) (xs : List α) :
    xs = xs.take splice.start ++ splice.removed xs ++ xs.drop (splice.start + splice.deleteCount) := by
  have cut : xs.drop splice.start = splice.removed xs ++ xs.drop (splice.start + splice.deleteCount) := by
    rw [removed, ← List.drop_drop, List.take_append_drop]
  rw [List.append_assoc, ← cut, List.take_append_drop]

/-- A splice acts on the images of a list as its image does. -/
def map (f : α → β) (splice : ListSplice α) : ListSplice β :=
  ⟨splice.start, splice.deleteCount, splice.items.map f⟩

theorem apply_map (f : α → β) : (splice.map f).apply (xs.map f) = (splice.apply xs).map f := by
  simp [apply, map, List.map_take, List.map_drop]

/-- Equal pairs of two zipped lists are equal pieces of both. -/
theorem take_eq_of_zip {n : Nat} (equal : ∀ pair ∈ (xs.zip ys).take n, pair.1 = pair.2)
    (hx : n ≤ xs.length) (hy : n ≤ ys.length) : xs.take n = ys.take n := by
  induction n generalizing xs ys with
  | zero => simp
  | succ n ih =>
    cases xs with
    | nil => simp at hx
    | cons x xs =>
      cases ys with
      | nil => simp at hy
      | cons y ys =>
        simp only [List.length_cons] at hx hy
        have head : x = y := equal (x, y) (by simp)
        have tail : xs.take n = ys.take n :=
          ih (fun pair hp => equal pair (by simp [hp])) (by omega) (by omega)
        rw [List.take_succ_cons, List.take_succ_cons, head, tail]

variable [DecidableEq α]

def commonPrefix (xs ys : List α) : Nat :=
  ((xs.zip ys).takeWhile fun pair => pair.1 = pair.2).length

/-- The number of final positions where two lists agree, at most `limit` of them. -/
def commonSuffix (limit : Nat) (xs ys : List α) : Nat :=
  (((xs.reverse.zip ys.reverse).take limit).takeWhile fun pair => pair.1 = pair.2).length

def between (previous next : List α) : ListSplice α :=
  let pre := commonPrefix previous next
  let suffix := commonSuffix (min previous.length next.length - pre) previous next
  ⟨pre, previous.length - suffix - pre, (next.take (next.length - suffix)).drop pre⟩

theorem commonPrefix_le (xs ys : List α) : commonPrefix xs ys ≤ min xs.length ys.length := by
  have short : commonPrefix xs ys ≤ (xs.zip ys).length := (List.takeWhile_sublist _).length_le
  rwa [List.length_zip] at short

theorem takeWhile_length_equal {pairs : List (α × α)} :
    ∀ pair ∈ pairs.take (pairs.takeWhile fun pair => pair.1 = pair.2).length, pair.1 = pair.2 := by
  intro pair hp
  have same : pairs.take (pairs.takeWhile fun pair => pair.1 = pair.2).length =
      pairs.takeWhile fun pair => pair.1 = pair.2 :=
    (List.prefix_iff_eq_take.mp (List.takeWhile_prefix _)).symm
  rw [same] at hp
  exact of_decide_eq_true (List.all_eq_true.mp List.all_takeWhile pair hp)

theorem take_commonPrefix (xs ys : List α) :
    xs.take (commonPrefix xs ys) = ys.take (commonPrefix xs ys) := by
  have bound := commonPrefix_le xs ys
  exact take_eq_of_zip takeWhile_length_equal (by omega) (by omega)

theorem commonSuffix_le (limit : Nat) (xs ys : List α) :
    commonSuffix limit xs ys ≤ limit ∧ commonSuffix limit xs ys ≤ min xs.length ys.length := by
  have short : commonSuffix limit xs ys ≤ ((xs.reverse.zip ys.reverse).take limit).length :=
    (List.takeWhile_sublist _).length_le
  rw [List.length_take, List.length_zip, List.length_reverse, List.length_reverse] at short
  omega

theorem drop_commonSuffix (limit : Nat) (xs ys : List α) :
    xs.drop (xs.length - commonSuffix limit xs ys) = ys.drop (ys.length - commonSuffix limit xs ys) := by
  obtain ⟨low, high⟩ := commonSuffix_le limit xs ys
  have equal : xs.reverse.take (commonSuffix limit xs ys) =
      ys.reverse.take (commonSuffix limit xs ys) := by
    refine take_eq_of_zip (fun pair hp => ?_) (by rw [List.length_reverse]; omega)
      (by rw [List.length_reverse]; omega)
    have cut : pair ∈ ((xs.reverse.zip ys.reverse).take limit).take (commonSuffix limit xs ys) := by
      rw [List.take_take]
      exact (Nat.min_eq_left low).symm ▸ hp
    exact takeWhile_length_equal pair cut
  rw [List.take_reverse, List.take_reverse] at equal
  exact List.reverse_injective equal

theorem between_fits (xs ys : List α) :
    (between xs ys).start + (between xs ys).deleteCount ≤ xs.length := by
  have bound := commonPrefix_le xs ys
  simp only [between]
  omega

/-- A splice between two lists turns the first into the second. -/
theorem apply_between (xs ys : List α) : (between xs ys).apply xs = ys := by
  have pre := commonPrefix_le xs ys
  have suf := commonSuffix_le (min xs.length ys.length - commonPrefix xs ys) xs ys
  have front := take_commonPrefix xs ys
  have back := drop_commonSuffix (min xs.length ys.length - commonPrefix xs ys) xs ys
  simp only [between, apply]
  generalize commonPrefix xs ys = p at *
  generalize commonSuffix (min xs.length ys.length - p) xs ys = s at *
  have rest : p + (xs.length - s - p) = xs.length - s := by omega
  have middle : ys.take p ++ (ys.take (ys.length - s)).drop p = ys.take (ys.length - s) := by
    have cut : ys.take p = (ys.take (ys.length - s)).take p := by
      rw [List.take_take, Nat.min_eq_left (by omega)]
    rw [cut, List.take_append_drop]
  rw [rest, front, back, middle, List.take_append_drop]

theorem length_between_items (xs ys : List α) : (between xs ys).items.length ≤ ys.length := by
  simp only [between, List.length_drop, List.length_take]
  omega

end ListSplice
