import Mathlib.Data.List.Forall2

/-! Rows that are kept in step with a list of distinct keys. -/

namespace KeyedRows

variable {κ ρ ι : Type*} {Shows Shows' : κ → ρ → Prop} {keys : List κ} {rows : List ρ}

theorem forall₂_concat (h : List.Forall₂ Shows keys rows) {k : κ} {r : ρ} (new : Shows k r) :
    List.Forall₂ Shows (keys ++ [k]) (rows ++ [r]) := by
  induction h with
  | nil => exact .cons new .nil
  | cons head _ ih => exact .cons head ih

theorem forall₂_mem_imp (h : List.Forall₂ Shows keys rows)
    (step : ∀ k ∈ keys, ∀ r, Shows k r → Shows' k r) : List.Forall₂ Shows' keys rows := by
  induction h with
  | nil => exact .nil
  | cons head _ ih =>
    refine .cons (step _ List.mem_cons_self _ head) (ih ?_)
    exact fun k listed => step k (List.mem_cons_of_mem _ listed)

/-- Changing the row of one key is enough when only the demands on that key change. -/
theorem forall₂_modify (h : List.Forall₂ Shows keys rows) (distinct : keys.Nodup) {i : Nat} {k : κ}
    (position : keys[i]? = some k) {change : ρ → ρ}
    (own : ∀ r, Shows k r → Shows' k (change r))
    (others : ∀ l, l ≠ k → ∀ r, Shows l r → Shows' l r) :
    List.Forall₂ Shows' keys (rows.modify i change) := by
  induction h generalizing i with
  | nil => simp at position
  | @cons l r ls rs head tail ih =>
    rw [List.nodup_cons] at distinct
    cases i with
    | zero =>
      have same : l = k := Option.some.inj position
      subst same
      rw [List.modify_zero_cons]
      refine .cons (own _ head) (forall₂_mem_imp tail ?_)
      intro m listed
      have apart : m ≠ l := by
        rintro rfl
        exact distinct.1 listed
      exact others m apart
    | succ i =>
      have later : k ∈ ls := List.mem_of_getElem? position
      have apart : l ≠ k := by
        rintro rfl
        exact distinct.1 later
      rw [List.modify_succ_cons]
      exact .cons (others l apart _ head) (ih distinct.2 position)

/-- Both lists change at once: one side row by row, the other at one place. -/
theorem forall₂_map_set (h : List.Forall₂ Shows keys rows) {g : κ → κ} {i : Nat} {changed : ρ}
    (own : ∀ k r, rows[i]? = some r → Shows k r → Shows' (g k) changed)
    (others : ∀ j k r, j ≠ i → rows[j]? = some r → Shows k r → Shows' (g k) r) :
    List.Forall₂ Shows' (keys.map g) (rows.set i changed) := by
  induction h generalizing i with
  | nil => exact .nil
  | @cons k r ks rs head tail ih =>
    cases i with
    | zero =>
      refine .cons (own k r rfl head) ?_
      rw [List.forall₂_map_left_iff]
      refine List.forall₂_iff_get.mpr ⟨tail.length_eq, fun j hk hr => ?_⟩
      have shown := List.forall₂_iff_get.mp tail |>.2 j hk hr
      exact others (j + 1) _ _ (Nat.succ_ne_zero j) (List.getElem?_eq_getElem hr) shown
    | succ i =>
      refine .cons (others 0 k r (Nat.zero_ne_add_one i) rfl head) (ih own fun j k r apart => ?_)
      exact others (j + 1) k r fun same => apart (Nat.succ.inj same)

theorem getElem?_concat_iff {keys : List κ} {k l : κ} {i : Nat} :
    (keys ++ [k])[i]? = some l ↔ keys[i]? = some l ∨ (i = keys.length ∧ k = l) := by
  rcases Nat.lt_trichotomy i keys.length with lower | rfl | above
  · rw [List.getElem?_append_left lower]
    simp [Nat.ne_of_lt lower]
  · simp
  · have beyond : (keys ++ [k])[i]? = none := by
      rw [List.getElem?_eq_none_iff, List.length_append, List.length_singleton]
      omega
    have outside : i ≠ keys.length := by omega
    rw [beyond, List.getElem?_eq_none (Nat.le_of_lt above)]
    simp [outside]

section Positions

variable [DecidableEq ι]

/-- The position of the last entry that was opened under a name. -/
def position (entries : List (ι × Nat)) (name : ι) : Option Nat :=
  (entries.reverse.find? fun entry => entry.1 == name).map Prod.snd

theorem position_concat (entries : List (ι × Nat)) (name other : ι) (i : Nat) :
    position (entries ++ [(name, i)]) other =
      if name = other then some i else position entries other := by
  unfold position
  rw [List.reverse_append, List.reverse_singleton, List.singleton_append, List.find?_cons]
  by_cases same : name = other
  · simp [same]
  · have apart : (name == other) = false := by simp [same]
    rw [apart, if_neg same]

/-- The entries know the places of all keys that carry a name, and of no others. -/
def Located (entries : List (ι × Nat)) (keys : List κ) (key : ι → κ) : Prop :=
  ∀ name i, position entries name = some i ↔ keys[i]? = some (key name)

variable {entries : List (ι × Nat)} {key : ι → κ}

theorem Located.other (h : Located entries keys key) {k : κ} (other : ∀ name, k ≠ key name) :
    Located entries (keys ++ [k]) key := by
  intro name i
  rw [getElem?_concat_iff, h name i]
  simp [other name]

theorem Located.own (h : Located entries keys key) (injective : Function.Injective key)
    {name : ι} (fresh : key name ∉ keys) :
    Located (entries ++ [(name, keys.length)]) (keys ++ [key name]) key := by
  intro other i
  rw [getElem?_concat_iff, position_concat]
  by_cases same : name = other
  · rw [if_pos same, ← same]
    constructor
    · intro here
      exact .inr ⟨(Option.some.inj here).symm, rfl⟩
    · rintro (earlier | ⟨rfl, -⟩)
      · exact absurd (List.mem_of_getElem? earlier) fresh
      · rfl
  · rw [if_neg same, h other i]
    simp [injective.eq_iff, same]

end Positions

end KeyedRows
