import Mathlib.Data.Finmap

namespace IndexedList

section Positions

variable {α β : Type*}

theorem getElem?_set_cases {xs : List α} {i j : Nat} {x y : α} (h : (xs.set i y)[j]? = some x) :
    (j = i ∧ x = y) ∨ (j ≠ i ∧ xs[j]? = some x) := by
  by_cases hj : i = j
  · subst hj
    rw [List.getElem?_set_self'] at h
    obtain ⟨_, _, rfl⟩ := Option.map_eq_some_iff.mp h
    exact .inl ⟨rfl, rfl⟩
  · rw [List.getElem?_set_ne hj] at h
    exact .inr ⟨Ne.symm hj, h⟩

theorem mem_set_cases {xs : List α} {i : Nat} {x y : α} (h : x ∈ xs.set i y) :
    x = y ∨ ∃ j, j ≠ i ∧ xs[j]? = some x := by
  obtain ⟨j, hj⟩ := List.mem_iff_getElem?.mp h
  rcases getElem?_set_cases hj with ⟨_, hx⟩ | ⟨hne, hx⟩
  · exact .inl hx
  · exact .inr ⟨j, hne, hx⟩

theorem getElem?_concat_cases {xs : List α} {j : Nat} {x y : α} (h : (xs ++ [y])[j]? = some x) :
    (j = xs.length ∧ x = y) ∨ xs[j]? = some x := by
  rcases lt_or_ge j xs.length with hlt | hge
  · rw [List.getElem?_append_left hlt] at h
    exact .inr h
  · rw [List.getElem?_append_right hge] at h
    have hb := (List.getElem?_eq_some_iff.mp h).1
    have hj : j = xs.length := by simp only [List.length_singleton] at hb; omega
    subst hj
    exact .inl ⟨rfl, by simpa using h.symm⟩

theorem getElem?_concat_of_some {xs : List α} {j : Nat} {x y : α} (h : xs[j]? = some x) :
    (xs ++ [y])[j]? = some x := by
  rw [List.getElem?_append_left (List.getElem?_eq_some_iff.mp h).1]
  exact h

theorem map_set_of_eq {f : α → β} {xs : List α} {i : Nat} {x y : α} (hx : xs[i]? = some x)
    (hf : f y = f x) : (xs.set i y).map f = xs.map f := by
  apply List.ext_getElem?
  intro j
  simp only [List.getElem?_map]
  by_cases hj : i = j
  · subst hj
    rw [List.getElem?_set_self (List.getElem?_eq_some_iff.mp hx).1, hx]
    simp [hf]
  · rw [List.getElem?_set_ne hj]

/-- Extending the contribution of one entry adds the same element to the whole, in some order. -/
theorem flatMap_set_perm {f : α → List β} {xs : List α} {i : Nat} {x y : α} {z : β}
    (hx : xs[i]? = some x) (hf : f y = f x ++ [z]) :
    (xs.set i y).flatMap f |>.Perm (z :: xs.flatMap f) := by
  induction xs generalizing i with
  | nil => simp at hx
  | cons w ws ih =>
    cases i with
    | zero =>
      simp only [List.getElem?_cons_zero, Option.some.injEq] at hx
      subst w
      simp only [List.set_cons_zero, List.flatMap_cons, hf, List.append_assoc, List.singleton_append]
      exact List.perm_middle
    | succ i =>
      simp only [List.getElem?_cons_succ] at hx
      simp only [List.set_cons_succ, List.flatMap_cons]
      exact ((ih hx).append_left (f w)).trans List.perm_middle

theorem filter_set_of_false {p : α → Bool} {xs : List α} {i : Nat} {x y : α}
    (hx : xs[i]? = some x) (old : p x = false) (new : p y = false) :
    (xs.set i y).filter p = xs.filter p := by
  induction xs generalizing i with
  | nil => simp at hx
  | cons z zs ih =>
    cases i with
    | zero =>
      simp only [List.getElem?_cons_zero, Option.some.injEq] at hx
      subst z
      simp [old, new]
    | succ i =>
      simp only [List.getElem?_cons_succ] at hx
      simp only [List.set_cons_succ, List.filter_cons, ih hx]

/-- A keyed search sees the replacement of the first entry under its key and nothing else. -/
theorem find?_set_of_findIdx? {κ : Type*} [DecidableEq κ] {key : α → κ} {xs : List α} {i : Nat}
    {k : κ} {y : α} (hi : xs.findIdx? (fun x => key x == k) = some i) (hy : key y = k) (l : κ) :
    (xs.set i y).find? (fun x => key x == l) =
      if l = k then some y else xs.find? fun x => key x == l := by
  induction xs generalizing i with
  | nil => simp at hi
  | cons x xs ih =>
    rw [List.findIdx?_cons] at hi
    by_cases hx : key x = k
    · simp only [hx, beq_self_eq_true, if_true, Option.some.injEq] at hi
      subst hi
      by_cases hl : l = k
      · simp [hl, hy]
      · simp [hx, hy, hl, Ne.symm hl]
    · simp only [hx, beq_iff_eq, if_false, Option.map_eq_some_iff] at hi
      obtain ⟨j, hj, rfl⟩ := hi
      by_cases hl : key x = l
      · have apart : l ≠ k := hl ▸ hx
        simp [hl, apart]
      · simp [hl, ih hj]

end Positions

variable {α κ : Type*} [DecidableEq κ] {key : α → κ}

/-- A position cache for a list whose entries carry a key. -/
abbrev Index (κ : Type*) := Finmap (fun _ : κ => Nat)

/-- Look an entry up through its cached position. -/
def find? (xs : List α) (index : Index κ) (k : κ) : Option α :=
  (index.lookup k).bind fun i => xs[i]?

/-- The cache maps exactly the keys of the list to the positions that carry them. -/
def Indexes (key : α → κ) (xs : List α) (index : Index κ) : Prop :=
  ∀ k i, index.lookup k = some i ↔ ∃ x, xs[i]? = some x ∧ key x = k

theorem indexes_nil : Indexes key [] (∅ : Index κ) := by
  intro k i
  simp

theorem Indexes.lookup_key {xs : List α} {index : Index κ} (h : Indexes key xs index)
    {i : Nat} {x : α} (hx : xs[i]? = some x) : index.lookup (key x) = some i :=
  (h (key x) i).mpr ⟨x, hx, rfl⟩

/-- Two positions with one key are the same position. -/
theorem Indexes.position_unique {xs : List α} {index : Index κ} (h : Indexes key xs index)
    {i j : Nat} {x y : α} (hx : xs[i]? = some x) (hy : xs[j]? = some y) (hk : key x = key y) :
    i = j := by
  have hi := h.lookup_key hx
  rw [hk, h.lookup_key hy] at hi
  exact (Option.some.inj hi).symm

theorem Indexes.nodup_keys {xs : List α} {index : Index κ} (h : Indexes key xs index) :
    (xs.map key).Nodup := by
  rw [List.nodup_iff_getElem?_ne_getElem?]
  intro i j hij hj same
  rw [List.length_map] at hj
  have hx := List.getElem?_eq_getElem (hij.trans hj)
  have hy := List.getElem?_eq_getElem hj
  rw [List.getElem?_map, List.getElem?_map, hx, hy, Option.map_some, Option.map_some,
    Option.some.injEq] at same
  exact hij.ne (h.position_unique hx hy same)

theorem Indexes.find?_eq_some_iff {xs : List α} {index : Index κ} (h : Indexes key xs index)
    {k : κ} {x : α} : find? xs index k = some x ↔ x ∈ xs ∧ key x = k := by
  constructor
  · intro hf
    obtain ⟨i, hi, hx⟩ := Option.bind_eq_some_iff.mp hf
    obtain ⟨y, hy, hk⟩ := (h k i).mp hi
    cases Option.some.inj (hx.symm.trans hy)
    exact ⟨List.mem_of_getElem? hx, hk⟩
  · rintro ⟨hm, rfl⟩
    obtain ⟨i, hi⟩ := List.mem_iff_getElem?.mp hm
    exact Option.bind_eq_some_iff.mpr ⟨i, h.lookup_key hi, hi⟩

theorem Indexes.find?_key {xs : List α} {index : Index κ} (h : Indexes key xs index)
    {k : κ} {x : α} (hf : find? xs index k = some x) : key x = k :=
  (h.find?_eq_some_iff.mp hf).2

theorem Indexes.not_mem_iff {xs : List α} {index : Index κ} (h : Indexes key xs index) {k : κ} :
    k ∉ index ↔ ∀ x ∈ xs, key x ≠ k := by
  rw [← Finmap.lookup_eq_none, ← not_iff_not, ← Ne.eq_def, Option.ne_none_iff_exists']
  constructor
  · rintro ⟨i, hi⟩ hall
    obtain ⟨x, hx, hk⟩ := (h k i).mp hi
    exact hall x (List.mem_of_getElem? hx) hk
  · intro hn
    push Not at hn
    obtain ⟨x, hx, rfl⟩ := hn
    obtain ⟨i, hi⟩ := List.mem_iff_getElem?.mp hx
    exact ⟨i, h.lookup_key hi⟩

/-- Pushing an entry under a fresh key and caching its position keeps the cache exact. -/
theorem Indexes.concat {xs : List α} {index : Index κ} (h : Indexes key xs index)
    {x : α} (fresh : key x ∉ index) :
    Indexes key (xs ++ [x]) (index.insert (key x) xs.length) := by
  have absent := h.not_mem_iff.mp fresh
  intro k i
  by_cases hk : k = key x
  · subst hk
    rw [Finmap.lookup_insert]
    constructor
    · intro hi
      cases Option.some.inj hi
      exact ⟨x, by simp, rfl⟩
    · rintro ⟨y, hy, he⟩
      rcases getElem?_concat_cases hy with ⟨rfl, -⟩ | hy
      · rfl
      · exact absurd he (absent y (List.mem_of_getElem? hy))
  · rw [Finmap.lookup_insert_of_ne _ hk, h k i]
    constructor
    · rintro ⟨y, hy, he⟩
      exact ⟨y, getElem?_concat_of_some hy, he⟩
    · rintro ⟨y, hy, he⟩
      rcases getElem?_concat_cases hy with ⟨-, rfl⟩ | hy
      · exact absurd he.symm hk
      · exact ⟨y, hy, he⟩

/-- Replacing an entry by one with the same key leaves the cache exact. -/
theorem Indexes.set {xs : List α} {index : Index κ} (h : Indexes key xs index)
    {i : Nat} {x y : α} (hx : xs[i]? = some x) (hk : key y = key x) :
    Indexes key (xs.set i y) index := by
  intro k j
  rw [h k j]
  have hlt := (List.getElem?_eq_some_iff.mp hx).1
  by_cases hj : i = j
  · subst hj
    simp only [List.getElem?_set_self hlt, hx, Option.some.injEq, exists_eq_left', hk]
  · rw [List.getElem?_set_ne hj]

theorem find?_set_self {xs : List α} {index : Index κ} {i : Nat} {k : κ} {x y : α}
    (hi : index.lookup k = some i) (hx : xs[i]? = some x) :
    find? (xs.set i y) index k = some y := by
  have hlt := (List.getElem?_eq_some_iff.mp hx).1
  simp [find?, hi, hlt]

/-- An update at one key is invisible at every other key. -/
theorem Indexes.find?_set_ne {xs : List α} {index : Index κ} (h : Indexes key xs index)
    {i : Nat} {k l : κ} {y : α} (hi : index.lookup k = some i) (hne : l ≠ k) :
    find? (xs.set i y) index l = find? xs index l := by
  unfold find?
  cases hl : index.lookup l with
  | none => rfl
  | some j =>
    have hij : i ≠ j := by
      rintro rfl
      obtain ⟨x, hx, hxk⟩ := (h k i).mp hi
      obtain ⟨z, hz, hzl⟩ := (h l i).mp hl
      cases Option.some.inj (hx.symm.trans hz)
      exact hne (hzl.symm.trans hxk)
    simp only [Option.bind_some, List.getElem?_set_ne hij]

theorem find?_concat_self (xs : List α) (index : Index κ) (k : κ) (y : α) :
    find? (xs ++ [y]) (index.insert k xs.length) k = some y := by
  simp [find?]

/-- A new entry is invisible at every key but its own. -/
theorem Indexes.find?_concat_ne {xs : List α} {index : Index κ} (h : Indexes key xs index)
    {k l : κ} (y : α) (hne : l ≠ k) :
    find? (xs ++ [y]) (index.insert k xs.length) l = find? xs index l := by
  unfold find?
  rw [Finmap.lookup_insert_of_ne _ hne]
  cases hl : index.lookup l with
  | none => rfl
  | some i =>
    obtain ⟨x, hx, -⟩ := (h l i).mp hl
    simp only [Option.bind_some, hx, getElem?_concat_of_some hx]

end IndexedList
