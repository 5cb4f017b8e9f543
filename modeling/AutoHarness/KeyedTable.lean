import Mathlib.Data.List.Nodup

/-- The rows of a table under a unique key. The order of the rows carries no meaning. -/
structure KeyedTable {κ ρ : Type*} (key : ρ → κ) where
  rows : List ρ
  distinct : (rows.map key).Nodup

namespace KeyedTable

variable {κ ρ : Type*} {key : ρ → κ} {t u : KeyedTable key} {row other : ρ} {k : κ}

instance : Membership ρ (KeyedTable key) := ⟨fun t row => row ∈ t.rows⟩

theorem mem_rows : row ∈ t.rows ↔ row ∈ t := Iff.rfl

def empty : KeyedTable key := ⟨[], List.nodup_nil⟩

@[simp] theorem not_mem_empty : row ∉ (empty : KeyedTable key) := List.not_mem_nil

theorem eq_of_key (hr : row ∈ t) (ho : other ∈ t) (same : key row = key other) : row = other :=
  List.inj_on_of_nodup_map t.distinct hr ho same

section Lookup

variable [DecidableEq κ]

def find? (t : KeyedTable key) (k : κ) : Option ρ :=
  t.rows.find? fun row => key row = k

theorem find?_eq_some_iff : t.find? k = some row ↔ row ∈ t ∧ key row = k := by
  constructor
  · intro found
    exact ⟨List.mem_of_find?_eq_some found, by simpa using List.find?_some found⟩
  · rintro ⟨hm, rfl⟩
    cases found : t.find? (key row) with
    | none =>
      have absent := List.find?_eq_none.mp found row hm
      simp at absent
    | some other =>
      have ho : other ∈ t := List.mem_of_find?_eq_some found
      have same : key other = key row := by simpa using List.find?_some found
      rw [eq_of_key ho hm same]

theorem find?_eq_none_iff : t.find? k = none ↔ ∀ row ∈ t, key row ≠ k := by
  simp [find?, mem_rows]

/-- Insertion of one row; a row of the same key makes it fail. -/
def insert? (t : KeyedTable key) (row : ρ) : Option (KeyedTable key) :=
  if fresh : key row ∉ t.rows.map key then
    some ⟨t.rows ++ [row], by
      rw [List.map_append]
      exact List.Nodup.append t.distinct (by simp) (by simpa using fresh)⟩
  else none

theorem insert?_eq_some (h : t.insert? row = some u) :
    (∀ r, r ∈ u ↔ r ∈ t ∨ r = row) ∧ ∀ r ∈ t, key r ≠ key row := by
  unfold insert? at h
  split at h
  next fresh =>
    cases Option.some.inj h
    refine ⟨fun r => by simp [← mem_rows], fun r hr same => fresh ?_⟩
    exact List.mem_map.mpr ⟨r, hr, same⟩
  next => cases h

theorem rows_of_insert? (h : t.insert? row = some u) : u.rows = t.rows ++ [row] := by
  unfold insert? at h
  split at h
  next => cases Option.some.inj h; rfl
  next => cases h

theorem insert?_of_fresh (fresh : ∀ r ∈ t, key r ≠ key row) : ∃ u, t.insert? row = some u := by
  apply Option.isSome_iff_exists.mp
  unfold insert?
  rw [dif_pos]
  · rfl
  · intro taken
    obtain ⟨r, hr, same⟩ := List.mem_map.mp taken
    exact fresh r hr same

end Lookup

/-- A change of rows that keeps their keys. -/
structure RowMap {κ ρ : Type*} (key : ρ → κ) where
  apply : ρ → ρ
  keeps : ∀ row, key (apply row) = key row

/-- Several columns of one statement. -/
def RowMap.comp (g f : RowMap key) : RowMap key :=
  ⟨g.apply ∘ f.apply, fun row => (g.keeps _).trans (f.keeps row)⟩

/-- What an update does to one row. -/
def alter (p : ρ → Bool) (f : RowMap key) (row : ρ) : ρ :=
  if p row then f.apply row else row

theorem alter_congr {α : Type*} {φ : ρ → α} {p : ρ → Bool} {f : RowMap key}
    (same : ∀ row, φ (f.apply row) = φ row) (row : ρ) : φ (alter p f row) = φ row := by
  unfold alter
  split
  · exact same row
  · rfl

/-- `UPDATE … SET … WHERE`: the rows the condition selects change, their keys do not. -/
def update (t : KeyedTable key) (p : ρ → Bool) (f : RowMap key) : KeyedTable key :=
  ⟨t.rows.map (alter p f), by
    have same : key ∘ alter p f = key := funext (alter_congr f.keeps)
    rw [List.map_map, same]
    exact t.distinct⟩

/-- `DELETE … WHERE`. -/
def delete (t : KeyedTable key) (p : ρ → Bool) : KeyedTable key :=
  ⟨t.rows.filter fun row => !p row, t.distinct.sublist (List.filter_sublist.map key)⟩

@[simp] theorem mem_delete {p : ρ → Bool} : row ∈ t.delete p ↔ row ∈ t ∧ p row = false := by
  simp [← mem_rows, delete]

theorem ext_rows (h : t.rows = u.rows) : t = u := by
  cases t
  cases u
  cases h
  rfl

theorem delete_congr {p q : ρ → Bool} (h : ∀ row ∈ t, p row = q row) : t.delete p = t.delete q := by
  refine ext_rows (List.filter_congr fun row hr => ?_)
  rw [h row hr]

theorem delete_delete {p q : ρ → Bool} :
    (t.delete p).delete q = t.delete fun row => p row || q row := by
  refine ext_rows ?_
  simp only [delete, List.filter_filter, Bool.not_or]
  exact List.filter_congr fun row _ => Bool.and_comm _ _

theorem delete_false : t.delete (fun _ => false) = t := by
  refine ext_rows ?_
  simp [delete]

/-- `SELECT … WHERE`. -/
def select (t : KeyedTable key) (p : ρ → Bool) : List ρ :=
  t.rows.filter p

@[simp] theorem mem_select {p : ρ → Bool} : row ∈ t.select p ↔ row ∈ t ∧ p row = true := by
  simp [← mem_rows, select]

theorem distinct_select (t : KeyedTable key) (p : ρ → Bool) : ((t.select p).map key).Nodup :=
  t.distinct.sublist (List.filter_sublist.map key)

theorem rows_nodup (t : KeyedTable key) : t.rows.Nodup := List.Nodup.of_map key t.distinct

/-- A condition that singles out one key selects the row of that key alone. -/
theorem select_eq_singleton {p : ρ → Bool} (hr : row ∈ t) (hp : p row = true)
    (only : ∀ r ∈ t, p r = true → key r = key row) : t.select p = [row] := by
  have all : ∀ r ∈ t.select p, r = row := by
    intro r hs
    obtain ⟨hm, selected⟩ := mem_select.mp hs
    exact eq_of_key hm hr (only r hm selected)
  have present : row ∈ t.select p := mem_select.mpr ⟨hr, hp⟩
  have nodup : (t.select p).Nodup := t.rows_nodup.filter p
  cases selected : t.select p with
  | nil => simp [selected] at present
  | cons r rest =>
    rw [selected] at all nodup
    have first := all r (by simp)
    cases rest with
    | nil => rw [first]
    | cons q rest =>
      have second := all q (by simp)
      simp [first, second] at nodup

section Update

variable {α : Type*} {φ : ρ → α} {a : α} {p : ρ → Bool} {f : RowMap key}

theorem mem_update : row ∈ t.update p f ↔ ∃ r ∈ t, alter p f r = row :=
  List.mem_map

theorem alter_mem_update (hr : row ∈ t) : alter p f row ∈ t.update p f :=
  mem_update.mpr ⟨row, hr, rfl⟩

theorem find?_update [DecidableEq κ] {k : κ} :
    (t.update p f).find? k = (t.find? k).map (alter p f) := by
  have same : ((fun row => decide (key row = k)) ∘ alter p f) = fun row => decide (key row = k) := by
    funext row
    simp [alter_congr f.keeps]
  simp only [find?, update, List.find?_map]
  rw [same]

/-- A column that the update keeps takes the same values. -/
theorem forall_mem_update {P : α → Prop} (same : ∀ row, φ (f.apply row) = φ row) :
    (∀ row ∈ t.update p f, P (φ row)) ↔ ∀ row ∈ t, P (φ row) := by
  constructor
  · intro h row hr
    have hp := h _ (alter_mem_update hr)
    rwa [alter_congr same] at hp
  · intro h row hu
    obtain ⟨r, hr, rfl⟩ := mem_update.mp hu
    rw [alter_congr same]
    exact h r hr

theorem exists_mem_update {P : α → Prop} (same : ∀ row, φ (f.apply row) = φ row) :
    (∃ row ∈ t.update p f, P (φ row)) ↔ ∃ row ∈ t, P (φ row) := by
  constructor
  · rintro ⟨row, hu, hp⟩
    obtain ⟨r, hr, rfl⟩ := mem_update.mp hu
    rw [alter_congr same] at hp
    exact ⟨r, hr, hp⟩
  · rintro ⟨row, hr, hp⟩
    exact ⟨_, alter_mem_update hr, by rwa [alter_congr same]⟩

/-- An update that selects rows of one group only leaves the others alone. -/
theorem mem_update_of_ne (only : ∀ row ∈ t, p row = true → φ row = a)
    (same : ∀ row, φ (f.apply row) = φ row) (other : φ row ≠ a) :
    row ∈ t.update p f ↔ row ∈ t := by
  have kept : ∀ r ∈ t, φ r ≠ a → alter p f r = r := by
    intro r hr different
    exact if_neg fun selected => different (only r hr selected)
  constructor
  · intro h
    obtain ⟨r, hr, rfl⟩ := mem_update.mp h
    rw [alter_congr same] at other
    rwa [kept r hr other]
  · intro hr
    exact mem_update.mpr ⟨row, hr, kept row hr other⟩

theorem mem_delete_of_ne (only : ∀ row ∈ t, p row = true → φ row = a) (other : φ row ≠ a) :
    row ∈ t.delete p ↔ row ∈ t := by
  rw [mem_delete]
  refine ⟨And.left, fun hr => ⟨hr, ?_⟩⟩
  exact Bool.eq_false_iff.mpr fun selected => other (only row hr selected)

end Update

end KeyedTable
