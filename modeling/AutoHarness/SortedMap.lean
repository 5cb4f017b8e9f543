import Mathlib.Data.List.Nodup
import Mathlib.Data.List.Perm.Basic
import Mathlib.Order.Compare
import Mathlib.Order.Lattice

/-- Entries in strictly increasing order of their keys, as an ordered map iterates them. -/
structure SortedMap (κ β : Type*) [LT κ] where
  entries : List (κ × β)
  sorted : entries.Pairwise fun a b => a.1 < b.1

namespace SortedMap

variable {α κ β : Type*} [LinearOrder κ]

def empty : SortedMap κ β := ⟨[], .nil⟩

def find? (m : SortedMap κ β) (k : κ) : Option β :=
  m.entries.lookup k

def insertEntry (k : κ) (v : β) : List (κ × β) → List (κ × β)
  | [] => [(k, v)]
  | entry :: rest =>
    match cmp k entry.1 with
    | .lt => (k, v) :: entry :: rest
    | .eq => (k, v) :: rest
    | .gt => entry :: insertEntry k v rest

/-- Where the entry of a key goes in front of a list. -/
theorem insertEntry_cons (k : κ) (v : β) (entry : κ × β) (rest : List (κ × β)) :
    (k < entry.1 ∧ insertEntry k v (entry :: rest) = (k, v) :: entry :: rest) ∨
      (k = entry.1 ∧ insertEntry k v (entry :: rest) = (k, v) :: rest) ∨
      (entry.1 < k ∧ insertEntry k v (entry :: rest) = entry :: insertEntry k v rest) := by
  have chosen : insertEntry k v (entry :: rest) = match cmp k entry.1 with
      | .lt => (k, v) :: entry :: rest
      | .eq => (k, v) :: rest
      | .gt => entry :: insertEntry k v rest := rfl
  rw [chosen]
  cases order : cmp k entry.1 with
  | lt => exact .inl ⟨(cmp_eq_lt_iff k entry.1).mp order, rfl⟩
  | eq => exact .inr (.inl ⟨(cmp_eq_eq_iff k entry.1).mp order, rfl⟩)
  | gt => exact .inr (.inr ⟨(cmp_eq_gt_iff k entry.1).mp order, rfl⟩)

theorem fst_of_mem_insertEntry {k : κ} {v : β} {entries : List (κ × β)} {e : κ × β}
    (h : e ∈ insertEntry k v entries) : e.1 = k ∨ e ∈ entries := by
  induction entries with
  | nil =>
    cases List.mem_singleton.mp h
    exact .inl rfl
  | cons entry rest ih =>
    rcases insertEntry_cons k v entry rest with ⟨-, front⟩ | ⟨-, front⟩ | ⟨-, front⟩
    · rw [front] at h
      rcases List.mem_cons.mp h with rfl | h
      · exact .inl rfl
      · exact .inr h
    · rw [front] at h
      rcases List.mem_cons.mp h with rfl | h
      · exact .inl rfl
      · exact .inr (List.mem_cons_of_mem _ h)
    · rw [front] at h
      rcases List.mem_cons.mp h with rfl | h
      · exact .inr List.mem_cons_self
      · exact (ih h).imp_right (List.mem_cons_of_mem _)

theorem insertEntry_sorted (k : κ) (v : β) {entries : List (κ × β)}
    (h : entries.Pairwise fun a b => a.1 < b.1) :
    (insertEntry k v entries).Pairwise fun a b => a.1 < b.1 := by
  induction entries with
  | nil => exact List.pairwise_singleton _ _
  | cons entry rest ih =>
    obtain ⟨first, tail⟩ := List.pairwise_cons.mp h
    rcases insertEntry_cons k v entry rest with ⟨below, front⟩ | ⟨same, front⟩ | ⟨above, front⟩
    · rw [front]
      refine List.pairwise_cons.mpr ⟨fun e he => ?_, h⟩
      rcases List.mem_cons.mp he with rfl | he
      · exact below
      · exact below.trans (first e he)
    · rw [front]
      exact List.pairwise_cons.mpr ⟨fun e he => same ▸ first e he, tail⟩
    · rw [front]
      refine List.pairwise_cons.mpr ⟨fun e he => ?_, ih tail⟩
      rcases fst_of_mem_insertEntry he with rfl | he
      · exact above
      · exact first e he

/-- Store a value under a key, replacing the value the key had before. -/
def insert (m : SortedMap κ β) (k : κ) (v : β) : SortedMap κ β :=
  ⟨insertEntry k v m.entries, insertEntry_sorted k v m.sorted⟩

theorem lookup_cons_eq (k l : κ) (v : β) (entries : List (κ × β)) :
    List.lookup l ((k, v) :: entries) = if l = k then some v else entries.lookup l := by
  by_cases h : l = k
  · simp [h]
  · simp [List.lookup_cons, h, beq_eq_false_iff_ne.mpr h]

theorem lookup_insertEntry (k l : κ) (v : β) (entries : List (κ × β)) :
    (insertEntry k v entries).lookup l = if l = k then some v else entries.lookup l := by
  induction entries with
  | nil => exact lookup_cons_eq k l v []
  | cons entry rest ih =>
    obtain ⟨key, value⟩ := entry
    rcases insertEntry_cons k v (key, value) rest with
      ⟨-, front⟩ | ⟨same, front⟩ | ⟨above, front⟩
    · rw [front]
      exact lookup_cons_eq k l v _
    · cases same
      rw [front, lookup_cons_eq, lookup_cons_eq]
      split <;> rfl
    · have apart : k ≠ key := ne_of_gt above
      rw [front, lookup_cons_eq, lookup_cons_eq, ih]
      by_cases h : l = key
      · subst h
        simp [apart.symm]
      · simp [h]

@[simp] theorem find?_empty (k : κ) : (empty : SortedMap κ β).find? k = none := rfl

@[simp] theorem find?_insert (m : SortedMap κ β) (k l : κ) (v : β) :
    (m.insert k v).find? l = if l = k then some v else m.find? l :=
  lookup_insertEntry k l v m.entries

def erase (m : SortedMap κ β) (k : κ) : SortedMap κ β :=
  ⟨m.entries.filter fun entry => entry.1 ≠ k, m.sorted.filter _⟩

@[simp] theorem find?_erase (m : SortedMap κ β) (k l : κ) :
    (m.erase k).find? l = if l = k then none else m.find? l := by
  obtain ⟨entries, sorted⟩ := m
  unfold find? erase
  simp only
  clear sorted
  induction entries with
  | nil => simp
  | cons entry rest ih =>
    obtain ⟨key, value⟩ := entry
    by_cases gone : key = k
    · subst gone
      simp only [ne_eq, decide_not, List.filter_cons, decide_true, Bool.not_true] at ih ⊢
      rw [lookup_cons_eq]
      by_cases h : l = key
      · simpa [h] using ih
      · simpa [h] using ih
    · simp only [ne_eq, decide_not, List.filter_cons, gone, decide_false, Bool.not_false,
        if_true] at ih ⊢
      rw [lookup_cons_eq, lookup_cons_eq, ih]
      by_cases h : l = key
      · subst h
        simp [gone]
      · simp [h]

theorem nodup_entries (m : SortedMap κ β) : m.entries.Nodup := by
  refine m.sorted.imp ?_
  rintro a b hlt rfl
  exact lt_irrefl _ hlt

theorem mem_entries_iff (m : SortedMap κ β) {k : κ} {v : β} :
    (k, v) ∈ m.entries ↔ m.find? k = some v := by
  obtain ⟨entries, sorted⟩ := m
  unfold find?
  simp only
  induction entries with
  | nil => simp
  | cons entry rest ih =>
    obtain ⟨key, value⟩ := entry
    obtain ⟨first, tail⟩ := List.pairwise_cons.mp sorted
    have ih := ih tail
    by_cases h : k = key
    · subst h
      have absent : (k, v) ∉ rest := fun he => lt_irrefl k (first (k, v) he)
      simp [absent, eq_comm]
    · simp [lookup_cons_eq, h, ih]

/-- A map that looks up as a list with distinct keys holds the entries of that list. -/
theorem entries_perm {m : SortedMap κ β} {xs : List α} {key : α → κ} {value : α → β}
    (distinct : (xs.map key).Nodup)
    (same : ∀ k v, m.find? k = some v ↔ ∃ x ∈ xs, key x = k ∧ value x = v) :
    m.entries.Perm (xs.map fun x => (key x, value x)) := by
  have nodup : (xs.map fun x => (key x, value x)).Nodup := by
    refine List.Nodup.of_map Prod.fst ?_
    simpa [List.map_map, Function.comp_def] using distinct
  refine (List.perm_ext_iff_of_nodup m.nodup_entries nodup).mpr ?_
  rintro ⟨k, v⟩
  rw [mem_entries_iff, same]
  simp

section Gather

variable {φ : Type*} {merge : Option β → φ → β} {m : SortedMap κ β}

/-- Each item changes the value under its key. -/
def gather (merge : Option β → φ → β) (m : SortedMap κ β) (items : List (κ × φ)) : SortedMap κ β :=
  items.foldl (fun m item => m.insert item.1 (merge (m.find? item.1) item.2)) m

/-- The items under a key, in their order. -/
def under (k : κ) (items : List (κ × φ)) : List φ :=
  (items.filter fun item => item.1 = k).map Prod.snd

@[simp] theorem gather_nil : gather merge m [] = m := rfl

theorem gather_append (items later : List (κ × φ)) :
    gather merge m (items ++ later) = gather merge (gather merge m items) later :=
  List.foldl_append

theorem under_cons (k : κ) (item : κ × φ) (items : List (κ × φ)) :
    under k (item :: items) = if item.1 = k then item.2 :: under k items else under k items := by
  unfold under
  by_cases same : item.1 = k
  · simp [same]
  · simp [same]

/-- What is gathered under a key comes from the items under it alone. -/
theorem find?_gather (k : κ) (items : List (κ × φ)) :
    (gather merge m items).find? k =
      (under k items).foldl (fun value item => some (merge value item)) (m.find? k) := by
  induction items generalizing m with
  | nil => rfl
  | cons item items ih =>
    have next := ih (m := m.insert item.1 (merge (m.find? item.1) item.2))
    rw [find?_insert] at next
    refine next.trans ?_
    rw [under_cons]
    by_cases same : item.1 = k
    · rw [if_pos same, List.foldl_cons, if_pos same.symm, same]
    · rw [if_neg same, if_neg fun h => same h.symm]

end Gather

end SortedMap
