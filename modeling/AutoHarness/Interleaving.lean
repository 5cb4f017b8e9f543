import Mathlib.Data.List.Nodup
import Mathlib.Data.List.Count

namespace Interleaving

variable {α κ : Type*} [DecidableEq κ] {key : α → κ}

/-- The entries of one stream of a merged list, in their order. -/
def project (key : α → κ) (k : κ) (xs : List α) : List α :=
  xs.filter fun x => key x == k

@[simp] theorem project_nil (k : κ) : project key k [] = [] := rfl

@[simp] theorem project_append (k : κ) (xs ys : List α) :
    project key k (xs ++ ys) = project key k xs ++ project key k ys := by
  simp [project]

theorem project_singleton_self (x : α) : project key (key x) [x] = [x] := by
  simp [project]

theorem project_singleton_ne {k : κ} {x : α} (h : key x ≠ k) : project key k [x] = [] := by
  simp [project, h]

theorem mem_project {k : κ} {x : α} {xs : List α} :
    x ∈ project key k xs ↔ x ∈ xs ∧ key x = k := by
  simp [project]

theorem mem_project_self {x : α} {xs : List α} : x ∈ project key (key x) xs ↔ x ∈ xs := by
  simp [project]

theorem project_eq_self {k : κ} {xs : List α} (h : ∀ x ∈ xs, key x = k) :
    project key k xs = xs := by
  simpa [project] using h

theorem project_of_ne {k : κ} {xs : List α} (h : ∀ x ∈ xs, key x ≠ k) :
    project key k xs = [] := by
  simpa [project] using h

theorem project_map {g : α → α} {xs : List α} (keeps : ∀ x ∈ xs, key (g x) = key x) (k : κ) :
    project key k (xs.map g) = (project key k xs).map g := by
  rw [project, project, List.filter_map]
  congr 1
  refine List.filter_congr fun x hx => ?_
  rw [Function.comp_apply, keeps x hx]

/-- A change of other streams is not seen. -/
theorem project_map_of_ne {g : α → α} {k : κ} {xs : List α}
    (keeps : ∀ x ∈ xs, key (g x) = key x) (same : ∀ x ∈ xs, key x = k → g x = x) :
    project key k (xs.map g) = project key k xs := by
  rw [project_map keeps, List.map_congr_left (g := id), List.map_id]
  intro x hx
  obtain ⟨mem, own⟩ := mem_project.mp hx
  exact same x mem own

theorem project_filter_ne {k l : κ} (h : k ≠ l) (xs : List α) :
    project key k (xs.filter fun x => !(key x == l)) = project key k xs := by
  rw [project, project, List.filter_filter]
  refine List.filter_congr fun x _ => ?_
  by_cases hx : key x = k
  · simp [hx, h]
  · simp [hx]

theorem project_filter_self (k : κ) (xs : List α) :
    project key k (xs.filter fun x => !(key x == k)) = [] := by
  refine project_of_ne fun x hx same => ?_
  simp [same] at hx

/-- Two merges of the same streams. -/
def SameStreams (key : α → κ) (xs ys : List α) : Prop :=
  ∀ k, project key k xs = project key k ys

theorem SameStreams.symm {xs ys : List α} (h : SameStreams key xs ys) : SameStreams key ys xs :=
  fun k => (h k).symm

theorem SameStreams.append {xs ys : List α} (h : SameStreams key xs ys) (zs : List α) :
    SameStreams key (xs ++ zs) (ys ++ zs) := by
  intro k
  rw [project_append, project_append, h k]

theorem count_project [DecidableEq α] (x : α) (xs : List α) :
    (project key (key x) xs).count x = xs.count x :=
  List.count_filter (by simp)

/-- Merges of the same streams are permutations of each other. -/
theorem SameStreams.perm [DecidableEq α] {xs ys : List α} (h : SameStreams key xs ys) :
    xs.Perm ys := by
  rw [List.perm_iff_count]
  intro x
  calc
    xs.count x = (project key (key x) xs).count x := (count_project x xs).symm
    _ = (project key (key x) ys).count x := by rw [h (key x)]
    _ = ys.count x := count_project x ys

theorem project_project_ne {k l : κ} (h : l ≠ k) (xs : List α) :
    project key k (project key l xs) = [] := by
  refine project_of_ne fun x hx => ?_
  rw [(mem_project.mp hx).2]
  exact h

theorem project_project_self (k : κ) (xs : List α) :
    project key k (project key k xs) = project key k xs :=
  project_eq_self fun _ hx => (mem_project.mp hx).2

theorem project_flatMap {keys : List κ} (distinct : keys.Nodup) (k : κ) (xs : List α) :
    project key k (keys.flatMap fun l => project key l xs) =
      if k ∈ keys then project key k xs else [] := by
  induction keys with
  | nil => simp
  | cons l ls ih =>
    obtain ⟨absent, rest⟩ := List.nodup_cons.mp distinct
    rw [List.flatMap_cons, project_append, ih rest]
    by_cases h : l = k
    · subst h
      simp [project_project_self, absent]
    · simp [project_project_ne h, Ne.symm h]

/-- Reading the streams one after the other is such a merge. -/
theorem sameStreams_flatMap {keys : List κ} {xs : List α} (distinct : keys.Nodup)
    (complete : ∀ x ∈ xs, key x ∈ keys) :
    SameStreams key (keys.flatMap fun k => project key k xs) xs := by
  intro k
  rw [project_flatMap distinct]
  split
  next => rfl
  next absent =>
    symm
    refine project_of_ne fun x hx hk => absent ?_
    rw [← hk]
    exact complete x hx

end Interleaving
