import Mathlib.Algebra.Order.Monoid.Defs
import Mathlib.Data.List.Infix
import Mathlib.Data.List.Sort

namespace SlidingWindow

section Bounded

variable {α : Type*} [Add α] [LinearOrder α]

/-- How many of the times lie in the half-open window that begins at `start`. -/
def within (width start : α) (times : List α) : Nat :=
  times.countP fun time => start ≤ time ∧ time < start + width

/-- No window of the width holds more than `limit` of the times. -/
def Bounded (limit : Nat) (width : α) (times : List α) : Prop :=
  ∀ start, within width start times ≤ limit

theorem bounded_nil (limit : Nat) (width : α) : Bounded limit width [] :=
  fun _ => Nat.zero_le limit

/-- One more time keeps the bound when fewer than `limit` are less than a width before it. -/
theorem Bounded.append [AddRightMono α] {limit : Nat} {width time : α} {times : List α}
    (h : Bounded limit width times)
    (recent : times.countP (fun earlier => time < earlier + width) < limit) :
    Bounded limit width (times ++ [time]) := by
  intro start
  have hstart := h start
  unfold within at hstart ⊢
  rw [List.countP_append]
  by_cases hin : start ≤ time ∧ time < start + width
  · have hle : times.countP (fun earlier => start ≤ earlier ∧ earlier < start + width) ≤
        times.countP (fun earlier => time < earlier + width) := by
      refine List.countP_mono_left fun earlier _ he => ?_
      have hs : start ≤ earlier := (of_decide_eq_true he).1
      exact decide_eq_true (hin.2.trans_le (add_le_add_left hs width))
    have hone : [time].countP (fun earlier => start ≤ earlier ∧ earlier < start + width) ≤ 1 :=
      List.countP_le_length
    omega
  · have hzero : [time].countP (fun earlier => start ≤ earlier ∧ earlier < start + width) = 0 := by
      simpa [List.countP_eq_zero] using hin
    omega

end Bounded

section Trim

variable {α : Type*}

/-- Of an ordered list, what a monotone test keeps after its front is dropped all fails it. -/
theorem forall_dropWhile {r : α → α → Prop} {p : α → Bool} {xs : List α}
    (ordered : xs.Pairwise r) (mono : ∀ x ∈ xs, ∀ y ∈ xs, r x y → p x = false → p y = false) :
    ∀ x ∈ xs.dropWhile p, p x = false := by
  induction xs with
  | nil => simp
  | cons x xs ih =>
    obtain ⟨hx, hxs⟩ := List.pairwise_cons.mp ordered
    cases hp : p x with
    | true =>
      rw [List.dropWhile_cons_of_pos hp]
      exact ih hxs fun y hy z hz => mono y (List.mem_cons_of_mem x hy) z (List.mem_cons_of_mem x hz)
    | false =>
      have hkeep : ¬ p x = true := by simp [hp]
      rw [List.dropWhile_cons_of_neg hkeep]
      intro y hy
      rcases List.mem_cons.mp hy with rfl | hm
      · exact hp
      · exact mono x List.mem_cons_self y hy (hx y hm) hp

end Trim

end SlidingWindow
