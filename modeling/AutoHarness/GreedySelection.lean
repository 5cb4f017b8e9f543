import AutoHarness.FallibleRun
import Mathlib.Data.List.Infix

namespace GreedySelection

open FallibleRun

section Choose

variable {ε α β : Type} (view : α → β) (fits : List β → Except ε Bool) (refuse : α → Except ε Unit)

/-- Take an item that still fits behind those taken so far; `refuse` may stop at one that does not. -/
def attempt (chosen : List β) (item : α) : Except ε (List β) := do
  if ← fits (chosen ++ [view item]) then .ok (chosen ++ [view item])
  else do
    refuse item
    .ok chosen

/-- All items in their order. -/
def choose (chosen : List β) (items : List α) : Except ε (List β) :=
  run (attempt view fits refuse) chosen items

end Choose

variable {ε α β : Type} {view : α → β} {fits : List β → Except ε Bool} {refuse : α → Except ε Unit}
variable {chosen final : List β} {item : α} {items : List α}

theorem attempt_ok_iff {next : List β} :
    attempt view fits refuse chosen item = .ok next ↔
      (fits (chosen ++ [view item]) = .ok true ∧ next = chosen ++ [view item]) ∨
      (fits (chosen ++ [view item]) = .ok false ∧ refuse item = .ok () ∧ next = chosen) := by
  unfold attempt
  cases hf : fits (chosen ++ [view item]) with
  | error e => simp [bind, Except.bind]
  | ok fit =>
    cases fit with
    | true => simp [bind, Except.bind, eq_comm]
    | false =>
      cases hr : refuse item with
      | error e => simp [bind, Except.bind]
      | ok u => simp [bind, Except.bind, eq_comm]

theorem attempt_error_iff {e : ε} :
    attempt view fits refuse chosen item = .error e ↔
      fits (chosen ++ [view item]) = .error e ∨
      (fits (chosen ++ [view item]) = .ok false ∧ refuse item = .error e) := by
  unfold attempt
  cases hf : fits (chosen ++ [view item]) with
  | error e => simp [bind, Except.bind]
  | ok fit =>
    cases fit with
    | true => simp [bind, Except.bind]
    | false =>
      cases hr : refuse item with
      | error e => simp [bind, Except.bind]
      | ok u => simp [bind, Except.bind]

/-- What is chosen comes from the items, in their order, behind what was chosen before. -/
theorem choose_sublist (h : choose view fits refuse chosen items = .ok final) :
    ∃ taken : List α, taken.Sublist items ∧ final = chosen ++ taken.map view := by
  refine run_history (P := fun items final => ∃ taken : List α, taken.Sublist items ∧
    final = chosen ++ taken.map view) ⟨[], List.Sublist.refl _, by simp⟩ ?_ h
  rintro front mid item next - ⟨taken, sub, rfl⟩ moved
  rcases attempt_ok_iff.mp moved with ⟨-, rfl⟩ | ⟨-, -, rfl⟩
  · exact ⟨taken ++ [item], sub.append (List.Sublist.refl _), by simp⟩
  · exact ⟨taken, sub.trans (List.sublist_append_left _ _), rfl⟩

theorem choose_prefix (h : choose view fits refuse chosen items = .ok final) : chosen <+: final := by
  obtain ⟨taken, -, rfl⟩ := choose_sublist h
  exact List.prefix_append _ _

/-- Whatever was added, the result was found to fit. -/
theorem choose_fits (h : choose view fits refuse chosen items = .ok final) :
    final = chosen ∨ fits final = .ok true := by
  refine run_history (P := fun _ final => final = chosen ∨ fits final = .ok true) (.inl rfl) ?_ h
  intro front mid item next _ before moved
  rcases attempt_ok_iff.mp moved with ⟨fit, rfl⟩ | ⟨-, -, rfl⟩
  · exact .inr fit
  · exact before

/-- Each item was taken where it fitted, and left only where it did not. -/
theorem choose_at {front back : List α}
    (h : choose view fits refuse chosen (front ++ item :: back) = .ok final) :
    ∃ before, choose view fits refuse chosen front = .ok before ∧
      ((fits (before ++ [view item]) = .ok true ∧ before ++ [view item] <+: final) ∨
        (fits (before ++ [view item]) = .ok false ∧ refuse item = .ok () ∧ before <+: final)) := by
  obtain ⟨before, made, rest⟩ := run_append_ok_iff.mp h
  rw [run_cons] at rest
  obtain ⟨next, moved, later⟩ := bind_eq_ok_iff.mp rest
  refine ⟨before, made, ?_⟩
  rcases attempt_ok_iff.mp moved with ⟨fit, same⟩ | ⟨fit, refused, same⟩
  · exact .inl ⟨fit, same ▸ choose_prefix later⟩
  · exact .inr ⟨fit, refused, same ▸ choose_prefix later⟩

theorem choose_error_iff {e : ε} :
    choose view fits refuse chosen items = .error e ↔
      ∃ front item back before, items = front ++ item :: back ∧
        choose view fits refuse chosen front = .ok before ∧
        attempt view fits refuse before item = .error e := by
  constructor
  · intro h
    induction items generalizing chosen with
    | nil => cases h
    | cons item items ih =>
      rw [choose, run_cons] at h
      cases moved : attempt view fits refuse chosen item with
      | error e' =>
        rw [moved] at h
        cases h
        exact ⟨[], item, items, chosen, rfl, rfl, moved⟩
      | ok next =>
        rw [moved, ok_bind] at h
        obtain ⟨front, other, back, before, rfl, made, failed⟩ := ih h
        refine ⟨item :: front, other, back, before, rfl, ?_, failed⟩
        rw [choose, run_cons, moved, ok_bind]
        exact made
  · rintro ⟨front, item, back, before, rfl, made, failed⟩
    rw [choose] at made
    rw [choose, run_append, made, ok_bind, run_cons, failed]
    rfl

/-- Items that all fit are all taken. -/
theorem choose_all (h : ∀ front item back, items = front ++ item :: back →
    fits (chosen ++ front.map view ++ [view item]) = .ok true) :
    choose view fits refuse chosen items = .ok (chosen ++ items.map view) := by
  induction items generalizing chosen with
  | nil =>
    rw [List.map_nil, List.append_nil]
    rfl
  | cons item items ih =>
    have first : attempt view fits refuse chosen item = .ok (chosen ++ [view item]) := by
      refine attempt_ok_iff.mpr (.inl ⟨?_, rfl⟩)
      simpa using h [] item items rfl
    rw [choose, run_cons, first, ok_bind, ← choose, ih]
    · simp
    · rintro front other back rfl
      simpa using h (item :: front) other back rfl

/-- Items that may not be left are all taken. -/
theorem choose_forced (h : choose view fits refuse chosen items = .ok final)
    (forced : ∀ item ∈ items, refuse item ≠ .ok ()) : final = chosen ++ items.map view := by
  induction items generalizing chosen with
  | nil =>
    cases h
    simp
  | cons item items ih =>
    rw [choose, run_cons] at h
    obtain ⟨next, moved, rest⟩ := bind_eq_ok_iff.mp h
    rcases attempt_ok_iff.mp moved with ⟨-, rfl⟩ | ⟨-, left, -⟩
    · rw [ih rest fun other mem => forced other (List.mem_cons_of_mem _ mem)]
      simp
    · exact absurd left (forced item List.mem_cons_self)

theorem choose_append (front back : List α) :
    choose view fits refuse chosen (front ++ back) =
      choose view fits refuse chosen front >>= fun before => choose view fits refuse before back :=
  run_append chosen front back

/-- Each item is taken if it fits behind the items taken before it, and left otherwise. -/
def Greedy (fits : List α → Prop) (items taken : List α) : Prop :=
  ∀ front item back, items = front ++ item :: back → ∃ before after,
    before.Sublist front ∧ after.Sublist back ∧
      ((fits (before ++ [item]) ∧ taken = before ++ item :: after) ∨
        (¬ fits (before ++ [item]) ∧ taken = before ++ after))

theorem Greedy.cons_taken {fits : List α → Prop} {taken : List α} (fit : fits [item])
    (sub : taken.Sublist items) (h : Greedy (fun later => fits (item :: later)) items taken) :
    Greedy fits (item :: items) (item :: taken) := by
  intro front other back same
  cases front with
  | nil =>
    obtain ⟨rfl, rfl⟩ := List.cons.inj same
    exact ⟨[], taken, List.Sublist.refl _, sub, .inl ⟨fit, rfl⟩⟩
  | cons first front =>
    obtain ⟨rfl, rfl⟩ := List.cons.inj same
    obtain ⟨before, after, hbefore, hafter, step⟩ := h front other back rfl
    refine ⟨item :: before, after, hbefore.cons_cons item, hafter, ?_⟩
    rcases step with ⟨fit, rfl⟩ | ⟨full, rfl⟩
    · exact .inl ⟨fit, rfl⟩
    · exact .inr ⟨full, rfl⟩

theorem Greedy.cons_left {fits : List α → Prop} {taken : List α} (full : ¬ fits [item])
    (sub : taken.Sublist items) (h : Greedy fits items taken) : Greedy fits (item :: items) taken := by
  intro front other back same
  cases front with
  | nil =>
    obtain ⟨rfl, rfl⟩ := List.cons.inj same
    exact ⟨[], taken, List.Sublist.refl _, sub, .inr ⟨full, rfl⟩⟩
  | cons first front =>
    obtain ⟨rfl, rfl⟩ := List.cons.inj same
    obtain ⟨before, after, hbefore, hafter, step⟩ := h front other back rfl
    exact ⟨before, after, hbefore.cons item, hafter, step⟩

/-- The items taken are the greedy choice. -/
theorem choose_greedy (h : choose view fits refuse chosen items = .ok final) :
    ∃ taken : List α, taken.Sublist items ∧ final = chosen ++ taken.map view ∧
      (∀ item ∈ items, item ∉ taken → refuse item = .ok ()) ∧
      Greedy (fun later => fits (chosen ++ later.map view) = .ok true) items taken := by
  induction items generalizing chosen with
  | nil =>
    cases h
    refine ⟨[], List.Sublist.refl _, by simp, by simp, ?_⟩
    intro front item back same
    simp at same
  | cons first items ih =>
    rw [choose, run_cons] at h
    obtain ⟨next, moved, rest⟩ := bind_eq_ok_iff.mp h
    obtain ⟨taken, sub, same, refused, greedy⟩ := ih rest
    rcases attempt_ok_iff.mp moved with ⟨fit, rfl⟩ | ⟨full, left, rfl⟩
    · refine ⟨first :: taken, sub.cons_cons first, by simp [same], ?_, ?_⟩
      · intro item mem absent
        rcases List.mem_cons.mp mem with rfl | mem
        · exact absurd List.mem_cons_self absent
        · exact refused item mem fun there => absent (List.mem_cons_of_mem _ there)
      · refine Greedy.cons_taken fit sub ?_
        simpa using greedy
    · refine ⟨taken, sub.cons first, same, ?_, ?_⟩
      · intro item mem absent
        rcases List.mem_cons.mp mem with rfl | mem
        · exact left
        · exact refused item mem absent
      · exact Greedy.cons_left (by simp [full]) sub greedy

end GreedySelection
