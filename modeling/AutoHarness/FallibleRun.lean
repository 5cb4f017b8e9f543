import Mathlib.Data.List.Induction
import Mathlib.Data.List.Infix

namespace FallibleRun

universe u v

variable {ε : Type u} {α β σ : Type v}

theorem bind_eq_ok_iff {x : Except ε α} {f : α → Except ε β} {b : β} :
    (x >>= f) = .ok b ↔ ∃ a, x = .ok a ∧ f a = .ok b := by
  cases x with
  | error e => simp [bind, Except.bind]
  | ok a => simp [bind, Except.bind]

theorem bind_eq_error_iff {x : Except ε α} {f : α → Except ε β} {e : ε} :
    (x >>= f) = .error e ↔ x = .error e ∨ ∃ a, x = .ok a ∧ f a = .error e := by
  cases x with
  | error e' => simp [bind, Except.bind]
  | ok a => simp [bind, Except.bind]

theorem mapError_ok_iff {ε' : Type} {f : ε → ε'} {x : Except ε α} {a : α} :
    x.mapError f = .ok a ↔ x = .ok a := by
  cases x with
  | error e => simp [Except.mapError]
  | ok b => simp [Except.mapError]

@[simp] theorem ok_bind (a : α) (f : α → Except ε β) : (Except.ok a >>= f) = f a := rfl

theorem mapM_eq_ok {f : α → Except ε β} {g : α → β} {xs : List α}
    (h : ∀ x ∈ xs, f x = .ok (g x)) : xs.mapM f = .ok (xs.map g) := by
  induction xs with
  | nil => rfl
  | cons x xs ih =>
    have rest := ih fun y hy => h y (by simp [hy])
    rw [List.mapM_cons, h x (by simp), ok_bind, rest]
    rfl

/-- Where every element succeeds, the results are the present ones. -/
theorem mapM_eq_ok_filterMap {f : α → Except ε β} {xs : List α}
    (h : ∀ x ∈ xs, ∃ y, f x = .ok y) :
    xs.mapM f = .ok (xs.filterMap fun x => (f x).toOption) := by
  induction xs with
  | nil => rfl
  | cons x xs ih =>
    obtain ⟨y, hy⟩ := h x (by simp)
    have rest := ih fun z hz => h z (by simp [hz])
    rw [List.mapM_cons, hy, ok_bind, rest, List.filterMap_cons, hy]
    rfl

theorem mapM_ok {f : α → Except ε β} {xs : List α} (h : ∀ x ∈ xs, ∃ y, f x = .ok y) :
    ∃ ys, xs.mapM f = .ok ys ∧ ys.length = xs.length := by
  induction xs with
  | nil => exact ⟨[], rfl, rfl⟩
  | cons x xs ih =>
    obtain ⟨y, hy⟩ := h x (by simp)
    obtain ⟨ys, rest, length⟩ := ih fun z hz => h z (by simp [hz])
    refine ⟨y :: ys, ?_, by simp [length]⟩
    rw [List.mapM_cons, hy, ok_bind, rest]
    rfl

theorem mapM_ne_error {f : α → Except ε β} {xs : List α} {e : ε} (h : ∀ x ∈ xs, f x ≠ .error e) :
    xs.mapM f ≠ .error e := by
  induction xs with
  | nil =>
    intro failed
    cases failed
  | cons x xs ih =>
    intro failed
    rw [List.mapM_cons] at failed
    rcases bind_eq_error_iff.mp failed with failed | ⟨y, -, failed⟩
    · exact h x List.mem_cons_self failed
    rcases bind_eq_error_iff.mp failed with failed | ⟨ys, -, failed⟩
    · exact ih (fun z member => h z (List.mem_cons_of_mem x member)) failed
    · cases failed

theorem mapM_mem {f : α → Except ε β} {xs : List α} {ys : List β}
    (h : xs.mapM f = .ok ys) :
    (∀ y ∈ ys, ∃ x ∈ xs, f x = .ok y) ∧ ∀ x ∈ xs, ∃ y ∈ ys, f x = .ok y := by
  induction xs generalizing ys with
  | nil =>
    cases h
    simp
  | cons x xs ih =>
    rw [List.mapM_cons] at h
    obtain ⟨y, first, h⟩ := bind_eq_ok_iff.mp h
    obtain ⟨rest, later, h⟩ := bind_eq_ok_iff.mp h
    cases h
    obtain ⟨back, forth⟩ := ih later
    constructor
    · intro z member
      rcases List.mem_cons.mp member with rfl | listed
      · exact ⟨x, List.mem_cons_self, first⟩
      · obtain ⟨w, there, mapped⟩ := back z listed
        exact ⟨w, List.mem_cons_of_mem _ there, mapped⟩
    · intro z member
      rcases List.mem_cons.mp member with rfl | listed
      · exact ⟨y, List.mem_cons_self, first⟩
      · obtain ⟨w, there, mapped⟩ := forth z listed
        exact ⟨w, List.mem_cons_of_mem _ there, mapped⟩

theorem mapM_map {γ : Type v} {f : α → Except ε β} {g : β → γ} {h : α → γ} {xs : List α}
    {ys : List β} (mapped : xs.mapM f = .ok ys) (agree : ∀ x ∈ xs, ∀ y, f x = .ok y → g y = h x) :
    ys.map g = xs.map h := by
  induction xs generalizing ys with
  | nil =>
    cases mapped
    rfl
  | cons x xs ih =>
    rw [List.mapM_cons] at mapped
    obtain ⟨y, first, mapped⟩ := bind_eq_ok_iff.mp mapped
    obtain ⟨rest, later, mapped⟩ := bind_eq_ok_iff.mp mapped
    cases mapped
    rw [List.map_cons, List.map_cons, agree x List.mem_cons_self y first,
      ih later fun z member => agree z (List.mem_cons_of_mem _ member)]

theorem mapM_ok_iff {f : α → Except ε β} {xs : List α} :
    (∃ ys, xs.mapM f = .ok ys) ↔ ∀ x ∈ xs, ∃ y, f x = .ok y := by
  constructor
  · rintro ⟨ys, mapped⟩ x member
    obtain ⟨y, -, made⟩ := (mapM_mem mapped).2 x member
    exact ⟨y, made⟩
  · intro each
    exact (mapM_ok each).imp fun ys mapped => mapped.1

theorem mapM_injective {f : α → Except ε β} {xs ys : List α} {zs : List β}
    (hf : ∀ x y z, f x = .ok z → f y = .ok z → x = y)
    (hx : xs.mapM f = .ok zs) (hy : ys.mapM f = .ok zs) : xs = ys := by
  induction xs generalizing ys zs with
  | nil =>
    cases hx
    cases ys with
    | nil => rfl
    | cons y ys =>
      rw [List.mapM_cons] at hy
      obtain ⟨z, -, hy⟩ := bind_eq_ok_iff.mp hy
      obtain ⟨rest, -, hy⟩ := bind_eq_ok_iff.mp hy
      cases hy
  | cons x xs ih =>
    rw [List.mapM_cons] at hx
    obtain ⟨z, first, hx⟩ := bind_eq_ok_iff.mp hx
    obtain ⟨rest, later, hx⟩ := bind_eq_ok_iff.mp hx
    cases hx
    cases ys with
    | nil => cases hy
    | cons y ys =>
      rw [List.mapM_cons] at hy
      obtain ⟨z', first', hy⟩ := bind_eq_ok_iff.mp hy
      obtain ⟨rest', later', hy⟩ := bind_eq_ok_iff.mp hy
      cases hy
      rw [hf x y z first first', ih later later']

/-- Feed a list of events to a fallible step function, stopping at the first error. -/
def run (step : σ → α → Except ε σ) (s : σ) (events : List α) : Except ε σ :=
  events.foldlM step s

variable {step : σ → α → Except ε σ}

@[simp] theorem run_nil (s : σ) : run step s [] = .ok s := rfl

theorem run_cons (s : σ) (e : α) (events : List α) :
    run step s (e :: events) = (step s e >>= fun t => run step t events) := rfl

theorem run_unchanged {state : σ} {xs : List α}
    (h : ∀ x ∈ xs, step state x = .ok state) : run step state xs = .ok state := by
  induction xs with
  | nil => rfl
  | cons x xs ih =>
    rw [run_cons, h x List.mem_cons_self, ok_bind]
    exact ih fun y member => h y (List.mem_cons_of_mem _ member)

/-- A loop that pushes the parts of each element maps over all the parts in order. -/
theorem run_push {f : α → Except ε β} {expand : σ → List α}
    {step : List β → σ → Except ε (List β)}
    (pushes : ∀ out x, step out x = (expand x).mapM f >>= fun new => .ok (out ++ new))
    (out : List β) (xs : List σ) :
    run step out xs = (xs.flatMap expand).mapM f >>= fun new => .ok (out ++ new) := by
  induction xs generalizing out with
  | nil =>
    rw [run_nil, List.flatMap_nil, List.mapM_nil]
    show Except.ok out = Except.ok (out ++ [])
    rw [List.append_nil]
  | cons x xs ih =>
    rw [run_cons, pushes, List.flatMap_cons, List.mapM_append]
    cases (expand x).mapM f with
    | error e => rfl
    | ok new =>
      rw [ok_bind, ok_bind, ok_bind, ih]
      cases (xs.flatMap expand).mapM f with
      | error e => rfl
      | ok rest =>
        show Except.ok (out ++ new ++ rest) = Except.ok (out ++ (new ++ rest))
        rw [List.append_assoc]

theorem run_append (s : σ) (xs ys : List α) :
    run step s (xs ++ ys) = (run step s xs >>= fun m => run step m ys) := by
  simp [run]

theorem run_append_ok_iff {s t : σ} {xs ys : List α} :
    run step s (xs ++ ys) = .ok t ↔ ∃ m, run step s xs = .ok m ∧ run step m ys = .ok t := by
  rw [run_append, bind_eq_ok_iff]

theorem run_concat_ok_iff {s t : σ} {xs : List α} {e : α} :
    run step s (xs ++ [e]) = .ok t ↔ ∃ m, run step s xs = .ok m ∧ step m e = .ok t := by
  simp only [run_append_ok_iff, run_cons, bind_eq_ok_iff, run_nil, Except.ok.injEq, exists_eq_right]

/-- Induction over an accepted history: the property sees the events consumed so far
and the state they led to. -/
theorem run_history {s : σ} {P : List α → σ → Prop} (start : P [] s)
    (next : ∀ xs m e t, run step s xs = .ok m → P xs m → step m e = .ok t → P (xs ++ [e]) t)
    {events : List α} {t : σ} (h : run step s events = .ok t) : P events t := by
  induction events using List.reverseRecOn generalizing t with
  | nil => cases Except.ok.inj h; exact start
  | append_singleton xs e ih =>
    obtain ⟨m, hm, he⟩ := run_concat_ok_iff.mp h
    exact next xs m e t hm (ih hm) he

theorem run_invariant {s t : σ} {P : σ → Prop} (start : P s)
    (next : ∀ m e t, P m → step m e = .ok t → P t)
    {events : List α} (h : run step s events = .ok t) : P t :=
  run_history (P := fun _ m => P m) start (fun _ m e t _ hm he => next m e t hm he) h

/-- Every event of an accepted run satisfies the predicate in the state it meets. -/
def Along (step : σ → α → Except ε σ) (P : σ → α → Prop) : σ → List α → Prop
  | _, [] => True
  | s, e :: events => P s e ∧ ∀ t, step s e = .ok t → Along step P t events

theorem along_append {P : σ → α → Prop} {s m : σ} {xs ys : List α} (h : run step s xs = .ok m) :
    Along step P s (xs ++ ys) ↔ Along step P s xs ∧ Along step P m ys := by
  induction xs generalizing s with
  | nil =>
    cases Except.ok.inj h
    simp [Along]
  | cons e xs ih =>
    rw [run_cons, bind_eq_ok_iff] at h
    obtain ⟨u, hu, h⟩ := h
    have unique : ∀ t, step s e = .ok t ↔ t = u := by
      intro t
      rw [hu, Except.ok.injEq, eq_comm]
    simp only [List.cons_append, Along, unique, forall_eq, ih h, and_assoc]

theorem Along.invariant {P : σ → α → Prop} {I : σ → Prop} {s t : σ} {events : List α}
    (along : Along step P s events) (start : I s)
    (next : ∀ m e u, I m → P m e → step m e = .ok u → I u)
    (h : run step s events = .ok t) : I t := by
  induction events generalizing s with
  | nil => cases Except.ok.inj h; exact start
  | cons e events ih =>
    rw [run_cons, bind_eq_ok_iff] at h
    obtain ⟨u, hu, h⟩ := h
    exact ih (along.2 u hu) (next s e u start along.1 hu) h

/-- Every element of a history satisfies the predicate after the elements before it. -/
def EachAfter (P : List α → α → Prop) (xs : List α) : Prop :=
  ∀ before x after, xs = before ++ x :: after → P before x

theorem eachAfter_nil {P : List α → α → Prop} : EachAfter P [] := by
  intro before x after split
  simp at split

theorem eachAfter_cons_iff {P : List α → α → Prop} {xs : List α} {x : α} :
    EachAfter P (x :: xs) ↔ P [] x ∧ EachAfter (fun before y => P (x :: before) y) xs := by
  constructor
  · intro h
    refine ⟨h [] x xs rfl, fun before y after split => h (x :: before) y after ?_⟩
    rw [split, List.cons_append]
  · rintro ⟨first, rest⟩ before y after split
    cases before with
    | nil =>
      cases split
      exact first
    | cons z before =>
      cases split
      exact rest before y after rfl

theorem eachAfter_concat_iff {P : List α → α → Prop} {xs : List α} {x : α} :
    EachAfter P (xs ++ [x]) ↔ EachAfter P xs ∧ P xs x := by
  constructor
  · intro h
    refine ⟨fun before y after split => h before y (after ++ [x]) ?_, h xs x [] rfl⟩
    rw [split, List.append_assoc, List.cons_append]
  · rintro ⟨h, last⟩ before y after split
    rcases List.eq_nil_or_concat after with rfl | ⟨rest, final, rfl⟩
    · obtain ⟨same, final⟩ := List.append_inj' split rfl
      cases same
      cases (List.cons.inj final).1
      exact last
    · rw [List.concat_eq_append, ← List.cons_append, ← List.append_assoc] at split
      obtain ⟨same, -⟩ := List.append_inj' split rfl
      exact h before y rest same

theorem EachAfter.append {P : List α → α → Prop} {xs ys : List α} (hx : EachAfter P xs)
    (hy : EachAfter (fun before y => P (xs ++ before) y) ys) : EachAfter P (xs ++ ys) := by
  induction ys using List.reverseRecOn with
  | nil => rwa [List.append_nil]
  | append_singleton ys y ih =>
    obtain ⟨hy, last⟩ := eachAfter_concat_iff.mp hy
    rw [← List.append_assoc]
    exact eachAfter_concat_iff.mpr ⟨ih hy, last⟩

theorem EachAfter.imp {P Q : List α → α → Prop} {xs : List α} (h : EachAfter P xs)
    (weaken : ∀ before x, P before x → Q before x) : EachAfter Q xs :=
  fun before x after split => weaken before x (h before x after split)

end FallibleRun

namespace EventRun

universe u v

variable {σ : Type u} {α : Type v} {step : σ → α → σ} {s : σ} {events : List α}

/-- A machine that has a next state for every event. -/
def run (step : σ → α → σ) (s : σ) (events : List α) : σ :=
  events.foldl step s

@[simp] theorem run_nil : run step s [] = s := rfl

@[simp] theorem run_cons {e : α} : run step s (e :: events) = run step (step s e) events := rfl

theorem run_append {later : List α} :
    run step s (events ++ later) = run step (run step s events) later :=
  List.foldl_append

theorem run_concat {e : α} : run step s (events ++ [e]) = step (run step s events) e := by
  rw [run_append]
  rfl

/-- Each event of a run meets a condition in the state that it finds. -/
def Along (step : σ → α → σ) (P : σ → α → Prop) : σ → List α → Prop
  | _, [] => True
  | s, e :: rest => P s e ∧ Along step P (step s e) rest

theorem along_of_forall {P : σ → α → Prop} (h : ∀ s e, P s e) : Along step P s events := by
  induction events generalizing s with
  | nil => trivial
  | cons e rest ih => exact ⟨h s e, ih⟩

/-- What an event meeting the condition preserves holds in every state of the run. -/
theorem forall_prefix {I : σ → Prop} {P : σ → α → Prop}
    (next : ∀ s e, I s → P s e → I (step s e)) (start : I s) (along : Along step P s events)
    {before : List α} (h : before <+: events) : I (run step s before) := by
  induction events generalizing s before with
  | nil =>
    rw [List.prefix_nil.mp h]
    exact start
  | cons e rest ih =>
    cases before with
    | nil => exact start
    | cons other before =>
      obtain ⟨rfl, shorter⟩ := List.cons_prefix_cons.mp h
      exact ih (next s other start along.1) along.2 shorter

/-- A condition that is exact for each step is exact for the run. -/
theorem forall_prefix_iff {I : σ → Prop} {P : σ → α → Prop}
    (exact_step : ∀ s e, I s → (I (step s e) ↔ P s e)) (start : I s) :
    (∀ before, before <+: events → I (run step s before)) ↔ Along step P s events := by
  constructor
  · intro all
    induction events generalizing s with
    | nil => trivial
    | cons e rest ih =>
      have first : I (step s e) := all [e] (by simp)
      refine ⟨(exact_step s e start).mp first, ih first fun before h => ?_⟩
      exact all (e :: before) (List.cons_prefix_cons.mpr ⟨rfl, h⟩)
  · intro along before h
    exact forall_prefix (fun s e held met => (exact_step s e held).mpr met) start along h

end EventRun
