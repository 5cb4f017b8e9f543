universe u v

/-- A program whose every effect is answered by its environment. -/
inductive EffectProgram (ι : Type u) (ρ : ι → Type) (α : Type) where
  | done (value : α)
  | perform (effect : ι) (next : ρ effect → EffectProgram ι ρ α)

namespace EffectProgram

variable {ι : Type u} {ρ : ι → Type} {σ : Type v} {α β ε : Type}

def bind : EffectProgram ι ρ α → (α → EffectProgram ι ρ β) → EffectProgram ι ρ β
  | .done value, f => f value
  | .perform effect next, f => .perform effect fun reply => (next reply).bind f

def emit (effect : ι) : EffectProgram ι ρ (ρ effect) := .perform effect .done

/-- Go on with the value of a program that may have failed. -/
def andThen (p : EffectProgram ι ρ (Except ε α)) (f : α → EffectProgram ι ρ (Except ε β)) :
    EffectProgram ι ρ (Except ε β) :=
  p.bind fun
    | .ok value => f value
    | .error e => .done (.error e)

/-- Programs that may fail, in sequence. -/
def Fallible (ι : Type u) (ρ : ι → Type) (ε α : Type) : Type (max u 0) :=
  EffectProgram ι ρ (Except ε α)

instance : Monad (Fallible ι ρ ε) where
  pure value := .done (.ok value)
  bind := andThen

def mapError {δ : Type} (f : ε → δ) (p : Fallible ι ρ ε α) : Fallible ι ρ δ α :=
  EffectProgram.bind p fun result => .done (result.mapError f)

variable (environment : (effect : ι) → σ → ρ effect → σ → Prop)

/-- The states in which a run of the program may be interrupted. -/
inductive Visits : EffectProgram ι ρ α → σ → σ → Prop
  | here {p : EffectProgram ι ρ α} {s : σ} : Visits p s s
  | step {effect : ι} {next : ρ effect → EffectProgram ι ρ α} {s t u : σ} {reply : ρ effect}
      (answer : environment effect s reply t) (rest : Visits (next reply) t u) :
      Visits (.perform effect next) s u

/-- The runs of the program that end with a value. -/
inductive Returns : EffectProgram ι ρ α → σ → α → σ → Prop
  | done {value : α} {s : σ} : Returns (.done value) s value s
  | step {effect : ι} {next : ρ effect → EffectProgram ι ρ α} {s t u : σ} {reply : ρ effect}
      {value : α} (answer : environment effect s reply t)
      (rest : Returns (next reply) t value u) : Returns (.perform effect next) s value u

/-- Whatever the environment answers, the invariant holds wherever the program may be interrupted
and the postcondition where it ends. -/
def Safe (inv : σ → Prop) (post : α → σ → Prop) : EffectProgram ι ρ α → σ → Prop
  | .done value, s => inv s ∧ post value s
  | .perform effect next, s =>
    inv s ∧ ∀ reply t, environment effect s reply t → Safe inv post (next reply) t

variable {environment} {inv : σ → Prop} {post mid : α → σ → Prop} {p : EffectProgram ι ρ α} {s t : σ}

theorem Safe.start (h : Safe environment inv post p s) : inv s := by
  cases p with
  | done value => exact h.1
  | perform effect next => exact h.1

theorem Safe.visits (h : Safe environment inv post p s) (visited : Visits environment p s t) :
    inv t := by
  induction visited with
  | here => exact h.start
  | step answer _ ih => exact ih (h.2 _ _ answer)

theorem Safe.returns {value : α} (h : Safe environment inv post p s)
    (returned : Returns environment p s value t) : post value t := by
  induction returned with
  | done => exact h.2
  | step answer _ ih => exact ih (h.2 _ _ answer)

theorem Returns.visits {value : α} (returned : Returns environment p s value t) :
    Visits environment p s t := by
  induction returned with
  | done => exact .here
  | step answer _ ih => exact .step answer ih

theorem Returns.andThen_visits {p : EffectProgram ι ρ (Except ε α)}
    {f : α → EffectProgram ι ρ (Except ε β)} {value : α} {u : σ}
    (first : Returns environment p s (.ok value) t) (rest : Visits environment (f value) t u) :
    Visits environment (p.andThen f) s u := by
  generalize result : Except.ok value = reply at first
  induction first with
  | done =>
    subst result
    exact rest
  | step answer _ ih => exact .step answer (ih rest result)

/-- The rule of sequential composition. -/
theorem Safe.bind {f : α → EffectProgram ι ρ β} {last : β → σ → Prop}
    (h : Safe environment inv mid p s)
    (next : ∀ value t, inv t → mid value t → Safe environment inv last (f value) t) :
    Safe environment inv last (p.bind f) s := by
  induction p generalizing s with
  | done value => exact next value s h.1 h.2
  | perform effect rest ih => exact ⟨h.1, fun reply t answer => ih reply (h.2 reply t answer)⟩

theorem Safe.emit {effect : ι} {last : ρ effect → σ → Prop} (h : inv s)
    (answers : ∀ reply t, environment effect s reply t → inv t ∧ last reply t) :
    Safe environment inv last (emit effect) s :=
  ⟨h, answers⟩

/-- The rule of sequential composition where a failure ends the program. -/
theorem Safe.andThen {p : EffectProgram ι ρ (Except ε α)}
    {f : α → EffectProgram ι ρ (Except ε β)} {mid : Except ε α → σ → Prop}
    {last : Except ε β → σ → Prop} (h : Safe environment inv mid p s)
    (failed : ∀ e t, inv t → mid (.error e) t → last (.error e) t)
    (next : ∀ value t, inv t → mid (.ok value) t → Safe environment inv last (f value) t) :
    Safe environment inv last (p.andThen f) s := by
  refine h.bind fun result t holds reached => ?_
  cases result with
  | error e => exact ⟨holds, failed e t holds reached⟩
  | ok value => exact next value t holds reached

theorem Safe.mono {wider : α → σ → Prop} (h : Safe environment inv post p s)
    (weaken : ∀ value t, inv t → post value t → wider value t) :
    Safe environment inv wider p s := by
  induction p generalizing s with
  | done value => exact ⟨h.1, weaken value s h.1 h.2⟩
  | perform effect next ih => exact ⟨h.1, fun reply t answer => ih reply (h.2 reply t answer)⟩

end EffectProgram
