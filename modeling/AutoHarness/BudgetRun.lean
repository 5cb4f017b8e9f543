import AutoHarness.RunBudget

namespace AutoHarness

/-- The longest `Duration`, in nanoseconds. -/
def durationMax : Nat := 1000000000 * UInt64.size - 1

/-- `Duration::saturating_add`. -/
def durationAdd (left right : Nat) : Nat := min (left + right) durationMax

/-- A budget with its clock: the time before its start, and what `started.elapsed()` reads. -/
structure TimedBudget where
  counters : RunBudget
  elapsedBeforeStart : Nat
  sinceStart : Nat

abbrev BudgetCall (α : Type) := EStateM ToolError TimedBudget α

namespace TimedBudget

def new (limits : RunLimits) : TimedBudget := ⟨.new limits, 0, 0⟩

/-- Reconstructs durable counters while preserving elapsed wall time across a restart. -/
def restore (limits : RunLimits) (elapsed : Nat) (turns : UInt32) (tokens outputBytes : UInt64)
    (activeTools : UInt32) : Except ToolError TimedBudget := do
  let counters ← RunBudget.restore limits turns tokens outputBytes activeTools
  .ok ⟨counters, elapsed, 0⟩

def elapsed (budget : TimedBudget) : Nat :=
  durationAdd budget.elapsedBeforeStart budget.sinceStart

def wait (budget : TimedBudget) (nanos : Nat) : TimedBudget :=
  { budget with sinceStart := budget.sinceStart + nanos }

def setCounters (budget : TimedBudget) (counters : RunBudget) : TimedBudget :=
  { budget with counters := counters }

def checkTime : BudgetCall Unit := do
  let budget ← get
  if budget.counters.TimedOut budget.elapsed then throw (RunBudget.limit .timeout)

def startTurn : BudgetCall UInt32 := do
  checkTime
  let budget ← get
  let next := UInt32.ofNat (min (budget.counters.turns.toNat + 1) (UInt32.size - 1))
  if budget.counters.limits.maxTurns < next then throw (RunBudget.limit .turnLimit)
  set (budget.setCounters { budget.counters with turns := next })
  return next

def recordTokens (total : UInt64) : BudgetCall Unit := do
  checkTime
  let budget ← get
  if budget.counters.limits.maxTokens < total ∨ total < budget.counters.tokens then
    throw (RunBudget.limit .outputLimit)
  set (budget.setCounters { budget.counters with tokens := total })

def addOutput (bytes : UInt64) : BudgetCall Unit := do
  checkTime
  let budget ← get
  if UInt64.size ≤ budget.counters.outputBytes.toNat + bytes.toNat then
    throw (RunBudget.limit .outputLimit)
  let next := budget.counters.outputBytes + bytes
  if budget.counters.limits.maxOutputBytes < next then throw (RunBudget.limit .outputLimit)
  set (budget.setCounters { budget.counters with outputBytes := next })

def startTool : BudgetCall Unit := do
  checkTime
  let budget ← get
  let next := UInt32.ofNat (min (budget.counters.activeTools.toNat + 1) (UInt32.size - 1))
  if budget.counters.limits.maxConcurrency < next then throw (RunBudget.limit .outputLimit)
  set (budget.setCounters { budget.counters with activeTools := next })

def finishTool : BudgetCall Unit := do
  let budget ← get
  set (budget.setCounters budget.counters.finishTool)

end TimedBudget

/-- The methods that read or change a budget, with their arguments. -/
inductive BudgetOperation
  | checkTime
  | startTurn
  | recordTokens (total : UInt64)
  | addOutput (bytes : UInt64)
  | startTool
  | finishTool
deriving DecidableEq

namespace BudgetOperation

/-- The method an operation calls, with the turn a started turn returns. -/
def perform : BudgetOperation → BudgetCall (Option UInt32)
  | checkTime => do TimedBudget.checkTime; return none
  | startTurn => do return some (← TimedBudget.startTurn)
  | recordTokens total => do TimedBudget.recordTokens total; return none
  | addOutput bytes => do TimedBudget.addOutput bytes; return none
  | startTool => do TimedBudget.startTool; return none
  | finishTool => do TimedBudget.finishTool; return none

/-- The counters an operation leaves, as a value of what it reads. -/
def outcome (counters : RunBudget) (elapsed : Nat) : BudgetOperation → Except ToolError RunBudget
  | checkTime => (counters.checkTime elapsed).map fun _ => counters
  | startTurn => counters.startTurn elapsed
  | recordTokens total => counters.recordTokens elapsed total
  | addOutput bytes => counters.addOutput elapsed bytes
  | startTool => counters.startTool elapsed
  | finishTool => .ok counters.finishTool

/-- What an operation hands back once it left these counters. -/
def turnOf (counters : RunBudget) : BudgetOperation → Option UInt32
  | startTurn => some counters.turns
  | _ => none

end BudgetOperation

/-- A call's result: the counters it leaves, or its error and the budget as it was. -/
def TimedBudget.settle {α : Type} (budget : TimedBudget) (answer : RunBudget → α) :
    Except ToolError RunBudget → EStateM.Result ToolError TimedBudget α
  | .ok counters => .ok (answer counters) (budget.setCounters counters)
  | .error e => .error e budget

section Perform

variable (budget : TimedBudget)

theorem run_checkTime : TimedBudget.checkTime.run budget =
    match budget.counters.checkTime budget.elapsed with
    | .ok () => .ok () budget
    | .error e => .error e budget := by
  unfold RunBudget.checkTime
  by_cases late : budget.counters.TimedOut budget.elapsed
  · simp [TimedBudget.checkTime, late]
  · simp [TimedBudget.checkTime, late]

/-- Behind the time check a call and the counters' own computation go on from one budget. -/
theorem run_checked {α : Type} {rest : BudgetCall α} {answer : RunBudget → α}
    {computed : Except ToolError RunBudget}
    (agree : rest.run budget = budget.settle answer computed) :
    (TimedBudget.checkTime >>= fun _ => rest).run budget =
      budget.settle answer (budget.counters.checkTime budget.elapsed >>= fun _ => computed) := by
  rw [EStateM.run_bind, run_checkTime]
  cases budget.counters.checkTime budget.elapsed with
  | ok => exact agree
  | error e => rfl

theorem run_startTurn : TimedBudget.startTurn.run budget =
    budget.settle RunBudget.turns (budget.counters.startTurn budget.elapsed) := by
  apply run_checked
  simp only [EStateM.run_bind, EStateM.run_get]
  split
  next => rfl
  next => rfl

theorem run_recordTokens (total : UInt64) : (TimedBudget.recordTokens total).run budget =
    budget.settle (fun _ => ()) (budget.counters.recordTokens budget.elapsed total) := by
  apply run_checked
  simp only [EStateM.run_bind, EStateM.run_get]
  split
  next => rfl
  next => rfl

theorem run_addOutput (bytes : UInt64) : (TimedBudget.addOutput bytes).run budget =
    budget.settle (fun _ => ()) (budget.counters.addOutput budget.elapsed bytes) := by
  apply run_checked
  simp only [EStateM.run_bind, EStateM.run_get]
  split
  next => rfl
  next =>
    split
    next => rfl
    next => rfl

theorem run_startTool : TimedBudget.startTool.run budget =
    budget.settle (fun _ => ()) (budget.counters.startTool budget.elapsed) := by
  apply run_checked
  simp only [EStateM.run_bind, EStateM.run_get]
  split
  next => rfl
  next => rfl

theorem run_returning {α β : Type} {call : BudgetCall α} {answer : RunBudget → α} (f : α → β)
    {computed : Except ToolError RunBudget} (h : call.run budget = budget.settle answer computed) :
    (call >>= fun a => pure (f a)).run budget = budget.settle (fun c => f (answer c)) computed := by
  rw [EStateM.run_bind, h]
  cases computed with
  | ok counters => rfl
  | error e => rfl

/-- Every call's result is the counters' own, and a failed call leaves the budget alone. -/
theorem run_perform (operation : BudgetOperation) : operation.perform.run budget =
    budget.settle operation.turnOf (operation.outcome budget.counters budget.elapsed) := by
  cases operation with
  | checkTime =>
    have hcheck : TimedBudget.checkTime.run budget = budget.settle (fun _ => ())
        (BudgetOperation.checkTime.outcome budget.counters budget.elapsed) := by
      rw [run_checkTime, BudgetOperation.outcome]
      cases budget.counters.checkTime budget.elapsed with
      | ok => rfl
      | error e => rfl
    exact run_returning budget (fun _ => none) hcheck
  | startTurn => exact run_returning budget some (run_startTurn budget)
  | recordTokens total => exact run_returning budget (fun _ => none) (run_recordTokens budget total)
  | addOutput bytes => exact run_returning budget (fun _ => none) (run_addOutput budget bytes)
  | startTool => exact run_returning budget (fun _ => none) (run_startTool budget)
  | finishTool => rfl

end Perform

namespace TimedBudget

/-- One operation, called after a wait: its answer and the budget it leaves. -/
def step (budget : TimedBudget) (call : Nat × BudgetOperation) :
    Except ToolError (Option UInt32) × TimedBudget :=
  match call.2.perform.run (budget.wait call.1) with
  | .ok turn next => (.ok turn, next)
  | .error e next => (.error e, next)

def run (budget : TimedBudget) (calls : List (Nat × BudgetOperation)) : TimedBudget :=
  calls.foldl (fun budget call => (budget.step call).2) budget

def answers (budget : TimedBudget) :
    List (Nat × BudgetOperation) → List (Except ToolError (Option UInt32))
  | [] => []
  | call :: later => (budget.step call).1 :: (budget.step call).2.answers later

/-- A budget as a process first holds it. -/
inductive Started : TimedBudget → Prop
  | fresh (limits : RunLimits) : Started (.new limits)
  | restored {limits : RunLimits} {elapsed : Nat} {turns : UInt32} {tokens outputBytes : UInt64}
      {activeTools : UInt32} {budget : TimedBudget}
      (h : restore limits elapsed turns tokens outputBytes activeTools = .ok budget) :
      Started budget

/-- The elapsed time, with the time before a restore, is over the limit. -/
def Expired (budget : TimedBudget) : Prop :=
  1000000 * budget.counters.limits.maxTimeMs.toNat < budget.elapsedBeforeStart + budget.sinceStart

end TimedBudget

def RunBudget.WithinLimits (counters : RunBudget) : Prop :=
  counters.turns ≤ counters.limits.maxTurns ∧ counters.tokens ≤ counters.limits.maxTokens ∧
    counters.outputBytes ≤ counters.limits.maxOutputBytes ∧
    counters.activeTools ≤ counters.limits.maxConcurrency

/-- What an admitted operation counts, on naturals. -/
def BudgetOperation.Counted (before after : RunBudget) : BudgetOperation → Prop
  | checkTime => after = before
  | startTurn => after = { before with turns := after.turns } ∧
      after.turns.toNat = min (before.turns.toNat + 1) (UInt32.size - 1)
  | recordTokens total => after = { before with tokens := total }
  | addOutput bytes => after = { before with outputBytes := after.outputBytes } ∧
      after.outputBytes.toNat = before.outputBytes.toNat + bytes.toNat
  | startTool => after = { before with activeTools := after.activeTools } ∧
      after.activeTools.toNat = min (before.activeTools.toNat + 1) (UInt32.size - 1)
  | finishTool => after = { before with activeTools := after.activeTools } ∧
      after.activeTools.toNat = before.activeTools.toNat - 1

section Outcome

variable {before after : RunBudget} {elapsed : Nat} {operation : BudgetOperation}

theorem outcome_counted (h : operation.outcome before elapsed = .ok after) :
    operation.Counted before after := by
  cases operation with
  | checkTime =>
    simp only [BudgetOperation.outcome] at h
    cases hcheck : before.checkTime elapsed with
    | ok => rw [hcheck] at h; exact (Except.ok.inj h).symm
    | error e => rw [hcheck] at h; cases h
  | startTurn =>
    obtain ⟨-, turns, hturns, -, rfl⟩ := startTurn_cases h
    exact ⟨rfl, hturns⟩
  | recordTokens total => exact (recordTokens_ok_iff.mp h).2.2.2
  | addOutput bytes =>
    obtain ⟨-, outputBytes, hbytes, -, rfl⟩ := addOutput_cases h
    exact ⟨rfl, hbytes⟩
  | startTool =>
    obtain ⟨-, activeTools, htools, -, rfl⟩ := startTool_cases h
    exact ⟨rfl, htools⟩
  | finishTool =>
    have hafter := Except.ok.inj h
    subst hafter
    exact ⟨rfl, toNat_finishTool before⟩

theorem outcome_within (h : operation.outcome before elapsed = .ok after)
    (within : before.WithinLimits) : after.WithinLimits := by
  obtain ⟨hturns, htokens, hbytes, htools⟩ := within
  cases operation with
  | checkTime =>
    have hafter : after = before := outcome_counted h
    exact hafter ▸ ⟨hturns, htokens, hbytes, htools⟩
  | startTurn =>
    obtain ⟨-, turns, -, fits, rfl⟩ := startTurn_cases h
    exact ⟨fits, htokens, hbytes, htools⟩
  | recordTokens total =>
    obtain ⟨-, fits, -, rfl⟩ := recordTokens_ok_iff.mp h
    exact ⟨hturns, fits, hbytes, htools⟩
  | addOutput bytes =>
    obtain ⟨-, outputBytes, -, fits, rfl⟩ := addOutput_cases h
    exact ⟨hturns, htokens, fits, htools⟩
  | startTool =>
    obtain ⟨-, activeTools, -, fits, rfl⟩ := startTool_cases h
    exact ⟨hturns, htokens, hbytes, fits⟩
  | finishTool =>
    obtain ⟨hafter, hcount⟩ := outcome_counted h
    have hfits : after.activeTools ≤ before.limits.maxConcurrency := by
      rw [UInt32.le_iff_toNat_le] at htools ⊢
      omega
    rw [hafter]
    exact ⟨hturns, htokens, hbytes, hfits⟩

/-- A turn, a token total and output bytes are counted upwards. -/
theorem outcome_grown (h : operation.outcome before elapsed = .ok after) :
    before.turns ≤ after.turns ∧ before.tokens ≤ after.tokens ∧
      before.outputBytes ≤ after.outputBytes := by
  have hturns := before.turns.toNat_lt
  have hsize : UInt32.size = 4294967296 := rfl
  have hcount := outcome_counted h
  simp only [UInt32.le_iff_toNat_le, UInt64.le_iff_toNat_le]
  cases operation with
  | checkTime => rw [show after = before from hcount]; omega
  | startTurn =>
    obtain ⟨hafter, hcount⟩ := hcount
    rw [hafter]
    simp only
    omega
  | recordTokens total =>
    have grown := (recordTokens_ok_iff.mp h).2.2.1
    rw [UInt64.le_iff_toNat_le] at grown
    rw [show after = _ from hcount]
    simp only
    omega
  | addOutput bytes =>
    obtain ⟨hafter, hcount⟩ := hcount
    rw [hafter]
    simp only
    omega
  | startTool => rw [hcount.1]; simp only; omega
  | finishTool => rw [hcount.1]; simp only; omega

/-- Every operation but a release asks for time. -/
theorem outcome_late (late : before.TimedOut elapsed) (timed : operation ≠ .finishTool) :
    operation.outcome before elapsed = .error (RunBudget.limit .timeout) := by
  have hcheck : before.checkTime elapsed = .error (RunBudget.limit .timeout) := if_pos late
  cases operation with
  | checkTime => rw [BudgetOperation.outcome, hcheck]; rfl
  | startTurn => rw [BudgetOperation.outcome, RunBudget.startTurn, hcheck]; rfl
  | recordTokens total => rw [BudgetOperation.outcome, RunBudget.recordTokens, hcheck]; rfl
  | addOutput bytes => rw [BudgetOperation.outcome, RunBudget.addOutput, hcheck]; rfl
  | startTool => rw [BudgetOperation.outcome, RunBudget.startTool, hcheck]; rfl
  | finishTool => exact absurd rfl timed

end Outcome

section Step

variable {budget : TimedBudget} {call : Nat × BudgetOperation}

theorem step_of_ok {counters : RunBudget}
    (h : call.2.outcome budget.counters (budget.wait call.1).elapsed = .ok counters) :
    budget.step call = (.ok (call.2.turnOf counters), (budget.wait call.1).setCounters counters) := by
  have hrun := run_perform (budget.wait call.1) call.2
  rw [show (budget.wait call.1).counters = budget.counters from rfl, h] at hrun
  rw [TimedBudget.step, hrun]
  rfl

theorem step_of_error {e : ToolError}
    (h : call.2.outcome budget.counters (budget.wait call.1).elapsed = .error e) :
    budget.step call = (.error e, budget.wait call.1) := by
  have hrun := run_perform (budget.wait call.1) call.2
  rw [show (budget.wait call.1).counters = budget.counters from rfl, h] at hrun
  rw [TimedBudget.step, hrun]
  rfl

/-- What one step can do. -/
theorem step_cases (budget : TimedBudget) (call : Nat × BudgetOperation) :
    (∃ counters, call.2.outcome budget.counters (budget.wait call.1).elapsed = .ok counters ∧
      budget.step call =
        (.ok (call.2.turnOf counters), (budget.wait call.1).setCounters counters)) ∨
    ∃ e, call.2.outcome budget.counters (budget.wait call.1).elapsed = .error e ∧
      budget.step call = (.error e, budget.wait call.1) := by
  cases h : call.2.outcome budget.counters (budget.wait call.1).elapsed with
  | ok counters => exact .inl ⟨counters, rfl, step_of_ok h⟩
  | error e => exact .inr ⟨e, rfl, step_of_error h⟩

theorem step_within (within : budget.counters.WithinLimits) :
    (budget.step call).2.counters.WithinLimits := by
  obtain ⟨counters, hout, hstep⟩ | ⟨e, -, hstep⟩ := step_cases budget call
  · rw [hstep]
    exact outcome_within hout within
  · rw [hstep]
    exact within

theorem run_within (calls : List (Nat × BudgetOperation))
    (within : budget.counters.WithinLimits) : (budget.run calls).counters.WithinLimits := by
  induction calls generalizing budget with
  | nil => exact within
  | cons call later ih => exact ih (step_within within)

end Step

/-- The time the restored budget starts from is a `Duration`. -/
theorem timedOut_iff (budget : TimedBudget) :
    budget.counters.TimedOut budget.elapsed ↔ budget.Expired := by
  have hlimit := budget.counters.limits.maxTimeMs.toNat_lt
  have hsize : UInt64.size = 18446744073709551616 := rfl
  unfold RunBudget.TimedOut TimedBudget.Expired TimedBudget.elapsed durationAdd durationMax
  omega

theorem outcome_limits {before after : RunBudget} {elapsed : Nat} {operation : BudgetOperation}
    (h : operation.outcome before elapsed = .ok after) : after.limits = before.limits := by
  have hcount := outcome_counted h
  cases operation with
  | checkTime => rw [show after = before from hcount]
  | recordTokens total => rw [show after = { before with tokens := total } from hcount]
  | startTurn => rw [hcount.1]
  | addOutput bytes => rw [hcount.1]
  | startTool => rw [hcount.1]
  | finishTool => rw [hcount.1]

section Runs

variable {budget : TimedBudget}

theorem step_grown (budget : TimedBudget) (call : Nat × BudgetOperation) :
    budget.counters.turns ≤ (budget.step call).2.counters.turns ∧
    budget.counters.tokens ≤ (budget.step call).2.counters.tokens ∧
    budget.counters.outputBytes ≤ (budget.step call).2.counters.outputBytes := by
  obtain ⟨counters, hout, hstep⟩ | ⟨e, -, hstep⟩ := step_cases budget call
  · rw [hstep]
    exact outcome_grown hout
  · rw [hstep]
    exact ⟨UInt32.le_refl _, UInt64.le_refl _, UInt64.le_refl _⟩

theorem run_grown (calls : List (Nat × BudgetOperation)) :
    budget.counters.turns ≤ (budget.run calls).counters.turns ∧
    budget.counters.tokens ≤ (budget.run calls).counters.tokens ∧
    budget.counters.outputBytes ≤ (budget.run calls).counters.outputBytes := by
  induction calls generalizing budget with
  | nil => exact ⟨UInt32.le_refl _, UInt64.le_refl _, UInt64.le_refl _⟩
  | cons call later ih =>
    obtain ⟨hturns, htokens, hbytes⟩ := step_grown budget call
    have hlater := @ih (budget.step call).2
    exact ⟨UInt32.le_trans hturns hlater.1, UInt64.le_trans htokens hlater.2.1,
      UInt64.le_trans hbytes hlater.2.2⟩

theorem wait_expired (nanos : Nat) (h : budget.Expired) : (budget.wait nanos).Expired := by
  have hwait : (budget.wait nanos).sinceStart = budget.sinceStart + nanos := rfl
  unfold TimedBudget.Expired at h ⊢
  rw [hwait, ← Nat.add_assoc]
  exact Nat.lt_of_lt_of_le h (Nat.le_add_right _ _)

theorem step_expired (call : Nat × BudgetOperation) (h : budget.Expired) :
    (budget.step call).2.Expired := by
  have hwait := wait_expired call.1 h
  obtain ⟨counters, hout, hstep⟩ | ⟨e, -, hstep⟩ := step_cases budget call
  · have hlimits := outcome_limits hout
    rw [hstep]
    unfold TimedBudget.Expired at hwait ⊢
    rw [show ((budget.wait call.1).setCounters counters).counters.limits =
      (budget.wait call.1).counters.limits from hlimits]
    exact hwait
  · rw [hstep]
    exact hwait

/-- Once the time is over its limit it stays so. -/
theorem run_expired (calls : List (Nat × BudgetOperation)) (h : budget.Expired) :
    (budget.run calls).Expired := by
  induction calls generalizing budget with
  | nil => exact h
  | cons call later ih => exact ih (step_expired call h)

theorem step_late (call : Nat × BudgetOperation) (h : budget.Expired)
    (timed : call.2 ≠ .finishTool) :
    (budget.step call).1 = .error (RunBudget.limit .timeout) := by
  have late := (timedOut_iff (budget.wait call.1)).mpr (wait_expired call.1 h)
  rw [step_of_error (outcome_late late timed)]

end Runs

/-- Two budgets that no wait tells apart. -/
def TimedBudget.Alike (left right : TimedBudget) : Prop :=
  left.counters = right.counters ∧ ∀ nanos, (left.wait nanos).elapsed = (right.wait nanos).elapsed

section Restored

variable {left right : TimedBudget}

theorem setCounters_wait_elapsed (budget : TimedBudget) (counters : RunBudget) (nanos later : Nat) :
    (((budget.wait nanos).setCounters counters).wait later).elapsed =
      (budget.wait (nanos + later)).elapsed := by
  show durationAdd _ (budget.sinceStart + nanos + later) = durationAdd _ _
  rw [Nat.add_assoc]
  rfl

theorem step_alike (alike : left.Alike right) (call : Nat × BudgetOperation) :
    (left.step call).1 = (right.step call).1 ∧ (left.step call).2.Alike (right.step call).2 := by
  obtain ⟨hcounters, helapsed⟩ := alike
  have hnow := helapsed call.1
  have hlater (nanos : Nat) := helapsed (call.1 + nanos)
  obtain ⟨counters, hout, hstep⟩ | ⟨e, hout, hstep⟩ := step_cases left call
  · have hright := hout
    rw [hcounters, hnow] at hright
    rw [hstep, step_of_ok hright]
    refine ⟨rfl, rfl, fun nanos => ?_⟩
    rw [setCounters_wait_elapsed, setCounters_wait_elapsed]
    exact hlater nanos
  · have hright := hout
    rw [hcounters, hnow] at hright
    rw [hstep, step_of_error hright]
    refine ⟨rfl, hcounters, fun nanos => ?_⟩
    exact (setCounters_wait_elapsed left left.counters call.1 nanos).trans
      ((hlater nanos).trans (setCounters_wait_elapsed right right.counters call.1 nanos).symm)

theorem run_alike (alike : left.Alike right) (calls : List (Nat × BudgetOperation)) :
    left.answers calls = right.answers calls ∧
      (left.run calls).counters = (right.run calls).counters := by
  induction calls generalizing left right with
  | nil => exact ⟨rfl, alike.1⟩
  | cons call later ih =>
    obtain ⟨hanswer, hnext⟩ := step_alike alike call
    obtain ⟨hanswers, hcounters⟩ := ih hnext
    refine ⟨?_, hcounters⟩
    rw [TimedBudget.answers, TimedBudget.answers, hanswer, hanswers]

/-- A budget restored from a live one's counters and elapsed time is like it. -/
theorem restore_alike {live : TimedBudget} (within : live.counters.WithinLimits) :
    ∃ restored, TimedBudget.restore live.counters.limits live.elapsed live.counters.turns
      live.counters.tokens live.counters.outputBytes live.counters.activeTools = .ok restored ∧
      restored.Alike live := by
  obtain ⟨hturns, htokens, hbytes, htools⟩ := within
  have hcounters := restore_ok_iff.mpr ⟨hturns, htokens, hbytes, htools, rfl⟩
  refine ⟨⟨live.counters, live.elapsed, 0⟩, ?_, rfl, fun nanos => ?_⟩
  · rw [TimedBudget.restore, hcounters]
    rfl
  · simp only [TimedBudget.wait, TimedBudget.elapsed, durationAdd]
    omega

end Restored

/-- What a budget keeps whenever it is asked. -/
structure BudgetKept (live : TimedBudget) : Prop where
  within : live.counters.WithinLimits
  grown : ∀ later, live.counters.turns ≤ (live.run later).counters.turns ∧
    live.counters.tokens ≤ (live.run later).counters.tokens ∧
    live.counters.outputBytes ≤ (live.run later).counters.outputBytes
  refused : ∀ call e, (live.step call).1 = .error e → (live.step call).2 = live.wait call.1
  counted : ∀ call turn, (live.step call).1 = .ok turn →
    call.2.Counted live.counters (live.step call).2.counters ∧
    turn = call.2.turnOf (live.step call).2.counters
  expired : ∀ nanos later call, (live.wait nanos).Expired → call.2 ≠ .finishTool →
    (((live.wait nanos).run later).step call).1 = .error (RunBudget.limit .timeout)
  restored : ∃ restored, TimedBudget.restore live.counters.limits live.elapsed
    live.counters.turns live.counters.tokens live.counters.outputBytes
    live.counters.activeTools = .ok restored ∧
    ∀ later, restored.answers later = live.answers later ∧
      (restored.run later).counters = (live.run later).counters

theorem started_within {budget : TimedBudget} (start : budget.Started) :
    budget.counters.WithinLimits := by
  cases start with
  | fresh limits =>
    exact ⟨UInt32.zero_le, UInt64.zero_le, UInt64.zero_le, UInt32.zero_le⟩
  | restored h =>
    obtain ⟨counters, hcounters, h⟩ := FallibleRun.bind_eq_ok_iff.mp h
    obtain ⟨hturns, htokens, hbytes, htools, rfl⟩ := restore_ok_iff.mp hcounters
    cases h
    exact ⟨hturns, htokens, hbytes, htools⟩

/-- After any calls on a fresh or restored budget. -/
theorem budget_kept {budget : TimedBudget} (start : budget.Started)
    (calls : List (Nat × BudgetOperation)) : BudgetKept (budget.run calls) := by
  have within := run_within calls (started_within start)
  generalize budget.run calls = live at within
  refine ⟨within, run_grown, fun call e refused => ?_, fun call turn admitted => ?_,
    fun nanos later call late timed => step_late call (run_expired later late) timed, ?_⟩
  · obtain ⟨counters, -, hstep⟩ | ⟨_, -, hstep⟩ := step_cases live call
    · rw [hstep] at refused
      cases refused
    · rw [hstep]
  · obtain ⟨counters, hout, hstep⟩ | ⟨_, -, hstep⟩ := step_cases live call
    · rw [hstep] at admitted ⊢
      exact ⟨outcome_counted hout, (Except.ok.inj admitted).symm⟩
    · rw [hstep] at admitted
      cases admitted
  · obtain ⟨restored, hrestore, alike⟩ := restore_alike within
    exact ⟨restored, hrestore, run_alike alike⟩

theorem budget_kept_started :
    BudgetKept ((TimedBudget.new ⟨2, 10, 100, 4096, 1⟩).run
      [(5, .startTurn), (7, .addOutput 4000), (1, .startTool)]) :=
  budget_kept (.fresh _) _

end AutoHarness
