import AutoHarness.FallibleRun
import AutoHarness.ToolPlan

namespace AutoHarness

def RunBudget.limit (kind : ToolErrorKind) : ToolError := ⟨kind, .never⟩

/-- `u64::saturating_add`. -/
def saturatingAdd (left right : UInt64) : UInt64 :=
  UInt64.ofNat (min (left.toNat + right.toNat) (UInt64.size - 1))

/-- Process-local counters checked against immutable durable run limits. -/
structure RunBudget where
  limits : RunLimits
  turns : UInt32
  tokens : UInt64
  outputBytes : UInt64
  activeTools : UInt32
deriving DecidableEq

namespace RunBudget

def new (limits : RunLimits) : RunBudget := ⟨limits, 0, 0, 0, 0⟩

def restore (limits : RunLimits) (turns : UInt32) (tokens outputBytes : UInt64)
    (activeTools : UInt32) : Except ToolError RunBudget :=
  if limits.maxTurns < turns then .error (RunBudget.limit .turnLimit)
  else if limits.maxTokens < tokens ∨ limits.maxOutputBytes < outputBytes ∨
      limits.maxConcurrency < activeTools then .error (RunBudget.limit .outputLimit)
  else .ok ⟨limits, turns, tokens, outputBytes, activeTools⟩

variable (budget : RunBudget) (elapsed : Nat)

/-- The time since the attempt started, in nanoseconds, is over its limit. -/
def TimedOut : Prop := 1000000 * budget.limits.maxTimeMs.toNat < elapsed

instance : Decidable (budget.TimedOut elapsed) := inferInstanceAs (Decidable (_ < _))

def checkTime : Except ToolError Unit :=
  if budget.TimedOut elapsed then .error (RunBudget.limit .timeout) else .ok ()

def startTurn : Except ToolError RunBudget := do
  budget.checkTime elapsed
  let next := UInt32.ofNat (min (budget.turns.toNat + 1) (UInt32.size - 1))
  if budget.limits.maxTurns < next then .error (RunBudget.limit .turnLimit)
  else .ok { budget with turns := next }

/-- Replaces cumulative provider token usage. -/
def recordTokens (total : UInt64) : Except ToolError RunBudget := do
  budget.checkTime elapsed
  if budget.limits.maxTokens < total ∨ total < budget.tokens then .error (RunBudget.limit .outputLimit)
  else .ok { budget with tokens := total }

def addOutput (bytes : UInt64) : Except ToolError RunBudget := do
  budget.checkTime elapsed
  if UInt64.size ≤ budget.outputBytes.toNat + bytes.toNat then .error (RunBudget.limit .outputLimit)
  else if budget.limits.maxOutputBytes < budget.outputBytes + bytes then
    .error (RunBudget.limit .outputLimit)
  else .ok { budget with outputBytes := budget.outputBytes + bytes }

def startTool : Except ToolError RunBudget := do
  budget.checkTime elapsed
  let next := UInt32.ofNat (min (budget.activeTools.toNat + 1) (UInt32.size - 1))
  if budget.limits.maxConcurrency < next then .error (RunBudget.limit .outputLimit)
  else .ok { budget with activeTools := next }

def finishTool : RunBudget :=
  { budget with activeTools := if budget.activeTools = 0 then 0 else budget.activeTools - 1 }

end RunBudget

section Specs

variable {budget next : RunBudget} {elapsed : Nat}

open FallibleRun (bind_eq_ok_iff)

theorem checkTime_ok_iff : budget.checkTime elapsed = .ok () ↔ ¬ budget.TimedOut elapsed := by
  unfold RunBudget.checkTime
  split
  next late => exact ⟨nofun, fun h => absurd late h⟩
  next early => exact ⟨fun _ => early, fun _ => rfl⟩

/-- What recording a total asks for, and what it changes. -/
theorem recordTokens_ok_iff {total : UInt64} :
    budget.recordTokens elapsed total = .ok next ↔ ¬ budget.TimedOut elapsed ∧
      total ≤ budget.limits.maxTokens ∧ budget.tokens ≤ total ∧
      next = { budget with tokens := total } := by
  unfold RunBudget.recordTokens
  rw [bind_eq_ok_iff]
  constructor
  · rintro ⟨_, early, h⟩
    split at h
    next => cases h
    next fits =>
      rw [not_or, UInt64.not_lt, UInt64.not_lt] at fits
      exact ⟨checkTime_ok_iff.mp early, fits.1, fits.2, (Except.ok.inj h).symm⟩
  · rintro ⟨early, small, grown, rfl⟩
    refine ⟨(), checkTime_ok_iff.mpr early, ?_⟩
    rw [if_neg]
    rw [not_or, UInt64.not_lt, UInt64.not_lt]
    exact ⟨small, grown⟩

/-- A counter's next value, which `saturating_add` keeps in range. -/
theorem toNat_succ_saturating (counter : UInt32) :
    (UInt32.ofNat (min (counter.toNat + 1) (UInt32.size - 1))).toNat =
      min (counter.toNat + 1) (UInt32.size - 1) := by
  have hsize : UInt32.size = 4294967296 := rfl
  exact UInt32.toNat_ofNat_of_lt' (by omega)

theorem startTurn_cases (h : budget.startTurn elapsed = .ok next) :
    ¬ budget.TimedOut elapsed ∧ ∃ turns : UInt32,
      turns.toNat = min (budget.turns.toNat + 1) (UInt32.size - 1) ∧
      turns ≤ budget.limits.maxTurns ∧ next = { budget with turns := turns } := by
  obtain ⟨_, early, h⟩ := bind_eq_ok_iff.mp h
  simp only at h
  split at h
  next => cases h
  next fits =>
    have hnext := Except.ok.inj h
    exact ⟨checkTime_ok_iff.mp early, _, toNat_succ_saturating budget.turns,
      UInt32.not_lt.mp fits, hnext.symm⟩

theorem startTurn_ok (h : budget.startTurn elapsed = .ok next) :
    next.limits = budget.limits ∧ next.tokens = budget.tokens := by
  obtain ⟨-, turns, -, -, rfl⟩ := startTurn_cases h
  exact ⟨rfl, rfl⟩

theorem addOutput_cases {bytes : UInt64} (h : budget.addOutput elapsed bytes = .ok next) :
    ¬ budget.TimedOut elapsed ∧ ∃ outputBytes : UInt64,
      outputBytes.toNat = budget.outputBytes.toNat + bytes.toNat ∧
      outputBytes ≤ budget.limits.maxOutputBytes ∧
      next = { budget with outputBytes := outputBytes } := by
  obtain ⟨_, early, h⟩ := bind_eq_ok_iff.mp h
  split at h
  next => cases h
  next small =>
    split at h
    next => cases h
    next fits =>
      have hnext := Except.ok.inj h
      refine ⟨checkTime_ok_iff.mp early, _, ?_, UInt64.not_lt.mp fits, hnext.symm⟩
      have hsize : UInt64.size = 18446744073709551616 := rfl
      rw [UInt64.toNat_add]
      omega

theorem addOutput_ok {bytes : UInt64} (h : budget.addOutput elapsed bytes = .ok next) :
    next.limits = budget.limits ∧ next.tokens = budget.tokens := by
  obtain ⟨-, outputBytes, -, -, rfl⟩ := addOutput_cases h
  exact ⟨rfl, rfl⟩

theorem startTool_cases (h : budget.startTool elapsed = .ok next) :
    ¬ budget.TimedOut elapsed ∧ ∃ activeTools : UInt32,
      activeTools.toNat = min (budget.activeTools.toNat + 1) (UInt32.size - 1) ∧
      activeTools ≤ budget.limits.maxConcurrency ∧
      next = { budget with activeTools := activeTools } := by
  obtain ⟨_, early, h⟩ := bind_eq_ok_iff.mp h
  simp only at h
  split at h
  next => cases h
  next fits =>
    have hnext := Except.ok.inj h
    exact ⟨checkTime_ok_iff.mp early, _, toNat_succ_saturating budget.activeTools,
      UInt32.not_lt.mp fits, hnext.symm⟩

theorem startTool_ok (h : budget.startTool elapsed = .ok next) :
    next.limits = budget.limits ∧ next.tokens = budget.tokens := by
  obtain ⟨-, activeTools, -, -, rfl⟩ := startTool_cases h
  exact ⟨rfl, rfl⟩

/-- Releasing a slot takes one away, and none from zero. -/
theorem toNat_finishTool (budget : RunBudget) :
    budget.finishTool.activeTools.toNat = budget.activeTools.toNat - 1 := by
  unfold RunBudget.finishTool
  split
  next idle => simp only [idle, UInt32.toNat_zero]
  next busy =>
    have hpos : (1 : UInt32) ≤ budget.activeTools := by
      rw [UInt32.le_iff_toNat_le]
      rw [← UInt32.toNat_inj] at busy
      have hzero : (0 : UInt32).toNat = 0 := rfl
      have hone : (1 : UInt32).toNat = 1 := rfl
      omega
    exact UInt32.toNat_sub_of_le _ _ hpos

/-- The counters a restore asks for, and the budget it makes of them. -/
theorem restore_ok_iff {limits : RunLimits} {turns : UInt32} {tokens outputBytes : UInt64}
    {activeTools : UInt32} :
    RunBudget.restore limits turns tokens outputBytes activeTools = .ok next ↔
      turns ≤ limits.maxTurns ∧ tokens ≤ limits.maxTokens ∧
      outputBytes ≤ limits.maxOutputBytes ∧ activeTools ≤ limits.maxConcurrency ∧
      next = ⟨limits, turns, tokens, outputBytes, activeTools⟩ := by
  unfold RunBudget.restore
  split
  next many => exact ⟨nofun, fun h => absurd h.1 (UInt32.not_le.mpr many)⟩
  next few =>
    split
    next exceeds =>
      refine ⟨nofun, fun ⟨_, htokens, houtput, htools, _⟩ => ?_⟩
      obtain exceeds | exceeds | exceeds := exceeds
      · exact absurd htokens (UInt64.not_le.mpr exceeds)
      · exact absurd houtput (UInt64.not_le.mpr exceeds)
      · exact absurd htools (UInt32.not_le.mpr exceeds)
    next fits =>
      rw [not_or, not_or, UInt64.not_lt, UInt64.not_lt, UInt32.not_lt] at fits
      constructor
      · intro h
        exact ⟨UInt32.not_lt.mp few, fits.1, fits.2.1, fits.2.2, (Except.ok.inj h).symm⟩
      · rintro ⟨-, -, -, -, rfl⟩
        rfl

theorem restore_ok {limits : RunLimits} {turns : UInt32} {tokens outputBytes : UInt64}
    {activeTools : UInt32}
    (h : RunBudget.restore limits turns tokens outputBytes activeTools = .ok next) :
    next.limits = limits ∧ next.tokens = tokens := by
  obtain ⟨-, -, -, -, rfl⟩ := restore_ok_iff.mp h
  exact ⟨rfl, rfl⟩

end Specs

section Saturation

theorem toNat_saturatingAdd (left right : UInt64) :
    (saturatingAdd left right).toNat = min (left.toNat + right.toNat) (UInt64.size - 1) := by
  have hsize : UInt64.size = 18446744073709551616 := rfl
  exact UInt64.toNat_ofNat_of_lt' (by omega)

theorem saturatingAdd_mono {left small large : UInt64} (le : small ≤ large) :
    saturatingAdd left small ≤ saturatingAdd left large := by
  rw [UInt64.le_iff_toNat_le] at le ⊢
  rw [toNat_saturatingAdd, toNat_saturatingAdd]
  omega

theorem le_saturatingAdd (left right : UInt64) : left ≤ saturatingAdd left right := by
  have hleft := left.toNat_lt
  have hsize : UInt64.size = 18446744073709551616 := rfl
  rw [UInt64.le_iff_toNat_le, toNat_saturatingAdd]
  omega

end Saturation

end AutoHarness
