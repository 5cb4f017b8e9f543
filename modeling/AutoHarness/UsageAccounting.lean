import AutoHarness.RunBudget

namespace AutoHarness

open FallibleRun (EachAfter run run_history bind_eq_ok_iff bind_eq_error_iff eachAfter_concat_iff
  eachAfter_cons_iff eachAfter_nil)

section Model

def addOptional : Option UInt64 → Option UInt64 → Option UInt64
  | some left, some right => some (saturatingAdd left right)
  | some left, none => some left
  | none, some right => some right
  | none, none => none

def noUsage : UsageSnapshot := ⟨none, none, none, none, none, none⟩

/-- A run in progress and the usage that its attempt has recorded. -/
structure ActiveAttempt where
  budget : RunBudget
  usageBase : UsageSnapshot
  recorded : Option UsageSnapshot
deriving DecidableEq

/-- What happens to the counters of a run; a time is what has passed since the attempt started. -/
inductive RunInput where
  | usage (snapshot : UsageSnapshot) (elapsed : Nat)
  | output (bytes : UInt64) (elapsed : Nat)
  | turnStarted (elapsed : Nat)
  | restored (turns : UInt32) (outputBytes : UInt64)
  | toolStarted (elapsed : Nat)
  | toolFinished

namespace ActiveAttempt

def new (limits : RunLimits) : ActiveAttempt := ⟨.new limits, noUsage, none⟩

variable (active : ActiveAttempt)

def cumulativeUsage (usage : UsageSnapshot) : UsageSnapshot :=
  { inputTokens := addOptional active.usageBase.inputTokens usage.inputTokens
    outputTokens := addOptional active.usageBase.outputTokens usage.outputTokens
    totalTokens := addOptional active.usageBase.totalTokens usage.totalTokens
    cachedInputTokens := addOptional active.usageBase.cachedInputTokens usage.cachedInputTokens
    reasoningTokens := addOptional active.usageBase.reasoningTokens usage.reasoningTokens
    toolTokens := addOptional active.usageBase.toolTokens usage.toolTokens }

def recordTotal (elapsed : Nat) : Option UInt64 → Except ToolError RunBudget
  | some total => active.budget.recordTokens elapsed total
  | none => .ok active.budget

/-- An error ends the run, but for a tool that may not start. -/
def step : RunInput → Except ToolError ActiveAttempt
  | .usage snapshot elapsed => do
    let budget ← active.recordTotal elapsed (active.cumulativeUsage snapshot).totalTokens
    .ok { active with budget := budget, recorded := some (active.cumulativeUsage snapshot) }
  | .output bytes elapsed => do
    let budget ← active.budget.addOutput elapsed bytes
    .ok { active with budget := budget }
  | .turnStarted elapsed => do
    let budget ← active.budget.startTurn elapsed
    .ok { active with budget := budget, usageBase := active.recorded.getD noUsage }
  | .restored turns outputBytes => do
    let budget ← RunBudget.restore active.budget.limits turns
      ((active.recorded.bind UsageSnapshot.totalTokens).getD 0) outputBytes 0
    .ok { active with budget := budget, usageBase := active.recorded.getD noUsage }
  | .toolStarted elapsed =>
    match active.budget.startTool elapsed with
    | .ok budget => .ok { active with budget := budget }
    | .error _ => .ok active
  | .toolFinished => .ok { active with budget := active.budget.finishTool }

end ActiveAttempt

end Model

section Turns

/-- The snapshots of a run, turn by turn. -/
structure Turns where
  ended : List (List UsageSnapshot)
  current : List UsageSnapshot

def Turns.push (turns : Turns) : RunInput → Turns
  | .usage snapshot _ => { turns with current := turns.current ++ [snapshot] }
  | .turnStarted _ | .restored _ _ => ⟨turns.ended ++ [turns.current], []⟩
  | .output _ _ | .toolStarted _ | .toolFinished => turns

def turnsOf (history : List RunInput) : Turns := history.foldl Turns.push ⟨[], []⟩

def usageFields : List (UsageSnapshot → Option UInt64) :=
  [UsageSnapshot.inputTokens, UsageSnapshot.outputTokens, UsageSnapshot.totalTokens,
    UsageSnapshot.cachedInputTokens, UsageSnapshot.reasoningTokens, UsageSnapshot.toolTokens]

variable (field : UsageSnapshot → Option UInt64)

/-- The last value of a field in a turn. -/
def lastReported (turn : List UsageSnapshot) : Option UInt64 :=
  turn.foldl (fun last snapshot => (field snapshot).or last) none

def sumReported (turns : List (List UsageSnapshot)) : Option UInt64 :=
  turns.foldl (fun sum turn => addOptional sum (lastReported field turn)) none

def Turns.reported (turns : Turns) : Option UInt64 := sumReported field (turns.ended ++ [turns.current])

/-- Field by field, the sum over the turns of what each reported last. -/
def Turns.usage (turns : Turns) : UsageSnapshot :=
  { inputTokens := turns.reported UsageSnapshot.inputTokens
    outputTokens := turns.reported UsageSnapshot.outputTokens
    totalTokens := turns.reported UsageSnapshot.totalTokens
    cachedInputTokens := turns.reported UsageSnapshot.cachedInputTokens
    reasoningTokens := turns.reported UsageSnapshot.reasoningTokens
    toolTokens := turns.reported UsageSnapshot.toolTokens }

/-- A field that is present does not fall within its turn. -/
def Grows (turns : Turns) : RunInput → Prop
  | .usage snapshot _ => ∀ field ∈ usageFields, ∀ last value,
      lastReported field turns.current = some last → field snapshot = some value → last ≤ value
  | _ => True

/-- A field that is left out adds nothing to what the earlier turns have reported. -/
def Keeps (turns : Turns) : RunInput → Prop
  | .usage snapshot _ => ∀ field ∈ usageFields, field snapshot = none →
      turns.reported field = sumReported field turns.ended
  | _ => True

end Turns

section Invariant

@[simp] theorem addOptional_none (left : Option UInt64) : addOptional left none = left := by
  cases left with
  | none => rfl
  | some value => rfl

theorem lastReported_concat (field : UsageSnapshot → Option UInt64) (turn : List UsageSnapshot)
    (snapshot : UsageSnapshot) :
    lastReported field (turn ++ [snapshot]) = (field snapshot).or (lastReported field turn) := by
  unfold lastReported
  rw [List.foldl_append]
  rfl

theorem sumReported_concat (field : UsageSnapshot → Option UInt64) (turns : List (List UsageSnapshot))
    (turn : List UsageSnapshot) :
    sumReported field (turns ++ [turn]) =
      addOptional (sumReported field turns) (lastReported field turn) := by
  unfold sumReported
  rw [List.foldl_append]
  rfl

theorem turnsOf_concat (history : List RunInput) (input : RunInput) :
    turnsOf (history ++ [input]) = (turnsOf history).push input := by
  unfold turnsOf
  rw [List.foldl_append]
  rfl

/-- The counters agree with the snapshots of the turns. -/
structure Accounts (turns : Turns) (active : ActiveAttempt) : Prop where
  base : ∀ field ∈ usageFields, field active.usageBase = sumReported field turns.ended
  recorded : active.recorded.getD noUsage = turns.usage
  tokens : active.budget.tokens = turns.usage.totalTokens.getD 0

theorem forall_usageFields {P : (UsageSnapshot → Option UInt64) → Prop} :
    (∀ field ∈ usageFields, P field) ↔ P UsageSnapshot.inputTokens ∧ P UsageSnapshot.outputTokens ∧
      P UsageSnapshot.totalTokens ∧ P UsageSnapshot.cachedInputTokens ∧
      P UsageSnapshot.reasoningTokens ∧ P UsageSnapshot.toolTokens := by
  simp [usageFields]

theorem usageSnapshot_ext {a b : UsageSnapshot} (h : ∀ field ∈ usageFields, field a = field b) :
    a = b := by
  obtain ⟨input, output, total, cached, reasoning, tool⟩ := forall_usageFields.mp h
  cases a
  cases b
  simp only at input output total cached reasoning tool
  rw [input, output, total, cached, reasoning, tool]

theorem usage_field (turns : Turns) : ∀ field ∈ usageFields, field turns.usage = turns.reported field :=
  forall_usageFields.mpr ⟨rfl, rfl, rfl, rfl, rfl, rfl⟩

theorem cumulative_field (active : ActiveAttempt) (snapshot : UsageSnapshot) :
    ∀ field ∈ usageFields, field (active.cumulativeUsage snapshot) =
      addOptional (field active.usageBase) (field snapshot) :=
  forall_usageFields.mpr ⟨rfl, rfl, rfl, rfl, rfl, rfl⟩

theorem reported_push_usage (turns : Turns) (field : UsageSnapshot → Option UInt64)
    (snapshot : UsageSnapshot) (elapsed : Nat) :
    (turns.push (.usage snapshot elapsed)).reported field = addOptional
      (sumReported field turns.ended) ((field snapshot).or (lastReported field turns.current)) := by
  unfold Turns.reported Turns.push
  rw [sumReported_concat, lastReported_concat]

/-- An ended turn counts as it did before it ended. -/
theorem usage_push_ended (turns : Turns) :
    Turns.usage ⟨turns.ended ++ [turns.current], []⟩ = turns.usage := by
  refine usageSnapshot_ext fun field mem => ?_
  rw [usage_field _ field mem, usage_field _ field mem]
  unfold Turns.reported
  rw [sumReported_concat]
  exact addOptional_none _

variable {turns : Turns} {active next : ActiveAttempt} {snapshot : UsageSnapshot} {elapsed : Nat}

/-- A snapshot that loses no value accounts for all turns. -/
theorem Accounts.cumulative (accounts : Accounts turns active)
    (keeps : Keeps turns (.usage snapshot elapsed)) :
    active.cumulativeUsage snapshot = (turns.push (.usage snapshot elapsed)).usage := by
  refine usageSnapshot_ext fun field mem => ?_
  have hkeeps := keeps field mem
  rw [cumulative_field _ _ field mem, usage_field _ field mem, accounts.base field mem,
    reported_push_usage]
  cases hvalue : field snapshot with
  | some value => rfl
  | none =>
    have hsame := hkeeps hvalue
    unfold Turns.reported at hsame
    rw [sumReported_concat] at hsame
    rw [Option.none_or, hsame, addOptional_none]

/-- The total of a turn that reports no falling value does not fall. -/
theorem Accounts.tokens_le (accounts : Accounts turns active)
    (keeps : Keeps turns (.usage snapshot elapsed)) (grows : Grows turns (.usage snapshot elapsed)) :
    active.budget.tokens ≤ (active.cumulativeUsage snapshot).totalTokens.getD 0 := by
  have mem : UsageSnapshot.totalTokens ∈ usageFields := by simp [usageFields]
  have hcumulative : (active.cumulativeUsage snapshot).totalTokens =
      addOptional active.usageBase.totalTokens snapshot.totalTokens := rfl
  have hbase := accounts.base _ mem
  have hreported : turns.usage.totalTokens = addOptional
      (sumReported UsageSnapshot.totalTokens turns.ended)
      (lastReported UsageSnapshot.totalTokens turns.current) := by
    have h := usage_field turns _ mem
    unfold Turns.reported at h
    rwa [sumReported_concat] at h
  rw [accounts.tokens, hcumulative, hbase]
  cases hvalue : snapshot.totalTokens with
  | none =>
    have hsame := keeps _ mem hvalue
    have husage := usage_field turns _ mem
    rw [husage, hsame, addOptional_none]
    exact UInt64.le_refl _
  | some value =>
    rw [hreported]
    cases hlast : lastReported UsageSnapshot.totalTokens turns.current with
    | none =>
      cases sumReported UsageSnapshot.totalTokens turns.ended with
      | none => exact UInt64.zero_le
      | some sum => exact le_saturatingAdd sum value
    | some last =>
      have hgrown := grows _ mem last value hlast hvalue
      cases sumReported UsageSnapshot.totalTokens turns.ended with
      | none => exact hgrown
      | some sum => exact saturatingAdd_mono hgrown

/-- Nothing is counted while no turn has reported a total. -/
theorem Accounts.tokens_zero (accounts : Accounts turns active)
    (keeps : Keeps turns (.usage snapshot elapsed))
    (absent : (active.cumulativeUsage snapshot).totalTokens = none) : active.budget.tokens = 0 := by
  have mem : UsageSnapshot.totalTokens ∈ usageFields := by simp [usageFields]
  have hbase := accounts.base _ mem
  have hcumulative := cumulative_field active snapshot _ mem
  rw [absent, hbase] at hcumulative
  have hsnapshot : snapshot.totalTokens = none := by
    cases hvalue : snapshot.totalTokens with
    | none => rfl
    | some value =>
      rw [hvalue] at hcumulative
      cases hsum : sumReported UsageSnapshot.totalTokens turns.ended <;>
        rw [hsum] at hcumulative <;> cases hcumulative
  rw [hsnapshot, addOptional_none] at hcumulative
  have husage := usage_field turns _ mem
  rw [accounts.tokens, husage, keeps _ mem hsnapshot, ← hcumulative]
  rfl

theorem recordTotal_ok {total : Option UInt64} {budget : RunBudget}
    (h : active.recordTotal elapsed total = .ok budget) :
    budget.limits = active.budget.limits ∧ budget.tokens = total.getD active.budget.tokens := by
  cases total with
  | none =>
    cases h
    exact ⟨rfl, rfl⟩
  | some total =>
    obtain ⟨-, -, -, rfl⟩ := recordTokens_ok_iff.mp h
    exact ⟨rfl, rfl⟩

/-- A total that has not fallen is refused for its size or its time only. -/
theorem recordTotal_error {total : Option UInt64} {error : ToolError}
    (grown : active.budget.tokens ≤ total.getD 0)
    (h : active.recordTotal elapsed total = .error error) :
    active.budget.TimedOut elapsed ∨ ∃ value, total = some value ∧ active.budget.limits.maxTokens < value := by
  cases total with
  | none => cases h
  | some total =>
    by_contra hfine
    rw [not_or] at hfine
    have hsmall : total ≤ active.budget.limits.maxTokens := by
      rw [← UInt64.not_lt]
      exact fun large => hfine.2 ⟨total, rfl, large⟩
    have hok := recordTokens_ok_iff.mpr ⟨hfine.1, hsmall, grown, rfl⟩
    have hboth := hok.symm.trans h
    cases hboth

end Invariant

section Steps

variable {turns : Turns} {active next : ActiveAttempt} {input : RunInput}

/-- The new base is what is recorded when a turn ends. -/
theorem Accounts.endTurn (accounts : Accounts turns active) {budget : RunBudget}
    (tokens : budget.tokens = turns.usage.totalTokens.getD 0) :
    Accounts ⟨turns.ended ++ [turns.current], []⟩
      { active with budget := budget, usageBase := active.recorded.getD noUsage } where
  base := fun field mem => by
    rw [accounts.recorded]
    exact usage_field turns field mem
  recorded := by
    rw [usage_push_ended]
    exact accounts.recorded
  tokens := by
    rw [usage_push_ended]
    exact tokens

/-- Every step that loses no value keeps the accounts. -/
theorem Accounts.step (accounts : Accounts turns active) (keeps : Keeps turns input)
    (h : active.step input = .ok next) :
    Accounts (turns.push input) next ∧ next.budget.limits = active.budget.limits := by
  cases input with
  | usage snapshot elapsed =>
    simp only [ActiveAttempt.step, bind_eq_ok_iff, Except.ok.injEq] at h
    obtain ⟨budget, hbudget, rfl⟩ := h
    obtain ⟨limits, tokens⟩ := recordTotal_ok hbudget
    have hcumulative := accounts.cumulative keeps
    refine ⟨⟨accounts.base, hcumulative, ?_⟩, limits⟩
    rw [tokens, ← hcumulative]
    cases htotal : (active.cumulativeUsage snapshot).totalTokens with
    | some total => rfl
    | none => exact accounts.tokens_zero keeps htotal
  | output bytes elapsed =>
    simp only [ActiveAttempt.step, bind_eq_ok_iff, Except.ok.injEq] at h
    obtain ⟨budget, hbudget, rfl⟩ := h
    obtain ⟨limits, tokens⟩ := addOutput_ok hbudget
    exact ⟨⟨accounts.base, accounts.recorded, tokens.trans accounts.tokens⟩, limits⟩
  | turnStarted elapsed =>
    simp only [ActiveAttempt.step, bind_eq_ok_iff, Except.ok.injEq] at h
    obtain ⟨budget, hbudget, rfl⟩ := h
    obtain ⟨limits, tokens⟩ := startTurn_ok hbudget
    exact ⟨accounts.endTurn (tokens.trans accounts.tokens), limits⟩
  | restored turnsStarted outputBytes =>
    simp only [ActiveAttempt.step, bind_eq_ok_iff, Except.ok.injEq] at h
    obtain ⟨budget, hbudget, rfl⟩ := h
    obtain ⟨limits, tokens⟩ := restore_ok hbudget
    have hrecorded : (active.recorded.bind UsageSnapshot.totalTokens).getD 0 =
        turns.usage.totalTokens.getD 0 := by
      rw [← accounts.recorded]
      cases active.recorded with
      | none => rfl
      | some usage => rfl
    exact ⟨accounts.endTurn (tokens.trans hrecorded), limits⟩
  | toolStarted elapsed =>
    cases hbudget : active.budget.startTool elapsed with
    | ok budget =>
      simp only [ActiveAttempt.step, hbudget, Except.ok.injEq] at h
      subst h
      obtain ⟨limits, tokens⟩ := startTool_ok hbudget
      exact ⟨⟨accounts.base, accounts.recorded, tokens.trans accounts.tokens⟩, limits⟩
    | error refused =>
      simp only [ActiveAttempt.step, hbudget, Except.ok.injEq] at h
      subst h
      exact ⟨accounts, rfl⟩
  | toolFinished =>
    simp only [ActiveAttempt.step, Except.ok.injEq] at h
    subst h
    exact ⟨⟨accounts.base, accounts.recorded, accounts.tokens⟩, rfl⟩

theorem accounts_new (limits : RunLimits) : Accounts (turnsOf []) (ActiveAttempt.new limits) where
  base := forall_usageFields.mpr ⟨rfl, rfl, rfl, rfl, rfl, rfl⟩
  recorded := rfl
  tokens := rfl

/-- In a run that loses no value the accounts hold. -/
theorem accounts_run {limits : RunLimits} {history : List RunInput}
    (keeps : EachAfter (fun before input => Keeps (turnsOf before) input) history)
    (h : run ActiveAttempt.step (ActiveAttempt.new limits) history = .ok active) :
    Accounts (turnsOf history) active ∧ active.budget.limits = limits := by
  revert keeps
  refine run_history (P := fun history active =>
    EachAfter (fun before input => Keeps (turnsOf before) input) history →
      Accounts (turnsOf history) active ∧ active.budget.limits = limits)
    (fun _ => ⟨accounts_new limits, rfl⟩) ?_ h
  intro history active input next _ ih stepped keeps
  obtain ⟨before, last⟩ := eachAfter_concat_iff.mp keeps
  obtain ⟨accounts, same⟩ := ih before
  obtain ⟨kept, unchanged⟩ := accounts.step last stepped
  rw [turnsOf_concat]
  exact ⟨kept, unchanged.trans same⟩

/-- Where no snapshot leaves out a value that counts, the usage recorded after each is the sum over
the turns, and a snapshot is refused for that sum or for the time only. -/
theorem usage_accounted {limits : RunLimits} {history : List RunInput} {snapshot : UsageSnapshot}
    {elapsed : Nat} (h : run ActiveAttempt.step (ActiveAttempt.new limits) history = .ok active)
    (keeps : EachAfter (fun before input => Keeps (turnsOf before) input)
      (history ++ [.usage snapshot elapsed]))
    (grows : EachAfter (fun before input => Grows (turnsOf before) input)
      (history ++ [.usage snapshot elapsed])) :
    (∀ next, active.step (.usage snapshot elapsed) = .ok next →
      next.recorded = some (turnsOf (history ++ [.usage snapshot elapsed])).usage) ∧
    ∀ error, active.step (.usage snapshot elapsed) = .error error →
      active.budget.TimedOut elapsed ∨ ∃ total,
        (turnsOf (history ++ [.usage snapshot elapsed])).usage.totalTokens = some total ∧
          limits.maxTokens < total := by
  obtain ⟨before, last⟩ := eachAfter_concat_iff.mp keeps
  obtain ⟨accounts, same⟩ := accounts_run before h
  have hcumulative := accounts.cumulative last
  have hgrown := accounts.tokens_le last (eachAfter_concat_iff.mp grows).2
  rw [turnsOf_concat, ← hcumulative]
  constructor
  · intro next stepped
    obtain ⟨budget, -, hnext⟩ := bind_eq_ok_iff.mp stepped
    rw [← Except.ok.inj hnext]
  · intro error stepped
    have hrefused : active.recordTotal elapsed (active.cumulativeUsage snapshot).totalTokens =
        .error error := by
      rcases bind_eq_error_iff.mp stepped with refused | ⟨budget, -, impossible⟩
      · exact refused
      · cases impossible
    have hreason := recordTotal_error hgrown hrefused
    rwa [same] at hreason

end Steps

section Sample

def sampleLimits : RunLimits := ⟨4, 60000, 1000, 65536, 2⟩

/-- A snapshot with a total only. -/
def totalOnly (total : Option UInt64) : UsageSnapshot := { noUsage with totalTokens := total }

/-- A turn that reports ten tokens, and one that has reported five so far. -/
def sampleTurns : List RunInput :=
  [.turnStarted 0, .usage (totalOnly (some 10)) 1, .turnStarted 2, .usage (totalOnly (some 5)) 3]

def sampleActive : ActiveAttempt :=
  ⟨⟨sampleLimits, 2, 15, 0, 0⟩, totalOnly (some 10), some (totalOnly (some 15))⟩

theorem run_sampleTurns :
    run ActiveAttempt.step (ActiveAttempt.new sampleLimits) sampleTurns = .ok sampleActive := by
  decide

theorem grows_sampleTurns (total : Option UInt64) (grown : ∀ value, total = some value → 5 ≤ value) :
    EachAfter (fun before input => Grows (turnsOf before) input)
      (sampleTurns ++ [.usage (totalOnly total) 4]) := by
  have hfirst : ∀ (earlier : List (List UsageSnapshot)) (total : Option UInt64) (elapsed : Nat),
      Grows ⟨earlier, []⟩ (.usage (totalOnly total) elapsed) := by
    intro earlier total elapsed field _ last value impossible
    cases impossible
  simp only [sampleTurns, List.cons_append, List.nil_append, eachAfter_cons_iff]
  refine ⟨trivial, hfirst _ _ _, trivial, hfirst _ _ _, ?_, eachAfter_nil⟩
  refine forall_usageFields.mpr ⟨nofun, nofun, ?_, nofun, nofun, nofun⟩
  intro last value reported present
  have hlast : (5 : UInt64) = last := Option.some.inj reported
  rw [← hlast]
  exact grown value present

theorem usage_accounted_sample :
    (turnsOf (sampleTurns ++ [.usage (totalOnly (some 8)) 4])).usage = totalOnly (some 18) ∧
      sampleActive.step (.usage (totalOnly (some 8)) 4) =
        .ok ⟨⟨sampleLimits, 2, 18, 0, 0⟩, totalOnly (some 10), some (totalOnly (some 18))⟩ ∧
      some (totalOnly (some 18)) =
        some (turnsOf (sampleTurns ++ [.usage (totalOnly (some 8)) 4])).usage := by
  have hkeeps : EachAfter (fun before input => Keeps (turnsOf before) input)
      (sampleTurns ++ [.usage (totalOnly (some 8)) 4]) := by
    simp only [sampleTurns, List.cons_append, List.nil_append, eachAfter_cons_iff]
    refine ⟨trivial, ?_, trivial, ?_, ?_, eachAfter_nil⟩
    all_goals
      exact forall_usageFields.mpr
        ⟨fun _ => rfl, fun _ => rfl, nofun, fun _ => rfl, fun _ => rfl, fun _ => rfl⟩
  have hgrows := grows_sampleTurns (some 8) (by intro value h; cases h; decide)
  have hstep : sampleActive.step (.usage (totalOnly (some 8)) 4) =
      .ok ⟨⟨sampleLimits, 2, 18, 0, 0⟩, totalOnly (some 10), some (totalOnly (some 18))⟩ := by
    decide
  have haccounts := (usage_accounted run_sampleTurns hkeeps hgrows).1 _ hstep
  exact ⟨(Option.some.inj haccounts).symm, hstep, haccounts⟩

/-- A snapshot without the total of its turn lets a run fail that is within all its limits. -/
theorem missing_total_fails_run :
    run ActiveAttempt.step (ActiveAttempt.new sampleLimits) sampleTurns = .ok sampleActive ∧
    EachAfter (fun before input => Grows (turnsOf before) input)
      (sampleTurns ++ [.usage (totalOnly none) 4]) ∧
    sampleActive.step (.usage (totalOnly none) 4) = .error (RunBudget.limit .outputLimit) ∧
    ¬ sampleActive.budget.TimedOut 4 ∧
    (turnsOf (sampleTurns ++ [.usage (totalOnly none) 4])).usage.totalTokens = some 15 ∧
    ¬ sampleLimits.maxTokens < 15 := by
  refine ⟨run_sampleTurns, grows_sampleTurns none nofun, ?_, ?_, ?_, ?_⟩ <;> decide

end Sample

end AutoHarness
