import AutoHarness.KeyedRows
import AutoHarness.RequestContinuation

namespace AutoHarness

open IndexedList KeyedRows

/-- One conversation row rebuilt from durable events. -/
inductive Row where
  | you (prompt : String)
  | assistant (text : String) (usage : Option (UInt64 × UInt64))
      (failure : Option (String × String)) (retryOf : Option String)
  | tool (toolName resource outcome : String) (output : Option String)
deriving DecidableEq

def Row.pushText (text : String) : Row → Row
  | .assistant existing usage failure retryOf => .assistant (existing ++ text) usage failure retryOf
  | row => row

def Row.setUsage (usage : UsageSnapshot) : Row → Row
  | .assistant text _ failure retryOf =>
    .assistant text (some (usage.inputTokens.getD 0, usage.outputTokens.getD 0)) failure retryOf
  | row => row

def Row.setFailure (failure : AttemptFailure) : Row → Row
  | .assistant text usage _ retryOf =>
    .assistant text usage (some (failure.code.value, failure.message.value)) retryOf
  | row => row

def Row.setOutcome (outcome : String) : Row → Row
  | .tool toolName resource _ output => .tool toolName resource outcome output
  | row => row

def Row.setCompleted (output : ToolOutput) : Row → Row
  | .tool toolName resource _ _ => .tool toolName resource "completed" (some output.content)
  | row => row

/-- The rows so far, and where the row of each attempt and of each call stands. -/
structure Transcript where
  rows : List Row
  openAttempts : List (AttemptId × Nat)
  openTools : List (ToolCallId × Nat)

def Transcript.changeRow (t : Transcript) (index : Option Nat) (change : Row → Row) : Transcript :=
  match index with
  | some index => { t with rows := t.rows.modify index change }
  | none => t

def Transcript.changeAttempt (t : Transcript) (attemptId : AttemptId) (change : Row → Row) :
    Transcript :=
  t.changeRow (position t.openAttempts attemptId) change

def Transcript.changeTool (t : Transcript) (toolCallId : ToolCallId) (change : Row → Row) :
    Transcript :=
  t.changeRow (position t.openTools toolCallId) change

def policyOutcome : PermissionOutcome → String
  | .deny => "denied by policy"
  | .ask => "waiting for approval"
  | .allow => "allowed"

def Transcript.next (t : Transcript) : EventPayload → Transcript
  | .inputAdmitted _ prompt _ => { t with rows := t.rows ++ [.you prompt.value] }
  | .attemptPrepared attemptId _ _ retryOf =>
    { t with
      openAttempts := t.openAttempts ++ [(attemptId, t.rows.length)]
      rows := t.rows ++ [.assistant "" none none (retryOf.map Identifier.value)] }
  | .attemptTextAppended attemptId text => t.changeAttempt attemptId (.pushText text.value)
  | .attemptUsageRecorded attemptId usage => t.changeAttempt attemptId (.setUsage usage)
  | .attemptFailed attemptId failure => t.changeAttempt attemptId (.setFailure failure)
  | .toolCallProposed _ call =>
    { t with
      openTools := t.openTools ++ [(call.toolCallId, t.rows.length)]
      rows := t.rows ++ [.tool call.toolName.value call.capability.resource.value "proposed" none] }
  | .toolPermissionRecorded toolCallId _ outcome =>
    t.changeTool toolCallId (.setOutcome (policyOutcome outcome))
  -- the answer itself is not read
  | .toolPermissionAnswered toolCallId _ _ => t.changeTool toolCallId (.setOutcome "approved")
  | .toolCallCompleted toolCallId output => t.changeTool toolCallId (.setCompleted output)
  | .toolCallFailed toolCallId failure =>
    t.changeTool toolCallId (.setOutcome ("failed (" ++ failure.code.value ++ ")"))
  | .toolCallDenied toolCallId => t.changeTool toolCallId (.setOutcome "denied")
  | _ => t

def transcript (events : List EventEnvelope) : Transcript :=
  events.foldl (fun t event => t.next event.payload) ⟨[], [], []⟩

/-- Rebuilds conversation rows in durable order from lifecycle events. -/
def rebuild (events : List EventEnvelope) : List Row := (transcript events).rows

/-- What a row is about. -/
inductive RowKey where
  | input (inputId : InputId)
  | attempt (attemptId : AttemptId)
  | toolCall (toolCallId : ToolCallId)
deriving DecidableEq

def RowKey.inputId? : RowKey → Option InputId
  | .input inputId => some inputId
  | _ => none

def RowKey.attemptId? : RowKey → Option AttemptId
  | .attempt attemptId => some attemptId
  | _ => none

def RowKey.toolCallId? : RowKey → Option ToolCallId
  | .toolCall toolCallId => some toolCallId
  | _ => none

def EventPayload.rowKey? : EventPayload → Option RowKey
  | .inputAdmitted inputId _ _ => some (.input inputId)
  | .attemptPrepared attemptId _ _ _ => some (.attempt attemptId)
  | .toolCallProposed _ call => some (.toolCall call.toolCallId)
  | _ => none

/-- The inputs, attempts and calls of a log in the order of their events. -/
def rowKeys (log : List EventEnvelope) : List RowKey :=
  log.filterMap fun event => event.payload.rowKey?

theorem rowKeys_concat_some (log : List EventEnvelope) {event : EventEnvelope} {key : RowKey}
    (own : event.payload.rowKey? = some key) : rowKeys (log ++ [event]) = rowKeys log ++ [key] := by
  simp [rowKeys, own]

theorem rowKeys_concat_none (log : List EventEnvelope) {event : EventEnvelope}
    (other : event.payload.rowKey? = none) : rowKeys (log ++ [event]) = rowKeys log := by
  simp [rowKeys, other]

/-- The row of an attempt as the aggregate holds it. -/
def attemptRow (a : AttemptProjection) : Row :=
  .assistant a.responseText
    (a.usage.map fun usage => (usage.inputTokens.getD 0, usage.outputTokens.getD 0))
    (a.failure.map fun failure => (failure.code.value, failure.message.value))
    (a.retryOf.map Identifier.value)

/-- The row of a call with the given outcome. -/
def toolRow (c : ToolCallProjection) (outcome : String) : Row :=
  .tool c.call.toolName.value c.call.capability.resource.value outcome
    (c.output.map ToolOutput.content)

/-- The outcome that the export does show for the call. -/
def OutcomeShown (c : ToolCallProjection) (outcome : String) : Prop :=
  match c.status with
  | .proposed => c.humanAnswer = none ∧ outcome = "proposed"
  | .permissionPending => c.humanAnswer = none ∧ outcome = "waiting for approval"
  | .authorized | .running => outcome = if c.humanAnswer.isSome then "approved" else "allowed"
  | .deniedPending => outcome = if c.humanAnswer.isSome then "approved" else "denied by policy"
  | .denied => outcome = "denied"
  | .completed => c.output.isSome = true ∧ outcome = "completed"
  | .failed => ∃ failure, c.failure = some failure ∧
      outcome = "failed (" ++ failure.code.value ++ ")"
  | .cancelled | .unknown =>
    outcome ∈ ["proposed", "waiting for approval", "allowed", "approved"]

/-- The identifiers and prompts of the admitted inputs. -/
def SessionAggregate.prompts (s : SessionAggregate) : List (InputId × PromptText) :=
  s.admittedInputs.map fun input => (input.inputId, input.prompt)

/-- The row stands for the record of the session under the key, a call with an outcome that is good. -/
def RowStandsFor (good : ToolCallProjection → String → Prop) (s : SessionAggregate) :
    RowKey → Row → Prop
  | .input inputId, row => ∃ prompt : PromptText,
      (inputId, prompt) ∈ s.prompts ∧ row = .you prompt.value
  | .attempt attemptId, row => ∃ a, s.attempt attemptId = some a ∧ row = attemptRow a
  | .toolCall toolCallId, row => ∃ c outcome, s.toolCall toolCallId = some c ∧
      row = toolRow c outcome ∧ good c outcome

variable {s t : SessionAggregate} {event : EventEnvelope} {log : List EventEnvelope}

theorem changeRow_id (r : Transcript) (index : Option Nat) : r.changeRow index id = r := by
  cases index with
  | none => rfl
  | some index => simp [Transcript.changeRow]

/-- An event about an attempt changes the row as it changes the attempt. -/
theorem AttemptChange.row {attemptId : AttemptId} {a b : AttemptProjection}
    (h : AttemptChange s event attemptId a b) (r : Transcript) :
    ∃ change, r.next event.payload = r.changeAttempt attemptId change ∧
      change (attemptRow a) = attemptRow b := by
  cases h with
  | textAppended hp =>
    rw [hp]
    refine ⟨_, rfl, ?_⟩
    simp [attemptRow, Row.pushText, AttemptProjection.responseText, List.foldl_append]
  | usageRecorded hp =>
    rw [hp]
    exact ⟨_, rfl, rfl⟩
  | failed hp =>
    rw [hp]
    exact ⟨_, rfl, rfl⟩
  | started hp | cancellationRequested hp | completed hp | cancelled hp | markedUnknown hp
  | budgetConfigured hp | contextBound hp | turnStarted hp | paused hp | resumed hp =>
    rw [hp]
    exact ⟨id, (changeRow_id r _).symm, rfl⟩

/-- A cancelled or lost call keeps the outcome that it was last shown with. -/
theorem OutcomeShown.kept {c : ToolCallProjection} {outcome : String} (h : OutcomeShown c outcome)
    (open_ : c.status ∈ [ToolCallStatus.proposed, .permissionPending, .authorized, .running]) :
    outcome ∈ ["proposed", "waiting for approval", "allowed", "approved"] := by
  unfold OutcomeShown at h
  simp only [List.mem_cons, List.not_mem_nil, or_false] at open_
  rcases open_ with status | status | status | status
  · rw [status] at h
    simp [h.2]
  · rw [status] at h
    simp [h.2]
  · rw [status] at h
    change outcome = _ at h
    rw [h]
    split <;> simp
  · rw [status] at h
    change outcome = _ at h
    rw [h]
    split <;> simp

/-- An event about a call keeps its row, with an outcome that is shown for its new status. -/
theorem ToolCallChange.row {toolCallId : ToolCallId} {c d : ToolCallProjection}
    (h : ToolCallChange s event toolCallId c d) (r : Transcript) :
    ∃ change, r.next event.payload = r.changeTool toolCallId change ∧
      ∀ outcome, OutcomeShown c outcome →
        ∃ shown, change (toolRow c outcome) = toolRow d shown ∧ OutcomeShown d shown := by
  cases h with
  | @recorded decisionId outcome hp hs =>
    rw [hp]
    refine ⟨_, rfl, ?_⟩
    intro before shown
    have status : c.status = .proposed := by simpa using hs
    rw [OutcomeShown, status] at shown
    refine ⟨policyOutcome outcome, rfl, ?_⟩
    cases outcome with
    | deny => simp [OutcomeShown, PermissionOutcome.nextStatus, policyOutcome, shown.1]
    | ask => exact ⟨shown.1, rfl⟩
    | allow => simp [OutcomeShown, PermissionOutcome.nextStatus, policyOutcome, shown.1]
  | @answered decisionId answer hp hs =>
    rw [hp]
    refine ⟨_, rfl, ?_⟩
    intro before shown
    refine ⟨"approved", rfl, ?_⟩
    cases answer with
    | allowOnce => rfl
    | deny => rfl
  | started hp hs =>
    rw [hp]
    refine ⟨id, (changeRow_id r _).symm, ?_⟩
    intro outcome shown
    have status : c.status = .authorized := by simpa using hs
    rw [OutcomeShown, status] at shown
    exact ⟨outcome, rfl, shown⟩
  | completed hp hs =>
    rw [hp]
    exact ⟨_, rfl, fun outcome _ => ⟨"completed", rfl, rfl, rfl⟩⟩
  | failed hp hs =>
    rw [hp]
    exact ⟨_, rfl, fun outcome _ => ⟨_, rfl, _, rfl, rfl⟩⟩
  | denied hp hs =>
    rw [hp]
    exact ⟨_, rfl, fun outcome _ => ⟨"denied", rfl, rfl⟩⟩
  | cancelled hp hs =>
    rw [hp]
    refine ⟨id, (changeRow_id r _).symm, ?_⟩
    intro outcome shown
    exact ⟨outcome, rfl, shown.kept hs⟩
  | markedUnknown hp hs =>
    rw [hp]
    refine ⟨id, (changeRow_id r _).symm, ?_⟩
    intro outcome shown
    have running : c.status = .running := by simpa using hs
    exact ⟨outcome, rfl, shown.kept (by simp [running])⟩

/-- The rows stand for the inputs, attempts and calls of the session, one row for each. -/
structure Rebuilt (log : List EventEnvelope) (s : SessionAggregate) (r : Transcript) : Prop where
  rows : List.Forall₂ (RowStandsFor OutcomeShown s) (rowKeys log) r.rows
  distinct : (rowKeys log).Nodup
  openAttempts : Located r.openAttempts (rowKeys log) RowKey.attempt
  openTools : Located r.openTools (rowKeys log) RowKey.toolCall
  inputs : (rowKeys log).filterMap RowKey.inputId? = s.admittedInputs.map AdmittedInput.inputId
  attempts : (rowKeys log).filterMap RowKey.attemptId? =
    s.attempts.map AttemptProjection.attemptId
  toolCalls : (rowKeys log).filterMap RowKey.toolCallId? =
    s.toolCalls.map ToolCallProjection.toolCallId

theorem inputIds_of_prompts (same : t.prompts = s.prompts) :
    t.admittedInputs.map AdmittedInput.inputId = s.admittedInputs.map AdmittedInput.inputId := by
  have firsts := congrArg (List.map Prod.fst) same
  rw [SessionAggregate.prompts, SessionAggregate.prompts, List.map_map, List.map_map] at firsts
  exact firsts

section Rows

variable {r : Transcript} {good : ToolCallProjection → String → Prop} {row : Row}

theorem RowStandsFor.mono {key : RowKey} (h : RowStandsFor good s key row)
    (inputs : s.prompts ⊆ t.prompts)
    (attempts : ∀ attemptId, key = .attempt attemptId → t.attempt attemptId = s.attempt attemptId)
    (toolCalls : ∀ toolCallId, key = .toolCall toolCallId →
      t.toolCall toolCallId = s.toolCall toolCallId) : RowStandsFor good t key row := by
  cases key with
  | input inputId =>
    obtain ⟨prompt, listed, same⟩ := h
    exact ⟨prompt, inputs listed, same⟩
  | attempt attemptId =>
    obtain ⟨a, found, same⟩ := h
    exact ⟨a, (attempts attemptId rfl).trans found, same⟩
  | toolCall toolCallId =>
    obtain ⟨c, outcome, found, same, shown⟩ := h
    exact ⟨c, outcome, (toolCalls toolCallId rfl).trans found, same, shown⟩

/-- An event that is not exported leaves the transcript alone. -/
theorem Rebuilt.unchanged (h : Rebuilt log s r) (unkeyed : event.payload.rowKey? = none)
    (still : r.next event.payload = r) (inputs : t.prompts = s.prompts)
    (attempts : t.attempts = s.attempts) (toolCalls : t.toolCalls = s.toolCalls)
    (attempt : ∀ id, t.attempt id = s.attempt id)
    (toolCall : ∀ id, t.toolCall id = s.toolCall id) :
    Rebuilt (log ++ [event]) t (r.next event.payload) := by
  rw [still]
  refine ⟨?_, ?_, ?_, ?_, ?_, ?_, ?_⟩ <;> rw [rowKeys_concat_none log unkeyed]
  · refine h.rows.imp fun key row stands => stands.mono ?_ (fun id _ => attempt id)
      fun id _ => toolCall id
    rw [inputs]
    exact List.Subset.refl _
  · exact h.distinct
  · exact h.openAttempts
  · exact h.openTools
  · rw [h.inputs, inputIds_of_prompts inputs]
  · rw [h.attempts, attempts]
  · rw [h.toolCalls, toolCalls]

/-- An event about one record changes its row and no other. -/
theorem Rebuilt.changed (h : Rebuilt log s r) (unkeyed : event.payload.rowKey? = none)
    {index : Option Nat} {change : Row → Row} {i : Nat} {key : RowKey}
    (next : r.next event.payload = r.changeRow index change) (found : index = some i)
    (position : (rowKeys log)[i]? = some key)
    (own : ∀ row, RowStandsFor OutcomeShown s key row → RowStandsFor OutcomeShown t key (change row))
    (others : ∀ other, other ≠ key → ∀ row, RowStandsFor OutcomeShown s other row →
      RowStandsFor OutcomeShown t other row)
    (inputs : t.prompts = s.prompts)
    (attempts : t.attempts.map AttemptProjection.attemptId =
      s.attempts.map AttemptProjection.attemptId)
    (toolCalls : t.toolCalls.map ToolCallProjection.toolCallId =
      s.toolCalls.map ToolCallProjection.toolCallId) :
    Rebuilt (log ++ [event]) t (r.next event.payload) := by
  rw [next, found]
  refine ⟨?_, ?_, ?_, ?_, ?_, ?_, ?_⟩ <;> rw [rowKeys_concat_none log unkeyed]
  · exact forall₂_modify h.rows h.distinct position own others
  · exact h.distinct
  · exact h.openAttempts
  · exact h.openTools
  · rw [h.inputs, inputIds_of_prompts inputs]
  · rw [h.attempts, attempts]
  · rw [h.toolCalls, toolCalls]

theorem Rebuilt.length (h : Rebuilt log s r) : r.rows.length = (rowKeys log).length :=
  h.rows.length_eq.symm

theorem Rebuilt.admitted (h : Rebuilt log s r) (represented : Represented s) {inputId : InputId}
    {prompt : PromptText} {deliveryMode : DeliveryMode}
    (hp : event.payload = .inputAdmitted inputId prompt deliveryMode)
    (fresh : inputId ∉ s.admittedInputIds) :
    Rebuilt (log ++ [event])
      { s with
        admittedInputIds := insert inputId s.admittedInputIds
        admittedInputs := s.admittedInputs ++ [⟨inputId, prompt, deliveryMode, none⟩] }
      (r.next event.payload) := by
  have key : event.payload.rowKey? = some (.input inputId) := by rw [hp]; rfl
  have unknown : RowKey.input inputId ∉ rowKeys log := by
    intro listed
    have present : inputId ∈ (rowKeys log).filterMap RowKey.inputId? :=
      List.mem_filterMap.mpr ⟨_, listed, rfl⟩
    rw [h.inputs, ← List.mem_toFinset, ← represented.inputs.ids] at present
    exact fresh present
  rw [hp]
  refine ⟨?_, ?_, ?_, ?_, ?_, ?_, ?_⟩ <;> rw [rowKeys_concat_some log key]
  · refine forall₂_concat (h.rows.imp ?_) ?_
    · intro key row stands
      refine stands.mono ?_ (fun _ _ => rfl) fun _ _ => rfl
      simp [SessionAggregate.prompts]
    · exact ⟨prompt, by simp [SessionAggregate.prompts], rfl⟩
  · exact List.nodup_append'.mpr ⟨h.distinct, List.nodup_singleton _, by simpa using unknown⟩
  · exact h.openAttempts.other fun _ => by simp
  · exact h.openTools.other fun _ => by simp
  · simp [h.inputs, RowKey.inputId?]
  · simp [h.attempts, RowKey.attemptId?]
  · simp [h.toolCalls, RowKey.toolCallId?]

theorem Rebuilt.prepared (h : Rebuilt log s r) (represented : Represented s)
    {attemptId : AttemptId} {inputId : InputId} {model : ModelRef} {retryOf : Option AttemptId}
    (hp : event.payload = .attemptPrepared attemptId inputId model retryOf)
    (fresh : attemptId ∉ s.attemptIndexes) {inputs : List AdmittedInput}
    (same : inputs.map (fun input => (input.inputId, input.prompt)) = s.prompts) :
    Rebuilt (log ++ [event])
      { s with
        admittedInputs := inputs
        attempts := s.attempts ++ [.prepared attemptId inputId model retryOf]
        attemptIndexes := s.attemptIndexes.insert attemptId s.attempts.length }
      (r.next event.payload) := by
  have key : event.payload.rowKey? = some (.attempt attemptId) := by rw [hp]; rfl
  have unknown : RowKey.attempt attemptId ∉ rowKeys log := by
    intro listed
    have present : attemptId ∈ (rowKeys log).filterMap RowKey.attemptId? :=
      List.mem_filterMap.mpr ⟨_, listed, rfl⟩
    rw [h.attempts] at present
    obtain ⟨a, member, same⟩ := List.mem_map.mp present
    exact represented.indexes.attempts.not_mem_iff.mp fresh a member same
  rw [hp]
  refine ⟨?_, ?_, ?_, ?_, ?_, ?_, ?_⟩ <;> rw [rowKeys_concat_some log key]
  · refine forall₂_concat (forall₂_mem_imp h.rows ?_) ?_
    · intro key listed row stands
      refine stands.mono ?_ ?_ fun _ _ => rfl
      · rw [← same]
        exact List.Subset.refl _
      · rintro id rfl
        have apart : id ≠ attemptId := by
          rintro rfl
          exact unknown listed
        exact represented.indexes.attempts.find?_concat_ne _ apart
    · exact ⟨_, find?_concat_self .., rfl⟩
  · exact List.nodup_append'.mpr ⟨h.distinct, List.nodup_singleton _, by simpa using unknown⟩
  · rw [Transcript.next, h.length]
    exact h.openAttempts.own (fun _ _ same => RowKey.attempt.inj same) unknown
  · exact h.openTools.other fun _ => by simp
  · have ids : inputs.map AdmittedInput.inputId = s.admittedInputs.map AdmittedInput.inputId :=
      inputIds_of_prompts (t := { s with admittedInputs := inputs }) same
    simp [h.inputs, RowKey.inputId?, ids]
  · simp [h.attempts, RowKey.attemptId?, AttemptProjection.prepared]
  · simp [h.toolCalls, RowKey.toolCallId?]

theorem Rebuilt.proposed (h : Rebuilt log s r) (represented : Represented s)
    {attemptId : AttemptId} {call : ToolCallSpec}
    (hp : event.payload = .toolCallProposed attemptId call)
    (fresh : call.toolCallId ∉ s.toolCallIndexes) :
    Rebuilt (log ++ [event])
      { s with
        toolCalls := s.toolCalls ++ [.proposed attemptId call]
        toolCallIndexes := s.toolCallIndexes.insert call.toolCallId s.toolCalls.length }
      (r.next event.payload) := by
  have key : event.payload.rowKey? = some (.toolCall call.toolCallId) := by rw [hp]; rfl
  have unknown : RowKey.toolCall call.toolCallId ∉ rowKeys log := by
    intro listed
    have present : call.toolCallId ∈ (rowKeys log).filterMap RowKey.toolCallId? :=
      List.mem_filterMap.mpr ⟨_, listed, rfl⟩
    rw [h.toolCalls] at present
    obtain ⟨c, member, same⟩ := List.mem_map.mp present
    exact represented.indexes.toolCalls.not_mem_iff.mp fresh c member same
  rw [hp]
  refine ⟨?_, ?_, ?_, ?_, ?_, ?_, ?_⟩ <;> rw [rowKeys_concat_some log key]
  · refine forall₂_concat (forall₂_mem_imp h.rows ?_) ?_
    · intro key listed row stands
      refine stands.mono (List.Subset.refl _) (fun _ _ => rfl) ?_
      rintro id rfl
      have apart : id ≠ call.toolCallId := by
        rintro rfl
        exact unknown listed
      exact represented.indexes.toolCalls.find?_concat_ne _ apart
    · exact ⟨_, "proposed", find?_concat_self .., rfl, rfl, rfl⟩
  · exact List.nodup_append'.mpr ⟨h.distinct, List.nodup_singleton _, by simpa using unknown⟩
  · exact h.openAttempts.other fun _ => by simp
  · rw [Transcript.next, h.length]
    exact h.openTools.own (fun _ _ same => RowKey.toolCall.inj same) unknown
  · simp [h.inputs, RowKey.inputId?]
  · simp [h.attempts, RowKey.attemptId?]
  · simp [h.toolCalls, RowKey.toolCallId?, ToolCallProjection.proposed,
      ToolCallProjection.toolCallId]

end Rows

theorem RowStandsFor.imp {good good' : ToolCallProjection → String → Prop} {key : RowKey} {row : Row}
    (h : RowStandsFor good s key row)
    (better : ∀ toolCallId c, key = .toolCall toolCallId → s.toolCall toolCallId = some c →
      ∀ outcome, good c outcome → good' c outcome) : RowStandsFor good' s key row := by
  cases key with
  | input inputId => exact h
  | attempt attemptId => exact h
  | toolCall toolCallId =>
    obtain ⟨c, outcome, found, same, shown⟩ := h
    exact ⟨c, outcome, found, same, better toolCallId c rfl found outcome shown⟩

section Sample

end Sample

end AutoHarness
