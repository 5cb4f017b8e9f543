import AutoHarness.AggregateLog
import AutoHarness.FallibleRun
import AutoHarness.ToolPlan

namespace AutoHarness

open FallibleRun

/-- One ordered permission rule scoped by tool, capability and resource prefix. -/
structure PermissionRule where
  toolName : Option ToolName
  capability : CapabilityKind
  resourcePrefix : ResourceRef
  outcome : PermissionOutcome
deriving DecidableEq, Repr

structure PermissionPolicy where
  rules : List PermissionRule
deriving DecidableEq, Repr

def PermissionRule.covers (rule : PermissionRule) (call : ToolCallSpec) : Bool :=
  rule.capability == call.capability.kind &&
    rule.toolName.all (fun name => name == call.toolName) &&
    rule.resourcePrefix.value.toList.isPrefixOf call.capability.resource.value.toList

/-- The first rule that covers the call decides, and no rule at all denies. -/
def PermissionPolicy.evaluate (policy : PermissionPolicy) (call : ToolCallSpec) :
    PermissionOutcome :=
  if call.capability.kind = .invalidToolCall then .deny
  else
    match policy.rules.find? fun rule => rule.covers call with
    | some rule => rule.outcome
    | none => .deny

/-- What the planner can hand on besides the refusal, with the checks that it has passed. -/
inductive Plans (parseUrl : String → Option Url) : Operation → CapabilityRequest → Prop
  | readFile {value path resource} : workspacePath value = .ok path →
      workspaceResource path = .ok resource →
      Plans parseUrl (.readFile path) ⟨.filesystemRead, resource⟩
  | writeFile {value path resource} (content : ByteArray) : workspacePath value = .ok path →
      workspaceResource path = .ok resource →
      Plans parseUrl (.writeFile path content) ⟨.filesystemWrite, resource⟩
  | runProcess {program value cwd resource} (arguments : List String) :
      validateProgram program = .ok () → workspacePath value = .ok cwd →
      ResourceRef.new ("program:" ++ program ++ "@workspace:" ++ displayRelative cwd) =
        .ok resource →
      Plans parseUrl (.runProcess program arguments cwd) ⟨.processExecute, resource⟩
  | httpRequest {text url resource} (method : HttpMethod) (body : Option ByteArray) :
      parseUrl text = some url → url.scheme = "http" ∨ url.scheme = "https" →
      url.host.isSome = true → ResourceRef.new url.origin = .ok resource →
      Plans parseUrl (.httpRequest method url body) ⟨.httpRequest, resource⟩
  | submitMemoryProposal {proposal : MemoryProposal} {resource} :
      ResourceRef.new ("memory-proposal:" ++ proposal.scope.asResourceName) = .ok resource →
      Plans parseUrl (.submitMemoryProposal proposal) ⟨.memoryProposal, resource⟩

section Planner

variable {parseUrl : String → Option Url} {fields : List (String × JsonValue)}
  {operation : Operation} {capability : CapabilityRequest}

theorem planFileRead_plans (h : planFileRead fields = .ok (operation, capability)) :
    Plans parseUrl operation capability := by
  obtain ⟨_, _, rest⟩ := bind_eq_ok_iff.mp h
  obtain ⟨value, _, rest⟩ := bind_eq_ok_iff.mp rest
  obtain ⟨path, normal, rest⟩ := bind_eq_ok_iff.mp rest
  obtain ⟨resource, shown, rest⟩ := bind_eq_ok_iff.mp rest
  cases rest
  exact .readFile normal shown

theorem planFileWrite_plans (h : planFileWrite fields = .ok (operation, capability)) :
    Plans parseUrl operation capability := by
  obtain ⟨_, _, rest⟩ := bind_eq_ok_iff.mp h
  obtain ⟨content, _, rest⟩ := bind_eq_ok_iff.mp rest
  obtain ⟨value, _, rest⟩ := bind_eq_ok_iff.mp rest
  obtain ⟨path, normal, rest⟩ := bind_eq_ok_iff.mp rest
  obtain ⟨resource, shown, rest⟩ := bind_eq_ok_iff.mp rest
  cases rest
  exact .writeFile _ normal shown

theorem planProcess_plans (h : planProcess fields = .ok (operation, capability)) :
    Plans parseUrl operation capability := by
  obtain ⟨_, _, rest⟩ := bind_eq_ok_iff.mp h
  obtain ⟨program, _, rest⟩ := bind_eq_ok_iff.mp rest
  obtain ⟨arguments, _, rest⟩ := bind_eq_ok_iff.mp rest
  obtain ⟨directory, _, rest⟩ := bind_eq_ok_iff.mp rest
  obtain ⟨_, valid, rest⟩ := bind_eq_ok_iff.mp rest
  split at rest
  · cases rest
  · obtain ⟨cwd, normal, rest⟩ := bind_eq_ok_iff.mp rest
    obtain ⟨resource, shown, rest⟩ := bind_eq_ok_iff.mp rest
    cases rest
    exact .runProcess arguments valid normal shown

theorem planHttp_plans (h : planHttp parseUrl fields = .ok (operation, capability)) :
    Plans parseUrl operation capability := by
  obtain ⟨_, _, rest⟩ := bind_eq_ok_iff.mp h
  obtain ⟨method, _, rest⟩ := bind_eq_ok_iff.mp rest
  obtain ⟨text, _, rest⟩ := bind_eq_ok_iff.mp rest
  obtain ⟨body, _, rest⟩ := bind_eq_ok_iff.mp rest
  split at rest
  next method url _ parsed =>
    split at rest
    · cases rest
    · rename_i sound
      obtain ⟨resource, shown, rest⟩ := bind_eq_ok_iff.mp rest
      cases rest
      simp only [Bool.or_eq_true, Bool.and_eq_true, bne_iff_ne, not_or] at sound
      obtain ⟨⟨⟨⟨scheme, _⟩, _⟩, host⟩, _⟩ := sound
      have web : url.scheme = "http" ∨ url.scheme = "https" := by
        by_cases plain : url.scheme = "http"
        · exact Or.inl plain
        · exact Or.inr (by_contra fun other => scheme ⟨plain, other⟩)
      have named : url.host.isSome = true := by
        cases present : url.host with
        | none => simp [present] at host
        | some name => simp
      exact .httpRequest _ _ parsed web named shown
  next => cases rest

theorem planMemoryProposal_plans (h : planMemoryProposal fields = .ok (operation, capability)) :
    Plans parseUrl operation capability := by
  obtain ⟨_, _, rest⟩ := bind_eq_ok_iff.mp h
  obtain ⟨_, _, rest⟩ := bind_eq_ok_iff.mp rest
  obtain ⟨content, _, rest⟩ := bind_eq_ok_iff.mp rest
  obtain ⟨kind, _, rest⟩ := bind_eq_ok_iff.mp rest
  obtain ⟨scope, _, rest⟩ := bind_eq_ok_iff.mp rest
  obtain ⟨sensitivity, _, rest⟩ := bind_eq_ok_iff.mp rest
  obtain ⟨_, _, rest⟩ := bind_eq_ok_iff.mp rest
  obtain ⟨source, _, rest⟩ := bind_eq_ok_iff.mp rest
  obtain ⟨resource, shown, rest⟩ := bind_eq_ok_iff.mp rest
  cases rest
  exact .submitMemoryProposal shown

theorem planSupported_plans {name : String}
    (h : planSupported parseUrl name fields = .ok (operation, capability)) :
    Plans parseUrl operation capability := by
  unfold planSupported at h
  split at h
  · exact planFileRead_plans h
  · exact planFileWrite_plans h
  · exact planProcess_plans h
  · exact planHttp_plans h
  · exact planMemoryProposal_plans h
  · cases h

theorem Plans.valid (h : Plans parseUrl operation capability) :
    operation ≠ .rejectInvalid ∧ capability.kind ≠ .invalidToolCall := by
  cases h <;> exact ⟨by simp, by simp⟩

/-- A plan is the refusal or passed the checks of its tool. -/
theorem plan_cases (parseUrl : String → Option Url) (incoming : IncomingToolCall) :
    ((plan parseUrl incoming).operation = .rejectInvalid ∧
        (plan parseUrl incoming).spec.capability = invalidToolCallRequest) ∨
      Plans parseUrl (plan parseUrl incoming).operation
        (plan parseUrl incoming).spec.capability := by
  cases supported : planSupported parseUrl incoming.toolName.value incoming.arguments.fields with
  | error e => exact Or.inl (by simp [plan, supported])
  | ok planned =>
    obtain ⟨operation, capability⟩ := planned
    right
    simp only [plan, supported]
    exact planSupported_plans supported

end Planner

theorem plan_invalid_iff (parseUrl : String → Option Url) (incoming : IncomingToolCall) :
    (plan parseUrl incoming).spec.capability.kind = .invalidToolCall ↔
      (plan parseUrl incoming).operation = .rejectInvalid := by
  rcases plan_cases parseUrl incoming with ⟨refused, capability⟩ | planned
  · simp [refused, capability, invalidToolCallRequest]
  · simp [planned.valid.1, planned.valid.2]

theorem evaluate_invalid (policy : PermissionPolicy) {call : ToolCallSpec}
    (h : call.capability.kind = .invalidToolCall) : policy.evaluate call = .deny := by
  simp [PermissionPolicy.evaluate, h]

theorem replan_ok {parseUrl : String → Option Url} {spec : ToolCallSpec}
    {planned : PlannedToolCall} (h : replan parseUrl spec = .ok planned) :
    planned = plan parseUrl ⟨spec.toolCallId, spec.providerCallId, spec.toolName, spec.arguments⟩ ∧
      planned.spec = spec := by
  unfold replan at h
  split at h
  · cases h
  · simp only at h
    split at h
    · cases h
    · rename_i same
      cases h
      exact ⟨rfl, not_not.mp same⟩

/-- A refused call carries the capability that every policy denies, and replay authorizes only
what planning the recorded name and arguments gives again. -/
theorem invalid_calls_without_authority (parseUrl : String → Option Url) :
    (∀ incoming, (plan parseUrl incoming).spec.capability.kind = .invalidToolCall ↔
      (plan parseUrl incoming).operation = .rejectInvalid) ∧
    (∀ (policy : PermissionPolicy) (call : ToolCallSpec),
      call.capability.kind = .invalidToolCall → policy.evaluate call = .deny) ∧
    ∀ spec outcome answer authorized, authorizeReplayed parseUrl spec outcome answer =
        .ok authorized →
      (plan parseUrl ⟨spec.toolCallId, spec.providerCallId, spec.toolName, spec.arguments⟩).spec =
        spec ∧ spec.capability.kind ≠ .invalidToolCall := by
  refine ⟨plan_invalid_iff parseUrl, fun policy call h => evaluate_invalid policy h, ?_⟩
  intro spec outcome answer authorized h
  obtain ⟨planned, replanned, granted⟩ := bind_eq_ok_iff.mp h
  obtain ⟨rfl, same⟩ := replan_ok replanned
  refine ⟨same, ?_⟩
  intro invalid
  rw [← same, plan_invalid_iff] at invalid
  simp [authorize, PlannedToolCall.rejectsExecution, invalid] at granted

theorem invalid_calls_without_authority_readme :
    (authorizeReplayed (fun _ => none) sampleCall .ask (some .allowOnce)).isOk = true ∧
      sampleCall.capability.kind ≠ .invalidToolCall := by
  have granted : ∃ authorized, authorizeReplayed (fun _ => none) sampleCall .ask
      (some .allowOnce) = .ok authorized := ⟨_, rfl⟩
  obtain ⟨authorized, h⟩ := granted
  have kept := (invalid_calls_without_authority fun _ => none).2.2 sampleCall .ask
    (some .allowOnce) authorized h
  exact ⟨by rw [h]; rfl, kept.2⟩

end AutoHarness
