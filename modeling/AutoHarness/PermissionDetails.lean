import AutoHarness.SecurityText
import AutoHarness.ToolTarget

namespace AutoHarness

/-- One security-critical field of a permission prompt. -/
structure ToolPermissionDetail where
  label : String
  value : String
deriving DecidableEq

def memoryKindName : MemoryKind → String
  | .fact => "fact"
  | .preference => "preference"
  | .constraint => "constraint"
  | .lesson => "lesson"
  | .procedure => "procedure"

def sensitivityName : Sensitivity → String
  | .public_ => "public"
  | .internal => "internal"
  | .sensitive => "sensitive"
  | .secret => "secret"

def HttpMethod.asStr : HttpMethod → String
  | .get => "GET"
  | .post => "POST"
  | .put => "PUT"
  | .patch => "PATCH"
  | .delete => "DELETE"
  | .head => "HEAD"

def argumentDetails (arguments : List String) : List ToolPermissionDetail :=
  if arguments.isEmpty then [⟨"Arguments", "(none)"⟩]
  else arguments.zipIdx.map fun (value, index) =>
    ⟨"Argument", toString (index + 1) ++ ": " ++ value⟩

def Operation.details : Operation → List ToolPermissionDetail
  | .rejectInvalid => []
  | .submitMemoryProposal proposal =>
    [⟨"Scope", proposal.scope.asResourceName⟩, ⟨"Kind", memoryKindName proposal.memoryKind⟩,
      ⟨"Sensitivity", sensitivityName proposal.sensitivity⟩,
      ⟨"Evidence reference", if proposal.sourceProviderCallId.isSome then "supplied" else "none"⟩]
  | .readFile path => [⟨"Path", displayRelative path⟩]
  | .writeFile path content =>
    [⟨"Path", displayRelative path⟩, ⟨"Content bytes", toString content.size⟩]
  | .runProcess program arguments cwd =>
    ⟨"Program", program⟩ :: ⟨"Working directory", displayRelative cwd⟩ :: argumentDetails arguments
  | .httpRequest method url body =>
    [⟨"Method", method.asStr⟩, ⟨"URL", url.serialization⟩,
      ⟨"Body bytes", toString (body.elim 0 ByteArray.size)⟩]

/-- Rebuilds a frozen call and returns its security-critical permission fields. -/
def permissionDetails (parseUrl : String → Option Url) (spec : ToolCallSpec) :
    Except ToolError (List ToolPermissionDetail) := do
  let planned ← replan parseUrl spec
  .ok planned.operation.details

/-- A prompt's fields as they are projected. -/
def shownDetails (details : List ToolPermissionDetail) : List (String × String) :=
  details.map fun detail => (securityDisplaySafe detail.label, securityDisplaySafe detail.value)

/-- What an operation does to the world, as far as a user has to approve it. A URL is what it
serializes to, which is how URLs compare. -/
inductive Action where
  | refuse
  | propose (scope : MemoryProposalScope) (kind : MemoryKind) (sensitivity : Sensitivity)
      (evidence : Bool)
  | touch (path : List String)
  | run (program : String) (arguments : List String) (cwd : List String)
  | send (method : HttpMethod) (url : String)
deriving DecidableEq

def Operation.action : Operation → Action
  | .rejectInvalid => .refuse
  | .submitMemoryProposal proposal =>
    .propose proposal.scope proposal.memoryKind proposal.sensitivity
      proposal.sourceProviderCallId.isSome
  | .readFile path | .writeFile path _ => .touch path
  | .runProcess program arguments cwd => .run program arguments cwd
  | .httpRequest method url _ => .send method url.serialization

section Labels

theorem memoryKindName_injective {a b : MemoryKind} (h : memoryKindName a = memoryKindName b) :
    a = b := by
  cases a <;> cases b <;> first | rfl | exact absurd h (by decide)

theorem sensitivityName_injective {a b : Sensitivity}
    (h : sensitivityName a = sensitivityName b) : a = b := by
  cases a <;> cases b <;> first | rfl | exact absurd h (by decide)

theorem HttpMethod.asStr_injective {a b : HttpMethod} (h : a.asStr = b.asStr) : a = b := by
  cases a <;> cases b <;> first | rfl | exact absurd h (by decide)

theorem shownDetails_injective {details details' : List ToolPermissionDetail}
    (h : shownDetails details = shownDetails details') : details = details' := by
  apply List.map_injective_iff.mpr _ h
  intro a b same
  obtain ⟨labels, values⟩ := Prod.mk.inj same
  have hlabel := securityDisplaySafe_injective labels
  have hvalue := securityDisplaySafe_injective values
  cases a
  cases b
  rw [ToolPermissionDetail.mk.injEq]
  exact ⟨hlabel, hvalue⟩

theorem evidenceText_injective {a b : Bool}
    (h : (if a then "supplied" else "none") = if b then "supplied" else "none") : a = b := by
  cases a <;> cases b <;> first | rfl | exact absurd h (by decide)

end Labels

section Arguments

theorem numbered_injective {arguments arguments' : List String} {first : Nat}
    (h : (arguments.zipIdx first).map (fun (value, index) =>
        (⟨"Argument", toString (index + 1) ++ ": " ++ value⟩ : ToolPermissionDetail)) =
      (arguments'.zipIdx first).map fun (value, index) =>
        ⟨"Argument", toString (index + 1) ++ ": " ++ value⟩) : arguments = arguments' := by
  induction arguments generalizing arguments' first with
  | nil =>
    cases arguments' with
    | nil => rfl
    | cons value' rest' => cases h
  | cons value rest ih =>
    cases arguments' with
    | nil => cases h
    | cons value' rest' =>
      simp only [List.zipIdx_cons, List.map_cons, List.cons.injEq,
        ToolPermissionDetail.mk.injEq] at h
      obtain ⟨⟨-, values⟩, rests⟩ := h
      have lists := congrArg String.toList values
      simp only [String.toList_append] at lists
      have hvalue := String.toList_inj.mp (List.append_cancel_left lists)
      rw [hvalue, ih rests]

/-- An empty argument vector has a label of its own. -/
theorem argumentDetails_injective {arguments arguments' : List String}
    (h : argumentDetails arguments = argumentDetails arguments') : arguments = arguments' := by
  unfold argumentDetails at h
  cases arguments with
  | nil =>
    cases arguments' with
    | nil => rfl
    | cons value' rest' => simp at h
  | cons value rest =>
    cases arguments' with
    | nil => simp at h
    | cons value' rest' => exact numbered_injective h

end Arguments

section Actions

variable {parseUrl : String → Option Url}

/-- Equal fields are fields of one tool, and each field gives back what it shows. -/
theorem Plans.action_of_details {operation operation' : Operation}
    {capability capability' : CapabilityRequest} (h : Plans parseUrl operation capability)
    (h' : Plans parseUrl operation' capability') (same : operation.details = operation'.details) :
    operation.action = operation'.action := by
  cases h with
  | readFile normal =>
    cases h' with
    | readFile normal' =>
      simp only [Operation.details, List.cons.injEq, ToolPermissionDetail.mk.injEq] at same
      have paths := displayRelative_injective (workspacePath_normal normal)
        (workspacePath_normal normal') same.1.2
      rw [paths]
    | writeFile | runProcess | httpRequest | submitMemoryProposal =>
      simp [Operation.details] at same
  | writeFile content normal =>
    cases h' with
    | writeFile content' normal' =>
      simp only [Operation.details, List.cons.injEq, ToolPermissionDetail.mk.injEq] at same
      have paths := displayRelative_injective (workspacePath_normal normal)
        (workspacePath_normal normal') same.1.2
      rw [Operation.action, Operation.action, paths]
    | readFile | runProcess | httpRequest | submitMemoryProposal =>
      simp [Operation.details] at same
  | runProcess arguments valid normal =>
    cases h' with
    | runProcess arguments' valid' normal' =>
      simp only [Operation.details, List.cons.injEq, ToolPermissionDetail.mk.injEq,
        true_and] at same
      obtain ⟨programs, directories, vectors⟩ := same
      have paths := displayRelative_injective (workspacePath_normal normal)
        (workspacePath_normal normal') directories
      rw [programs, paths, argumentDetails_injective vectors]
    | readFile | writeFile | httpRequest | submitMemoryProposal =>
      simp [Operation.details] at same
  | httpRequest method =>
    cases h' with
    | httpRequest method' =>
      simp only [Operation.details, List.cons.injEq, ToolPermissionDetail.mk.injEq,
        true_and] at same
      obtain ⟨methods, urls, -⟩ := same
      rw [Operation.action, Operation.action, HttpMethod.asStr_injective methods, urls]
    | readFile | writeFile | runProcess | submitMemoryProposal =>
      simp [Operation.details] at same
  | submitMemoryProposal =>
    cases h' with
    | submitMemoryProposal =>
      simp only [Operation.details, List.cons.injEq, ToolPermissionDetail.mk.injEq,
        true_and] at same
      obtain ⟨scopes, kinds, sensitivities, evidence, -⟩ := same
      rw [Operation.action, Operation.action,
        MemoryProposalScope.asResourceName_injective scopes, memoryKindName_injective kinds,
        sensitivityName_injective sensitivities, evidenceText_injective evidence]
    | readFile | writeFile | runProcess | httpRequest => simp [Operation.details] at same

theorem details_ne_nil {operation : Operation} {capability : CapabilityRequest}
    (h : Plans parseUrl operation capability) : operation.details ≠ [] := by
  cases h with
  | readFile | writeFile | runProcess | httpRequest | submitMemoryProposal =>
    simp [Operation.details]

/-- Planning a planned call's own name and arguments again gives the same plan. -/
theorem replan_plan (incoming : IncomingToolCall) :
    replan parseUrl (plan parseUrl incoming).spec = .ok (plan parseUrl incoming) := by
  have hversion : ¬ (plan parseUrl incoming).spec.schemaVersion ≠ toolSchemaV1 :=
    fun h => h rfl
  unfold replan
  rw [if_neg hversion]
  exact if_neg fun h => h rfl

/-- Refused calls have no field, and every other call has one. -/
theorem plan_action_of_details (first second : IncomingToolCall)
    (same : (plan parseUrl first).operation.details = (plan parseUrl second).operation.details) :
    (plan parseUrl first).operation.action = (plan parseUrl second).operation.action := by
  rcases plan_cases parseUrl first with ⟨refused, -⟩ | plans
  · rcases plan_cases parseUrl second with ⟨refused', -⟩ | plans'
    · rw [refused, refused']
    · rw [refused] at same
      exact absurd same.symm (details_ne_nil plans')
  · rcases plan_cases parseUrl second with ⟨refused', -⟩ | plans'
    · rw [refused'] at same
      exact absurd same (details_ne_nil plans)
    · exact plans.action_of_details plans' same

end Actions

/-- The fields of a planned call are there, and equal fields come from one action. -/
theorem permission_details_determine (parseUrl : String → Option Url) :
    (∀ incoming, permissionDetails parseUrl (plan parseUrl incoming).spec =
      .ok (plan parseUrl incoming).operation.details) ∧
    (∀ first second planned planned' details,
      replan parseUrl first = .ok planned → replan parseUrl second = .ok planned' →
      permissionDetails parseUrl first = .ok details →
      permissionDetails parseUrl second = .ok details →
      planned.operation.action = planned'.operation.action) ∧
    ∀ arguments arguments', shownDetails (argumentDetails arguments) =
      shownDetails (argumentDetails arguments') → arguments = arguments' := by
  refine ⟨fun incoming => ?_, ?_,
    fun _ _ shown => argumentDetails_injective (shownDetails_injective shown)⟩
  · rw [permissionDetails, replan_plan]
    rfl
  · intro first second planned planned' details replanned replanned' h h'
    have same : planned.operation.details = planned'.operation.details := by
      rw [permissionDetails, replanned] at h
      rw [permissionDetails, replanned'] at h'
      exact (Except.ok.inj h).trans (Except.ok.inj h').symm
    obtain ⟨rfl, -⟩ := replan_ok replanned
    obtain ⟨rfl, -⟩ := replan_ok replanned'
    exact plan_action_of_details _ _ same

theorem permission_details_determine_pages :
    permissionDetails parsePages (plan parsePages (pageCall "https://example.com/a")).spec ≠
      permissionDetails parsePages (plan parsePages (pageCall "https://example.com/b")).spec := by
  intro same
  have determined := permission_details_determine parsePages
  have shown := determined.1 (pageCall "https://example.com/b")
  have actions := determined.2.1 _ _ _ _ _ (replan_plan _) (replan_plan _) (same.trans shown) shown
  exact absurd actions (by decide +kernel)

end AutoHarness
