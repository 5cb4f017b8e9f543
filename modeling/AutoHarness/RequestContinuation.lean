import AutoHarness.RequestHistory
import AutoHarness.ToolCapture

namespace AutoHarness

open FallibleRun

variable {s : SessionAggregate} {a : AttemptProjection} {input : AdmittedInput}
  {call : ToolCallProjection} {compactedThrough : Option SessionSequence}

theorem isBlank_append (front back : String) :
    isBlank (front ++ back) = (isBlank front && isBlank back) := by
  simp [isBlank]

/-- A completed call whose captured text has no visible character. -/
def blankOutput (call : ToolCallProjection) : Bool :=
  call.status == .completed && call.call.capability.kind != .memoryProposal &&
    call.output.any fun output => isBlank output.content

theorem isSettled_of_blankOutput (h : blankOutput call = true) : call.status.isSettled = true := by
  simp only [blankOutput, Bool.and_eq_true, beq_iff_eq] at h
  rw [h.1.1]
  rfl

/-- Every text that stands in for an output is visible. -/
theorem isBlank_toolResultContent (call : ToolCallProjection) :
    isBlank (toolResultContent call) = blankOutput call := by
  have failed : isBlank "Tool failed: " = false := by decide
  unfold toolResultContent blankOutput
  cases call.status with
  | completed =>
    by_cases proposal : call.call.capability.kind = .memoryProposal
    · simp [proposal]
      decide
    · cases call.output with
      | none =>
        simp [proposal]
        decide
      | some output => simp [proposal]
  | failed =>
    cases call.failure with
    | none => exact (by decide : isBlank "Tool failed" = false)
    | some failure =>
      simp only [isBlank_append, failed, Bool.false_and]
      rfl
  | denied =>
    by_cases invalid : call.call.capability.kind = .invalidToolCall
    · simp only [if_pos invalid]
      exact (by decide : isBlank ("Tool call rejected: use only an advertised tool with its exact " ++
        "argument schema") = false)
    · simp only [if_neg invalid]
      exact (by decide : isBlank "Tool permission was denied" = false)
  | cancelled => exact (by decide : isBlank "Tool execution was cancelled" = false)
  | unknown =>
    exact (by decide : isBlank "Tool outcome is unknown after interruption and was not retried" =
      false)
  | proposed | permissionPending | authorized | deniedPending | running =>
    exact (by decide : isBlank "Tool result is not settled" = false)

theorem HistoryItem.message_ok_iff {item : HistoryItem} :
    (∃ message, item.message = .ok message) ↔
      (∀ attempt, item = .text attempt → isBlank attempt.responseText = false) ∧
        ∀ call, item = .toolResult call → blankOutput call = false := by
  cases item with
  | prompt input =>
    obtain ⟨content, made⟩ := ChatContent.new_ok_iff.mpr input.prompt.nonblank
    simp [HistoryItem.message, made]
  | text attempt =>
    simp only [HistoryItem.message, HistoryItem.text.injEq, forall_eq', reduceCtorEq,
      false_implies, implies_true, and_true, ← ChatContent.new_ok_iff]
    constructor
    · rintro ⟨message, made⟩
      obtain ⟨content, made, -⟩ := bind_eq_ok_iff.mp made
      exact ⟨content, made⟩
    · rintro ⟨content, made⟩
      exact ⟨_, bind_eq_ok_iff.mpr ⟨content, made, rfl⟩⟩
  | toolCall call => simp [HistoryItem.message]
  | toolResult call =>
    simp only [HistoryItem.message, HistoryItem.toolResult.injEq, forall_eq', reduceCtorEq,
      false_implies, implies_true, true_and, ← isBlank_toolResultContent,
      ← ChatContent.new_ok_iff]
    constructor
    · rintro ⟨message, made⟩
      obtain ⟨content, made, -⟩ := bind_eq_ok_iff.mp made
      exact ⟨content, made⟩
    · rintro ⟨content, made⟩
      exact ⟨_, bind_eq_ok_iff.mpr ⟨content, made, rfl⟩⟩

theorem text_mem_outputItems {x y : AttemptProjection} (h : .text y ∈ outputItems s x) :
    isBlank y.responseText = false := by
  unfold outputItems at h
  rcases List.mem_append.mp h with written | exchanged
  · cases blank : isBlank x.responseText with
    | true => simp [blank] at written
    | false =>
      simp only [blank, Bool.false_eq_true, if_false, List.mem_singleton,
        HistoryItem.text.injEq] at written
      rwa [written]
  · obtain ⟨call, -, member⟩ := List.mem_flatMap.mp exchanged
    unfold exchangeItems at member
    cases settled : call.status.isSettled <;> simp [settled] at member

theorem toolResult_mem_outputItems {x : AttemptProjection} :
    .toolResult call ∈ outputItems s x ↔
      call ∈ s.toolCalls ∧ call.attemptId = x.attemptId ∧ call.status.isSettled = true := by
  unfold outputItems
  rw [List.mem_append, List.mem_flatMap]
  constructor
  · rintro (written | ⟨owned, listed, member⟩)
    · split at written <;> simp at written
    · simp only [List.mem_filter, beq_iff_eq] at listed
      unfold exchangeItems at member
      cases settled : owned.status.isSettled with
      | false => simp [settled] at member
      | true =>
        simp only [settled, if_true, List.mem_cons, reduceCtorEq, HistoryItem.toolResult.injEq,
          List.not_mem_nil, or_false, false_or] at member
        rw [member]
        exact ⟨listed.1, listed.2, settled⟩
  · rintro ⟨listed, owner, settled⟩
    refine .inr ⟨call, ?_, ?_⟩
    · simp [listed, owner]
    · simp [exchangeItems, settled]

/-- The output of an attempt is rendered unless one of its calls completed blank. -/
theorem outputItems_ok_iff {x : AttemptProjection} :
    (∃ messages, (outputItems s x).mapM HistoryItem.message = .ok messages) ↔
      ∀ call ∈ s.toolCalls, call.attemptId = x.attemptId → blankOutput call = false := by
  rw [mapM_ok_iff]
  constructor
  · intro each call listed owner
    by_contra blank
    rw [Bool.not_eq_false] at blank
    have item := toolResult_mem_outputItems.mpr ⟨listed, owner, isSettled_of_blankOutput blank⟩
    have visible := (HistoryItem.message_ok_iff.mp (each _ item)).2 call rfl
    cases visible.symm.trans blank
  · intro visible item listed
    refine HistoryItem.message_ok_iff.mpr ⟨?_, ?_⟩
    · rintro y rfl
      exact text_mem_outputItems listed
    · rintro call rfl
      obtain ⟨present, owner, -⟩ := toolResult_mem_outputItems.mp listed
      exact visible call present owner

/-- Every attempt answers an input that some first attempt has promoted. -/
theorem Represented.promoted (represented : Represented s) (member : a ∈ s.attempts) :
    ∃ input ∈ s.admittedInputs, input.inputId = a.inputId ∧ input.promotedBy.isSome = true := by
  have admitted : ∃ input ∈ s.admittedInputs, input.inputId = a.inputId := by
    have listed := represented.inputs.admitted a.origin (List.mem_map_of_mem member)
    rw [represented.inputs.ids, List.mem_toFinset] at listed
    obtain ⟨input, present, same⟩ := List.mem_map.mp listed
    exact ⟨input, present, same⟩
  obtain ⟨input, present, same⟩ := admitted
  have first : ∃ o ∈ s.origins, o.inputId = a.inputId ∧ o.retryOf = none := by
    -- a retry points to an earlier attempt on the same input
    have earlier : ∀ (i : Nat) (o : AttemptOrigin), s.origins[i]? = some o →
        ∃ p ∈ s.origins, p.inputId = o.inputId ∧ p.retryOf = none := by
      intro i
      induction i using Nat.strong_induction_on with
      | _ i ih =>
        intro o at_
        cases retried : o.retryOf with
        | none => exact ⟨o, List.mem_of_getElem? at_, rfl, retried⟩
        | some priorId =>
          obtain ⟨j, prior, before, there, -, input, -⟩ := represented.retries i o priorId at_ retried
          obtain ⟨p, listed, answers, ordinary⟩ := ih j before prior there
          exact ⟨p, listed, answers.trans input, ordinary⟩
    have listed : a.origin ∈ s.origins := List.mem_map_of_mem member
    obtain ⟨i, at_⟩ := List.mem_iff_getElem?.mp listed
    exact earlier i a.origin at_
  obtain ⟨o, listed, answers, ordinary⟩ := first
  refine ⟨input, present, same, Option.isSome_iff_exists.mpr ⟨o.attemptId, ?_⟩⟩
  exact (represented.promotions input present o.attemptId).mpr
    ⟨o, listed, rfl, answers.trans same.symm, ordinary⟩

/-- The attempts whose output takes part in the request of an attempt. -/
def Contributes (s : SessionAggregate) (a : AttemptProjection)
    (compactedThrough : Option SessionSequence) (owner : AttemptId) : Prop :=
  owner = a.attemptId ∨ ∃ x ∈ s.attempts, x.attemptId = owner ∧
    isRetainedCompletedAttempt compactedThrough x = true

theorem mem_requestInputs :
    input ∈ requestInputs s a compactedThrough ↔
      input ∈ s.admittedInputs ∧ input.promotedBy.isSome = true ∧
        (input.inputId = a.inputId ∨ ∃ x ∈ s.attempts, x.inputId = input.inputId ∧
          isRetainedCompletedAttempt compactedThrough x = true) := by
  simp [requestInputs]

theorem mem_requestResponses {x : AttemptProjection} :
    x ∈ requestResponses s a compactedThrough input ↔
      x ∈ s.attempts ∧ x.inputId = input.inputId ∧
        (isRetainedCompletedAttempt compactedThrough x = true ∨
          (x.attemptId = a.attemptId ∧ ∃ call ∈ s.toolCalls, call.attemptId = a.attemptId)) := by
  simp [requestResponses]

theorem toolResult_mem_requestItems (represented : Represented s) (member : a ∈ s.attempts) :
    .toolResult call ∈ requestItems s a compactedThrough ↔
      call ∈ s.toolCalls ∧ call.status.isSettled = true ∧
        Contributes s a compactedThrough call.attemptId := by
  unfold requestItems
  rw [List.mem_flatMap]
  constructor
  · rintro ⟨input, taken, item⟩
    simp only [inputItems, List.mem_cons, reduceCtorEq, false_or] at item
    obtain ⟨x, response, item⟩ := List.mem_flatMap.mp item
    obtain ⟨listed, owner, settled⟩ := toolResult_mem_outputItems.mp item
    obtain ⟨present, -, retained | ⟨own, -⟩⟩ := mem_requestResponses.mp response
    · exact ⟨listed, settled, .inr ⟨x, present, owner.symm, retained⟩⟩
    · exact ⟨listed, settled, .inl (owner.trans own)⟩
  · rintro ⟨listed, settled, own | ⟨x, present, owner, retained⟩⟩
    · obtain ⟨input, admitted, same, promoted⟩ := represented.promoted member
      refine ⟨input, mem_requestInputs.mpr ⟨admitted, promoted, .inl same⟩, ?_⟩
      refine List.mem_cons_of_mem _ (List.mem_flatMap.mpr ⟨a, ?_, ?_⟩)
      · exact mem_requestResponses.mpr ⟨member, same.symm, .inr ⟨rfl, call, listed, own⟩⟩
      · exact toolResult_mem_outputItems.mpr ⟨listed, own, settled⟩
    · obtain ⟨input, admitted, same, promoted⟩ := represented.promoted present
      refine ⟨input, mem_requestInputs.mpr
        ⟨admitted, promoted, .inr ⟨x, present, same.symm, retained⟩⟩, ?_⟩
      refine List.mem_cons_of_mem _ (List.mem_flatMap.mpr ⟨x, ?_, ?_⟩)
      · exact mem_requestResponses.mpr ⟨present, same.symm, .inl retained⟩
      · exact toolResult_mem_outputItems.mpr ⟨listed, owner.symm, settled⟩

theorem text_mem_requestItems {x : AttemptProjection}
    (item : .text x ∈ requestItems s a compactedThrough) : isBlank x.responseText = false := by
  obtain ⟨input, -, item⟩ := List.mem_flatMap.mp item
  simp only [inputItems, List.mem_cons, reduceCtorEq, false_or] at item
  obtain ⟨y, -, item⟩ := List.mem_flatMap.mp item
  exact text_mem_outputItems item

theorem requestItems_ne_nil (represented : Represented s) (member : a ∈ s.attempts) :
    requestItems s a compactedThrough ≠ [] := by
  obtain ⟨input, admitted, same, promoted⟩ := represented.promoted member
  have taken : input ∈ requestInputs s a compactedThrough :=
    mem_requestInputs.mpr ⟨admitted, promoted, .inl same⟩
  have prompt : .prompt input ∈ requestItems s a compactedThrough :=
    List.mem_flatMap.mpr ⟨input, taken, List.mem_cons_self⟩
  exact List.ne_nil_of_mem prompt

/-- The request of an attempt is built exactly when no call that takes part in it has completed
with a blank output. -/
theorem request_built_iff {sessionId : SessionId} {log : List EventEnvelope}
    (h : SessionAggregate.rehydrate sessionId log = .ok s) {attemptId : AttemptId}
    (found : s.attempt attemptId = some a) (floatBytes : UInt64 → Nat) (advertiseTools : Bool)
    (compactedThrough : Option SessionSequence) :
    (∃ request, buildRequestAfterCutoff floatBytes s attemptId advertiseTools compactedThrough =
        .ok request) ↔
      ∀ call ∈ s.toolCalls, Contributes s a compactedThrough call.attemptId →
        blankOutput call = false := by
  have represented := rehydrate_represented h
  have member := (represented.indexes.attempts.find?_eq_some_iff.mp found).1
  have rendered : (∃ request, buildRequestAfterCutoff floatBytes s attemptId advertiseTools
      compactedThrough = .ok request) ↔ ∃ messages,
        (requestItems s a compactedThrough).mapM HistoryItem.message = .ok messages := by
    constructor
    · rintro ⟨request, built⟩
      obtain ⟨messages, -, rendered, -⟩ := (buildRequestAfterCutoff_eq_ok_iff found).mp built
      exact ⟨messages, rendered⟩
    · rintro ⟨messages, rendered⟩
      obtain ⟨tools, advertised⟩ := definitions_advertised floatBytes
      refine ⟨_, (buildRequestAfterCutoff_eq_ok_iff found).mpr
        ⟨messages, tools, rendered, advertised, ?_, rfl⟩⟩
      intro empty
      have some_ : requestItems s a compactedThrough ≠ [] := requestItems_ne_nil represented member
      obtain ⟨item, listed⟩ := List.exists_mem_of_ne_nil _ some_
      obtain ⟨message, shown, -⟩ := (mapM_mem rendered).2 item listed
      rw [empty] at shown
      cases shown
  rw [rendered, mapM_ok_iff]
  constructor
  · intro each call listed contributes
    by_contra blank
    rw [Bool.not_eq_false] at blank
    have item := (toolResult_mem_requestItems represented member).mpr
      ⟨listed, isSettled_of_blankOutput blank, contributes⟩
    have visible := (HistoryItem.message_ok_iff.mp (each _ item)).2 call rfl
    cases visible.symm.trans blank
  · intro visible item listed
    refine HistoryItem.message_ok_iff.mpr ⟨?_, ?_⟩
    · rintro x rfl
      exact text_mem_requestItems listed
    · rintro call rfl
      obtain ⟨present, -, contributes⟩ :=
        (toolResult_mem_requestItems represented member).mp listed
      exact visible call present contributes

section Sample

theorem emptyOutput_original : "".utf8ByteSize ≤ (0 : UInt64).toNat := Nat.zero_le _

def emptyOutput : ToolOutput := ⟨"", none, 0, false, Nat.zero_le _, emptyOutput_original, rfl⟩

theorem decision1_valid : validateIdentifier "decision-1" = .ok () := rfl

def readPayloads (output : ToolOutput) : List EventPayload :=
  samplePayloads ++ [.toolPermissionRecorded sampleCall.toolCallId ⟨"decision-1", decision1_valid⟩ .allow,
    .toolCallStarted sampleCall.toolCallId, .toolCallCompleted sampleCall.toolCallId output]

def notesOutput : ToolOutput := ⟨"notes", none, 5, false, by decide, by decide, rfl⟩

theorem request_built_iff_notes :
    ∃ s, SessionAggregate.rehydrate sampleSession
        (sampleEvents .first (readPayloads notesOutput)) = .ok s ∧
      ∃ request, buildRequestAfterCutoff (fun _ => 0) s sampleAttempt true none = .ok request := by
  refine ⟨_, rfl, ?_⟩
  have replayed : SessionAggregate.rehydrate sampleSession
      (sampleEvents .first (readPayloads notesOutput)) = _ := rfl
  refine (request_built_iff replayed rfl _ _ _).mpr ?_
  intro call listed _
  cases List.mem_singleton.mp listed
  decide

/-- The captured text of an empty file makes the continuation of its call impossible. -/
theorem empty_read_not_continued :
    capture 65536 (fun _ _ => .error internalToolError) [] = .ok emptyOutput ∧
    ∃ s, SessionAggregate.rehydrate sampleSession
        (sampleEvents .first (readPayloads emptyOutput)) = .ok s ∧
      (∀ call ∈ s.toolCalls, call.status.isSettled = true) ∧
      buildRequestAfterCutoff (fun _ => 0) s sampleAttempt true none =
        .error ⟨.invalidRequest, .never⟩ := by
  have decoded : fromUtf8Lossy [] = [] := by rw [fromUtf8Lossy]
  refine ⟨?_, _, rfl, ?_, rfl⟩
  · simp only [capture, decoded]
    rfl
  · intro call listed
    cases List.mem_singleton.mp listed
    rfl

end Sample

end AutoHarness
