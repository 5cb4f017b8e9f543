import AutoHarness.Identifier
import AutoHarness.Recovery
import AutoHarness.RequestContinuation
import Mathlib.Data.List.Destutter
import Mathlib.Data.List.Sort

namespace AutoHarness

open FallibleRun

/-- SHA-256 over the JSON text of messages and of arguments. -/
structure MessageHashes where
  messages : List ChatMessage → Sha256Digest
  arguments : ToolArguments → Sha256Digest

/-- One complete settled attempt inside a bounded extractive history source. -/
structure CompactedHistoryGroup where
  attemptId : String
  completedSequence : Nat
  sourceHash : Sha256Digest
  excerpts : List String
deriving DecidableEq

def compactedMessageExcerptChars : Nat := 512

def truncateChars (value : String) (maxChars : Nat) : String :=
  String.ofList (value.toList.take maxChars)

def ChatRole.label : ChatRole → String
  | .user => "user"
  | .assistant => "assistant"

def compactedMessageExcerpt (hashes : MessageHashes) : ChatMessage → String
  | .text role content =>
    role.label ++ ": " ++ truncateChars content.value compactedMessageExcerptChars
  | .toolCall call =>
    "tool_call: " ++ call.toolName.value ++ " arguments_sha256:" ++
      (hashes.arguments call.arguments).value
  | .toolResult _ toolName content =>
    "tool_result: " ++ toolName.value ++ " " ++
      truncateChars content.value compactedMessageExcerptChars

def CompactedHistoryGroup.new (hashes : MessageHashes) (attemptId : AttemptId)
    (completedSequence : SessionSequence) (messages : List ChatMessage) :
    Except AppError CompactedHistoryGroup :=
  if messages.isEmpty then .error .configuration
  else
    .ok ⟨attemptId.value, completedSequence.get, hashes.messages messages,
      messages.map (compactedMessageExcerpt hashes)⟩

def compactionCutoffs (s : SessionAggregate) (compactedThrough : Option Nat) :
    List SessionSequence :=
  (((s.attempts.filterMap AttemptProjection.completedSequence).filter
    fun completed : SessionSequence =>
      compactedThrough.all fun cutoff => decide (cutoff < completed.get)).insertionSort
        fun left right => left.get ≤ right.get).destutter (· ≠ ·)

def completeAttemptMessages (s : SessionAggregate) (attempt : AttemptProjection) :
    Except AppError (List ChatMessage) :=
  if attempt.status ≠ .completed ∨ attempt.completedSequence = none then .error .configuration
  else
    match s.admittedInputs.find? fun input =>
        input.inputId == attempt.inputId && input.promotedBy.isSome with
    | none => .error .configuration
    | some input =>
      Except.mapError .provider do
        let content ← ChatContent.new input.prompt.value
        appendAttemptOutput s [.text .user content] attempt

def compactedAttempts (s : SessionAggregate) (compactedThrough : Option Nat)
    (cutoff : SessionSequence) : List (SessionSequence × AttemptProjection) :=
  s.attempts.filterMap fun attempt =>
    (attempt.completedSequence.filter fun completed =>
      decide (completed.get ≤ cutoff.get) &&
        compactedThrough.all fun prior => decide (prior < completed.get)).map
      fun completed => (completed, attempt)

def compactionGroup (hashes : MessageHashes) (s : SessionAggregate)
    (pair : SessionSequence × AttemptProjection) : Except AppError CompactedHistoryGroup := do
  let messages ← completeAttemptMessages s pair.2
  let group ← CompactedHistoryGroup.new hashes pair.2.attemptId pair.1 messages
  if group.completedSequence ≠ pair.1.get then .error .configuration else .ok group

def compactionGroups (hashes : MessageHashes) (s : SessionAggregate)
    (compactedThrough : Option Nat) (cutoff : SessionSequence) :
    Except AppError (List CompactedHistoryGroup) :=
  ((compactedAttempts s compactedThrough cutoff).insertionSort fun left right =>
    left.1.get < right.1.get ∨
      (left.1.get = right.1.get ∧ left.2.attemptId ≤ right.2.attemptId)).mapM
    (compactionGroup hashes s)

variable {s : SessionAggregate} {x : AttemptProjection}

theorem compactionCutoffs_above {compactedThrough : Option Nat} {cutoff : SessionSequence}
    (h : cutoff ∈ compactionCutoffs s compactedThrough) :
    ∀ prior, compactedThrough = some prior → prior < cutoff.get := by
  rintro prior rfl
  unfold compactionCutoffs at h
  have listed := (List.destutter_sublist _ _).subset h
  rw [List.mem_insertionSort, List.mem_filter] at listed
  simpa using listed.2

theorem mem_compactedAttempts {compactedThrough : Option Nat} {cutoff completed : SessionSequence} :
    (completed, x) ∈ compactedAttempts s compactedThrough cutoff ↔
      x ∈ s.attempts ∧ x.completedSequence = some completed ∧ completed.get ≤ cutoff.get ∧
        ∀ prior, compactedThrough = some prior → prior < completed.get := by
  unfold compactedAttempts
  simp only [List.mem_filterMap, Option.map_eq_some_iff, Option.filter_eq_some_iff,
    Bool.and_eq_true, decide_eq_true_eq, Prod.mk.injEq]
  constructor
  · rintro ⟨y, listed, q, ⟨stamped, within, above⟩, rfl, rfl⟩
    refine ⟨listed, stamped, within, ?_⟩
    rintro prior rfl
    simpa using above
  · rintro ⟨listed, stamped, within, above⟩
    refine ⟨x, listed, completed, ⟨stamped, within, ?_⟩, rfl, rfl⟩
    cases compactedThrough with
    | none => rfl
    | some prior => simpa using above prior rfl

/-- The messages of a completed attempt exist unless one of its calls completed blank. -/
theorem completeAttemptMessages_ok_iff (represented : Represented s) (member : x ∈ s.attempts)
    (completed : x.status = .completed) {q : SessionSequence}
    (stamped : x.completedSequence = some q) :
    (∃ messages, completeAttemptMessages s x = .ok messages ∧ messages ≠ []) ↔
      ∀ call ∈ s.toolCalls, call.attemptId = x.attemptId → blankOutput call = false := by
  have found : ∃ input, s.admittedInputs.find? (fun input =>
      input.inputId == x.inputId && input.promotedBy.isSome) = some input := by
    obtain ⟨input, admitted, same, promoted⟩ := represented.promoted member
    rw [← Option.isSome_iff_exists, List.find?_isSome]
    exact ⟨input, admitted, by simp [same, promoted]⟩
  obtain ⟨input, found⟩ := found
  obtain ⟨content, prompted⟩ := ChatContent.new_ok_iff.mpr input.prompt.nonblank
  have unfolded : completeAttemptMessages s x =
      ((outputItems s x).mapM HistoryItem.message >>= fun new =>
        Except.ok (.text .user content :: new)).mapError .provider := by
    unfold completeAttemptMessages
    rw [if_neg (by simp [completed, stamped])]
    simp only [found, prompted, ok_bind]
    rw [appendAttemptOutput_items]
    rfl
  rw [unfolded, ← outputItems_ok_iff]
  cases (outputItems s x).mapM HistoryItem.message with
  | error e => simp [Except.mapError, bind, Except.bind]
  | ok new => simp [Except.mapError, bind, Except.bind]

theorem compactionGroup_ok_iff {hashes : MessageHashes} (represented : Represented s)
    (member : x ∈ s.attempts) (completed : x.status = .completed) {q : SessionSequence}
    (stamped : x.completedSequence = some q) :
    (∃ group, compactionGroup hashes s (q, x) = .ok group) ↔
      ∀ call ∈ s.toolCalls, call.attemptId = x.attemptId → blankOutput call = false := by
  rw [← completeAttemptMessages_ok_iff represented member completed stamped]
  constructor
  · rintro ⟨group, made⟩
    obtain ⟨messages, complete, made⟩ := bind_eq_ok_iff.mp made
    refine ⟨messages, complete, ?_⟩
    rintro rfl
    cases made
  · rintro ⟨messages, complete, nonempty⟩
    unfold compactionGroup
    rw [complete, ok_bind]
    cases messages with
    | nil => exact absurd rfl nonempty
    | cons message rest =>
      refine ⟨⟨x.attemptId.value, q.get, hashes.messages (message :: rest),
        (message :: rest).map (compactedMessageExcerpt hashes)⟩, ?_⟩
      simp [CompactedHistoryGroup.new]

theorem compactionGroup_attemptId {hashes : MessageHashes} {q : SessionSequence}
    {group : CompactedHistoryGroup} (made : compactionGroup hashes s (q, x) = .ok group) :
    group.attemptId = x.attemptId.value ∧ group.completedSequence = q.get := by
  obtain ⟨messages, -, made⟩ := bind_eq_ok_iff.mp made
  obtain ⟨fresh, new, made⟩ := bind_eq_ok_iff.mp made
  unfold CompactedHistoryGroup.new at new
  cases messages with
  | nil => cases new
  | cons message rest =>
    cases new
    simp only [ne_eq, not_true_eq_false, if_false, Except.ok.injEq] at made
    cases made
    exact ⟨rfl, rfl⟩

theorem attemptId_of_value {a b : AttemptId} (h : a.value = b.value) : a = b := by
  cases a
  cases b
  cases h
  rfl

theorem Represented.attempt_unique (represented : Represented s) {x y : AttemptProjection}
    (hx : x ∈ s.attempts) (hy : y ∈ s.attempts) (same : x.attemptId = y.attemptId) : x = y := by
  have found := represented.indexes.attempts.find?_eq_some_iff.mpr ⟨hx, same⟩
  have found' := represented.indexes.attempts.find?_eq_some_iff.mpr ⟨hy, rfl⟩
  exact Option.some.inj (found.symm.trans found')

theorem compactedAttempts_distinct (represented : Represented s) (compactedThrough : Option Nat)
    (cutoff : SessionSequence) :
    ((compactedAttempts s compactedThrough cutoff).map fun pair => pair.2.attemptId.value).Nodup := by
  have ids := represented.indexes.attempts.nodup_keys
  rw [List.Nodup, List.pairwise_map] at ids ⊢
  refine ids.filterMap _ ?_
  intro a b apart p hp q hq same
  obtain ⟨_, -, rfl⟩ := Option.map_eq_some_iff.mp hp
  obtain ⟨_, -, rfl⟩ := Option.map_eq_some_iff.mp hq
  exact apart (attemptId_of_value same)

/-- The groups stand for exactly the attempts completed between the two cutoffs, each once. -/
theorem compactionGroups_exact {hashes : MessageHashes} (represented : Represented s)
    {compactedThrough : Option Nat} {cutoff : SessionSequence}
    {groups : List CompactedHistoryGroup}
    (made : compactionGroups hashes s compactedThrough cutoff = .ok groups) :
    (groups.map CompactedHistoryGroup.attemptId).Nodup ∧
      ∀ x ∈ s.attempts, (∃ group ∈ groups, group.attemptId = x.attemptId.value) ↔
        ∃ q, (q, x) ∈ compactedAttempts s compactedThrough cutoff := by
  unfold compactionGroups at made
  have names := mapM_map (g := CompactedHistoryGroup.attemptId)
    (h := fun pair : SessionSequence × AttemptProjection => pair.2.attemptId.value) made
    fun pair _ group built => (compactionGroup_attemptId built).1
  constructor
  · rw [names]
    have sorted := (List.perm_insertionSort (fun left right :
      SessionSequence × AttemptProjection => left.1.get < right.1.get ∨
        (left.1.get = right.1.get ∧ left.2.attemptId ≤ right.2.attemptId))
      (compactedAttempts s compactedThrough cutoff)).map
        fun pair => pair.2.attemptId.value
    exact sorted.nodup_iff.mpr (compactedAttempts_distinct represented compactedThrough cutoff)
  · intro x member
    constructor
    · rintro ⟨group, listed, same⟩
      obtain ⟨⟨q, y⟩, sorted, built⟩ := (mapM_mem made).1 group listed
      rw [List.mem_insertionSort] at sorted
      have owner := (compactionGroup_attemptId built).1
      have present := (mem_compactedAttempts.mp sorted).1
      have key : y.attemptId = x.attemptId := attemptId_of_value (owner.symm.trans same)
      cases represented.attempt_unique present member key
      exact ⟨q, sorted⟩
    · rintro ⟨q, listed⟩
      have sorted := List.mem_insertionSort (fun left right :
        SessionSequence × AttemptProjection => left.1.get < right.1.get ∨
          (left.1.get = right.1.get ∧ left.2.attemptId ≤ right.2.attemptId)) |>.mpr listed
      obtain ⟨group, shown, built⟩ := (mapM_mem made).2 _ sorted
      exact ⟨group, shown, (compactionGroup_attemptId built).1⟩

theorem compactionGroups_ok_iff {hashes : MessageHashes} (represented : Represented s)
    (stamps : CompletedStamped s) {compactedThrough : Option Nat} {cutoff : SessionSequence} :
    (∃ groups, compactionGroups hashes s compactedThrough cutoff = .ok groups) ↔
      ∀ q x, (q, x) ∈ compactedAttempts s compactedThrough cutoff →
        ∀ call ∈ s.toolCalls, call.attemptId = x.attemptId → blankOutput call = false := by
  unfold compactionGroups
  rw [mapM_ok_iff]
  have completed : ∀ q x, (q, x) ∈ compactedAttempts s compactedThrough cutoff →
      ((∃ group, compactionGroup hashes s (q, x) = .ok group) ↔
        ∀ call ∈ s.toolCalls, call.attemptId = x.attemptId → blankOutput call = false) := by
    intro q x listed
    obtain ⟨member, stamped, -⟩ := mem_compactedAttempts.mp listed
    have status := (stamps x member).mp (by rw [stamped]; rfl)
    exact compactionGroup_ok_iff represented member status stamped
  simp only [List.mem_insertionSort, Prod.forall]
  exact forall_congr' fun q => forall_congr' fun x => forall_congr' fun listed =>
    completed q x listed

end AutoHarness
