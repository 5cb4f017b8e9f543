import AutoHarness.CompactionGroups

namespace AutoHarness

open FallibleRun

/-- A prompt, or the whole output of one attempt, as it takes part in a request. -/
inductive HistoryPart where
  | prompt (input : AdmittedInput)
  | output (attempt : AttemptProjection)
deriving DecidableEq

def HistoryPart.items (s : SessionAggregate) : HistoryPart → List HistoryItem
  | .prompt input => [.prompt input]
  | .output attempt => outputItems s attempt

def inputParts (s : SessionAggregate) (a : AttemptProjection)
    (compactedThrough : Option SessionSequence) (input : AdmittedInput) : List HistoryPart :=
  .prompt input :: (requestResponses s a compactedThrough input).map .output

/-- The parts of the session behind the messages of a request, in their order. -/
def requestParts (s : SessionAggregate) (a : AttemptProjection)
    (compactedThrough : Option SessionSequence) : List HistoryPart :=
  (requestInputs s a compactedThrough).flatMap (inputParts s a compactedThrough)

variable {s : SessionAggregate} {a x : AttemptProjection} {input : AdmittedInput}
  {compactedThrough : Option SessionSequence}

theorem requestParts_items :
    (requestParts s a compactedThrough).flatMap (HistoryPart.items s) =
      requestItems s a compactedThrough := by
  unfold requestParts requestItems
  rw [List.flatMap_assoc]
  refine List.flatMap_congr fun input _ => ?_
  rw [inputParts, inputItems, List.flatMap_cons, List.flatMap_map]
  rfl

theorem output_mem_requestParts :
    .output x ∈ requestParts s a compactedThrough ↔
      ∃ input ∈ requestInputs s a compactedThrough,
        x ∈ requestResponses s a compactedThrough input := by
  simp [requestParts, inputParts]

theorem prompt_mem_requestParts :
    .prompt input ∈ requestParts s a compactedThrough ↔
      input ∈ requestInputs s a compactedThrough := by
  simp [requestParts, inputParts]

theorem Represented.input_unique (represented : Represented s) {i j : AdmittedInput}
    (hi : i ∈ s.admittedInputs) (hj : j ∈ s.admittedInputs) (same : i.inputId = j.inputId) :
    i = j :=
  List.inj_on_of_nodup_map represented.inputs.distinct hi hj same

theorem requestParts_nodup (represented : Represented s) :
    (requestParts s a compactedThrough).Nodup := by
  have attempts : s.attempts.Nodup := List.Nodup.of_map _ represented.indexes.attempts.nodup_keys
  have inputs : (requestInputs s a compactedThrough).Nodup :=
    (List.Nodup.of_map _ represented.inputs.distinct).filter _
  rw [requestParts, List.nodup_flatMap]
  constructor
  · intro input _
    rw [inputParts, List.nodup_cons]
    refine ⟨by simp, (attempts.filter _).map ?_⟩
    intro x y same
    exact HistoryPart.output.inj same
  · refine inputs.imp_of_mem ?_
    intro i j hi hj apart part left right
    simp only [inputParts, List.mem_cons, List.mem_map] at left right
    rcases left with rfl | ⟨x, answers, rfl⟩
    · rcases right with same | ⟨y, -, same⟩
      · exact apart (HistoryPart.prompt.inj same)
      · cases same
    · rcases right with same | ⟨y, answers', same⟩
      · cases same
      · cases same
        have one := (mem_requestResponses.mp answers).2.1
        have two := (mem_requestResponses.mp answers').2.1
        exact apart (represented.input_unique (mem_requestInputs.mp hi).1
          (mem_requestInputs.mp hj).1 (one.symm.trans two))

/-- The result of a call stands directly after the call. -/
def FollowsCall (before : List HistoryItem) (item : HistoryItem) : Prop :=
  ∀ call, item = .toolResult call → ∃ front, before = front ++ [.toolCall call]

theorem FollowsCall.after {front before : List HistoryItem} {item : HistoryItem}
    (h : FollowsCall before item) : FollowsCall (front ++ before) item := by
  intro call same
  obtain ⟨mid, rfl⟩ := h call same
  exact ⟨front ++ mid, (List.append_assoc _ _ _).symm⟩

theorem eachAfter_flatMap {α : Type} {expand : α → List HistoryItem} {xs : List α}
    (h : ∀ x ∈ xs, EachAfter FollowsCall (expand x)) :
    EachAfter FollowsCall (xs.flatMap expand) := by
  induction xs with
  | nil => exact eachAfter_nil
  | cons x xs ih =>
    rw [List.flatMap_cons]
    refine (h x List.mem_cons_self).append ?_
    exact (ih fun y member => h y (List.mem_cons_of_mem _ member)).imp fun _ _ => FollowsCall.after

theorem exchangeItems_follow (call : ToolCallProjection) :
    EachAfter FollowsCall (exchangeItems call) := by
  unfold exchangeItems
  rw [eachAfter_cons_iff]
  refine ⟨by simp [FollowsCall], ?_⟩
  split
  · rw [eachAfter_cons_iff]
    refine ⟨?_, eachAfter_nil⟩
    intro other same
    cases same
    exact ⟨[], rfl⟩
  · exact eachAfter_nil

theorem outputItems_follow (s : SessionAggregate) (x : AttemptProjection) :
    EachAfter FollowsCall (outputItems s x) := by
  unfold outputItems
  refine EachAfter.append ?_ ?_
  · split
    · exact eachAfter_nil
    · rw [eachAfter_cons_iff]
      exact ⟨by simp [FollowsCall], eachAfter_nil⟩
  · exact (eachAfter_flatMap fun call _ => exchangeItems_follow call).imp
      fun _ _ => FollowsCall.after

theorem items_follow (s : SessionAggregate) (parts : List HistoryPart) :
    EachAfter FollowsCall (parts.flatMap (HistoryPart.items s)) := by
  apply eachAfter_flatMap
  intro part _
  cases part with
  | prompt input =>
    rw [HistoryPart.items, eachAfter_cons_iff]
    exact ⟨by simp [FollowsCall], eachAfter_nil⟩
  | output attempt => exact outputItems_follow s attempt

/-- The first input was admitted before the second. -/
def AdmittedBefore (s : SessionAggregate) (first second : InputId) : Prop :=
  ∃ before own after, s.admittedInputs = before ++ own :: after ∧ own.inputId = second ∧
    ∃ input ∈ before, input.inputId = first

theorem AdmittedBefore.irrefl (represented : Represented s) {inputId : InputId} :
    ¬ AdmittedBefore s inputId inputId := by
  rintro ⟨before, own, after, split, same, input, earlier, key⟩
  have distinct := represented.inputs.distinct
  rw [split, List.map_append, List.map_cons, List.nodup_middle, List.nodup_cons] at distinct
  refine distinct.1 (List.mem_append_left _ ?_)
  rw [same, ← key]
  exact List.mem_map_of_mem earlier

theorem AdmittedBefore.asymm (represented : Represented s) {first second : InputId}
    (h : AdmittedBefore s first second) {before after : List AdmittedInput} {own : AdmittedInput}
    (split : s.admittedInputs = before ++ own :: after) (same : own.inputId = second) :
    ∀ input ∈ after, input.inputId ≠ first := by
  obtain ⟨before', own', after', split', same', input', earlier, key⟩ := h
  have members : own ∈ s.admittedInputs ∧ own' ∈ s.admittedInputs := by
    constructor
    · simp [split]
    · simp [split']
  cases represented.input_unique members.1 members.2 (same.trans same'.symm)
  have inputs := List.Nodup.of_map _ represented.inputs.distinct
  have fronts : before = before' := by
    have fresh : own ∉ before ∧ own ∉ before' := by
      constructor
      · rw [split, List.nodup_middle, List.nodup_cons] at inputs
        exact fun listed => inputs.1 (List.mem_append_left _ listed)
      · rw [split', List.nodup_middle, List.nodup_cons] at inputs
        exact fun listed => inputs.1 (List.mem_append_left _ listed)
    have after_ : own ∉ after := by
      rw [split, List.nodup_middle, List.nodup_cons] at inputs
      exact fun listed => inputs.1 (List.mem_append_right _ listed)
    exact ((List.append_cons_inj_of_notMem fresh.1 after_).mp (split.symm.trans split')).1
  cases fronts
  intro input later reused
  have distinct := represented.inputs.distinct
  rw [split, List.map_append, List.nodup_append'] at distinct
  refine distinct.2.2 (List.mem_map_of_mem earlier) ?_
  rw [key, ← reused, List.map_cons]
  exact List.mem_cons_of_mem _ (List.mem_map_of_mem later)

/-- What the parts of a request owe to the history of its session. -/
structure Conversation (s : SessionAggregate) (a : AttemptProjection)
    (compactedThrough : Option SessionSequence) (parts : List HistoryPart) : Prop where
  retained : ∀ x ∈ s.attempts, isRetainedCompletedAttempt compactedThrough x = true →
    parts.count (.output x) = 1 ∧
      ∃ input ∈ s.admittedInputs, input.inputId = x.inputId ∧ parts.count (.prompt input) = 1
  compacted : ∀ x ∈ s.attempts, x.status = .completed →
    isRetainedCompletedAttempt compactedThrough x = false → .output x ∉ parts
  outputs : ∀ x, .output x ∈ parts → x = a ∨
    (x ∈ s.attempts ∧ isRetainedCompletedAttempt compactedThrough x = true)
  prompts : ∀ input, .prompt input ∈ parts → input.inputId = a.inputId ∨
    ∃ x ∈ s.attempts, x.inputId = input.inputId ∧
      isRetainedCompletedAttempt compactedThrough x = true
  exchanged : ∀ before call after,
    parts.flatMap (HistoryPart.items s) = before ++ .toolResult call :: after →
      ∃ front, before = front ++ [.toolCall call]
  current : ∃ before input, input ∈ s.admittedInputs ∧ input.inputId = a.inputId ∧
    (parts = before ++ [.prompt input] ∨ parts = before ++ [.prompt input, .output a])

theorem isRetained_completed (h : isRetainedCompletedAttempt compactedThrough x = true) :
    x.status = .completed := by
  simp only [isRetainedCompletedAttempt, Bool.and_eq_true, beq_iff_eq] at h
  exact h.1

theorem retained_counted (represented : Represented s) (member : x ∈ s.attempts)
    (retained : isRetainedCompletedAttempt compactedThrough x = true) :
    (requestParts s a compactedThrough).count (.output x) = 1 ∧
      ∃ input ∈ s.admittedInputs, input.inputId = x.inputId ∧
        (requestParts s a compactedThrough).count (.prompt input) = 1 := by
  obtain ⟨input, admitted, same, promoted⟩ := represented.promoted member
  have distinct : (requestParts s a compactedThrough).Nodup := requestParts_nodup represented
  have taken : input ∈ requestInputs s a compactedThrough :=
    mem_requestInputs.mpr ⟨admitted, promoted, .inr ⟨x, member, same.symm, retained⟩⟩
  refine ⟨List.count_eq_one_of_mem distinct ?_, input, admitted, same,
    List.count_eq_one_of_mem distinct (prompt_mem_requestParts.mpr taken)⟩
  exact output_mem_requestParts.mpr
    ⟨input, taken, mem_requestResponses.mpr ⟨member, same.symm, .inl retained⟩⟩

theorem outputs_contribute (represented : Represented s) (own : a ∈ s.attempts)
    (part : .output x ∈ requestParts s a compactedThrough) :
    x = a ∨ (x ∈ s.attempts ∧ isRetainedCompletedAttempt compactedThrough x = true) := by
  obtain ⟨input, -, answers⟩ := output_mem_requestParts.mp part
  obtain ⟨member, -, retained | ⟨same, -⟩⟩ := mem_requestResponses.mp answers
  · exact .inr ⟨member, retained⟩
  · exact .inl (represented.attempt_unique member own same)

theorem filter_concat_of_last {α : Type} {p : α → Bool} {xs before after : List α} {x : α}
    (split : xs = before ++ x :: after) (taken : x ∈ xs.filter p)
    (later : ∀ y ∈ after, y ∉ xs.filter p) : ∃ front, xs.filter p = front ++ [x] := by
  have passes := (List.mem_filter.mp taken).2
  have rest : after.filter p = [] := by
    rw [List.filter_eq_nil_iff]
    intro y listed good
    refine later y listed (List.mem_filter.mpr ⟨?_, good⟩)
    rw [split]
    exact List.mem_append_right _ (List.mem_cons_of_mem _ listed)
  refine ⟨before.filter p, ?_⟩
  rw [split, List.filter_append, List.filter_cons_of_pos passes, rest]

theorem requestInputs_last (represented : Represented s) (own : input ∈ s.admittedInputs)
    (same : input.inputId = a.inputId) (promoted : input.promotedBy.isSome = true)
    (earlier : ∀ x ∈ s.attempts, isRetainedCompletedAttempt compactedThrough x = true →
      AdmittedBefore s x.inputId a.inputId) :
    ∃ front, requestInputs s a compactedThrough = front ++ [input] := by
  obtain ⟨before, after, split⟩ := List.append_of_mem own
  have later : ∀ j ∈ after, j ∉ requestInputs s a compactedThrough := by
    intro j listed taken
    obtain ⟨admitted, -, reused | ⟨x, member, answers, retained⟩⟩ := mem_requestInputs.mp taken
    · have inputs := List.Nodup.of_map _ represented.inputs.distinct
      rw [split, List.nodup_middle, List.nodup_cons] at inputs
      cases represented.input_unique admitted own (reused.trans same.symm)
      exact inputs.1 (List.mem_append_right _ listed)
    · exact (earlier x member retained).asymm represented split same j listed answers.symm
  have taken : input ∈ requestInputs s a compactedThrough :=
    mem_requestInputs.mpr ⟨own, promoted, .inl same⟩
  exact filter_concat_of_last split taken later

theorem eq_nil_or_singleton_of_nodup {α : Type} {xs : List α} {y : α} (distinct : xs.Nodup)
    (h : ∀ z ∈ xs, z = y) : xs = [] ∨ xs = [y] := by
  cases xs with
  | nil => exact .inl rfl
  | cons z zs =>
    cases h z List.mem_cons_self
    cases zs with
    | nil => exact .inr rfl
    | cons w ws =>
      cases h w (by simp)
      simp at distinct

/-- The request ends with the own prompt and exchange of the attempt when all that it retains
answers earlier inputs. -/
theorem current_of_earlier (represented : Represented s) (own : a ∈ s.attempts)
    (earlier : ∀ x ∈ s.attempts, isRetainedCompletedAttempt compactedThrough x = true →
      AdmittedBefore s x.inputId a.inputId) :
    ∃ before input, input ∈ s.admittedInputs ∧ input.inputId = a.inputId ∧
      (requestParts s a compactedThrough = before ++ [.prompt input] ∨
        requestParts s a compactedThrough = before ++ [.prompt input, .output a]) := by
  obtain ⟨input, admitted, same, promoted⟩ := represented.promoted own
  obtain ⟨front, last⟩ := requestInputs_last represented admitted same promoted earlier
  have attempts : s.attempts.Nodup := List.Nodup.of_map _ represented.indexes.attempts.nodup_keys
  have responses : requestResponses s a compactedThrough input = [] ∨
      requestResponses s a compactedThrough input = [a] := by
    refine eq_nil_or_singleton_of_nodup (attempts.filter _) ?_
    intro x answers
    obtain ⟨member, sameInput, retained | ⟨sameId, -⟩⟩ := mem_requestResponses.mp answers
    · have before := earlier x member retained
      rw [sameInput, same] at before
      exact absurd before (AdmittedBefore.irrefl represented)
    · exact represented.attempt_unique member own sameId
  refine ⟨front.flatMap (inputParts s a compactedThrough), input, admitted, same, ?_⟩
  rw [requestParts, last, List.flatMap_append, List.flatMap_singleton, inputParts]
  rcases responses with none_ | one
  · exact .inl (by rw [none_]; rfl)
  · exact .inr (by rw [one]; rfl)

/-- Conversely, such an end leaves no room for the answer to another input after the own one. -/
theorem earlier_of_current (represented : Represented s)
    (dispatched : a.status.isSettled = false)
    (current : ∃ before input, input ∈ s.admittedInputs ∧ input.inputId = a.inputId ∧
      (requestParts s a compactedThrough = before ++ [.prompt input] ∨
        requestParts s a compactedThrough = before ++ [.prompt input, .output a])) :
    ∀ x ∈ s.attempts, isRetainedCompletedAttempt compactedThrough x = true →
      AdmittedBefore s x.inputId a.inputId := by
  obtain ⟨before, input, admitted, same, ends⟩ := current
  obtain ⟨tail, ends, only⟩ : ∃ tail, requestParts s a compactedThrough =
      before ++ .prompt input :: tail ∧ ∀ part ∈ tail, part = .output a := by
    rcases ends with ends | ends
    · exact ⟨[], ends, by simp⟩
    · exact ⟨[.output a], ends, by simp⟩
  have taken : input ∈ requestInputs s a compactedThrough := by
    rw [← prompt_mem_requestParts, ends]
    simp
  obtain ⟨front, back, split⟩ := List.append_of_mem taken
  have parts : requestParts s a compactedThrough =
      front.flatMap (inputParts s a compactedThrough) ++ .prompt input ::
        ((requestResponses s a compactedThrough input).map .output ++
          back.flatMap (inputParts s a compactedThrough)) := by
    rw [requestParts, split, List.flatMap_append, List.flatMap_cons]
    rfl
  have distinct : (requestParts s a compactedThrough).Nodup := requestParts_nodup represented
  have fresh : .prompt input ∉ before ∧ .prompt input ∉ tail := by
    rw [ends, List.nodup_middle, List.nodup_cons, List.mem_append, not_or] at distinct
    exact distinct.1
  obtain ⟨-, -, rest⟩ := (List.append_cons_inj_of_notMem fresh.1 fresh.2).mp (ends.symm.trans parts)
  have emptied : back = [] := by
    rw [List.eq_nil_iff_forall_not_mem]
    intro j listed
    have part : .prompt j ∈ tail := by
      rw [rest]
      exact List.mem_append_right _ (List.mem_flatMap.mpr ⟨j, listed, List.mem_cons_self⟩)
    cases only _ part
  intro x member retained
  obtain ⟨j, admitted', same', promoted⟩ := represented.promoted member
  have taken' : j ∈ requestInputs s a compactedThrough :=
    mem_requestInputs.mpr ⟨admitted', promoted, .inr ⟨x, member, same'.symm, retained⟩⟩
  rw [split, emptied] at taken'
  rcases List.mem_append.mp taken' with earlier | last
  · rw [emptied] at split
    obtain ⟨low, high, sides, filtered, final⟩ := List.filter_eq_append_iff.mp split
    obtain ⟨mid, upper, cut, -, -, -⟩ := List.filter_eq_cons_iff.mp final
    refine ⟨low ++ mid, input, upper, ?_, same, j, ?_, same'⟩
    · rw [sides, cut, List.append_assoc]
    · rw [← filtered] at earlier
      exact List.mem_append_left _ (List.mem_of_mem_filter earlier)
  · cases List.mem_singleton.mp last
    have answers : x ∈ requestResponses s a compactedThrough input :=
      mem_requestResponses.mpr ⟨member, same'.symm, .inl retained⟩
    have part : HistoryPart.output x ∈ tail := by
      rw [rest]
      exact List.mem_append_left _ (List.mem_map_of_mem answers)
    cases only _ part
    rw [isRetained_completed retained] at dispatched
    cases dispatched

theorem isRetained_iff {q : SessionSequence} (completed : x.status = .completed)
    (stamped : x.completedSequence = some q) :
    isRetainedCompletedAttempt compactedThrough x = true ↔
      ∀ cutoff, compactedThrough = some cutoff → cutoff.get < q.get := by
  cases compactedThrough with
  | none => simp [isRetainedCompletedAttempt, completed, stamped]
  | some cutoff => simp [isRetainedCompletedAttempt, completed, stamped]

/-- One of three places, and only one. -/
def InExactlyOne (p q r : Prop) : Prop :=
  (p ∧ ¬ q ∧ ¬ r) ∨ (¬ p ∧ q ∧ ¬ r) ∨ (¬ p ∧ ¬ q ∧ r)

/-- The earlier compaction, the new groups and the request share out the completed attempts. -/
theorem completed_in_exactly_one (represented : Represented s) (own : a ∈ s.attempts)
    (dispatched : a.status.isSettled = false) {hashes : MessageHashes} {cutoff : SessionSequence}
    {prior : Option Nat} (ordered : ∀ p, prior = some p → p ≤ cutoff.get)
    {groups : List CompactedHistoryGroup}
    (made : compactionGroups hashes s prior cutoff = .ok groups) (member : x ∈ s.attempts)
    (completed : x.status = .completed) {q : SessionSequence}
    (stamped : x.completedSequence = some q) :
    InExactlyOne (∃ p, prior = some p ∧ q.get ≤ p)
      (∃ group ∈ groups, group.attemptId = x.attemptId.value)
      (.output x ∈ requestParts s a (some cutoff)) := by
  have grouped : (∃ group ∈ groups, group.attemptId = x.attemptId.value) ↔
      q.get ≤ cutoff.get ∧ ∀ p, prior = some p → p < q.get := by
    rw [(compactionGroups_exact represented made).2 x member]
    constructor
    · rintro ⟨q', listed⟩
      obtain ⟨-, stamped', within, above⟩ := mem_compactedAttempts.mp listed
      cases Option.some.inj (stamped.symm.trans stamped')
      exact ⟨within, above⟩
    · rintro ⟨within, above⟩
      exact ⟨q, mem_compactedAttempts.mpr ⟨member, stamped, within, above⟩⟩
  have requested : .output x ∈ requestParts s a (some cutoff) ↔ cutoff.get < q.get := by
    constructor
    · intro part
      rcases outputs_contribute represented own part with rfl | ⟨-, retained⟩
      · rw [completed] at dispatched
        cases dispatched
      · exact (isRetained_iff completed stamped).mp retained cutoff rfl
    · intro above
      have retained : isRetainedCompletedAttempt (some cutoff) x = true := by
        rw [isRetained_iff completed stamped]
        rintro _ ⟨⟩
        exact above
      have counted := (retained_counted (a := a) represented member retained).1
      exact List.count_pos_iff.mp (by omega)
  rw [InExactlyOne, grouped, requested]
  by_cases above : cutoff.get < q.get
  · refine .inr (.inr ⟨?_, by omega, above⟩)
    rintro ⟨p, same, below⟩
    have := ordered p same
    omega
  · by_cases old : ∃ p, prior = some p ∧ q.get ≤ p
    · refine .inl ⟨old, ?_, above⟩
      rintro ⟨-, later⟩
      obtain ⟨p, same, below⟩ := old
      have := later p same
      omega
    · refine .inr (.inl ⟨old, ⟨by omega, ?_⟩, above⟩)
      intro p same
      by_contra below
      exact old ⟨p, same, by omega⟩

/-- A request tells the conversation in order exactly when all that it retains answers inputs
admitted before its own one, and no call of a completed attempt or of its own completed blank. -/
theorem conversation_history_iff {sessionId : SessionId} {log : List EventEnvelope}
    (h : SessionAggregate.rehydrate sessionId log = .ok s) {attemptId : AttemptId}
    (found : s.attempt attemptId = some a) (dispatched : a.status.isSettled = false)
    (floatBytes : UInt64 → Nat) (hashes : MessageHashes) (advertiseTools : Bool)
    (compactedThrough : Option SessionSequence) :
    ((∃ request,
        buildRequestAfterCutoff floatBytes s attemptId advertiseTools compactedThrough =
          .ok request ∧
        ((requestParts s a compactedThrough).flatMap (HistoryPart.items s)).mapM
          HistoryItem.message = .ok request.messages) ∧
      Conversation s a compactedThrough (requestParts s a compactedThrough) ∧
      ∀ cutoff, compactedThrough = some cutoff → ∀ prior : Option Nat,
        (∀ p, prior = some p → p ≤ cutoff.get) →
        ∃ groups, compactionGroups hashes s prior cutoff = .ok groups ∧
          (groups.map CompactedHistoryGroup.attemptId).Nodup ∧
          ∀ x ∈ s.attempts, x.status = .completed → ∃ q, x.completedSequence = some q ∧
            InExactlyOne (∃ p, prior = some p ∧ q.get ≤ p)
              (∃ group ∈ groups, group.attemptId = x.attemptId.value)
              (.output x ∈ requestParts s a (some cutoff))) ↔
    (∀ x ∈ s.attempts, isRetainedCompletedAttempt compactedThrough x = true →
      AdmittedBefore s x.inputId a.inputId) ∧
    ∀ call ∈ s.toolCalls, (call.attemptId = a.attemptId ∨
      ∃ x ∈ s.attempts, x.attemptId = call.attemptId ∧ x.status = .completed) →
        blankOutput call = false := by
  have represented := rehydrate_represented h
  have own := (represented.indexes.attempts.find?_eq_some_iff.mp found).1
  have stamps : CompletedStamped s := (settlement_run (settlement_empty sessionId) h).1.stamped
  have stampOf : ∀ x ∈ s.attempts, x.status = .completed →
      ∃ q, x.completedSequence = some q := by
    intro x member completed
    exact Option.isSome_iff_exists.mp ((stamps x member).mpr completed)
  have built := request_built_iff h found floatBytes advertiseTools compactedThrough
  constructor
  · rintro ⟨⟨request, success, -⟩, conversation, compaction⟩
    refine ⟨earlier_of_current represented dispatched conversation.current, ?_⟩
    intro call listed owner
    rcases owner with mine | ⟨x, member, owns, completed⟩
    · exact built.mp ⟨request, success⟩ call listed (.inl mine)
    · obtain ⟨q, stamped⟩ := stampOf x member completed
      by_cases retained : isRetainedCompletedAttempt compactedThrough x = true
      · exact built.mp ⟨request, success⟩ call listed (.inr ⟨x, member, owns, retained⟩)
      · rw [isRetained_iff completed stamped] at retained
        push Not at retained
        obtain ⟨cutoff, cut, within⟩ := retained
        obtain ⟨groups, made, -⟩ := compaction cutoff cut none (by simp)
        have within_ : (q, x) ∈ compactedAttempts s none cutoff :=
          mem_compactedAttempts.mpr ⟨member, stamped, within, by simp⟩
        exact (compactionGroups_ok_iff represented stamps).mp ⟨groups, made⟩ q x within_ call listed
          owns.symm
  · rintro ⟨earlier, visible⟩
    refine ⟨?_, ?_, ?_⟩
    · obtain ⟨request, success⟩ := built.mpr fun call listed contributes =>
        visible call listed (contributes.imp id fun ⟨x, member, owns, retained⟩ =>
          ⟨x, member, owns, isRetained_completed retained⟩)
      refine ⟨request, success, ?_⟩
      obtain ⟨messages, tools, rendered, -, -, rfl⟩ :=
        (buildRequestAfterCutoff_eq_ok_iff found).mp success
      rw [requestParts_items]
      exact rendered
    · refine ⟨fun x member retained => retained_counted represented member retained, ?_, ?_, ?_, ?_,
        current_of_earlier represented own earlier⟩
      · intro x member completed dropped part
        rcases outputs_contribute represented own part with rfl | ⟨-, retained⟩
        · rw [completed] at dispatched
          cases dispatched
        · cases dropped.symm.trans retained
      · intro x part
        exact outputs_contribute represented own part
      · intro input part
        exact (mem_requestInputs.mp (prompt_mem_requestParts.mp part)).2.2
      · intro before call after split
        exact items_follow s _ before _ after split call rfl
    · rintro cutoff rfl prior ordered
      have grouped : ∃ groups, compactionGroups hashes s prior cutoff = .ok groups := by
        rw [compactionGroups_ok_iff represented stamps]
        intro q x listed call present owner
        obtain ⟨member, stamped, -⟩ := mem_compactedAttempts.mp listed
        have completed := (stamps x member).mp (by rw [stamped]; rfl)
        exact visible call present (.inr ⟨x, member, owner.symm, completed⟩)
      obtain ⟨groups, made⟩ := grouped
      refine ⟨groups, made, (compactionGroups_exact represented made).1, ?_⟩
      intro x member completed
      obtain ⟨q, stamped⟩ := stampOf x member completed
      exact ⟨q, stamped, completed_in_exactly_one represented own dispatched ordered made member
        completed stamped⟩

section Sample

theorem input2_valid : validateIdentifier "input-2" = .ok () := rfl

def secondInput : InputId := ⟨"input-2", input2_valid⟩

def secondPrompt : PromptText := ⟨"Summarize them", by decide⟩

theorem attempt2_valid : validateIdentifier "attempt-2" = .ok () := rfl

def secondAttempt : AttemptId := ⟨"attempt-2", attempt2_valid⟩

def retriedAttempt : AttemptId := ⟨"attempt-3", rfl⟩

def zeroHashes : MessageHashes := ⟨fun _ => sampleHash, fun _ => sampleHash⟩

/-- The second input is dispatched after the first one was answered. -/
def answeredPayloads : List EventPayload :=
  [.sessionCreated, .modelSelected sampleModel,
    .inputAdmitted sampleInput samplePrompt .nextTurn,
    .attemptPrepared sampleAttempt sampleInput sampleModel none, .attemptStarted sampleAttempt,
    .attemptCompleted sampleAttempt, .inputAdmitted secondInput secondPrompt .nextTurn,
    .attemptPrepared secondAttempt secondInput sampleModel none]

theorem answeredPayloads_accepted :
    ∃ s a, SessionAggregate.rehydrate sampleSession (sampleEvents .first answeredPayloads) =
        .ok s ∧ s.attempt secondAttempt = some a ∧ a.status.isSettled = false ∧
      a.inputId = secondInput ∧ s.toolCalls = [] ∧
      s.admittedInputs = [⟨sampleInput, samplePrompt, .nextTurn, some sampleAttempt⟩,
        ⟨secondInput, secondPrompt, .nextTurn, some secondAttempt⟩] ∧
      s.attempts.map (fun x => (x.inputId, isRetainedCompletedAttempt none x)) =
        [(sampleInput, true), (secondInput, false)] :=
  ⟨_, _, rfl, rfl, rfl, rfl, rfl, rfl, rfl⟩

theorem conversation_history_iff_answered :
    ∃ s a, SessionAggregate.rehydrate sampleSession (sampleEvents .first answeredPayloads) =
        .ok s ∧ s.attempt secondAttempt = some a ∧
      Conversation s a none (requestParts s a none) := by
  obtain ⟨s, a, replayed, found, dispatched, current, uncalled, inputs, answers⟩ :=
    answeredPayloads_accepted
  have earlier : ∀ x ∈ s.attempts, isRetainedCompletedAttempt none x = true →
      AdmittedBefore s x.inputId a.inputId := by
    intro x member retained
    have listed := List.mem_map_of_mem (f := fun x => (x.inputId, isRetainedCompletedAttempt none x))
      member
    rw [answers, retained] at listed
    have first : x.inputId = sampleInput := by simpa using listed
    rw [first, current]
    exact ⟨[_], _, [], inputs, rfl, _, List.mem_singleton_self _, rfl⟩
  have visible : ∀ call ∈ s.toolCalls, (call.attemptId = a.attemptId ∨
      ∃ x ∈ s.attempts, x.attemptId = call.attemptId ∧ x.status = .completed) →
        blankOutput call = false := by
    rw [uncalled]
    intro call listed
    cases listed
  have told := (conversation_history_iff replayed found dispatched (fun _ => 0) zeroHashes true
    none).mpr ⟨earlier, visible⟩
  exact ⟨s, a, replayed, found, told.2.1⟩

/-- The first attempt fails, the second input is answered, and then the first is retried. -/
def retriedPayloads : List EventPayload :=
  [.sessionCreated, .modelSelected sampleModel,
    .inputAdmitted sampleInput samplePrompt .nextTurn,
    .attemptPrepared sampleAttempt sampleInput sampleModel none,
    .attemptFailed sampleAttempt interruptedBeforeDispatch,
    .inputAdmitted secondInput secondPrompt .nextTurn,
    .attemptPrepared secondAttempt secondInput sampleModel none, .attemptStarted secondAttempt,
    .attemptCompleted secondAttempt,
    .attemptPrepared retriedAttempt sampleInput sampleModel (some sampleAttempt)]

theorem retriedPayloads_accepted :
    ∃ s a x, SessionAggregate.rehydrate sampleSession (sampleEvents .first retriedPayloads) =
        .ok s ∧ s.attempt retriedAttempt = some a ∧ a.status.isSettled = false ∧
      a.inputId = sampleInput ∧ a.model = sampleModel ∧
      (requestItems s a none).mapM HistoryItem.message =
        .ok [.text .user ⟨samplePrompt.value, samplePrompt.nonblank⟩,
          .text .user ⟨secondPrompt.value, secondPrompt.nonblank⟩] ∧
      (requestParts s a none).getLast? = some (.output x) ∧ x.inputId = secondInput :=
  ⟨_, _, _, rfl, rfl, rfl, rfl, rfl, rfl, rfl, rfl⟩

/-- The provider is asked the later question in place of the retried one. -/
theorem retried_prompt_not_last :
    ∃ s a request, SessionAggregate.rehydrate sampleSession
        (sampleEvents .first retriedPayloads) = .ok s ∧ s.attempt retriedAttempt = some a ∧
      a.status.isSettled = false ∧ a.inputId = sampleInput ∧
      buildRequestAfterCutoff (fun _ => 0) s retriedAttempt false none = .ok request ∧
      request.messages = [.text .user ⟨samplePrompt.value, samplePrompt.nonblank⟩,
        .text .user ⟨secondPrompt.value, secondPrompt.nonblank⟩] ∧
      ¬ Conversation s a none (requestParts s a none) := by
  obtain ⟨tools, advertised⟩ := definitions_advertised fun _ => 0
  obtain ⟨s, a, x, replayed, found, dispatched, own, model, rendered, final, other⟩ :=
    retriedPayloads_accepted
  refine ⟨s, a, ⟨sampleModel.modelId, [.text .user ⟨samplePrompt.value, samplePrompt.nonblank⟩,
    .text .user ⟨secondPrompt.value, secondPrompt.nonblank⟩], none, []⟩, replayed, found,
    dispatched, own, ?_, rfl, ?_⟩
  · rw [buildRequestAfterCutoff_eq_ok_iff found]
    exact ⟨_, tools, rendered, advertised, by simp, by rw [model]; rfl⟩
  intro conversation
  obtain ⟨before, input, -, -, ends | ends⟩ := conversation.current
  · rw [ends, List.getLast?_concat] at final
    cases final
  · rw [ends, List.append_cons, List.getLast?_concat] at final
    cases final
    exact absurd (own.symm.trans other) (by decide)

end Sample

end AutoHarness
