import AutoHarness.OpenAiStream

namespace AutoHarness

open FallibleRun (bind_eq_ok_iff)
open SortedMap (gather under)

namespace OpenAi

section Fragments

variable {codec : StreamCodec} {credential : RouterCredential}

/-- What a frame says about one call, without the credential. -/
structure ToolCallFragment where
  id : Option String
  name : Option String
  arguments : Option String

def readFragment (credential : RouterCredential) (value : JsonValue) : Option (Nat × ToolCallFragment) :=
  ((value.get? "index").bind JsonValue.asU64?).map fun index =>
    (index,
      { id := ((value.get? "id").bind Serde.string).map credential.redact
        name := ((pointer "function" "name" value).bind Serde.string).map credential.redact
        arguments := (pointer "function" "arguments" value).bind Serde.string })

def merge (known : Option PendingToolCall) (fragment : ToolCallFragment) : PendingToolCall :=
  let pending := known.getD .default
  ⟨fragment.id.or pending.id, fragment.name.or pending.name,
    pending.arguments ++ fragment.arguments.getD ""⟩

/-- The last id that the fragments of a call announce. -/
def announcedId (fragments : List ToolCallFragment) : Option String :=
  fragments.foldl (fun id fragment => fragment.id.or id) none

def announcedName (fragments : List ToolCallFragment) : Option String :=
  fragments.foldl (fun name fragment => fragment.name.or name) none

def argumentText (fragments : List ToolCallFragment) : String :=
  fragments.foldl (fun text fragment => text ++ fragment.arguments.getD "") ""

theorem announce_ok {maxBytes bytes : Nat} {secrets after : SecretAccumulator}
    {known announced text : Option String}
    (h : announce credential maxBytes secrets known announced = .ok (after, text, bytes)) :
    text = (announced.map credential.redact).or known ∧
      ∀ told, announced.map credential.redact = some told → known = none ∨ known = some told := by
  cases announced with
  | none =>
    cases h
    exact ⟨rfl, fun told h => by cases h⟩
  | some value =>
    unfold announce at h
    simp only at h
    split at h
    · cases h
    · split at h
      · cases h
      · split at h
        · cases h
        · next other =>
          cases h
          refine ⟨rfl, fun told same => ?_⟩
          have same : credential.redact value = told := Option.some.inj same
          subst same
          cases known with
          | none => exact .inl rfl
          | some text => exact .inr (by simpa using other)

theorem appendArguments_ok {known text : String} {appended : Option String} {bytes : Nat}
    (h : appendArguments known appended = .ok (text, bytes)) : text = known ++ appended.getD "" := by
  cases appended with
  | none =>
    cases h
    simp
  | some arguments =>
    unfold appendArguments at h
    simp only at h
    split at h
    · cases h
    · cases h
      rfl

/-- A fragment that is taken is merged into the call of its index, whose id and name it repeats if they
are known. -/
theorem appendToolCall_ok {state after : NativeStreamState} {value : JsonValue}
    (h : appendToolCall credential state value = .ok after) :
    ∃ index fragment, readFragment credential value = some (index, fragment) ∧
      after.toolCalls = state.toolCalls.insert index (merge (state.toolCalls.find? index) fragment) ∧
      (∀ told pending, fragment.id = some told → state.toolCalls.find? index = some pending →
        pending.id = none ∨ pending.id = some told) ∧
      (∀ told pending, fragment.name = some told → state.toolCalls.find? index = some pending →
        pending.name = none ∨ pending.name = some told) ∧
      after.toolCallsEmitted = state.toolCallsEmitted ∧
      after.pendingCompletion = state.pendingCompletion := by
  unfold appendToolCall at h
  unfold readFragment
  cases hindex : (value.get? "index").bind JsonValue.asU64? with
  | none =>
    rw [hindex] at h
    cases h
  | some index =>
    rw [hindex] at h
    simp only at h
    split at h
    · cases h
    · obtain ⟨⟨idSecrets, id, idBytes⟩, hid, h⟩ := bind_eq_ok_iff.mp h
      obtain ⟨⟨nameSecrets, name, nameBytes⟩, hname, h⟩ := bind_eq_ok_iff.mp h
      obtain ⟨⟨arguments, argumentBytes⟩, harguments, h⟩ := bind_eq_ok_iff.mp h
      simp only at h
      split at h
      · cases h
      · cases h
        obtain ⟨idIs, idKnown⟩ := announce_ok hid
        obtain ⟨nameIs, nameKnown⟩ := announce_ok hname
        have argumentsAre := appendArguments_ok harguments
        refine ⟨index, _, rfl, ?_, ?_, ?_, rfl, rfl⟩
        · simp only [merge, idIs, nameIs, argumentsAre]
        · intro told pending announced found
          rw [found] at idKnown
          exact idKnown told announced
        · intro told pending announced found
          rw [found] at nameKnown
          exact nameKnown told announced

theorem or_eq_some_of_agree {told : String} {announced known : Option String} (h : known = some told)
    (agree : ∀ other, announced = some other → known = none ∨ known = some other) :
    announced.or known = some told := by
  cases announced with
  | none => exact h
  | some other =>
    rcases agree other rfl with absent | same
    · rw [absent] at h
      cases h
    · exact same.symm.trans h

/-- The pending calls are gathered from the fragments, and all fragments of a call agree on its id and
its name. -/
structure Gathered (fragments : List (Nat × ToolCallFragment)) (calls : SortedMap Nat PendingToolCall) :
    Prop where
  gathers : calls = gather merge .empty fragments
  ids : ∀ item ∈ fragments, ∀ told, item.2.id = some told →
    ∃ pending, calls.find? item.1 = some pending ∧ pending.id = some told
  names : ∀ item ∈ fragments, ∀ told, item.2.name = some told →
    ∃ pending, calls.find? item.1 = some pending ∧ pending.name = some told

variable {fragments : List (Nat × ToolCallFragment)} {calls : SortedMap Nat PendingToolCall}

theorem gathered_new : Gathered [] NativeStreamState.new.toolCalls :=
  ⟨rfl, fun _ mem => absurd mem List.not_mem_nil, fun _ mem => absurd mem List.not_mem_nil⟩

theorem Gathered.append (h : Gathered fragments calls) {index : Nat} {fragment : ToolCallFragment}
    (ids : ∀ told pending, fragment.id = some told → calls.find? index = some pending →
      pending.id = none ∨ pending.id = some told)
    (names : ∀ told pending, fragment.name = some told → calls.find? index = some pending →
      pending.name = none ∨ pending.name = some told) :
    Gathered (fragments ++ [(index, fragment)])
      (calls.insert index (merge (calls.find? index) fragment)) := by
  refine ⟨?_, ?_, ?_⟩
  · rw [SortedMap.gather_append, ← h.gathers]
    rfl
  · intro item mem told announced
    rw [SortedMap.find?_insert]
    rcases List.mem_append.mp mem with mem | mem
    · obtain ⟨pending, found, known⟩ := h.ids item mem told announced
      by_cases same : item.1 = index
      · rw [if_pos same]
        rw [same] at found
        rw [found]
        exact ⟨_, rfl, or_eq_some_of_agree known fun other told => ids other pending told found⟩
      · rw [if_neg same]
        exact ⟨pending, found, known⟩
    · cases List.mem_singleton.mp mem
      rw [if_pos rfl]
      have announced : fragment.id = some told := announced
      refine ⟨_, rfl, ?_⟩
      simp only [merge, announced, Option.some_or]
  · intro item mem told announced
    rw [SortedMap.find?_insert]
    rcases List.mem_append.mp mem with mem | mem
    · obtain ⟨pending, found, known⟩ := h.names item mem told announced
      by_cases same : item.1 = index
      · rw [if_pos same]
        rw [same] at found
        rw [found]
        exact ⟨_, rfl, or_eq_some_of_agree known fun other told => names other pending told found⟩
      · rw [if_neg same]
        exact ⟨pending, found, known⟩
    · cases List.mem_singleton.mp mem
      rw [if_pos rfl]
      have announced : fragment.name = some told := announced
      refine ⟨_, rfl, ?_⟩
      simp only [merge, announced, Option.some_or]

theorem foldlM_appendToolCall_ok {values : List JsonValue} {state after : NativeStreamState}
    (gathered : Gathered fragments state.toolCalls)
    (h : values.foldlM (appendToolCall credential) state = .ok after) :
    Gathered (fragments ++ values.filterMap (readFragment credential)) after.toolCalls ∧
      after.toolCallsEmitted = state.toolCallsEmitted ∧
      after.pendingCompletion = state.pendingCompletion := by
  induction values generalizing state fragments with
  | nil =>
    cases h
    simp [gathered]
  | cons value values ih =>
    obtain ⟨next, first, rest⟩ := bind_eq_ok_iff.mp h
    obtain ⟨index, fragment, read, calls, ids, names, emitted, pending⟩ := appendToolCall_ok first
    have step := gathered.append ids names
    rw [← calls] at step
    obtain ⟨further, emitted', pending'⟩ := ih step rest
    rw [List.append_assoc] at further
    rw [List.filterMap_cons, read]
    exact ⟨further, emitted'.trans emitted, pending'.trans pending⟩

/-- A call that was assembled from the fragments of an index. -/
def Assembled (codec : StreamCodec) (fragments : List ToolCallFragment) (call : ProviderToolCall) : Prop :=
  announcedId fragments = some call.providerCallId.value ∧
    announcedName fragments = some call.toolName.value ∧
    ∃ value, codec.fromStr (argumentText fragments) = some value ∧
      ToolArguments.new codec.floatBytes value = .ok call.arguments

theorem foldl_merge (fragments : List ToolCallFragment) (pending : PendingToolCall) :
    fragments.foldl (fun known fragment => some (merge known fragment)) (some pending) =
      some ⟨fragments.foldl (fun id fragment => fragment.id.or id) pending.id,
        fragments.foldl (fun name fragment => fragment.name.or name) pending.name,
        fragments.foldl (fun text fragment => text ++ fragment.arguments.getD "") pending.arguments⟩ := by
  induction fragments generalizing pending with
  | nil => rfl
  | cons fragment fragments ih => exact ih (merge (some pending) fragment)

theorem find?_gather_merge {index : Nat} (some_ : under index fragments ≠ []) :
    (gather merge .empty fragments).find? index =
      some ⟨announcedId (under index fragments), announcedName (under index fragments),
        argumentText (under index fragments)⟩ := by
  rw [SortedMap.find?_gather]
  cases h : under index fragments with
  | nil => exact absurd h some_
  | cons fragment rest => exact foldl_merge rest (merge none fragment)

theorem completeToolCall_ok {secrets after : SecretAccumulator} {pending : PendingToolCall}
    {call : ProviderToolCall} (h : completeToolCall codec credential secrets pending = .ok (after, call)) :
    pending.id = some call.providerCallId.value ∧ pending.name = some call.toolName.value ∧
      ∃ value, codec.fromStr pending.arguments = some value ∧
        ToolArguments.new codec.floatBytes value = .ok call.arguments := by
  unfold completeToolCall at h
  split at h
  · next id name value hid hname hvalue =>
    simp only at h
    split at h
    · cases h
    · split at h
      · next providerCallId toolName arguments madeId madeName made =>
        cases h
        rw [hid, hname, identifier_new_eq_ok_iff.mp madeId, identifier_new_eq_ok_iff.mp madeName]
        exact ⟨rfl, rfl, value, hvalue, made⟩
      · cases h
  · cases h

theorem completePending_ok {entries : List (Nat × PendingToolCall)} {secrets after : SecretAccumulator}
    {made : List ProviderToolCall} (h : completePending codec credential secrets entries = .ok (after, made)) :
    List.Forall₂ (fun entry call => ∃ before later,
      completeToolCall codec credential before entry.2 = .ok (later, call)) entries made := by
  induction entries generalizing secrets made with
  | nil =>
    cases h
    exact .nil
  | cons entry entries ih =>
    obtain ⟨⟨middle, call⟩, first, h⟩ := bind_eq_ok_iff.mp h
    obtain ⟨⟨last, rest⟩, second, h⟩ := bind_eq_ok_iff.mp h
    cases h
    exact .cons ⟨secrets, middle, first⟩ (ih second)

/-- One call for each index that has a fragment, in the order of the indexes. -/
def AssembledCalls (codec : StreamCodec) (fragments : List (Nat × ToolCallFragment))
    (made : List ProviderToolCall) : Prop :=
  ∃ indexes : List Nat, indexes.Pairwise (· < ·) ∧ (∀ index, index ∈ indexes ↔ under index fragments ≠ []) ∧
    List.Forall₂ (fun index call => Assembled codec (under index fragments) call) indexes made

theorem assembledCalls_of_completed (gathered : Gathered fragments calls) {secrets after : SecretAccumulator}
    {made : List ProviderToolCall}
    (h : completePending codec credential secrets calls.entries = .ok (after, made)) :
    AssembledCalls codec fragments made := by
  have found (index : Nat) : (∃ pending, calls.find? index = some pending) ↔ under index fragments ≠ [] := by
    rw [gathered.gathers]
    constructor
    · rintro ⟨pending, there⟩ empty
      rw [SortedMap.find?_gather, empty] at there
      cases there
    · intro some_
      exact ⟨_, find?_gather_merge some_⟩
  refine ⟨calls.entries.map Prod.fst, List.pairwise_map.mpr calls.sorted, fun index => ?_, ?_⟩
  · rw [← found, List.mem_map]
    constructor
    · rintro ⟨⟨key, pending⟩, mem, rfl⟩
      exact ⟨pending, calls.mem_entries_iff.mp mem⟩
    · rintro ⟨pending, there⟩
      exact ⟨(index, pending), calls.mem_entries_iff.mpr there, rfl⟩
  · rw [List.forall₂_map_left_iff]
    have members : ∀ entry ∈ calls.entries, calls.find? entry.1 = some entry.2 := fun entry mem =>
      calls.mem_entries_iff.mp mem
    refine (List.forall₂_and_left _ _ |>.mpr ⟨members, completePending_ok h⟩).imp ?_
    rintro entry call ⟨there, before, later, completed⟩
    have is := find?_gather_merge ((found entry.1).mp ⟨_, there⟩)
    rw [← gathered.gathers, there] at is
    obtain ⟨hid, hname, harguments⟩ := completeToolCall_ok completed
    rw [Option.some.inj is] at hid hname harguments
    exact ⟨hid, hname, harguments⟩

def frameChoice (codec : StreamCodec) (data : String) : Option JsonValue :=
  if trim data = "[DONE]" then none
  else ((codec.fromStr data).bind fun value => (value.get? "choices").bind asArray).bind List.head?

def frameFragments (codec : StreamCodec) (credential : RouterCredential) (data : String) :
    List (Nat × ToolCallFragment) :=
  ((frameChoice codec data).map fun choice =>
    (toolCallValues choice).filterMap (readFragment credential)).getD []

def frameFinish (codec : StreamCodec) (data : String) : Option CompletionReason :=
  (frameChoice codec data).bind finishReason

def emitted (events : List ProviderStreamEvent) : List ProviderToolCall :=
  events.filterMap ProviderStreamEvent.call?

theorem emitted_append (events later : List ProviderStreamEvent) :
    emitted (events ++ later) = emitted events ++ emitted later :=
  List.filterMap_append

theorem emitted_map_toolCall (made : List ProviderToolCall) :
    emitted (made.map .toolCall) = made := by
  rw [emitted, List.filterMap_map]
  exact List.filterMap_some

theorem handleContent_ok {state after : NativeStreamState} {choice : JsonValue}
    {events : List ProviderStreamEvent} (h : handleContent credential state choice = .ok (after, events)) :
    after.toolCalls = state.toolCalls ∧ after.toolCallsEmitted = state.toolCallsEmitted ∧
      after.pendingCompletion = state.pendingCompletion ∧ emitted events = [] ∧
      ∀ event ∈ events, event.terminal = false := by
  unfold handleContent at h
  split at h
  · cases h
    exact ⟨rfl, rfl, rfl, rfl, fun _ mem => absurd mem List.not_mem_nil⟩
  · next content _ =>
    simp only at h
    split at h
    · cases h
    · obtain ⟨delta, -, h⟩ := bind_eq_ok_iff.mp h
      cases h
      refine ⟨rfl, rfl, rfl, rfl, fun event mem => ?_⟩
      rw [List.mem_singleton.mp mem]
      rfl

/-- The first time that a turn finishes with tool calls, the pending ones are emitted. -/
theorem handleFinish_ok {state after : NativeStreamState} {choice : JsonValue}
    {events : List ProviderStreamEvent} (gathered : Gathered fragments state.toolCalls)
    (h : handleFinish codec credential state choice = .ok (after, events)) :
    after.toolCalls = state.toolCalls ∧
      after.toolCallsEmitted = (state.toolCallsEmitted || finishReason choice == some .toolCalls) ∧
      after.pendingCompletion = (finishReason choice).or state.pendingCompletion ∧
      (∀ event ∈ events, event.terminal = false) ∧
      (finishReason choice = some .toolCalls ∧ state.toolCallsEmitted = false →
        AssembledCalls codec fragments (emitted events) ∧ emitted events ≠ []) ∧
      (¬ (finishReason choice = some .toolCalls ∧ state.toolCallsEmitted = false) → emitted events = []) := by
  unfold handleFinish at h
  cases reason : finishReason choice with
  | none =>
    rw [reason] at h
    cases h
    simp [emitted]
  | some reason' =>
    rw [reason] at h
    simp only at h
    split at h
    · next first =>
      obtain ⟨rfl, fresh⟩ := first
      obtain ⟨⟨next, made⟩, completed, h⟩ := bind_eq_ok_iff.mp h
      cases h
      unfold completeToolCalls at completed
      split at completed
      · cases completed
      · next filled =>
        obtain ⟨⟨secrets, calls⟩, pending, completed⟩ := bind_eq_ok_iff.mp completed
        cases completed
        have nonempty : calls ≠ [] := by
          rintro rfl
          have none_ := (completePending_ok pending).length_eq
          rw [List.length_nil, List.length_eq_zero_iff] at none_
          rw [none_] at filled
          exact filled rfl
        refine ⟨rfl, by simp, rfl, fun event mem => ?_, fun _ => ?_, fun other => absurd ⟨rfl, fresh⟩ other⟩
        · obtain ⟨call, -, rfl⟩ := List.mem_map.mp mem
          rfl
        · rw [emitted_map_toolCall]
          exact ⟨assembledCalls_of_completed gathered pending, nonempty⟩
    · next other =>
      cases h
      refine ⟨rfl, ?_, rfl, fun _ mem => absurd mem List.not_mem_nil, fun first => ?_, fun _ => rfl⟩
      · by_cases same : reason' = .toolCalls
        · have already : state.toolCallsEmitted = true := by
            simpa using fun fresh => other ⟨same, fresh⟩
          simp [already]
        · simp [same]
      · exact absurd ⟨Option.some.inj first.1, first.2⟩ other

theorem handleChoice_ok {state after : NativeStreamState} {choice : JsonValue}
    {events : List ProviderStreamEvent} (gathered : Gathered fragments state.toolCalls)
    (h : handleChoice codec credential state choice = .ok (after, events)) :
    Gathered (fragments ++ (toolCallValues choice).filterMap (readFragment credential)) after.toolCalls ∧
      after.toolCallsEmitted = (state.toolCallsEmitted || finishReason choice == some .toolCalls) ∧
      after.pendingCompletion = (finishReason choice).or state.pendingCompletion ∧
      (∀ event ∈ events, event.terminal = false) ∧
      (finishReason choice = some .toolCalls ∧ state.toolCallsEmitted = false →
        AssembledCalls codec (fragments ++ (toolCallValues choice).filterMap (readFragment credential))
          (emitted events) ∧ emitted events ≠ []) ∧
      (¬ (finishReason choice = some .toolCalls ∧ state.toolCallsEmitted = false) → emitted events = []) := by
  obtain ⟨⟨started, content⟩, first, h⟩ := bind_eq_ok_iff.mp h
  obtain ⟨middle, second, h⟩ := bind_eq_ok_iff.mp h
  obtain ⟨⟨last, calls⟩, third, h⟩ := bind_eq_ok_iff.mp h
  cases h
  obtain ⟨calls_, emitted_, pending_, silent, open_⟩ := handleContent_ok first
  rw [← calls_] at gathered
  obtain ⟨appended, kept, waiting⟩ := foldlM_appendToolCall_ok gathered second
  obtain ⟨same, flag, pending, others, made, none_⟩ := handleFinish_ok appended third
  simp only [kept, waiting, emitted_, pending_] at flag pending made none_
  simp only [emitted_append, silent, List.nil_append]
  refine ⟨same ▸ appended, flag, pending, fun event mem => ?_, made, none_⟩
  rcases List.mem_append.mp mem with mem | mem
  · exact open_ event mem
  · exact others event mem

/-- What a frame does to a turn: it adds its fragments, and it emits the calls if it is the first that
finishes with tool calls. -/
theorem handle_ok {state after : NativeStreamState} {data : String} {events : List ProviderStreamEvent}
    (gathered : Gathered fragments state.toolCalls)
    (h : handle codec credential state data = .ok (after, events)) :
    Gathered (fragments ++ frameFragments codec credential data) after.toolCalls ∧
      after.toolCallsEmitted = (state.toolCallsEmitted || frameFinish codec data == some .toolCalls) ∧
      (frameFinish codec data = some .toolCalls ∧ state.toolCallsEmitted = false →
        AssembledCalls codec (fragments ++ frameFragments codec credential data) (emitted events) ∧
          emitted events ≠ []) ∧
      (¬ (frameFinish codec data = some .toolCalls ∧ state.toolCallsEmitted = false) →
        emitted events = []) ∧
      (trim data ≠ "[DONE]" → (∀ event ∈ events, event.terminal = false) ∧
        after.pendingCompletion = (frameFinish codec data).or state.pendingCompletion) := by
  unfold handle at h
  unfold frameFragments frameFinish frameChoice
  split at h
  · next done =>
    simp only [if_pos done]
    split at h
    · cases h
    · cases h
      simp [gathered, emitted, ProviderStreamEvent.call?, done]
  · next more =>
    simp only [if_neg more]
    cases read : codec.fromStr data with
    | none =>
      rw [read] at h
      cases h
    | some value =>
      rw [read] at h
      simp only [handleValue] at h
      split at h
      · cases h
      · have counted : emitted ((usage value).map ProviderStreamEvent.usage).toList = [] := by
          cases usage value <;> rfl
        have going : ∀ event ∈ ((usage value).map ProviderStreamEvent.usage).toList,
            event.terminal = false := by
          cases usage value <;> simp [ProviderStreamEvent.terminal]
        cases choices : (value.get? "choices").bind asArray with
        | none =>
          rw [choices] at h
          cases h
        | some items =>
          rw [choices] at h
          simp only [Option.bind_some, choices]
          match items, h with
          | [], h =>
            cases h
            refine ⟨by simpa using gathered, by simp, by simp, fun _ => counted, fun _ => ⟨going, rfl⟩⟩
          | [choice], h =>
            obtain ⟨⟨next, more⟩, handled, h⟩ := bind_eq_ok_iff.mp h
            cases h
            obtain ⟨further, flag, pending, others, made, none_⟩ := handleChoice_ok gathered handled
            simp only [emitted_append, counted, List.nil_append]
            refine ⟨further, flag, made, none_, fun _ => ⟨fun event mem => ?_, pending⟩⟩
            rcases List.mem_append.mp mem with mem | mem
            · exact going event mem
            · exact others event mem

/-- The frames up to the first that finishes with tool calls. -/
def toolTurn (codec : StreamCodec) : List String → Option (List String)
  | [] => none
  | data :: rest =>
    if frameFinish codec data = some .toolCalls then some [data] else (toolTurn codec rest).map (data :: ·)

theorem handleAll_ok {frames : List String} {state after : NativeStreamState}
    {events : List ProviderStreamEvent} (gathered : Gathered fragments state.toolCalls)
    (h : handleAll codec credential state frames = .ok (after, events)) :
    Gathered (fragments ++ frames.flatMap (frameFragments codec credential)) after.toolCalls ∧
      (state.toolCallsEmitted = true → emitted events = []) ∧
      (state.toolCallsEmitted = false → toolTurn codec frames = none → emitted events = []) ∧
      ∀ turn, state.toolCallsEmitted = false → toolTurn codec frames = some turn →
        AssembledCalls codec (fragments ++ turn.flatMap (frameFragments codec credential)) (emitted events) ∧
          emitted events ≠ [] := by
  induction frames generalizing state fragments events with
  | nil =>
    cases h
    refine ⟨by simpa using gathered, fun _ => rfl, fun _ _ => rfl, fun turn _ h => ?_⟩
    cases h
  | cons data rest ih =>
    obtain ⟨⟨middle, first⟩, handled, h⟩ := bind_eq_ok_iff.mp h
    obtain ⟨⟨last, more⟩, others, h⟩ := bind_eq_ok_iff.mp h
    cases h
    obtain ⟨further, flag, made, none_, -⟩ := handle_ok gathered handled
    obtain ⟨whole, silent, without, within⟩ := ih further others
    rw [List.append_assoc] at whole
    refine ⟨whole, fun already => ?_, fun fresh absent => ?_, fun turn fresh present => ?_⟩
    · rw [emitted_append, none_ fun h => by simp [already] at h, silent (by simp [flag, already])]
      rfl
    · unfold toolTurn at absent
      split at absent
      · cases absent
      · next other =>
        rw [emitted_append, none_ fun h => other h.1,
          without (by simp [flag, fresh, other]) (Option.map_eq_none_iff.mp absent)]
        rfl
    · unfold toolTurn at present
      split at present
      · next finishes =>
        cases present
        obtain ⟨assembled, nonempty⟩ := made ⟨finishes, fresh⟩
        have rest_ : emitted more = [] := silent (by simp [flag, finishes])
        rw [emitted_append, rest_, List.append_nil, List.flatMap_singleton]
        exact ⟨assembled, nonempty⟩
      · next other =>
        obtain ⟨later, found, rfl⟩ := Option.map_eq_some_iff.mp present
        have nothing : emitted first = [] := none_ fun h => other h.1
        rw [emitted_append, nothing, List.nil_append, List.flatMap_cons, ← List.append_assoc]
        exact within later (by simp [flag, fresh, other]) found

theorem assembled_unique {same : List ToolCallFragment} {call other : ProviderToolCall}
    (h : Assembled codec same call) (h' : Assembled codec same other) : call = other := by
  obtain ⟨id, name, value, read, made⟩ := h
  obtain ⟨id', name', value', read', made'⟩ := h'
  rw [read] at read'
  cases read'
  rw [made] at made'
  obtain ⟨⟨callId, _⟩, ⟨toolName, _⟩, arguments⟩ := call
  obtain ⟨⟨otherId, _⟩, ⟨otherName, _⟩, others⟩ := other
  have ids : callId = otherId := Option.some.inj (id.symm.trans id')
  have names : toolName = otherName := Option.some.inj (name.symm.trans name')
  subst ids names
  cases Except.ok.inj made'
  rfl

theorem assembledCalls_unique {others : List (Nat × ToolCallFragment)} {made remade : List ProviderToolCall}
    (h : AssembledCalls codec fragments made) (h' : AssembledCalls codec others remade)
    (same : ∀ index, under index fragments = under index others) : made = remade := by
  obtain ⟨indexes, sorted, mem, assembled⟩ := h
  obtain ⟨indexes', sorted', mem', assembled'⟩ := h'
  have equal : indexes = indexes' := by
    refine List.Perm.eq_of_pairwise (fun a b _ _ hab hba => absurd hab (Nat.lt_asymm hba)) sorted sorted' ?_
    refine (List.perm_ext_iff_of_nodup (sorted.imp Nat.ne_of_lt) (sorted'.imp Nat.ne_of_lt)).mpr fun index => ?_
    rw [mem, mem', same]
  subst equal
  clear sorted mem sorted' mem'
  induction assembled generalizing remade with
  | nil =>
    cases assembled'
    rfl
  | cons first _ ih =>
    cases assembled' with
    | cons first' rest' =>
      rw [← same] at first'
      rw [assembled_unique first first', ih rest']

/-- A turn emits nothing unless a frame finishes with tool calls; then it emits, once, one call for each
index that had a fragment by then, with the arguments in order, and all fragments agree on the id. -/
theorem tool_calls_assembled {frames : List String} {after : NativeStreamState}
    {events : List ProviderStreamEvent}
    (accepted : handleAll codec credential .new frames = .ok (after, events)) :
    (toolTurn codec frames = none → emitted events = []) ∧
      (∀ turn, toolTurn codec frames = some turn → emitted events ≠ [] ∧
        AssembledCalls codec (turn.flatMap (frameFragments codec credential)) (emitted events)) ∧
      ∀ index, ∀ first ∈ under index (frames.flatMap (frameFragments codec credential)),
        ∀ second ∈ under index (frames.flatMap (frameFragments codec credential)),
          ∀ id other, first.id = some id → second.id = some other → id = other := by
  obtain ⟨gathered, -, without, within⟩ := handleAll_ok gathered_new accepted
  refine ⟨without rfl, fun turn found => (within turn rfl found).symm, ?_⟩
  intro index first hfirst second hsecond id other announced announced'
  rw [List.nil_append] at gathered
  have known : ∀ fragment ∈ under index (frames.flatMap (frameFragments codec credential)), ∀ told,
      fragment.id = some told → ((after.toolCalls.find? index).bind PendingToolCall.id) = some told := by
    intro fragment mem told announced
    obtain ⟨item, listed, rfl⟩ := List.mem_map.mp mem
    obtain ⟨listed, here⟩ := List.mem_filter.mp listed
    obtain ⟨pending, found, is⟩ := gathered.ids item listed told announced
    rw [of_decide_eq_true here] at found
    rw [found]
    exact is
  exact Option.some.inj ((known first hfirst id announced).symm.trans (known second hsecond other announced'))

/-- The calls of a turn do not depend on how the fragments of different calls are interleaved. -/
theorem tool_calls_interleaved {frames others turn turn' : List String} {after after' : NativeStreamState}
    {events events' : List ProviderStreamEvent}
    (accepted : handleAll codec credential .new frames = .ok (after, events))
    (accepted' : handleAll codec credential .new others = .ok (after', events'))
    (finished : toolTurn codec frames = some turn) (finished' : toolTurn codec others = some turn')
    (same : ∀ index, under index (turn.flatMap (frameFragments codec credential)) =
      under index (turn'.flatMap (frameFragments codec credential))) : emitted events = emitted events' := by
  obtain ⟨-, -, -, within⟩ := handleAll_ok gathered_new accepted
  obtain ⟨-, -, -, within'⟩ := handleAll_ok gathered_new accepted'
  exact assembledCalls_unique (within turn rfl finished).1 (within' turn' rfl finished').1
    (by simpa using same)

end Fragments

section Sample

theorem trim_ne_done (rest : String) : trim ("\x7b" ++ rest) ≠ "[DONE]" := by
  intro h
  have head := congrArg (fun text => text.toList.head?) h
  have brace : ("\x7b" ++ rest).toList = '\x7b' :: rest.toList := by
    rw [String.toList_append]
    rfl
  have kept : isWhitespace '\x7b' = false := by decide
  have bracket : "[DONE]".toList.head? = some '[' := by decide
  simp only [trim, String.toList_ofList, brace, List.dropWhile_cons, kept, Bool.false_eq_true, if_false,
    List.reverse_cons, List.dropWhile_append, bracket] at head
  split at head
  · simp at head
  · simp at head

def sampleCredential : RouterCredential := ⟨"k", "k", "k"⟩

def firstText : String :=
  "\x7b" ++ ("\"choices\":[\x7b\"delta\":\x7b\"tool_calls\":[\x7b\"index\":0,\"id\":\"c\",\"function\":" ++
    "\x7b\"name\":\"n\",\"arguments\":\"\x7b\"\x7d\x7d]\x7d\x7d]\x7d")

def secondText : String :=
  "\x7b" ++ ("\"choices\":[\x7b\"delta\":\x7b\"tool_calls\":[\x7b\"index\":1,\"id\":\"d\",\"function\":" ++
    "\x7b\"name\":\"n\",\"arguments\":\"\x7b\x7d\"\x7d\x7d]\x7d\x7d]\x7d")

def lastText : String :=
  "\x7b" ++ ("\"choices\":[\x7b\"delta\":\x7b\"tool_calls\":[\x7b\"index\":0,\"function\":" ++
    "\x7b\"arguments\":\"\x7d\"\x7d\x7d]\x7d,\"finish_reason\":\"tool_calls\"\x7d]\x7d")

def sampleFrameValue (choice : List (String × JsonValue)) (call : List (String × JsonValue)) : JsonValue :=
  .object [("choices", .array [.object (("delta", .object [("tool_calls", .array [.object call])]) :: choice)])]

def firstValue : JsonValue :=
  sampleFrameValue [] [("function", .object [("arguments", .string "\x7b"), ("name", .string "n")]),
    ("id", .string "c"), ("index", .number (.posInt 0))]

def secondValue : JsonValue :=
  sampleFrameValue [] [("function", .object [("arguments", .string "\x7b\x7d"), ("name", .string "n")]),
    ("id", .string "d"), ("index", .number (.posInt 1))]

def lastValue : JsonValue :=
  sampleFrameValue [("finish_reason", .string "tool_calls")]
    [("function", .object [("arguments", .string "\x7d")]), ("index", .number (.posInt 0))]

def sampleCodec : StreamCodec where
  fromStr text :=
    if text = firstText then some firstValue
    else if text = secondText then some secondValue
    else if text = lastText then some lastValue
    else if text = "\x7b\x7d" then some (.object [])
    else none
  floatBytes _ := 0

theorem sample_first : sampleCodec.fromStr firstText = some firstValue := by
  simp only [sampleCodec, if_true]

theorem sample_second : sampleCodec.fromStr secondText = some secondValue := by
  have other : secondText ≠ firstText := by decide
  simp only [sampleCodec, other, if_false, if_true]

theorem sample_last : sampleCodec.fromStr lastText = some lastValue := by
  have apart : lastText ≠ firstText := by decide
  have other : lastText ≠ secondText := by decide
  simp only [sampleCodec, apart, other, if_false, if_true]

theorem handle_sample (state : NativeStreamState) {data rest : String} {value : JsonValue}
    (read : sampleCodec.fromStr data = some value) (begins : data = "\x7b" ++ rest) :
    handle sampleCodec sampleCredential state data =
      handleValue sampleCodec sampleCredential state value := by
  unfold handle
  rw [if_neg (begins ▸ trim_ne_done rest), read]

theorem frameChoice_sample {data rest : String} {value : JsonValue}
    (read : sampleCodec.fromStr data = some value) (begins : data = "\x7b" ++ rest) :
    frameChoice sampleCodec data = ((value.get? "choices").bind asArray).bind List.head? := by
  unfold frameChoice
  rw [if_neg (begins ▸ trim_ne_done rest), read]
  rfl

theorem exists_of_isOk {α ε : Type} {x : Except ε α} (h : x.isOk = true) : ∃ a, x = .ok a := by
  cases x with
  | error e => cases h
  | ok a => exact ⟨a, rfl⟩

theorem sample_accepted :
    (handleAll sampleCodec sampleCredential .new [firstText, secondText, lastText]).isOk = true := by
  simp only [handleAll, handle_sample _ sample_first rfl, handle_sample _ sample_second rfl,
    handle_sample _ sample_last rfl]
  decide

theorem sample_accepted_swapped :
    (handleAll sampleCodec sampleCredential .new [secondText, firstText, lastText]).isOk = true := by
  simp only [handleAll, handle_sample _ sample_first rfl, handle_sample _ sample_second rfl,
    handle_sample _ sample_last rfl]
  decide

theorem fragments_first : frameFragments sampleCodec sampleCredential firstText =
    [(0, ⟨some "c", some "n", some "\x7b"⟩)] := by
  rw [frameFragments, frameChoice_sample sample_first rfl]
  rfl

theorem fragments_second : frameFragments sampleCodec sampleCredential secondText =
    [(1, ⟨some "d", some "n", some "\x7b\x7d"⟩)] := by
  rw [frameFragments, frameChoice_sample sample_second rfl]
  rfl

theorem fragments_last : frameFragments sampleCodec sampleCredential lastText =
    [(0, ⟨none, none, some "\x7d"⟩)] := by
  rw [frameFragments, frameChoice_sample sample_last rfl]
  rfl

theorem sample_turn (before : List String) (h : ∀ data ∈ before, data = firstText ∨ data = secondText) :
    toolTurn sampleCodec (before ++ [lastText]) = some (before ++ [lastText]) := by
  have first : frameFinish sampleCodec firstText = none := by
    rw [frameFinish, frameChoice_sample sample_first rfl]
    rfl
  have second : frameFinish sampleCodec secondText = none := by
    rw [frameFinish, frameChoice_sample sample_second rfl]
    rfl
  have last : frameFinish sampleCodec lastText = some .toolCalls := by
    rw [frameFinish, frameChoice_sample sample_last rfl]
    rfl
  induction before with
  | nil => exact if_pos last
  | cons data before ih =>
    have later := ih fun other mem => h other (List.mem_cons_of_mem _ mem)
    have open_ : frameFinish sampleCodec data = none := by
      rcases h data List.mem_cons_self with rfl | rfl
      · exact first
      · exact second
    rw [List.cons_append, toolTurn, open_, later]
    rfl

theorem tool_calls_assembled_sample :
    ∃ after events, handleAll sampleCodec sampleCredential .new [firstText, secondText, lastText] =
      .ok (after, events) ∧ emitted events ≠ [] := by
  obtain ⟨⟨after, events⟩, accepted⟩ := exists_of_isOk sample_accepted
  have turn := sample_turn [firstText, secondText] (by simp)
  exact ⟨after, events, accepted, ((tool_calls_assembled accepted).2.1 _ turn).1⟩

/-- The first two frames of the sample may come in either order. -/
theorem tool_calls_interleaved_sample :
    ∃ after after' events events',
      handleAll sampleCodec sampleCredential .new [firstText, secondText, lastText] = .ok (after, events) ∧
      handleAll sampleCodec sampleCredential .new [secondText, firstText, lastText] = .ok (after', events') ∧
      emitted events = emitted events' := by
  obtain ⟨⟨after, events⟩, accepted⟩ := exists_of_isOk sample_accepted
  obtain ⟨⟨after', events'⟩, accepted'⟩ := exists_of_isOk sample_accepted_swapped
  have turn := sample_turn [firstText, secondText] (by simp)
  have turn' := sample_turn [secondText, firstText] (by simp)
  refine ⟨after, after', events, events', accepted, accepted',
    tool_calls_interleaved accepted accepted' turn turn' fun index => ?_⟩
  simp only [List.cons_append, List.nil_append, List.flatMap_cons, List.flatMap_nil, fragments_first,
    fragments_second, fragments_last, SortedMap.under_cons]
  by_cases zero : 0 = index
  · subst zero
    rfl
  · rw [if_neg zero, if_neg zero, if_neg zero]

end Sample

end OpenAi

end AutoHarness
