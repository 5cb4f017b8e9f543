import AutoHarness.OpenAiAssembly
import AutoHarness.SseFragmentation

namespace AutoHarness

open FallibleRun (bind_eq_ok_iff)

namespace OpenAi

section Contract

variable {codec : StreamCodec} {credential : RouterCredential} {state : NativeStreamState}
  {yielded items : List Item}

/-- A turn that is to complete with tool calls has yielded one. -/
structure Sound (yielded : List Item) (state : NativeStreamState) : Prop where
  gathered : ∃ fragments, Gathered fragments state.toolCalls
  pending : state.pendingCompletion = some .toolCalls → state.toolCallsEmitted = true
  emitted : state.toolCallsEmitted = true → ∃ call, .ok (.toolCall call) ∈ yielded

theorem yieldEvents_open {events : List ProviderStreamEvent} (h : ∀ event ∈ events, event.terminal = false) :
    yieldEvents events = (events.map .ok, false) := by
  induction events with
  | nil => rfl
  | cons event rest ih =>
    have later := ih fun other mem => h other (List.mem_cons_of_mem _ mem)
    simp [yieldEvents, h event List.mem_cons_self, later]

theorem handle_sound {data : String} {after : NativeStreamState} {events : List ProviderStreamEvent}
    (sound : Sound yielded state) (h : handle codec credential state data = .ok (after, events)) :
    ((∀ event ∈ events, event.terminal = false) ∧ Sound (yielded ++ events.map .ok) after) ∨
      ∃ reason, events = [.completed reason] ∧
        (reason = .toolCalls → ∃ call, .ok (.toolCall call) ∈ yielded) := by
  obtain ⟨fragments, gathered⟩ := sound.gathered
  obtain ⟨further, flag, made, -, going⟩ := handle_ok gathered h
  by_cases done : trim data = "[DONE]"
  · unfold handle at h
    rw [if_pos done] at h
    cases pending : state.pendingCompletion with
    | none =>
      rw [pending] at h
      cases h
    | some reason =>
      rw [pending] at h
      cases h
      refine .inr ⟨reason, rfl, fun same => sound.emitted (sound.pending ?_)⟩
      rw [pending, same]
  · obtain ⟨others, pending⟩ := going done
    refine .inl ⟨others, ⟨_, further⟩, fun waiting => ?_, fun flagged => ?_⟩
    · rw [pending] at waiting
      rw [flag]
      cases finish : frameFinish codec data with
      | none =>
        rw [finish, Option.none_or] at waiting
        rw [sound.pending waiting, Bool.true_or]
      | some reason =>
        rw [finish, Option.some_or] at waiting
        simp [waiting]
    · by_cases fresh : state.toolCallsEmitted = false
      · rw [flag, fresh, Bool.false_or] at flagged
        obtain ⟨-, nonempty⟩ := made ⟨by simpa using flagged, fresh⟩
        obtain ⟨call, mem⟩ := List.exists_mem_of_ne_nil _ nonempty
        obtain ⟨event, mem, is⟩ := List.mem_filterMap.mp mem
        refine ⟨call, List.mem_append_right _ (List.mem_map.mpr ⟨event, mem, ?_⟩)⟩
        cases event <;> simp [ProviderStreamEvent.call?] at is
        rw [is]
      · obtain ⟨call, mem⟩ := sound.emitted (by simpa using fresh)
        exact ⟨call, List.mem_append_left _ mem⟩

/-- Only the last item can be terminal, and a completion with tool calls follows a call. -/
structure Lawful (yielded items : List Item) : Prop where
  last : ∀ item ∈ items.dropLast, item.terminal = false
  called : .ok (.completed .toolCalls) ∈ items → ∃ call, .ok (.toolCall call) ∈ yielded ++ items

theorem lawful_nil : Lawful yielded [] :=
  ⟨fun _ mem => absurd mem List.not_mem_nil, fun mem => absurd mem List.not_mem_nil⟩

theorem lawful_single {item : Item}
    (h : item = .ok (.completed .toolCalls) → ∃ call, .ok (.toolCall call) ∈ yielded) :
    Lawful yielded [item] := by
  refine ⟨fun _ mem => absurd mem List.not_mem_nil, fun mem => ?_⟩
  obtain ⟨call, there⟩ := h (List.mem_singleton.mp mem).symm
  exact ⟨call, List.mem_append_left _ there⟩

theorem Lawful.after {before : List Item} (going : ∀ item ∈ before, item.terminal = false)
    (h : Lawful (yielded ++ before) items) : Lawful yielded (before ++ items) := by
  refine ⟨fun item mem => ?_, fun mem => ?_⟩
  · rw [List.dropLast_append] at mem
    split at mem
    · exact going item (List.mem_of_mem_dropLast mem)
    · rcases List.mem_append.mp mem with mem | mem
      · exact going item mem
      · exact h.last item mem
  · rcases List.mem_append.mp mem with mem | mem
    · have closed := going _ mem
      cases closed
    · rw [← List.append_assoc]
      exact h.called mem

theorem yieldFrames_lawful (frames : List Sse.SseFrame) (sound : Sound yielded state) :
    Lawful yielded (yieldFrames codec credential state frames).1 ∧
      ∀ after, (yieldFrames codec credential state frames).2 = some after →
        (∀ item ∈ (yieldFrames codec credential state frames).1, item.terminal = false) ∧
        Sound (yielded ++ (yieldFrames codec credential state frames).1) after := by
  induction frames generalizing state yielded with
  | nil =>
    refine ⟨lawful_nil, fun after h => ?_⟩
    cases h
    refine ⟨fun _ mem => absurd mem List.not_mem_nil, ?_⟩
    rw [show (yieldFrames codec credential state []).1 = [] from rfl, List.append_nil]
    exact sound
  | cons frame rest ih =>
    cases handled : handle codec credential state (frameText frame) with
    | error e =>
      have yields : yieldFrames codec credential state (frame :: rest) = ([.error e], none) := by
        rw [yieldFrames, handled]
      rw [yields]
      exact ⟨lawful_single fun h => (by cases h), fun after h => (by cases h)⟩
    | ok result =>
      obtain ⟨next, events⟩ := result
      rcases handle_sound sound handled with ⟨going, further⟩ | ⟨reason, rfl, called⟩
      · have yields : yieldFrames codec credential state (frame :: rest) =
            (events.map .ok ++ (yieldFrames codec credential next rest).1,
              (yieldFrames codec credential next rest).2) := by
          rw [yieldFrames, handled]
          simp [yieldEvents_open going]
        have open_ : ∀ item ∈ events.map (.ok : ProviderStreamEvent → Item), Item.terminal item = false := by
          intro item mem
          obtain ⟨event, listed, rfl⟩ := List.mem_map.mp mem
          exact going event listed
        obtain ⟨lawful, later⟩ := ih further
        rw [yields]
        refine ⟨lawful.after open_, fun after h => ?_⟩
        obtain ⟨still, sound'⟩ := later after h
        rw [List.append_assoc] at sound'
        refine ⟨fun item mem => ?_, sound'⟩
        rcases List.mem_append.mp mem with mem | mem
        · exact open_ item mem
        · exact still item mem
      · have yields : yieldFrames codec credential state (frame :: rest) =
            ([.ok (.completed reason)], none) := by
          rw [yieldFrames, handled]
          simp [yieldEvents, ProviderStreamEvent.terminal]
        rw [yields]
        refine ⟨lawful_single fun h => called ?_, fun after h => (by cases h)⟩
        cases h
        rfl

theorem streamFrom_lawful {body : List BodyEvent} {decoder : Sse.SseDecoder} (sound : Sound yielded state) :
    Lawful yielded (streamFrom codec credential decoder state body) := by
  induction body generalizing decoder state yielded with
  | nil => exact lawful_nil
  | cons next rest ih =>
    cases next with
    | cancelled => exact lawful_single fun h => (by cases h)
    | failed => exact lawful_single fun h => (by cases h)
    | ended =>
      unfold streamFrom
      split
      · exact lawful_single fun h => (by cases h)
      · exact lawful_single fun h => (by cases h)
    | chunk bytes =>
      unfold streamFrom
      split
      · exact lawful_single fun h => (by cases h)
      · next decoder frames _ =>
        obtain ⟨lawful, later⟩ := yieldFrames_lawful frames sound
        split
        · next items yields =>
          rw [yields] at lawful
          exact lawful
        · next items after yields =>
          rw [yields] at later
          obtain ⟨going, further⟩ := later after rfl
          exact (ih further).after going

/-- Nothing follows a terminal item of a response, and a response that completes with tool calls has
yielded one. -/
theorem stream_contract (body : List BodyEvent) :
    (∀ item ∈ (streamChat codec credential body).dropLast, Item.terminal item = false) ∧
      (.ok (.completed .toolCalls) ∈ streamChat codec credential body →
        ∃ call, .ok (.toolCall call) ∈ streamChat codec credential body) := by
  have sound : Sound [] NativeStreamState.new :=
    ⟨⟨[], gathered_new⟩, fun h => (by cases h), fun h => (by cases h)⟩
  have started : ∀ item ∈ [(.ok .started : Item)], Item.terminal item = false := by
    intro item mem
    rw [List.mem_singleton.mp mem]
    rfl
  have lawful : Lawful ([] ++ [.ok .started])
      (streamFrom codec credential (.new maxSseFrameBytes) .new body) :=
    streamFrom_lawful ⟨sound.gathered, sound.pending, fun h => (by cases h)⟩
  have whole := lawful.after started
  exact ⟨whole.last, whole.called⟩

theorem yieldFrames_append (frames later : List Sse.SseFrame) :
    yieldFrames codec credential state (frames ++ later) =
      match yieldFrames codec credential state frames with
      | (items, none) => (items, none)
      | (items, some after) => (items ++ (yieldFrames codec credential after later).1,
          (yieldFrames codec credential after later).2) := by
  induction frames generalizing state with
  | nil => simp [yieldFrames]
  | cons frame frames ih =>
    rw [List.cons_append, yieldFrames, yieldFrames]
    cases handle codec credential state (frameText frame) with
    | error e => rfl
    | ok result =>
      obtain ⟨next, events⟩ := result
      simp only
      by_cases stop : (yieldEvents events).2 = true
      · rw [if_pos stop, if_pos stop]
      · rw [if_neg stop, if_neg stop, ih]
        cases yieldFrames codec credential next frames with
        | mk items after =>
          cases after with
          | none => rfl
          | some after => simp only [List.append_assoc]

/-- Chunks that the decoder takes yield what their frames do. -/
theorem streamFrom_pushAll {pieces : List (List UInt8)} {decoder after : Sse.SseDecoder}
    {frames : List Sse.SseFrame} {rest : List BodyEvent}
    (decoded : decoder.pushAll pieces = .ok (after, frames)) :
    streamFrom codec credential decoder state (pieces.map .chunk ++ rest) =
      match yieldFrames codec credential state frames with
      | (items, none) => items
      | (items, some state) => items ++ streamFrom codec credential after state rest := by
  induction pieces generalizing decoder state frames with
  | nil =>
    cases decoded
    rfl
  | cons piece pieces ih =>
    obtain ⟨⟨middle, first⟩, pushed, decoded⟩ := bind_eq_ok_iff.mp decoded
    obtain ⟨⟨last, more⟩, others, decoded⟩ := bind_eq_ok_iff.mp decoded
    cases decoded
    rw [List.map_cons, List.cons_append, streamFrom, pushed]
    simp only
    rw [yieldFrames_append]
    cases yieldFrames codec credential state first with
    | mk items next =>
      cases next with
      | none => rfl
      | some next =>
        simp only
        rw [ih others]
        cases yieldFrames codec credential next more with
        | mk items' next' =>
          cases next' with
          | none => rfl
          | some next' => simp only [List.append_assoc]

/-- How the bytes of a response are cut into chunks does not change what it yields, as long as the
decoder takes them. -/
theorem stream_chunks {pieces others : List (List UInt8)} {after : Sse.SseDecoder}
    {frames : List Sse.SseFrame} (same : pieces.flatten = others.flatten)
    (decoded : (Sse.SseDecoder.new maxSseFrameBytes).push pieces.flatten = .ok (after, frames))
    (rest : List BodyEvent) :
    streamChat codec credential (pieces.map .chunk ++ rest) =
      streamChat codec credential (others.map .chunk ++ rest) := by
  have decoded' : (Sse.SseDecoder.new maxSseFrameBytes).pushAll others = .ok (after, frames) := by
    rw [Sse.SseDecoder.pushAll_eq, ← same]
    exact decoded
  rw [← Sse.SseDecoder.pushAll_eq] at decoded
  unfold streamChat
  rw [streamFrom_pushAll decoded, streamFrom_pushAll decoded']

end Contract

/-- A frame may be cut anywhere. -/
theorem stream_chunks_sample :
    streamChat sampleCodec sampleCredential ([[100, 97, 116, 97, 58, 120, 10, 10]].map .chunk ++ [.ended]) =
      streamChat sampleCodec sampleCredential ([[100, 97], [116, 97, 58, 120, 10], [10]].map .chunk ++ [.ended]) :=
  stream_chunks rfl rfl _

end OpenAi

end AutoHarness
