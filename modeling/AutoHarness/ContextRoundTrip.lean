import AutoHarness.CompactedHistory

namespace AutoHarness

open FallibleRun

section Admitted

variable {codec : FactCodec} {contextTurnId : ContextTurnId} {committedAt : TimestampMillis}

theorem admit_values {rank : Nat} {target : ContextSection} {sourceKey : ContextSourceKey}
    {sourceRevision renderedHash : Sha256Digest} {memoryRevisionId : Option MemoryRevisionId}
    {rankScore : Int} {tokenCount : EstimatedTokens} {reasons : List ContextAdmissionReason}
    {admission : ContextAdmission}
    (h : admitSource codec contextTurnId committedAt rank target sourceKey sourceRevision memoryRevisionId
      renderedHash rankScore tokenCount reasons = .ok admission) :
    admission.sourceKey = sourceKey ∧ admission.sourceRevision = sourceRevision ∧
      admission.target = target ∧ admission.memoryRevisionId = memoryRevisionId ∧
      admission.renderedHash = renderedHash ∧ admission.rendererVersion = contextRendererVersion := by
  obtain ⟨id, -, h⟩ := bind_eq_ok_iff.mp h
  obtain ⟨narrow, -, h⟩ := bind_eq_ok_iff.mp h
  split at h
  · cases h
  · split at h
    · cases h
      exact ⟨rfl, rfl, rfl, rfl, rfl, rfl⟩
    · cases h

theorem sourceAdmission_admits {observed : List ObservedContextSource} {rank : Nat}
    {source : RenderedSource} {admission : ContextAdmission}
    (h : sourceAdmission codec contextTurnId committedAt observed rank source = .ok admission) :
    AdmitsSource codec source admission := by
  unfold sourceAdmission at h
  split at h
  · cases h
  · obtain ⟨pins, -, h⟩ := bind_eq_ok_iff.mp h
    obtain ⟨fit, -, h⟩ := bind_eq_ok_iff.mp h
    obtain ⟨key, revision, target, memory, hash, version⟩ := admit_values h
    exact ⟨key, revision, target, memory, hash, version⟩

/-- Each admission stands for the item at its place. -/
theorem foldlM_pushAdmission_forall₂ {α : Type} {make : Nat → α → Except ContextError ContextAdmission}
    {items : List α} {admissions final : List ContextAdmission}
    (h : items.foldlM (pushAdmission make) admissions = .ok final) :
    ∃ made, final = admissions ++ made ∧
      List.Forall₂ (fun item admission => ∃ rank, make rank item = .ok admission) items made := by
  induction items generalizing admissions with
  | nil =>
    cases h
    exact ⟨[], by simp, List.Forall₂.nil⟩
  | cons item items ih =>
    rw [List.foldlM_cons] at h
    obtain ⟨next, pushed, h⟩ := bind_eq_ok_iff.mp h
    obtain ⟨admission, made, pushed⟩ := bind_eq_ok_iff.mp pushed
    cases pushed
    obtain ⟨later, rfl, rest⟩ := ih h
    exact ⟨admission :: later, by simp, List.Forall₂.cons ⟨_, made⟩ rest⟩

theorem forall₂_zip {α β : Type} {R : α → β → Prop} {x : List α} {y more : List β}
    (h : List.Forall₂ R x y) : ∀ pair ∈ x.zip (y ++ more), R pair.1 pair.2 := by
  induction h with
  | nil => simp
  | cons first _ ih =>
    intro pair mem
    rw [List.cons_append, List.zip_cons_cons] at mem
    rcases List.mem_cons.mp mem with rfl | mem
    · exact first
    · exact ih pair mem

/-- The selected sources come first among the admissions, each with its own. -/
theorem build_admits {request : ContextBuildRequest} {built : BuiltContext}
    (h : build codec request = .ok built) :
    ∀ pair ∈ built.selectedSources.zip built.admissions, AdmitsSource codec pair.1 pair.2 := by
  obtain ⟨-, snapshots, -, -, made⟩ := build_ok_iff.mp h
  obtain ⟨selectedSources, -, made⟩ := bind_eq_ok_iff.mp made
  obtain ⟨selectedMemories, -, made⟩ := bind_eq_ok_iff.mp made
  obtain ⟨tokens, -, made⟩ := bind_eq_ok_iff.mp made
  obtain ⟨admissions, admitted, made⟩ := bind_eq_ok_iff.mp made
  cases made
  obtain ⟨first, sources, admitted⟩ := bind_eq_ok_iff.mp admitted
  obtain ⟨front, same, each⟩ := foldlM_pushAdmission_forall₂ sources
  obtain ⟨back, rfl, -⟩ := foldlM_pushAdmission_forall₂ admitted
  rw [List.nil_append] at same
  subst same
  intro pair mem
  obtain ⟨rank, made⟩ := forall₂_zip each pair mem
  exact sourceAdmission_admits made

/-- A selected source is the record of an observation. -/
theorem build_rendered {request : ContextBuildRequest} {built : BuiltContext}
    (h : build codec request = .ok built) {source : RenderedSource}
    (mem : source ∈ built.selectedSources) :
    ∃ observed ∈ request.observedSources, ∃ target value,
      observed.content = some (target, value) ∧ source.sourceKey = observed.snapshot.sourceKey ∧
      source.target = target ∧
      source.rendered = sourceRecord source.sourceKey source.sourceRevision source.target value ∧
      source.renderedHash = sourceRenderedHash codec source.sourceKey source.sourceRevision
        source.target source.rendered := by
  obtain ⟨-, sources, memories, selection⟩ := build_selection h
  rw [selection.sourcesSelected] at mem
  obtain ⟨entry, there, rfl⟩ := List.mem_map.mp mem
  obtain ⟨observed, listed, made⟩ := mem_orderedSources.mp (selection.sourcesTried.subset there)
  unfold sourceRendered at made
  split at made
  · rename_i target value sourceRevision filled revised
    cases made
    exact ⟨observed, listed, target, value, filled, rfl, rfl, rfl, rfl⟩
  · cases made

end Admitted

section Safe

/-- Every record is closed against its content, and what the two decoders read of a built context is
what was rendered. -/
theorem rendered_records_safe_and_decodable (codec : FactCodec)
    (otherNumber : List Char → Option JsonNumber) (json : HistoryJson) :
    (∀ candidate, RecordSafe memoryTag (memoryRecord candidate).toList) ∧
    (∀ key sourceRevision target value,
      RecordSafe (sourceTag target) (sourceRecord key sourceRevision target value).toList) ∧
    (∀ request built, build codec request = .ok built →
      ∀ pair ∈ built.selectedSources.zip built.admissions,
        ∃ observed ∈ request.observedSources, ∃ target value,
          observed.content = some (target, value) ∧
          pair.1.sourceKey = observed.snapshot.sourceKey ∧
          (pair.1.sourceKey.value = workspaceAgentsSourceKey → target = .authorizedInstruction →
            retainedWorkspaceAgents codec otherNumber pair.2 pair.1.rendered =
              .ok (some ⟨pair.1.sourceKey, target, pair.1.sourceRevision, value⟩)) ∧
          (pair.1.sourceKey.value = compactedHistorySourceKey → target = .conversationHistory →
            ∀ history, value.value = json.content history →
              json.parse (json.content history) = some history →
                retainedCompactedHistory codec otherNumber json pair.2 pair.1.rendered =
                  if validateCompactedHistory history = true then .ok (some history)
                  else .error .configuration)) ∧
    (∀ omittedHash sessionId cutoff prior newly maxBytes history,
      (∀ history ∈ prior, validateCompactedHistory history = true ∧
        history.cutoffSequence ≤ maxSequence) →
      (∀ group ∈ newly, ∃ hashes attemptId completedSequence messages,
        CompactedHistoryGroup.new hashes attemptId completedSequence messages = .ok group) →
      (((prior.elim [] CompactedHistoryV1.groups) ++ newly).map
        CompactedHistoryGroup.attemptId).Nodup →
      compactHistory json omittedHash sessionId cutoff prior newly maxBytes = .ok history →
        validateCompactedHistory history = true) := by
  refine ⟨memoryRecord_safe, sourceRecord_safe, ?_, ?_⟩
  · intro request built made pair mem
    have admits := build_admits made pair mem
    obtain ⟨observed, listed, target, value, filled, key, here, text, hashed⟩ :=
      build_rendered made (List.of_mem_zip mem).1
    refine ⟨observed, listed, target, value, filled, key, ?_, ?_⟩
    · intro named instruction
      have same := retainedWorkspaceAgents_eq otherNumber admits named
        (here.trans instruction) text hashed
      rw [same, here]
    · intro named conversation history written read
      exact retainedCompactedHistory_eq admits named (here.trans conversation) text hashed written read
  · intro omittedHash sessionId cutoff prior newly maxBytes history valid made distinct compacted
    refine compactHistory_valid valid ?_ (oneGroupEach_of_nodup distinct).retained compacted
    intro group mem
    obtain ⟨hashes, attemptId, completedSequence, messages, new⟩ := made group mem
    exact groupNew_made new

def sampleHistoryJson : HistoryJson := ⟨fun _ => "", fun _ => none⟩

/-- The AGENTS text of the small request comes back from its sidecar. -/
theorem sample_agents_decoded : ∃ built source admission,
    build sampleCodec (sampleContextRequest 1 sampleBudget sampleReserved sampleDurable) = .ok built ∧
      (source, admission) ∈ built.selectedSources.zip built.admissions ∧
      retainedWorkspaceAgents sampleCodec (fun _ => none) admission source.rendered =
        .ok (some ⟨source.sourceKey, .authorizedInstruction, source.sourceRevision, sampleText⟩) := by
  obtain ⟨built, made, selected⟩ := sampleContext_built
  obtain ⟨one, -⟩ := Bool.and_eq_true_iff.mp selected
  obtain ⟨source, sources⟩ := List.length_eq_one_iff.mp (of_decide_eq_true one)
  have admitted := (build_selection made).1.admitted
  cases admissions : built.admissions with
  | nil =>
    rw [admissions, sources] at admitted
    cases admitted
  | cons admission rest =>
    have paired : (source, admission) ∈ built.selectedSources.zip built.admissions := by
      rw [sources, admissions]
      exact List.mem_cons_self
    obtain ⟨observed, listed, target, value, filled, key, decoded, -⟩ :=
      (rendered_records_safe_and_decodable sampleCodec (fun _ => none) sampleHistoryJson).2.2.1 _ built
        made _ paired
    rw [sampleRequest_observed, List.mem_singleton] at listed
    subst listed
    obtain ⟨rfl, rfl⟩ := Prod.mk.inj (Option.some.inj filled)
    refine ⟨built, source, admission, made, paired, decoded ?_ rfl⟩
    rw [key]
    rfl

end Safe

end AutoHarness
