import AutoHarness.ContextRender
import AutoHarness.FallibleRun

namespace AutoHarness

section Values

inductive ContextAdmissionFactor where
  | pin
  | authority
  | exactMatch
  | scopeSpecificity
  | lexicalOverlap
  | freshness
  | confidence
  | priorUtility
  | diversity
  | budgetFit
deriving DecidableEq, Repr

/-- One reason of an admission, numbered from one on. -/
structure ContextAdmissionReason where
  ordinal : Nat
  factor : ContextAdmissionFactor
  contribution : Int
deriving DecidableEq, Repr

structure ContextAdmissionId where
  value : String
  valid : validateIdentifier value = .ok ()

theorem ContextAdmissionId.value_inj {left right : ContextAdmissionId} :
    left.value = right.value ↔ left = right := by
  cases left
  cases right
  simp

instance : DecidableEq ContextAdmissionId := fun _ _ => decidable_of_iff _ ContextAdmissionId.value_inj

def maxContextAdmissionReasons : Nat := 16

def reasonsValid (reasons : List ContextAdmissionReason) : Bool :=
  reasons.length ≤ maxContextAdmissionReasons &&
    reasons.map ContextAdmissionReason.ordinal = List.range' 1 reasons.length

/-- One admission of a provider turn, with its reasons in order. -/
structure ContextAdmission where
  admissionId : ContextAdmissionId
  contextTurnId : ContextTurnId
  target : ContextSection
  sourceKey : ContextSourceKey
  sourceRevision : Sha256Digest
  memoryRevisionId : Option MemoryRevisionId
  rendererVersion : Nat
  renderedHash : Sha256Digest
  rank : Nat
  rankScore : Int
  tokenCount : EstimatedTokens
  admittedAt : TimestampMillis
  reasons : List ContextAdmissionReason
  versioned : rendererVersion ≠ 0
  ranked : rank ≠ 0
  reasoned : reasonsValid reasons = true
deriving DecidableEq

def contextRendererVersion : Nat := 1

theorem rendererVersion_ne_zero : contextRendererVersion ≠ 0 := by decide

/-- `u32::try_from`. -/
def rankOf (rank : Nat) : Except ContextError Nat :=
  if rank < 4294967296 then .ok rank else .error .numericOverflow

/-- `u16::try_from` of the ordinal; an ordinal of zero is refused. -/
def admissionReason (ordinal : Nat) (factor : ContextAdmissionFactor) (contribution : Int) :
    Except ContextError ContextAdmissionReason :=
  if ordinal < 65536 then
    if ordinal = 0 then .error .invalidDomainValue else .ok ⟨ordinal, factor, contribution⟩
  else .error .numericOverflow

def rankFactor : RankReason → ContextAdmissionFactor
  | .sourceAuthority => .authority
  | .exactMatch => .exactMatch
  | .lexicalOverlap => .lexicalOverlap
  | .scopeSpecificity => .scopeSpecificity
  | .freshness => .freshness
  | .confidence => .confidence

end Values

section Identities

variable (codec : FactCodec)

def CanonicalEncoder.integer (encoder : CanonicalEncoder) (name : String) (value : UInt64) :
    CanonicalEncoder :=
  encoder.field name (toBeBytes value)

def admissionId (contextTurnId : ContextTurnId) (rank : Nat) :
    Except ContextError ContextAdmissionId :=
  let encoder := CanonicalEncoder.new.field "context_turn_id" (utf8Bytes contextTurnId.value)
  let digest := (encoder.integer "admission_rank" (UInt64.ofNat rank)).finish codec
  match h : validateIdentifier ("ca:" ++ digest.value) with
  | .ok () => .ok ⟨"ca:" ++ digest.value, h⟩
  | .error _ => .error .invalidDomainValue

def memorySourceKey (revisionId : MemoryRevisionId) : Except ContextError ContextSourceKey :=
  let encoder := CanonicalEncoder.new.field "memory_revision_id" (utf8Bytes revisionId.value)
  let digest := encoder.finish codec
  match h : validateIdentifier ("memory:" ++ digest.value) with
  | .ok () => .ok ⟨"memory:" ++ digest.value, h⟩
  | .error _ => .error .invalidDomainValue

end Identities

section Admissions

variable (codec : FactCodec) (contextTurnId : ContextTurnId) (committedAt : TimestampMillis)

/-- `ContextAdmission::new` under the renderer version of this builder. -/
def admitSource (rank : Nat) (target : ContextSection) (sourceKey : ContextSourceKey)
    (sourceRevision : Sha256Digest) (memoryRevisionId : Option MemoryRevisionId)
    (renderedHash : Sha256Digest) (rankScore : Int) (tokenCount : EstimatedTokens)
    (reasons : List ContextAdmissionReason) : Except ContextError ContextAdmission := do
  let admissionId ← admissionId codec contextTurnId rank
  let rank ← rankOf rank
  if hr : rank = 0 then .error .invalidDomainValue
  else if hv : reasonsValid reasons = true then
    .ok ⟨admissionId, contextTurnId, target, sourceKey, sourceRevision, memoryRevisionId,
      contextRendererVersion, renderedHash, rank, rankScore, tokenCount, committedAt, reasons,
      rendererVersion_ne_zero, hr, hv⟩
  else .error .invalidDomainValue

/-- A required source is pinned. -/
def pinReasons (policy : ContextSourcePolicy) : Except ContextError (List ContextAdmissionReason) :=
  if policy = .required then (admissionReason 1 .pin 0).map fun reason => [reason] else .ok []

def sourceAdmission (observed : List ObservedContextSource) (rank : Nat) (source : RenderedSource) :
    Except ContextError ContextAdmission :=
  match observed.find? fun candidate => candidate.snapshot.sourceKey = source.sourceKey with
  | none => .error .invalidDomainValue
  | some candidate => do
    let pins ← pinReasons candidate.policy
    let fit ← admissionReason (pins.length + 1) .budgetFit 0
    admitSource codec contextTurnId committedAt rank source.target source.sourceKey source.sourceRevision
      none source.renderedHash 0 source.estimatedTokens (pins ++ [fit])

/-- A ranked memory with its record. -/
structure RankedRenderedMemory where
  ranked : RankedMemory
  rendered : RenderedMemory

def memoryRenderings (memories : List RankedRenderedMemory) : List RenderedMemory :=
  memories.map RankedRenderedMemory.rendered

def memoryAdmission (rank : Nat) (memory : RankedRenderedMemory) :
    Except ContextError ContextAdmission := do
  let reasons ← (memory.ranked.factors.zipIdx 1).mapM fun entry =>
    admissionReason entry.2 (rankFactor entry.1.reason) entry.1.contribution
  let fit ← admissionReason (reasons.length + 1) .budgetFit 0
  let sourceKey ← memorySourceKey codec memory.rendered.revisionId
  admitSource codec contextTurnId committedAt rank .durableMemory sourceKey
    memory.ranked.candidate.contentHash (some memory.rendered.revisionId) memory.rendered.renderedHash
    memory.ranked.score memory.rendered.estimatedTokens (reasons ++ [fit])

/-- Admissions are numbered from the length of those made so far. -/
def pushAdmission {α : Type} (make : Nat → α → Except ContextError ContextAdmission)
    (admissions : List ContextAdmission) (item : α) : Except ContextError (List ContextAdmission) := do
  let admission ← make (admissions.length + 1) item
  .ok (admissions ++ [admission])

def buildAdmissions (observed : List ObservedContextSource) (sources : List RenderedSource)
    (memories : List RankedRenderedMemory) : Except ContextError (List ContextAdmission) := do
  let admissions ←
    sources.foldlM (pushAdmission (sourceAdmission codec contextTurnId committedAt observed)) []
  memories.foldlM (pushAdmission (memoryAdmission codec contextTurnId committedAt)) admissions

end Admissions

section Order

open FallibleRun

variable {codec : FactCodec} {contextTurnId : ContextTurnId} {committedAt : TimestampMillis}

/-- What an admission is about: its section, revision, record and size. -/
def admissionSubject (admission : ContextAdmission) :
    ContextSection × Option MemoryRevisionId × Sha256Digest × EstimatedTokens :=
  (admission.target, admission.memoryRevisionId, admission.renderedHash, admission.tokenCount)

def sourceSubject (source : RenderedSource) :
    ContextSection × Option MemoryRevisionId × Sha256Digest × EstimatedTokens :=
  (source.target, none, source.renderedHash, source.estimatedTokens)

def memorySubject (memory : RenderedMemory) :
    ContextSection × Option MemoryRevisionId × Sha256Digest × EstimatedTokens :=
  (.durableMemory, some memory.revisionId, memory.renderedHash, memory.estimatedTokens)

theorem admit_ok {rank : Nat} {target : ContextSection} {sourceKey : ContextSourceKey}
    {sourceRevision renderedHash : Sha256Digest} {memoryRevisionId : Option MemoryRevisionId}
    {rankScore : Int} {tokenCount : EstimatedTokens} {reasons : List ContextAdmissionReason}
    {admission : ContextAdmission}
    (h : admitSource codec contextTurnId committedAt rank target sourceKey sourceRevision memoryRevisionId
      renderedHash rankScore tokenCount reasons = .ok admission) :
    admission.rank = rank ∧ admission.contextTurnId = contextTurnId ∧
      admissionSubject admission = (target, memoryRevisionId, renderedHash, tokenCount) := by
  obtain ⟨id, -, h⟩ := bind_eq_ok_iff.mp h
  obtain ⟨narrow, ranked, h⟩ := bind_eq_ok_iff.mp h
  have same : rank = narrow := by
    unfold rankOf at ranked
    split at ranked
    · exact Except.ok.inj ranked
    · cases ranked
  split at h
  · cases h
  · split at h
    · cases h
      exact ⟨same.symm, rfl, rfl⟩
    · cases h

/-- Some constructor fails, none of them for lack of budget. -/
theorem admit_ne_budgetExceeded (rank : Nat) (target : ContextSection) (sourceKey : ContextSourceKey)
    (sourceRevision renderedHash : Sha256Digest) (memoryRevisionId : Option MemoryRevisionId)
    (rankScore : Int) (tokenCount : EstimatedTokens) (reasons : List ContextAdmissionReason) :
    admitSource codec contextTurnId committedAt rank target sourceKey sourceRevision memoryRevisionId
      renderedHash rankScore tokenCount reasons ≠ .error .budgetExceeded := by
  intro h
  rcases bind_eq_error_iff.mp h with h | ⟨id, -, h⟩
  · simp only [admissionId] at h
    split at h
    · cases h
    · cases h
  rcases bind_eq_error_iff.mp h with h | ⟨narrow, -, h⟩
  · unfold rankOf at h
    split at h
    · cases h
    · cases h
  split at h
  · cases h
  · split at h
    · cases h
    · cases h

theorem admissionReason_ne_budgetExceeded (ordinal : Nat) (factor : ContextAdmissionFactor)
    (contribution : Int) : admissionReason ordinal factor contribution ≠ .error .budgetExceeded := by
  intro h
  unfold admissionReason at h
  repeat' split at h
  all_goals cases h

theorem sourceAdmission_ok {observed : List ObservedContextSource} {rank : Nat}
    {source : RenderedSource} {admission : ContextAdmission}
    (h : sourceAdmission codec contextTurnId committedAt observed rank source = .ok admission) :
    admission.rank = rank ∧ admission.contextTurnId = contextTurnId ∧
      admissionSubject admission = sourceSubject source := by
  unfold sourceAdmission at h
  split at h
  · cases h
  · obtain ⟨pins, -, h⟩ := bind_eq_ok_iff.mp h
    obtain ⟨fit, -, h⟩ := bind_eq_ok_iff.mp h
    exact admit_ok h

theorem sourceAdmission_ne_budgetExceeded (observed : List ObservedContextSource) (rank : Nat)
    (source : RenderedSource) :
    sourceAdmission codec contextTurnId committedAt observed rank source ≠ .error .budgetExceeded := by
  intro h
  unfold sourceAdmission at h
  split at h
  · cases h
  · rcases bind_eq_error_iff.mp h with h | ⟨pins, -, h⟩
    · unfold pinReasons at h
      split at h
      · cases h
      · cases h
    rcases bind_eq_error_iff.mp h with h | ⟨fit, -, h⟩
    · exact admissionReason_ne_budgetExceeded _ _ _ h
    · exact admit_ne_budgetExceeded _ _ _ _ _ _ _ _ _ h

theorem memoryAdmission_ok {rank : Nat} {memory : RankedRenderedMemory} {admission : ContextAdmission}
    (h : memoryAdmission codec contextTurnId committedAt rank memory = .ok admission) :
    admission.rank = rank ∧ admission.contextTurnId = contextTurnId ∧
      admissionSubject admission = memorySubject memory.rendered := by
  obtain ⟨reasons, -, h⟩ := bind_eq_ok_iff.mp h
  obtain ⟨fit, -, h⟩ := bind_eq_ok_iff.mp h
  obtain ⟨sourceKey, -, h⟩ := bind_eq_ok_iff.mp h
  exact admit_ok h

theorem memoryAdmission_ne_budgetExceeded (rank : Nat) (memory : RankedRenderedMemory) :
    memoryAdmission codec contextTurnId committedAt rank memory ≠ .error .budgetExceeded := by
  intro h
  rcases bind_eq_error_iff.mp h with h | ⟨reasons, -, h⟩
  · exact mapM_ne_error (fun entry _ => admissionReason_ne_budgetExceeded _ _ _) h
  rcases bind_eq_error_iff.mp h with h | ⟨fit, -, h⟩
  · exact admissionReason_ne_budgetExceeded _ _ _ h
  rcases bind_eq_error_iff.mp h with h | ⟨sourceKey, -, h⟩
  · simp only [memorySourceKey] at h
    split at h
    · cases h
    · cases h
  · exact admit_ne_budgetExceeded _ _ _ _ _ _ _ _ _ h

/-- Each item gets one admission, under the next rank. -/
theorem foldlM_pushAdmission {α : Type} {make : Nat → α → Except ContextError ContextAdmission}
    {subject : α → ContextSection × Option MemoryRevisionId × Sha256Digest × EstimatedTokens}
    (hmake : ∀ rank item admission, make rank item = .ok admission → admission.rank = rank ∧
      admission.contextTurnId = contextTurnId ∧ admissionSubject admission = subject item)
    {items : List α} {admissions final : List ContextAdmission}
    (h : items.foldlM (pushAdmission make) admissions = .ok final) :
    ∃ made, final = admissions ++ made ∧ made.map admissionSubject = items.map subject ∧
      made.map ContextAdmission.rank = List.range' (admissions.length + 1) items.length ∧
      ∀ admission ∈ made, admission.contextTurnId = contextTurnId := by
  induction items generalizing admissions with
  | nil =>
    cases h
    exact ⟨[], by simp, rfl, rfl, by simp⟩
  | cons item items ih =>
    rw [List.foldlM_cons] at h
    obtain ⟨next, pushed, h⟩ := bind_eq_ok_iff.mp h
    obtain ⟨admission, made, pushed⟩ := bind_eq_ok_iff.mp pushed
    cases pushed
    obtain ⟨ranked, turn, subject⟩ := hmake _ _ _ made
    obtain ⟨later, rfl, subjects, ranks, turns⟩ := ih h
    refine ⟨admission :: later, by simp, ?_, ?_, ?_⟩
    · rw [List.map_cons, List.map_cons, subject, subjects]
    · rw [List.map_cons, ranked, ranks, List.length_append, List.length_singleton, List.length_cons,
        List.range'_succ]
    · intro other mem
      rcases List.mem_cons.mp mem with rfl | mem
      · exact turn
      · exact turns other mem

theorem foldlM_pushAdmission_ne_budgetExceeded {α : Type}
    {make : Nat → α → Except ContextError ContextAdmission}
    (hmake : ∀ rank item, make rank item ≠ .error .budgetExceeded) (items : List α)
    (admissions : List ContextAdmission) :
    items.foldlM (pushAdmission make) admissions ≠ .error .budgetExceeded := by
  induction items generalizing admissions with
  | nil =>
    intro h
    cases h
  | cons item items ih =>
    intro h
    rw [List.foldlM_cons] at h
    rcases bind_eq_error_iff.mp h with h | ⟨next, -, h⟩
    · rcases bind_eq_error_iff.mp h with h | ⟨admission, -, h⟩
      · exact hmake _ _ h
      · cases h
    · exact ih next h

/-- The admissions are those of the sources and then of the memories, ranked from one on. -/
theorem buildAdmissions_ok {observed : List ObservedContextSource} {sources : List RenderedSource}
    {memories : List RankedRenderedMemory} {admissions : List ContextAdmission}
    (h : buildAdmissions codec contextTurnId committedAt observed sources memories = .ok admissions) :
    admissions.map admissionSubject =
        sources.map sourceSubject ++ (memoryRenderings memories).map memorySubject ∧
      admissions.map ContextAdmission.rank = List.range' 1 admissions.length ∧
      ∀ admission ∈ admissions, admission.contextTurnId = contextTurnId := by
  have source_ok (rank : Nat) (source : RenderedSource) (admission : ContextAdmission)
      (made : sourceAdmission codec contextTurnId committedAt observed rank source = .ok admission) :=
    sourceAdmission_ok made
  have memory_ok (rank : Nat) (memory : RankedRenderedMemory) (admission : ContextAdmission)
      (made : memoryAdmission codec contextTurnId committedAt rank memory = .ok admission) :=
    memoryAdmission_ok made
  obtain ⟨first, made, h⟩ := bind_eq_ok_iff.mp h
  obtain ⟨front, same, subjects, ranks, turns⟩ :=
    foldlM_pushAdmission source_ok made
  obtain ⟨back, rfl, subjects', ranks', turns'⟩ :=
    foldlM_pushAdmission memory_ok h
  rw [List.nil_append] at same
  subst same
  have length : first.length = sources.length := by
    simpa using congrArg List.length subjects
  have length' : back.length = memories.length := by
    simpa using congrArg List.length subjects'
  refine ⟨?_, ?_, ?_⟩
  · rw [List.map_append, subjects, subjects', memoryRenderings, List.map_map]
    rfl
  · rw [List.map_append, ranks, ranks', List.length_nil, List.length_append, length, length', Nat.zero_add,
      Nat.add_comm sources.length 1, List.range'_append_1]
  · intro admission mem
    rcases List.mem_append.mp mem with mem | mem
    · exact turns admission mem
    · exact turns' admission mem

theorem buildAdmissions_ne_budgetExceeded (observed : List ObservedContextSource)
    (sources : List RenderedSource) (memories : List RankedRenderedMemory) :
    buildAdmissions codec contextTurnId committedAt observed sources memories ≠
      .error .budgetExceeded := by
  intro h
  rcases bind_eq_error_iff.mp h with h | ⟨admissions, -, h⟩
  · exact foldlM_pushAdmission_ne_budgetExceeded
      (sourceAdmission_ne_budgetExceeded observed) sources [] h
  · exact foldlM_pushAdmission_ne_budgetExceeded memoryAdmission_ne_budgetExceeded memories admissions h

end Order

end AutoHarness
