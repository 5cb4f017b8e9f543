import AutoHarness.Tool
import AutoHarness.Memory

namespace AutoHarness

section Values

/-- The failures of the memory crate that the construction of a context can return. -/
inductive ContextError where
  | budgetExceeded
  | duplicateSource (key : ContextSourceKey)
  | duplicateMemoryRevision (revisionId : MemoryRevisionId)
  | requiredSourceUnavailable (key : ContextSourceKey)
  | invalidSourceSection (key : ContextSourceKey)
  | invalidSourceValue
  | invalidDomainValue
  | numericOverflow
deriving DecidableEq, Repr

inductive ContextSection where
  | safetyPolicy
  | currentInstruction
  | authorizedInstruction
  | toolContract
  | conversationHistory
  | durableMemory
deriving DecidableEq, Repr

def sectionName : ContextSection → String
  | .safetyPolicy => "safety_policy"
  | .currentInstruction => "current_instruction"
  | .authorizedInstruction => "authorized_instruction"
  | .toolContract => "tool_contract"
  | .conversationHistory => "conversation_history"
  | .durableMemory => "durable_memory"

inductive ContextSourcePolicy where
  | optional
  | required
deriving DecidableEq, Repr

inductive ContextObservationState where
  | available
  | retainedStale
  | observedAbsent
  | unavailable
deriving DecidableEq, Repr

inductive ContextSourceVisibility where
  | preludeEligible
  | auditOnly
deriving DecidableEq, Repr

/-- Revision fields agree with the state, and only available sources are kept for audit alone. -/
def observationValid (state : ContextObservationState) (visibility : ContextSourceVisibility)
    (sourceRevision valueHash : Option Sha256Digest) : Bool :=
  (match state with
    | .available | .retainedStale => sourceRevision.isSome && valueHash.isSome
    | .observedAbsent | .unavailable => sourceRevision.isNone && valueHash.isNone) &&
    (visibility = .preludeEligible || state = .available)

/-- One immutable source observation frozen for a provider turn. -/
structure ContextSourceSnapshot where
  sourceKey : ContextSourceKey
  observationState : ContextObservationState
  visibility : ContextSourceVisibility
  sourceRevision : Option Sha256Digest
  valueHash : Option Sha256Digest
  observedAt : TimestampMillis
  valid : observationValid observationState visibility sourceRevision valueHash = true
deriving DecidableEq

def maxContextSourceValueBytes : Nat := 128 * 1024

/-- Exact bounded source content with some visible character. -/
structure ContextSourceValue where
  value : String
  nonblank : isBlank value = false
  bounded : value.utf8ByteSize ≤ maxContextSourceValueBytes

instance : DecidableEq ContextSourceValue := fun x y =>
  decidable_of_iff (x.value = y.value)
    ⟨fun same => by cases x; cases y; cases same; rfl, fun same => congrArg ContextSourceValue.value same⟩

theorem sourceValue_checked {value : String}
    (h : ¬ (isBlank value = true ∨ maxContextSourceValueBytes < value.utf8ByteSize)) :
    isBlank value = false ∧ value.utf8ByteSize ≤ maxContextSourceValueBytes :=
  ⟨Bool.eq_false_iff.mpr fun blank => h (.inl blank), Nat.not_lt.mp fun long => h (.inr long)⟩

def ContextSourceValue.new (value : String) : Except ContextError ContextSourceValue :=
  if h : isBlank value = true ∨ maxContextSourceValueBytes < value.utf8ByteSize then
    .error .invalidSourceValue
  else .ok ⟨value, (sourceValue_checked h).1, (sourceValue_checked h).2⟩

/-- Sections that no registered source may fill. -/
def reservedSection : ContextSection → Bool
  | .safetyPolicy | .currentInstruction | .durableMemory => true
  | .authorizedInstruction | .toolContract | .conversationHistory => false

/-- One complete observation: content comes with a section of its own and a recorded revision. -/
structure ObservedContextSource where
  snapshot : ContextSourceSnapshot
  policy : ContextSourcePolicy
  content : Option (ContextSection × ContextSourceValue)
  eligible : snapshot.visibility = .preludeEligible
  revised : content.isSome = snapshot.sourceRevision.isSome
  sectioned : ∀ filled ∈ content, reservedSection filled.1 = false

/-- What one observation attempt of a source returns. -/
inductive ContextSourceRead where
  | available (target : ContextSection) (sourceRevision : Sha256Digest) (value : ContextSourceValue)
  | observedAbsent
  | unavailable

/-- Previously verified source content that may be retained. -/
structure RetainedContextSource where
  sourceKey : ContextSourceKey
  target : ContextSection
  sourceRevision : Sha256Digest
  value : ContextSourceValue
deriving DecidableEq

end Values

section Observe

variable (codec : FactCodec)

def hashSourceValue (key : ContextSourceKey) (target : ContextSection)
    (value : ContextSourceValue) : Sha256Digest :=
  let encoder := CanonicalEncoder.new.field "context_source_key" (utf8Bytes key.value)
  let encoder := encoder.field "context_section" (utf8Bytes (sectionName target))
  (encoder.field "context_value" (utf8Bytes value.value)).finish codec

/-- The states in which a value was read or kept. -/
inductive ValueState : ContextObservationState → Prop
  | available : ValueState .available
  | retainedStale : ValueState .retainedStale

theorem ValueState.valid {state : ContextObservationState} (h : ValueState state)
    (sourceRevision valueHash : Sha256Digest) :
    observationValid state .preludeEligible (some sourceRevision) (some valueHash) = true := by
  cases h <;> rfl

theorem unreserved {target : ContextSection} (h : ¬ reservedSection target = true)
    (value : ContextSourceValue) :
    ∀ filled ∈ some (target, value), reservedSection filled.1 = false := by
  intro filled same
  cases same
  exact Bool.eq_false_iff.mpr h

def observedValue (key : ContextSourceKey) (policy : ContextSourcePolicy)
    (state : ContextObservationState) (read : ValueState state) (target : ContextSection)
    (sourceRevision : Sha256Digest) (value : ContextSourceValue) (observedAt : TimestampMillis) :
    Except ContextError ObservedContextSource :=
  if h : reservedSection target = true then .error (.invalidSourceSection key)
  else
    .ok ⟨⟨key, state, .preludeEligible, some sourceRevision,
        some (hashSourceValue codec key target value), observedAt, read.valid sourceRevision _⟩,
      policy, some (target, value), rfl, rfl, unreserved h value⟩

theorem nothing_filled (filled : ContextSection × ContextSourceValue) (h : filled ∈ (none : Option _)) :
    reservedSection filled.1 = false := by
  cases h

theorem absent_valid : observationValid .observedAbsent .preludeEligible none none = true := rfl

theorem unavailable_valid : observationValid .unavailable .preludeEligible none none = true := rfl

def observedWithoutValue (key : ContextSourceKey) (policy : ContextSourcePolicy)
    (state : ContextObservationState)
    (valid : observationValid state .preludeEligible none none = true) (observedAt : TimestampMillis) :
    ObservedContextSource :=
  ⟨⟨key, state, .preludeEligible, none, none, observedAt, valid⟩, policy, none, rfl, rfl,
    nothing_filled⟩

/-- One source, observed once; a required one needs a current or a retained value. -/
def observeOne (key : ContextSourceKey) (policy : ContextSourcePolicy) (read : ContextSourceRead)
    (observedAt : TimestampMillis) (retained : Option RetainedContextSource) :
    Except ContextError ObservedContextSource :=
  match read with
  | .available target sourceRevision value =>
    observedValue codec key policy .available .available target sourceRevision value observedAt
  | .observedAbsent =>
    if policy = .required then .error (.requiredSourceUnavailable key)
    else .ok (observedWithoutValue key policy .observedAbsent absent_valid observedAt)
  | .unavailable =>
    match retained with
    | some retained =>
      observedValue codec key policy .retainedStale .retainedStale retained.target
        retained.sourceRevision retained.value observedAt
    | none =>
      if policy = .required then .error (.requiredSourceUnavailable key)
      else .ok (observedWithoutValue key policy .unavailable unavailable_valid observedAt)

variable {codec}

/-- A required source that was observed at all has a value. -/
theorem observeOne_required {key : ContextSourceKey} {read : ContextSourceRead}
    {observedAt : TimestampMillis} {retained : Option RetainedContextSource}
    {source : ObservedContextSource}
    (h : observeOne codec key .required read observedAt retained = .ok source) :
    source.content.isSome = true := by
  have hvalue {state : ContextObservationState} (read : ValueState state) (target : ContextSection)
      (sourceRevision : Sha256Digest) (value : ContextSourceValue)
      (made : observedValue codec key .required state read target sourceRevision value observedAt =
        .ok source) : source.content.isSome = true := by
    unfold observedValue at made
    split at made
    · cases made
    · cases made
      rfl
  cases read with
  | available target sourceRevision value => exact hvalue .available target sourceRevision value h
  | observedAbsent => cases h
  | unavailable =>
    cases retained with
    | none => cases h
    | some kept => exact hvalue .retainedStale kept.target kept.sourceRevision kept.value h

end Observe

end AutoHarness
