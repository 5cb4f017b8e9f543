import AutoHarness.CompactionGroups
import AutoHarness.ContextRecord
import AutoHarness.ContextSeal

namespace AutoHarness

section Decode

/-- The failures that reading a retained record can return. -/
inductive RetainedError where
  | configuration
  | json
  | memory (error : ContextError)
deriving DecidableEq

def workspaceAgentsSourceKey : String := "workspace:agents-md:v1"

def compactedHistorySourceKey : String := "session:compacted-history:v1"

def authorizedInstructionOpen : String := "<autoharness-authorized-instruction-v1>\n"

def authorizedInstructionClose : String := "\n</autoharness-authorized-instruction-v1>"

def contextDataOpen : String := "<autoharness-context-data-v1>\n"

def contextDataClose : String := "\n</autoharness-context-data-v1>"

def JsonValue.asStr? : JsonValue → Option String
  | .string text => some text
  | _ => none

variable (codec : FactCodec) (otherNumber : List Char → Option JsonNumber)

/-- The hash of a rendered record, recomputed from its admission. -/
def verifyAdmissionRenderedHash (admission : ContextAdmission) (memoryId : Option MemoryId)
    (rendered : String) : Bool :=
  if admission.rendererVersion ≠ contextRendererVersion then false
  else if admission.target = .durableMemory then
    match memoryId, admission.memoryRevisionId with
    | some memoryId, some revisionId =>
      memoryRenderedHash codec memoryId revisionId rendered = admission.renderedHash
    | _, _ => false
  else if memoryId.isSome ∨ admission.memoryRevisionId.isSome then false
  else
    sourceRenderedHash codec admission.sourceKey admission.sourceRevision admission.target rendered =
      admission.renderedHash

/-- What stands between the two tags. -/
def recordPayload (opening closing : String) (rendered : String) : Option String := do
  let rest ← rendered.toList.dropPrefix? opening.toList
  let payload ← rest.dropSuffix? closing.toList
  some (String.ofList payload)

/-- The content of a retained record of one section, once its other fields agree with the admission. -/
def recordContent (opening closing sectionText : String) (admission : ContextAdmission)
    (rendered : String) : Except RetainedError String :=
  match recordPayload opening closing rendered with
  | none => .error .configuration
  | some payload =>
    match parseJson otherNumber payload with
    | none => .error .json
    | some record =>
      match (record.get? "content").bind JsonValue.asStr? with
      | none => .error .configuration
      | some content =>
        if (record.get? "source_key").bind JsonValue.asStr? ≠ some admission.sourceKey.value ∨
            (record.get? "source_revision").bind JsonValue.asStr? ≠
              some admission.sourceRevision.value ∨
            (record.get? "section").bind JsonValue.asStr? ≠ some sectionText ∨
            (record.get? "bytes").bind JsonValue.asU64? ≠ some content.utf8ByteSize then
          .error .configuration
        else .ok content

/-- The admission belongs to the section and its rendered text is the one that was hashed. -/
def retainedAdmission (target : ContextSection) (admission : ContextAdmission) (rendered : String) :
    Bool :=
  admission.target = target && admission.memoryRevisionId.isNone &&
    verifyAdmissionRenderedHash codec admission none rendered

/-- Recovers one previously verified AGENTS source value from its retained v1 sidecar. -/
def retainedWorkspaceAgents (admission : ContextAdmission) (rendered : String) :
    Except RetainedError (Option RetainedContextSource) :=
  if admission.sourceKey.value ≠ workspaceAgentsSourceKey then .ok none
  else if retainedAdmission codec .authorizedInstruction admission rendered = false then
    .error .configuration
  else do
    let content ← recordContent otherNumber authorizedInstructionOpen authorizedInstructionClose
      "authorized_instruction" admission rendered
    let value ← (ContextSourceValue.new content).mapError .memory
    .ok (some ⟨admission.sourceKey, admission.target, admission.sourceRevision, value⟩)

end Decode

section History

/-- Versioned retained conversation source used after a verified compaction boundary. -/
structure CompactedHistoryV1 where
  version : UInt16
  sessionId : String
  cutoffSequence : Nat
  compactedGroupCount : UInt32
  omittedGroupCount : UInt32
  omittedGroupsHash : Sha256Digest
  groups : List CompactedHistoryGroup
deriving DecidableEq

def compactedHistoryVersion : UInt16 := 1

/-- The derived JSON text of a history and the reading of it. -/
structure HistoryJson where
  content : CompactedHistoryV1 → String
  parse : String → Option CompactedHistoryV1

/-- Groups of valid attempts, each once, newest first and not behind the cutoff. -/
def validGroups (cutoff : Nat) : (prior : Nat) → (seen : List String) → List CompactedHistoryGroup → Bool
  | _, _, [] => true
  | prior, seen, group :: groups =>
    (validateIdentifier group.attemptId).isOk && group.completedSequence ≠ 0 &&
      group.completedSequence ≤ cutoff && group.completedSequence ≤ prior &&
      !seen.contains group.attemptId && !group.excerpts.isEmpty &&
      validGroups cutoff group.completedSequence (group.attemptId :: seen) groups

def validateCompactedHistory (history : CompactedHistoryV1) : Bool :=
  history.version = compactedHistoryVersion && history.cutoffSequence ≠ 0 &&
    (validateIdentifier history.sessionId).isOk &&
    history.compactedGroupCount.toNat = history.groups.length + history.omittedGroupCount.toNat &&
    !history.groups.isEmpty &&
    validGroups history.cutoffSequence 18446744073709551615 [] history.groups

variable (codec : FactCodec) (otherNumber : List Char → Option JsonNumber) (json : HistoryJson)

/-- Recovers and validates one exact retained compacted-history projection. -/
def retainedCompactedHistory (admission : ContextAdmission) (rendered : String) :
    Except RetainedError (Option CompactedHistoryV1) :=
  if admission.sourceKey.value ≠ compactedHistorySourceKey then .ok none
  else if retainedAdmission codec .conversationHistory admission rendered = false then
    .error .configuration
  else do
    let content ← recordContent otherNumber contextDataOpen contextDataClose "conversation_history"
      admission rendered
    match json.parse content with
    | none => .error .json
    | some history =>
      if validateCompactedHistory history = false then .error .configuration
      else if json.content history ≠ content then .error .configuration
      else .ok (some history)

end History

section RoundTrip

open JsonString (Reads reads_hexWord reads_escape_self)

variable {codec : FactCodec} {otherNumber : List Char → Option JsonNumber}

theorem reads_boundarySafe (character : Char) : Reads (boundarySafe character) character := by
  unfold boundarySafe
  split
  · rename_i boundary
    refine reads_hexWord ?_
    rcases boundary with rfl | rfl | rfl <;> decide
  · exact reads_escape_self character

theorem renders_boundarySafe (value : String) :
    Renders otherNumber (boundarySafeJsonString value).toList (.string value) := by
  rw [toList_boundarySafeJsonString]
  exact renders_string reads_boundarySafe value

theorem renders_decimal {n : Nat} (bound : n < 18446744073709551616) :
    Renders otherNumber (toString n).toList (.number (.posInt (UInt64.ofNat n))) := by
  rw [Nat.toString_eq_ofList_toDigits, String.toList_ofList]
  exact renders_number bound

theorem renders_section (target : ContextSection) :
    Renders otherNumber ("\"" ++ sectionName target ++ "\"").toList (.string (sectionName target)) := by
  have quoted : ("\"" ++ sectionName target ++ "\"").toList =
      '"' :: ((sectionName target).toList.flatMap boundarySafe ++ ['"']) := by
    cases target <;> decide
  rw [quoted]
  exact renders_string reads_boundarySafe _

theorem plainKey (key : String)
    (listed : key ∈ ["source_key", "source_revision", "section", "bytes", "content"]) :
    PlainKey key := by
  have all : ∀ key ∈ ["source_key", "source_revision", "section", "bytes", "content"],
      key.toList.all (fun c => decide (c ≠ '"' ∧ c ≠ '\\' ∧ 0x20 ≤ c.toNat)) = true := by decide
  exact forall_mem_of_all (all key listed)

theorem value_size (value : ContextSourceValue) : value.value.utf8ByteSize < 18446744073709551616 := by
  have bounded := value.bounded
  rw [maxContextSourceValueBytes] at bounded
  omega

/-- The body of a source record is read as an object with exactly the values that were rendered. -/
theorem parse_sourceBody (otherNumber : List Char → Option JsonNumber) (key : ContextSourceKey) (sourceRevision : Sha256Digest)
    (target : ContextSection) (value : ContextSourceValue) :
    ∃ record, parseJson otherNumber
        (String.ofList (recordBody (sourceFields key sourceRevision target value))) = some record ∧
      record.get? "source_key" = some (.string key.value) ∧
      record.get? "source_revision" = some (.string sourceRevision.value) ∧
      record.get? "section" = some (.string (sectionName target)) ∧
      record.get? "bytes" = some (.number (.posInt (UInt64.ofNat value.value.utf8ByteSize))) ∧
      record.get? "content" = some (.string value.value) := by
  let first : RenderedField otherNumber := ⟨"source_key", (boundarySafeJsonString key.value).toList,
    .string key.value, plainKey _ (by decide), renders_boundarySafe key.value⟩
  let rest : List (RenderedField otherNumber) :=
    [⟨"source_revision", (boundarySafeJsonString sourceRevision.value).toList,
        .string sourceRevision.value, plainKey _ (by decide), renders_boundarySafe _⟩,
      ⟨"section", ("\"" ++ sectionName target ++ "\"").toList, .string (sectionName target),
        plainKey _ (by decide), renders_section target⟩,
      ⟨"bytes", (toString value.value.utf8ByteSize).toList,
        .number (.posInt (UInt64.ofNat value.value.utf8ByteSize)), plainKey _ (by decide),
        renders_decimal (value_size value)⟩,
      ⟨"content", (boundarySafeJsonString value.value).toList, .string value.value,
        plainKey _ (by decide), renders_boundarySafe _⟩]
  obtain ⟨entries, parsed, filled⟩ := parseJson_fieldsText first rest
  have body : recordBody (sourceFields key sourceRevision target value) =
      '\x7b' :: (fieldsText ((first :: rest).map fun field => (field.key, field.text)) ++ ['\x7d']) := by
    simp only [recordBody, sourceFields, List.map_cons, List.map_nil, first, rest]
  refine ⟨.object entries, body ▸ parsed, ?_⟩
  simp only [first, rest, List.map_cons, List.map_nil, List.foldl_cons, List.foldl_nil] at filled
  simp [JsonValue.get?, filled, SortedMap.lookup_insertEntry]

theorem recordPayload_eq {opening closing rendered : String} {payload : List Char}
    (h : rendered.toList = opening.toList ++ payload ++ closing.toList) :
    recordPayload opening closing rendered = some (String.ofList payload) := by
  have front : rendered.toList.dropPrefix? opening.toList = some (payload ++ closing.toList) :=
    List.dropPrefix?_eq_some_iff.mpr ⟨opening.toList, by rw [h, List.append_assoc], beq_self_eq_true _⟩
  have back : (payload ++ closing.toList).dropSuffix? closing.toList = some payload :=
    List.dropSuffix?_eq_some_iff.mpr ⟨closing.toList, rfl, beq_self_eq_true _⟩
  rw [recordPayload, front]
  simp only [Option.bind_eq_bind, Option.bind_some, back]

/-- An admission of the source that was rendered. -/
structure AdmitsSource (codec : FactCodec) (source : RenderedSource) (admission : ContextAdmission) :
    Prop where
  key : admission.sourceKey = source.sourceKey
  revision : admission.sourceRevision = source.sourceRevision
  target : admission.target = source.target
  memory : admission.memoryRevisionId = none
  hash : admission.renderedHash = source.renderedHash
  version : admission.rendererVersion = contextRendererVersion

/-- The content of a source record is the value that was rendered. -/
theorem recordContent_eq {opening closing : String} {key : ContextSourceKey}
    {sourceRevision : Sha256Digest} {target : ContextSection} {value : ContextSourceValue}
    {admission : ContextAdmission} (hopen : opening.toList = openTag (sourceTag target))
    (hclose : closing.toList = closeTag (sourceTag target)) (hkey : admission.sourceKey = key)
    (hrevision : admission.sourceRevision = sourceRevision) :
    recordContent otherNumber opening closing (sectionName target) admission
        (sourceRecord key sourceRevision target value) = .ok value.value := by
  have shape := sourceRecord_shape key sourceRevision target value
  rw [← hopen, ← hclose] at shape
  obtain ⟨record, parsed, hkey', hrevision', hsection, hbytes, hcontent⟩ :=
    parse_sourceBody otherNumber key sourceRevision target value
  rw [recordContent, recordPayload_eq shape]
  have bytes : (record.get? "bytes").bind JsonValue.asU64? = some value.value.utf8ByteSize := by
    rw [hbytes, Option.bind_some, JsonValue.asU64?, UInt64.toNat_ofNat_of_lt' (value_size value)]
  simp only [parsed, hcontent, hkey', hrevision', hsection, bytes, Option.bind_some, JsonValue.asStr?,
    hkey, hrevision, ne_eq, not_true_eq_false, or_self, if_false]

theorem retainedAdmission_of_admits {source : RenderedSource} {admission : ContextAdmission}
    (admits : AdmitsSource codec source admission) (free : source.target ≠ .durableMemory)
    (hashed : source.renderedHash = sourceRenderedHash codec source.sourceKey source.sourceRevision
      source.target source.rendered) :
    retainedAdmission codec source.target admission source.rendered = true := by
  have verified : verifyAdmissionRenderedHash codec admission none source.rendered = true := by
    unfold verifyAdmissionRenderedHash
    rw [if_neg (not_not.mpr admits.version), admits.target, if_neg free,
      admits.memory, if_neg (by simp), admits.key, admits.revision, admits.hash, hashed]
    exact decide_eq_true rfl
  rw [retainedAdmission, verified, admits.target, admits.memory]
  simp

theorem sourceValue_new (value : ContextSourceValue) : ContextSourceValue.new value.value = .ok value := by
  have fits : ¬ (isBlank value.value = true ∨ maxContextSourceValueBytes < value.value.utf8ByteSize) := by
    rw [value.nonblank]
    have := value.bounded
    simp only [Bool.false_eq_true, false_or]
    omega
  rw [ContextSourceValue.new, dif_neg fits]

/-- The AGENTS value comes back from its record. -/
theorem retainedWorkspaceAgents_eq (otherNumber : List Char → Option JsonNumber) {source : RenderedSource} {admission : ContextAdmission}
    {value : ContextSourceValue} (admits : AdmitsSource codec source admission)
    (named : source.sourceKey.value = workspaceAgentsSourceKey)
    (target : source.target = .authorizedInstruction)
    (text : source.rendered = sourceRecord source.sourceKey source.sourceRevision source.target value)
    (hashed : source.renderedHash = sourceRenderedHash codec source.sourceKey source.sourceRevision
      source.target source.rendered) :
    retainedWorkspaceAgents codec otherNumber admission source.rendered =
      .ok (some ⟨source.sourceKey, source.target, source.sourceRevision, value⟩) := by
  have retained := retainedAdmission_of_admits admits (by rw [target]; decide) hashed
  have content : recordContent otherNumber authorizedInstructionOpen authorizedInstructionClose
      (sectionName .authorizedInstruction) admission
      (sourceRecord source.sourceKey source.sourceRevision .authorizedInstruction value) =
        .ok value.value :=
    recordContent_eq (by decide) (by decide) admits.key admits.revision
  rw [target] at retained text
  rw [← text] at content
  have same : ¬ admission.sourceKey.value ≠ workspaceAgentsSourceKey := by
    rw [admits.key]
    exact not_not.mpr named
  rw [retainedWorkspaceAgents, if_neg same, retained, if_neg (by decide)]
  rw [sectionName] at content
  rw [content, FallibleRun.ok_bind, sourceValue_new, admits.key, admits.revision, admits.target]
  rfl

/-- A compacted history comes back from its record exactly when it is a valid one. -/
theorem retainedCompactedHistory_eq {source : RenderedSource} {admission : ContextAdmission}
    {value : ContextSourceValue} {json : HistoryJson} {history : CompactedHistoryV1}
    (admits : AdmitsSource codec source admission)
    (named : source.sourceKey.value = compactedHistorySourceKey)
    (target : source.target = .conversationHistory)
    (text : source.rendered = sourceRecord source.sourceKey source.sourceRevision source.target value)
    (hashed : source.renderedHash = sourceRenderedHash codec source.sourceKey source.sourceRevision
      source.target source.rendered) (written : value.value = json.content history)
    (read : json.parse (json.content history) = some history) :
    retainedCompactedHistory codec otherNumber json admission source.rendered =
      if validateCompactedHistory history = true then .ok (some history) else .error .configuration := by
  have retained := retainedAdmission_of_admits admits (by rw [target]; decide) hashed
  have content : recordContent otherNumber contextDataOpen contextDataClose
      (sectionName .conversationHistory) admission
      (sourceRecord source.sourceKey source.sourceRevision .conversationHistory value) =
        .ok value.value :=
    recordContent_eq (by decide) (by decide) admits.key admits.revision
  rw [target] at retained text
  rw [← text] at content
  have same : ¬ admission.sourceKey.value ≠ compactedHistorySourceKey := by
    rw [admits.key]
    exact not_not.mpr named
  rw [retainedCompactedHistory, if_neg same, retained, if_neg (by decide)]
  rw [sectionName] at content
  rw [content, FallibleRun.ok_bind, written, read]
  cases valid : validateCompactedHistory history with
  | true => simp [valid]
  | false => simp [valid]

end RoundTrip

end AutoHarness
