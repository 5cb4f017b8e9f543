import AutoHarness.ContextBoundary
import AutoHarness.ContextBuilder
import AutoHarness.JsonParser

namespace AutoHarness

open String (utf8Len)

section RecordSize

theorem identifier_size {kind : IdentifierKind} (id : Identifier kind) : id.value.utf8ByteSize ≤ 512 := by
  have valid := id.valid
  by_contra long
  have exceeds : id.value.utf8ByteSize > maxIdentifierBytes := by
    rw [maxIdentifierBytes]
    omega
  rw [validateIdentifier, if_pos exceeds] at valid
  grind

theorem utf8Len_of_ascii {characters : List Char} (h : ∀ c ∈ characters, c.toNat < 128) :
    utf8Len characters = characters.length := by
  induction characters with
  | nil => rfl
  | cons c characters ih =>
    have small : c.utf8Size = 1 := by
      have low := h c List.mem_cons_self
      rw [Char.utf8Size_eq_one_iff, UInt32.le_iff_toNat_le]
      exact Nat.lt_succ_iff.mp low
    rw [String.utf8Len_cons, ih fun other mem => h other (List.mem_cons_of_mem c mem), small,
      List.length_cons]

theorem utf8ByteSize_eq_utf8Len (text : String) : text.utf8ByteSize = utf8Len text.toList := by
  rw [← String.utf8ByteSize_ofList, String.ofList_toList]

/-- Numbers below a million have at most six digits. -/
theorem decimal_size {n : Nat} (h : n < 1000000) : (toString n).utf8ByteSize ≤ 6 := by
  have digits : ∀ c ∈ Nat.toDigits 10 n, c.toNat < 128 := by
    intro c mem
    have digit := Nat.isDigit_of_mem_toDigits (by decide) (by decide) mem
    simp only [Char.isDigit, Bool.and_eq_true, decide_eq_true_eq, UInt32.le_iff_toNat_le] at digit
    have low : c.toNat ≤ 57 := digit.2
    omega
  have length : (Nat.toDigits 10 n).length ≤ 6 :=
    (Nat.length_toDigits_le_iff (by decide) (by decide)).mpr h
  rw [Nat.toString_eq_ofList_toDigits, String.utf8ByteSize_ofList, utf8Len_of_ascii digits]
  exact length

theorem digest_size (digest : Sha256Digest) : digest.value.utf8ByteSize = 64 := by
  have hex := digest.hex
  simp only [Bool.and_eq_true, beq_iff_eq, List.all_eq_true, Bool.or_eq_true, decide_eq_true_eq] at hex
  have ascii : ∀ c ∈ digest.value.toList, c.toNat < 128 := by
    intro c mem
    rcases hex.2 c mem with digit | ⟨-, letter⟩
    · simp only [Char.isDigit, Bool.and_eq_true, decide_eq_true_eq, UInt32.le_iff_toNat_le] at digit
      have low : c.toNat ≤ 57 := digit.2
      omega
    · have low : c.toNat ≤ 102 := letter
      omega
  rw [utf8ByteSize_eq_utf8Len, utf8Len_of_ascii ascii, String.length_toList, hex.1]

theorem intercalate_size (parts : List String) :
    (",".intercalate parts).utf8ByteSize ≤ (parts.map fun part => part.utf8ByteSize + 1).sum := by
  have comma : (",").utf8ByteSize = 1 := by decide
  induction parts with
  | nil => simp
  | cons part parts ih =>
    cases parts with
    | nil => simp
    | cons next parts =>
      rw [String.intercalate_cons_cons, String.utf8ByteSize_append, String.utf8ByteSize_append, comma,
        List.map_cons, List.sum_cons]
      omega

theorem recordText_size (tag : String) (fields : List (String × String)) :
    (recordText tag fields).utf8ByteSize ≤ 2 * tag.utf8ByteSize + 9 +
      (fields.map fun field => field.1.utf8ByteSize + field.2.utf8ByteSize + 4).sum := by
  have inner := intercalate_size (fields.map fun field => "\"" ++ field.1 ++ "\":" ++ field.2)
  have sizes : ("<").utf8ByteSize = 1 ∧ (">\n\x7b").utf8ByteSize = 3 ∧ ("\x7d\n</").utf8ByteSize = 4 ∧
      (">").utf8ByteSize = 1 := by decide
  have parts : (fields.map fun field => "\"" ++ field.1 ++ "\":" ++ field.2).map
      (fun part => part.utf8ByteSize + 1) =
        fields.map fun field => field.1.utf8ByteSize + field.2.utf8ByteSize + 4 := by
    have quote : ("\"").utf8ByteSize = 1 ∧ ("\":").utf8ByteSize = 2 := by decide
    rw [List.map_map]
    refine List.map_congr_left fun field _ => ?_
    simp only [Function.comp_apply, String.utf8ByteSize_append, quote.1, quote.2]
    omega
  rw [parts] at inner
  simp only [recordText, String.utf8ByteSize_append, sizes.1, sizes.2.1, sizes.2.2.1, sizes.2.2.2]
  omega

theorem memoryRecord_size (candidate : MemoryCandidate) :
    (memoryRecord candidate).utf8ByteSize ≤ 110000 := by
  have hmemory := boundarySafeJsonString_size candidate.memoryId.value
  have hrevision := boundarySafeJsonString_size candidate.revisionId.value
  have hcontent := boundarySafeJsonString_size candidate.content.value
  have hbounded := candidate.content.bounded
  have hid := identifier_size candidate.memoryId
  have hrid := identifier_size candidate.revisionId
  rw [maxMemoryContentBytes] at hbounded
  have hbytes := decimal_size (n := candidate.content.value.utf8ByteSize) (by omega)
  have hsize := recordText_size memoryTag
    [("memory_id", boundarySafeJsonString candidate.memoryId.value),
      ("revision_id", boundarySafeJsonString candidate.revisionId.value),
      ("bytes", toString candidate.content.value.utf8ByteSize),
      ("content", boundarySafeJsonString candidate.content.value)]
  have names : memoryTag.utf8ByteSize = 26 ∧ ("memory_id").utf8ByteSize = 9 ∧
      ("revision_id").utf8ByteSize = 11 ∧ ("bytes").utf8ByteSize = 5 ∧
      ("content").utf8ByteSize = 7 := by decide
  simp only [List.map_cons, List.map_nil, List.sum_cons, List.sum_nil] at hsize
  rw [← memoryRecord] at hsize
  omega

theorem sourceRecord_size (key : ContextSourceKey) (sourceRevision : Sha256Digest)
    (target : ContextSection) (value : ContextSourceValue) :
    (sourceRecord key sourceRevision target value).utf8ByteSize ≤ 800000 := by
  have hkey := boundarySafeJsonString_size key.value
  have hrevision := boundarySafeJsonString_size sourceRevision.value
  have hcontent := boundarySafeJsonString_size value.value
  have hbounded := value.bounded
  have hid := identifier_size key
  have hdigest := digest_size sourceRevision
  rw [maxContextSourceValueBytes] at hbounded
  have hbytes := decimal_size (n := value.value.utf8ByteSize) (by omega)
  have hsize := recordText_size (sourceTag target)
    [("source_key", boundarySafeJsonString key.value),
      ("source_revision", boundarySafeJsonString sourceRevision.value),
      ("section", "\"" ++ sectionName target ++ "\""),
      ("bytes", toString value.value.utf8ByteSize),
      ("content", boundarySafeJsonString value.value)]
  have names : ("source_key").utf8ByteSize = 10 ∧ ("source_revision").utf8ByteSize = 15 ∧
      ("section").utf8ByteSize = 7 ∧ ("bytes").utf8ByteSize = 5 ∧ ("content").utf8ByteSize = 7 ∧
      ("\"").utf8ByteSize = 1 := by decide
  have htag : (sourceTag target).utf8ByteSize ≤ 40 := by
    cases target <;> decide
  have hsection : (sectionName target).utf8ByteSize ≤ 40 := by
    cases target <;> decide
  simp only [List.map_cons, List.map_nil, List.sum_cons, List.sum_nil, String.utf8ByteSize_append]
    at hsize
  rw [← sourceRecord] at hsize
  omega

end RecordSize

section Rendering

variable {codec : FactCodec}

theorem line_size (text : String) : (text ++ "\n").utf8ByteSize = text.utf8ByteSize + 1 := by
  have newline : ("\n").utf8ByteSize = 1 := by decide
  rw [String.utf8ByteSize_append, newline]

theorem renderMemory_ok_iff {ranked : RankedMemory} {rendered : RenderedMemory} :
    renderMemory codec ranked = .ok rendered ↔
      rendered.memoryId = ranked.candidate.memoryId ∧
        rendered.revisionId = ranked.candidate.revisionId ∧
        rendered.rendered = memoryRecord ranked.candidate ∧
        rendered.renderedHash = memoryRenderedHash codec ranked.candidate.memoryId
          ranked.candidate.revisionId (memoryRecord ranked.candidate) ∧
        rendered.estimatedTokens.get = (memoryRecord ranked.candidate).utf8ByteSize + 1 := by
  have hsize := memoryRecord_size ranked.candidate
  have bound : (memoryRecord ranked.candidate ++ "\n").utf8ByteSize ≤ maxEstimatedTokens := by
    rw [line_size, maxEstimatedTokens]
    omega
  rw [renderMemory]
  simp only [estimate_eq bound, FallibleRun.ok_bind, Except.ok.injEq]
  constructor
  · rintro rfl
    exact ⟨rfl, rfl, rfl, rfl, line_size _⟩
  · rintro ⟨h1, h2, h3, h4, h5⟩
    obtain ⟨memoryId, revisionId, text, hash, tokens⟩ := rendered
    obtain ⟨get, bounded⟩ := tokens
    simp only at h1 h2 h3 h4 h5
    subst h1 h2 h3 h4 h5
    simp only [line_size]

theorem renderMemory_total (ranked : RankedMemory) : ∃ rendered, renderMemory codec ranked = .ok rendered := by
  have hsize := memoryRecord_size ranked.candidate
  have bound : (memoryRecord ranked.candidate).utf8ByteSize + 1 ≤ maxEstimatedTokens := by
    rw [maxEstimatedTokens]
    omega
  exact ⟨⟨_, _, _, _, ⟨_, bound⟩⟩, renderMemory_ok_iff.mpr ⟨rfl, rfl, rfl, rfl, rfl⟩⟩

/-- A source with a value is rendered under its key, revision and section, any other not at all. -/
theorem renderSource_ok_iff {observed : ObservedContextSource} {rendered : Option RenderedSource} :
    renderSource codec observed = .ok rendered ↔
      (observed.content = none ∧ rendered = none) ∨
      ∃ target value sourceRevision source, observed.content = some (target, value) ∧
        observed.snapshot.sourceRevision = some sourceRevision ∧ rendered = some source ∧
        source.sourceKey = observed.snapshot.sourceKey ∧ source.sourceRevision = sourceRevision ∧
        source.target = target ∧
        source.rendered = sourceRecord observed.snapshot.sourceKey sourceRevision target value ∧
        source.renderedHash = sourceRenderedHash codec observed.snapshot.sourceKey sourceRevision target
          (sourceRecord observed.snapshot.sourceKey sourceRevision target value) ∧
        source.estimatedTokens.get =
          (sourceRecord observed.snapshot.sourceKey sourceRevision target value).utf8ByteSize + 1 := by
  have revised := observed.revised
  unfold renderSource
  cases hc : observed.content with
  | none => simp [eq_comm]
  | some filled =>
    obtain ⟨target, value⟩ := filled
    cases hr : observed.snapshot.sourceRevision with
    | none => simp [hc, hr] at revised
    | some sourceRevision =>
      have hsize := sourceRecord_size observed.snapshot.sourceKey sourceRevision target value
      have bound : (sourceRecord observed.snapshot.sourceKey sourceRevision target value ++
          "\n").utf8ByteSize ≤ maxEstimatedTokens := by
        rw [line_size, maxEstimatedTokens]
        omega
      simp only [estimate_eq bound, FallibleRun.ok_bind, Except.ok.injEq]
      constructor
      · rintro rfl
        exact .inr ⟨target, value, sourceRevision, _, rfl, rfl, rfl, rfl, rfl, rfl, rfl, rfl,
          line_size _⟩
      · rintro (⟨absent, -⟩ | ⟨target', value', revision', source, same, same', rfl, h1, h2, h3, h4, h5, h6⟩)
        · cases absent
        · cases same
          cases same'
          obtain ⟨sourceKey, revision, place, text, hash, tokens⟩ := source
          obtain ⟨get, bounded⟩ := tokens
          simp only at h1 h2 h3 h4 h5 h6
          subst h1 h2 h3 h4 h5 h6
          simp only [line_size]

theorem renderSource_total (codec : FactCodec) (observed : ObservedContextSource) :
    ∃ rendered, renderSource codec observed = .ok rendered ∧
      rendered.isSome = observed.content.isSome := by
  have revised := observed.revised
  cases hc : observed.content with
  | none => exact ⟨none, renderSource_ok_iff.mpr (.inl ⟨hc, rfl⟩), rfl⟩
  | some filled =>
    obtain ⟨target, value⟩ := filled
    cases hr : observed.snapshot.sourceRevision with
    | none => simp [hc, hr] at revised
    | some sourceRevision =>
      have hsize := sourceRecord_size observed.snapshot.sourceKey sourceRevision target value
      have bound : (sourceRecord observed.snapshot.sourceKey sourceRevision target value).utf8ByteSize
          + 1 ≤ maxEstimatedTokens := by
        rw [maxEstimatedTokens]
        omega
      exact ⟨some ⟨_, _, _, _, _, ⟨_, bound⟩⟩, renderSource_ok_iff.mpr
        (.inr ⟨target, value, sourceRevision, _, hc, hr, rfl, rfl, rfl, rfl, rfl, rfl, rfl⟩), rfl⟩

end Rendering

section Prelude

def sourceBytes (sources : List RenderedSource) : Nat :=
  (sources.map fun source => source.rendered.utf8ByteSize + 1).sum

def memoryBytes (memories : List RenderedMemory) : Nat :=
  (memories.map fun memory => memory.rendered.utf8ByteSize + 1).sum

/-- The bytes of the prelude of a selection, none for the empty one. -/
def preludeBytes (sources : List RenderedSource) (memories : List RenderedMemory) : Nat :=
  if sources.isEmpty && memories.isEmpty then 0
  else contextPreludeV1.utf8ByteSize + sourceBytes sources + memoryBytes memories

theorem foldl_lines_size {α : Type} (text : α → String) (items : List α) (output : String) :
    (items.foldl (fun output item => output ++ text item ++ "\n") output).utf8ByteSize =
      output.utf8ByteSize + (items.map fun item => (text item).utf8ByteSize + 1).sum := by
  induction items generalizing output with
  | nil => simp
  | cons item items ih =>
    rw [List.foldl_cons, ih, List.map_cons, List.sum_cons, line_size, String.utf8ByteSize_append]
    omega

/-- The size of what is rendered, and nothing is rendered of nothing. -/
theorem renderContextPrelude_size (sources : List RenderedSource) (memories : List RenderedMemory) :
    ((renderContextPrelude sources memories).elim 0 String.utf8ByteSize) =
      preludeBytes sources memories := by
  unfold renderContextPrelude preludeBytes
  split
  · rfl
  · exact (foldl_lines_size _ _ _).trans (congrArg (· + _) (foldl_lines_size _ _ _))

theorem renderContextPrelude_eq_none_iff {sources : List RenderedSource}
    {memories : List RenderedMemory} :
    renderContextPrelude sources memories = none ↔ sources = [] ∧ memories = [] := by
  simp [renderContextPrelude]

end Prelude

section Fits

variable {request : ContextBuildRequest}

/-- The byte limit and the token budget together. -/
def WithinBudget (request : ContextBuildRequest) (bytes : Nat) : Prop :=
  bytes ≤ maxRenderedContextBytes ∧ request.reservedTokens.get + bytes ≤ request.tokenBudget.get

instance (request : ContextBuildRequest) (bytes : Nat) : Decidable (WithinBudget request bytes) :=
  inferInstanceAs (Decidable (_ ∧ _))

theorem WithinBudget.mono {small large : Nat} (le : small ≤ large) (h : WithinBudget request large) :
    WithinBudget request small :=
  ⟨le.trans h.1, (Nat.add_le_add_left le _).trans h.2⟩

theorem fitsTotal_eq (sources : List RenderedSource) (memories : List RankedRenderedMemory) :
    fitsTotal request sources memories =
      .ok (WithinBudget request (preludeBytes sources (memoryRenderings memories)) : Bool) := by
  have size := renderContextPrelude_size sources (memoryRenderings memories)
  have reserved := request.reservedTokens.bounded
  unfold fitsTotal
  cases hp : renderContextPrelude sources (memoryRenderings memories) with
  | none =>
    rw [hp] at size
    rw [← size]
    simp [WithinBudget]
  | some prelude =>
    rw [hp] at size
    have same : prelude.utf8ByteSize = preludeBytes sources (memoryRenderings memories) := size
    rw [← same]
    by_cases long : prelude.utf8ByteSize > maxRenderedContextBytes
    · have exceeds : ¬ WithinBudget request prelude.utf8ByteSize := fun fits => absurd fits.1 (by omega)
      simp [long, exceeds]
    · rw [maxRenderedContextBytes] at long
      rw [maxEstimatedTokens] at reserved
      have bound : prelude.utf8ByteSize ≤ maxEstimatedTokens := by
        rw [maxEstimatedTokens]
        omega
      have small : ¬ request.reservedTokens.get + prelude.utf8ByteSize > 18446744073709551615 := by omega
      have fits : prelude.utf8ByteSize ≤ maxRenderedContextBytes := by
        rw [maxRenderedContextBytes]
        omega
      simp only [Nat.not_lt.mpr fits, if_false, estimate_eq bound, FallibleRun.ok_bind, small, gt_iff_lt,
        WithinBudget, fits, true_and]

theorem fitsMemoryLimit_eq_true_iff {memories : List RankedRenderedMemory} :
    fitsMemoryLimit request memories = .ok true ↔
      memoryBytes (memoryRenderings memories) ≤ request.durableMemoryLimit.get := by
  have size : (memories.foldl (fun text memory => text ++ memory.rendered.rendered ++ "\n")
      "").utf8ByteSize = memoryBytes (memoryRenderings memories) := by
    rw [foldl_lines_size (fun memory : RankedRenderedMemory => memory.rendered.rendered), memoryBytes,
      memoryRenderings, List.map_map]
    simp [Function.comp_def]
  have limit := request.durableMemoryLimit.bounded
  rw [fitsMemoryLimit]
  by_cases bound : memoryBytes (memoryRenderings memories) ≤ maxEstimatedTokens
  · rw [estimate_eq (size ▸ bound), FallibleRun.ok_bind]
    simp [size]
  · rw [estimate, EstimatedTokens.new, dif_neg (size ▸ bound)]
    constructor
    · intro failed
      cases failed
    · intro fits
      exact absurd (fits.trans limit) bound

/-- The limit on durable memory and the total limits, for one more memory. -/
theorem fitsMemories_eq_true_iff {sources : List RenderedSource} {trial : List RankedRenderedMemory} :
    fitsMemories request sources trial = .ok true ↔
      memoryBytes (memoryRenderings trial) ≤ request.durableMemoryLimit.get ∧
        WithinBudget request (preludeBytes sources (memoryRenderings trial)) := by
  rw [← fitsMemoryLimit_eq_true_iff, fitsMemories]
  cases hf : fitsMemoryLimit request trial with
  | error e => simp [bind, Except.bind]
  | ok fit =>
    cases fit with
    | false => simp
    | true => simp [fitsTotal_eq]

theorem fitsMemories_ne_budgetExceeded (sources : List RenderedSource)
    (trial : List RankedRenderedMemory) : fitsMemories request sources trial ≠ .error .budgetExceeded := by
  rw [fitsMemories, fitsMemoryLimit, estimate, EstimatedTokens.new]
  split
  · rw [FallibleRun.ok_bind, FallibleRun.ok_bind, fitsTotal_eq]
    split
    · intro failed
      cases failed
    · intro failed
      cases failed
  · intro failed
    cases failed

end Fits

end AutoHarness
