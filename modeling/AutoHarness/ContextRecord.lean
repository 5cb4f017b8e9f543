import AutoHarness.ContextBoundary
import AutoHarness.JsonParser

namespace AutoHarness

section Shape

/-- The object text of a record. -/
def recordBody (fields : List (String × String)) : List Char :=
  '\x7b' :: (fieldsText (fields.map fun field => (field.1, field.2.toList)) ++ ['\x7d'])

def openTag (tag : String) : List Char := '<' :: (tag.toList ++ ['>', '\n'])

def closeTag (tag : String) : List Char := '\n' :: '<' :: '/' :: (tag.toList ++ ['>'])

theorem intercalate_fields (fields : List (String × String)) :
    (",".intercalate (fields.map fun field => "\"" ++ field.1 ++ "\":" ++ field.2)).toList =
      fieldsText (fields.map fun field => (field.1, field.2.toList)) := by
  have quote : ("\"").toList = ['"'] := rfl
  have colon : ("\":").toList = ['"', ':'] := rfl
  have comma : (",").toList = [','] := rfl
  induction fields with
  | nil => rfl
  | cons field fields ih =>
    cases fields with
    | nil =>
      simp only [List.map_cons, List.map_nil, String.intercalate_singleton, String.toList_append, quote,
        colon, fieldsText]
      simp
    | cons next fields =>
      rw [List.map_cons] at ih
      rw [List.map_cons, List.map_cons, String.intercalate_cons_cons, String.toList_append, ih]
      simp only [String.toList_append, quote, colon, comma, List.map_cons, fieldsText]
      simp

/-- A record is its body between its two tags. -/
theorem toList_recordText (tag : String) (fields : List (String × String)) :
    (recordText tag fields).toList = openTag tag ++ recordBody fields ++ closeTag tag := by
  have opening : ("<").toList = ['<'] := rfl
  have start : (">\n\x7b").toList = ['>', '\n', '\x7b'] := rfl
  have stop : ("\x7d\n</").toList = ['\x7d', '\n', '<', '/'] := rfl
  have closing : (">").toList = ['>'] := rfl
  simp only [recordText, String.toList_append, opening, start, stop, closing, intercalate_fields,
    openTag, recordBody, closeTag]
  simp

end Shape

section Plain

/-- No character of the text can begin, end or escape a tag. -/
def Plain (text : List Char) : Prop := ∀ c ∈ text, isBoundary c = false

theorem Plain.append {x y : List Char} (hx : Plain x) (hy : Plain y) : Plain (x ++ y) := by
  intro c mem
  rcases List.mem_append.mp mem with mem | mem
  · exact hx c mem
  · exact hy c mem

theorem Plain.cons {c : Char} {x : List Char} (hc : isBoundary c = false) (hx : Plain x) :
    Plain (c :: x) := by
  intro d mem
  rcases List.mem_cons.mp mem with rfl | mem
  · exact hc
  · exact hx d mem

theorem plain_boundarySafe (value : String) : Plain (boundarySafeJsonString value).toList := by
  rw [toList_boundarySafeJsonString]
  refine Plain.cons rfl (Plain.append ?_ ?_)
  · intro c mem
    obtain ⟨d, -, mem⟩ := List.mem_flatMap.mp mem
    exact boundarySafe_plain d c mem
  · exact Plain.cons rfl fun c mem => absurd mem List.not_mem_nil

theorem plain_decimal (n : Nat) : Plain (toString n).toList := by
  intro c mem
  rw [Nat.toString_eq_ofList_toDigits, String.toList_ofList] at mem
  have digit := isDigit_toDigits c mem
  have hne (other : Char) (h : other.isDigit = false) : c ≠ other := by
    rintro rfl
    rw [h] at digit
    cases digit
  simp [isBoundary, hne '<' rfl, hne '>' rfl, hne '&' rfl]

theorem plain_fieldsText {fields : List (String × List Char)}
    (h : ∀ field ∈ fields, Plain field.1.toList ∧ Plain field.2) : Plain (fieldsText fields) := by
  induction fields with
  | nil => exact fun c mem => absurd mem List.not_mem_nil
  | cons field fields ih =>
    obtain ⟨name, value⟩ := h field List.mem_cons_self
    have rest := ih fun other mem => h other (List.mem_cons_of_mem field mem)
    cases fields with
    | nil => exact .cons rfl (name.append (.cons rfl (.cons rfl value)))
    | cons next fields =>
      exact .cons rfl (name.append (.cons rfl (.cons rfl (value.append (.cons rfl rest)))))

theorem plain_recordBody {fields : List (String × String)}
    (h : ∀ field ∈ fields, Plain field.1.toList ∧ Plain field.2.toList) :
    Plain (recordBody fields) := by
  refine .cons rfl (.append (plain_fieldsText ?_) (.cons rfl fun c mem => absurd mem List.not_mem_nil))
  intro field mem
  obtain ⟨source, there, rfl⟩ := List.mem_map.mp mem
  exact h source there

end Plain

section Tags

/-- The word stands at exactly one place of the text. -/
def Once (word text : List Char) : Prop :=
  ∃! around : List Char × List Char, text = around.1 ++ word ++ around.2

/-- What begins and ends like a record: one tag, a text without boundaries, and the closing tag. -/
structure TagName (tag : String) : Prop where
  plain : Plain tag.toList
  slash : tag.toList.head? ≠ some '/'

theorem not_mem_of_plain {text : List Char} (h : Plain text) : '<' ∉ text := by
  intro mem
  have bad := h '<' mem
  cases bad

theorem record_split {tag : String} (named : TagName tag) {body : List Char} (plain : Plain body)
    {front back : List Char} (h : openTag tag ++ body ++ closeTag tag = front ++ '<' :: back) :
    (front = [] ∧ back = tag.toList ++ '>' :: '\n' :: (body ++ closeTag tag)) ∨
      (front = openTag tag ++ body ++ ['\n'] ∧ back = '/' :: (tag.toList ++ ['>'])) := by
  have tagFree := not_mem_of_plain named.plain
  have bodyFree := not_mem_of_plain plain
  cases front with
  | nil =>
    refine .inl ⟨rfl, ?_⟩
    simp only [openTag, List.cons_append, List.append_assoc, List.nil_append, List.cons.injEq,
      true_and] at h
    simpa using h.symm
  | cons first front =>
    right
    simp only [openTag, closeTag, List.cons_append, List.append_assoc, List.nil_append,
      List.cons.injEq] at h
    obtain ⟨rfl, h⟩ := h
    have split : (tag.toList ++ '>' :: '\n' :: (body ++ ['\n'])) ++ '<' :: ('/' :: (tag.toList ++ ['>'])) =
        front ++ '<' :: back := by
      simpa using h
    have frontFree : '<' ∉ tag.toList ++ '>' :: '\n' :: (body ++ ['\n']) := by
      simp [tagFree, bodyFree]
    have backFree : '<' ∉ '/' :: (tag.toList ++ ['>']) := by
      simp [tagFree]
    obtain ⟨same, -, rest⟩ := (List.append_cons_inj_of_notMem frontFree backFree).mp split
    refine ⟨?_, rest.symm⟩
    rw [← same, openTag]
    simp

/-- The opening tag stands at the front of a record only. -/
theorem once_openTag {tag : String} (named : TagName tag) {body : List Char} (plain : Plain body) :
    Once ('<' :: (tag.toList ++ ['>'])) (openTag tag ++ body ++ closeTag tag) := by
  refine ⟨([], '\n' :: (body ++ closeTag tag)), by simp [openTag], ?_⟩
  rintro ⟨front, back⟩ same
  have split : openTag tag ++ body ++ closeTag tag = front ++ '<' :: (tag.toList ++ ['>'] ++ back) := by
    simpa using same
  rcases record_split named plain split with ⟨rfl, rest⟩ | ⟨-, rest⟩
  · have tail : ['>'] ++ back = '>' :: '\n' :: (body ++ closeTag tag) := by
      rw [List.append_assoc] at rest
      exact List.append_cancel_left rest
    rw [List.singleton_append, List.cons.injEq] at tail
    rw [tail.2]
  · exfalso
    cases characters : tag.toList with
    | nil =>
      rw [characters] at rest
      cases rest
    | cons first more =>
      rw [characters] at rest
      have slash := named.slash
      rw [characters] at slash
      exact slash (congrArg List.head? rest)

/-- The closing tag stands at the end of a record only. -/
theorem once_closeTag {tag : String} (named : TagName tag) {body : List Char} (plain : Plain body) :
    Once ('<' :: '/' :: (tag.toList ++ ['>'])) (openTag tag ++ body ++ closeTag tag) := by
  refine ⟨(openTag tag ++ body ++ ['\n'], []), by simp [closeTag], ?_⟩
  rintro ⟨front, back⟩ same
  have split : openTag tag ++ body ++ closeTag tag =
      front ++ '<' :: ('/' :: (tag.toList ++ ['>'] ++ back)) := by
    simpa using same
  rcases record_split named plain split with ⟨rfl, rest⟩ | ⟨rfl, rest⟩
  · exfalso
    have slash := named.slash
    cases characters : tag.toList with
    | nil =>
      rw [characters] at rest
      cases rest
    | cons first more =>
      rw [characters] at rest slash
      exact slash (congrArg List.head? rest).symm
  · have tail : ['>'] ++ back = ['>'] := by
      have cut := (List.cons.inj rest).2
      rw [List.append_assoc] at cut
      exact List.append_cancel_left cut
    rw [List.singleton_append, List.cons.injEq] at tail
    rw [tail.2]

end Tags

section Records

theorem memoryTag_named : TagName memoryTag := by
  exact ⟨forall_mem_of_all (by decide), by decide⟩

theorem sourceTag_named (target : ContextSection) : TagName (sourceTag target) := by
  refine ⟨forall_mem_of_all ?_, ?_⟩
  · cases target <;> decide
  · cases target <;> decide

/-- The fields of a memory record in their order. -/
def memoryFields (candidate : MemoryCandidate) : List (String × String) :=
  [("memory_id", boundarySafeJsonString candidate.memoryId.value),
    ("revision_id", boundarySafeJsonString candidate.revisionId.value),
    ("bytes", toString candidate.content.value.utf8ByteSize),
    ("content", boundarySafeJsonString candidate.content.value)]

/-- The fields of a source record in their order. -/
def sourceFields (key : ContextSourceKey) (sourceRevision : Sha256Digest) (target : ContextSection)
    (value : ContextSourceValue) : List (String × String) :=
  [("source_key", boundarySafeJsonString key.value),
    ("source_revision", boundarySafeJsonString sourceRevision.value),
    ("section", "\"" ++ sectionName target ++ "\""),
    ("bytes", toString value.value.utf8ByteSize),
    ("content", boundarySafeJsonString value.value)]

theorem memoryRecord_shape (candidate : MemoryCandidate) :
    (memoryRecord candidate).toList =
      openTag memoryTag ++ recordBody (memoryFields candidate) ++ closeTag memoryTag :=
  toList_recordText memoryTag (memoryFields candidate)

theorem sourceRecord_shape (key : ContextSourceKey) (sourceRevision : Sha256Digest)
    (target : ContextSection) (value : ContextSourceValue) :
    (sourceRecord key sourceRevision target value).toList =
      openTag (sourceTag target) ++ recordBody (sourceFields key sourceRevision target value) ++
        closeTag (sourceTag target) :=
  toList_recordText (sourceTag target) (sourceFields key sourceRevision target value)

theorem plain_names : ∀ name ∈ ["memory_id", "revision_id", "bytes", "content", "source_key",
    "source_revision", "section"], Plain name.toList := by
  have all : ∀ name ∈ ["memory_id", "revision_id", "bytes", "content", "source_key",
      "source_revision", "section"],
      name.toList.all (fun c => decide (isBoundary c = false)) = true := by decide
  exact fun name mem => forall_mem_of_all (all name mem)

theorem plain_section (target : ContextSection) : Plain ("\"" ++ sectionName target ++ "\"").toList := by
  apply forall_mem_of_all
  cases target <;> decide

theorem plain_memoryBody (candidate : MemoryCandidate) : Plain (recordBody (memoryFields candidate)) := by
  refine plain_recordBody fun field mem => ?_
  simp only [memoryFields, List.mem_cons, List.not_mem_nil, or_false] at mem
  rcases mem with rfl | rfl | rfl | rfl
  · exact ⟨plain_names "memory_id" (by decide), plain_boundarySafe _⟩
  · exact ⟨plain_names "revision_id" (by decide), plain_boundarySafe _⟩
  · exact ⟨plain_names "bytes" (by decide), plain_decimal _⟩
  · exact ⟨plain_names "content" (by decide), plain_boundarySafe _⟩

theorem plain_sourceBody (key : ContextSourceKey) (sourceRevision : Sha256Digest)
    (target : ContextSection) (value : ContextSourceValue) :
    Plain (recordBody (sourceFields key sourceRevision target value)) := by
  refine plain_recordBody fun field mem => ?_
  simp only [sourceFields, List.mem_cons, List.not_mem_nil, or_false] at mem
  rcases mem with rfl | rfl | rfl | rfl | rfl
  · exact ⟨plain_names "source_key" (by decide), plain_boundarySafe _⟩
  · exact ⟨plain_names "source_revision" (by decide), plain_boundarySafe _⟩
  · exact ⟨plain_names "section" (by decide), plain_section target⟩
  · exact ⟨plain_names "bytes" (by decide), plain_decimal _⟩
  · exact ⟨plain_names "content" (by decide), plain_boundarySafe _⟩

/-- One tag of its kind opens the record and one closes it, around a body without boundaries. -/
structure RecordSafe (tag : String) (record : List Char) : Prop where
  opened : Once ('<' :: (tag.toList ++ ['>'])) record
  closed : Once ('<' :: '/' :: (tag.toList ++ ['>'])) record
  inert : ∃ body, record = openTag tag ++ body ++ closeTag tag ∧ Plain body

theorem memoryRecord_safe (candidate : MemoryCandidate) :
    RecordSafe memoryTag (memoryRecord candidate).toList := by
  have plain := plain_memoryBody candidate
  rw [memoryRecord_shape]
  exact ⟨once_openTag memoryTag_named plain, once_closeTag memoryTag_named plain, _, rfl, plain⟩

theorem sourceRecord_safe (key : ContextSourceKey) (sourceRevision : Sha256Digest)
    (target : ContextSection) (value : ContextSourceValue) :
    RecordSafe (sourceTag target) (sourceRecord key sourceRevision target value).toList := by
  have plain := plain_sourceBody key sourceRevision target value
  have named := sourceTag_named target
  rw [sourceRecord_shape]
  exact ⟨once_openTag named plain, once_closeTag named plain, _, rfl, plain⟩

end Records

end AutoHarness
