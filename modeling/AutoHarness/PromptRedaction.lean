import AutoHarness.IntervalUnion
import AutoHarness.SortedLists
import Mathlib.Data.Prod.Lex

namespace AutoHarness

open IntervalUnion

section Redact

/-- `str::match_indices`: the places of a needle from left to right, each after the end of the one
before; the first argument counts the characters that the last match still takes. -/
def matchIndices (needle : List Char) : (taken : Nat) → (place : Nat) → List Char → List Nat
  | _, _, [] => []
  | 0, place, c :: rest =>
    if needle.isPrefixOf (c :: rest) then
      place :: matchIndices needle (needle.length - 1) (place + 1) rest
    else matchIndices needle 0 (place + 1) rest
  | taken + 1, place, _ :: rest => matchIndices needle taken (place + 1) rest

def redactedMarker : String := "[REDACTED]"

/-- The ranges of the credentials that were found, by their starts and ends. -/
def credentialRanges (value : List Char) (credentials : List String) : List (Nat × Nat) :=
  ((credentials.filter fun secret => !secret.isEmpty).flatMap fun secret =>
    (matchIndices secret.toList 0 0 value).map fun start =>
      (start, start + secret.toList.length)).mergeSort fun a b => toLex a ≤ toLex b

/-- Cuts every found credential out of the value; the provider redacts what is left. -/
def redactConfiguredSecrets (provider : Option (String → String)) (value : String)
    (credentials : List String) : String :=
  let merged := merge (credentialRanges value.toList credentials)
  let redacted := String.ofList (cutRanges redactedMarker.toList value.toList 0 merged)
  match provider with
  | some redactSecrets => redactSecrets redacted
  | none => redacted

end Redact

section Search

variable {needle text : List Char}

/-- A needle stands at a place of the text. -/
def OccursAt (needle text : List Char) (start : Nat) : Prop := needle <+: text.drop start

theorem matchIndices_occurs {taken place start : Nat}
    (h : start ∈ matchIndices needle taken place text) :
    ∃ offset, start = place + offset ∧ OccursAt needle text offset := by
  induction text generalizing taken place with
  | nil => cases taken <;> exact absurd h List.not_mem_nil
  | cons c rest ih =>
    have later {taken' : Nat} (h : start ∈ matchIndices needle taken' (place + 1) rest) :
        ∃ offset, start = place + offset ∧ OccursAt needle (c :: rest) offset := by
      obtain ⟨offset, rfl, there⟩ := ih h
      exact ⟨offset + 1, by omega, there⟩
    cases taken with
    | succ taken => exact later h
    | zero =>
      rw [matchIndices] at h
      split at h
      · rename_i found
        rcases List.mem_cons.mp h with rfl | h
        · exact ⟨0, rfl, List.isPrefixOf_iff_prefix.mp found⟩
        · exact later h
      · exact later h

/-- Every place of the needle lies in a match that the search has counted. -/
theorem matchIndices_reaches (filled : needle ≠ []) {taken place start : Nat} (free : taken ≤ start)
    (h : OccursAt needle text start) :
    ∃ found ∈ matchIndices needle taken place text, found ≤ place + start ∧
      place + start < found + needle.length := by
  have positive := List.length_pos_iff.mpr filled
  induction text generalizing taken place start with
  | nil =>
    rw [OccursAt, List.drop_nil] at h
    exact absurd (List.prefix_nil.mp h) filled
  | cons c rest ih =>
    have later (taken' : Nat) (after : taken' + 1 ≤ start) :
        ∃ found ∈ matchIndices needle taken' (place + 1) rest, found ≤ place + start ∧
          place + start < found + needle.length := by
      obtain ⟨before, rfl⟩ := Nat.exists_eq_add_of_le' after
      have there : OccursAt needle rest (before + taken') := h
      obtain ⟨found, listed, low, high⟩ : ∃ found ∈ matchIndices needle taken' (place + 1) rest,
          found ≤ place + 1 + (before + taken') ∧ place + 1 + (before + taken') < found + needle.length :=
        ih (Nat.le_add_left _ _) there
      exact ⟨found, listed, by omega, by omega⟩
    cases taken with
    | succ taken =>
      obtain ⟨found, listed, low, high⟩ := later taken free
      exact ⟨found, listed, low, high⟩
    | zero =>
      rw [matchIndices]
      split
      · rename_i here
        by_cases inside : start < needle.length
        · exact ⟨place, List.mem_cons_self, by omega, by omega⟩
        · obtain ⟨found, listed, low, high⟩ := later (needle.length - 1) (by omega)
          exact ⟨found, List.mem_cons_of_mem _ listed, low, high⟩
      · rename_i absent
        cases start with
        | zero => exact absurd (List.isPrefixOf_iff_prefix.mpr h) absent
        | succ start =>
          obtain ⟨found, listed, low, high⟩ := later 0 (Nat.le_add_left _ _)
          exact ⟨found, listed, low, high⟩

theorem matchIndices_found {start : Nat} (filled : needle ≠ []) (h : OccursAt needle text start) :
    ∃ found ∈ matchIndices needle 0 0 text, found ≤ start ∧ start < found + needle.length := by
  obtain ⟨found, listed, low, high⟩ : ∃ found ∈ matchIndices needle 0 0 text, found ≤ 0 + start ∧
      0 + start < found + needle.length := matchIndices_reaches filled (Nat.zero_le _) h
  rw [Nat.zero_add] at low high
  exact ⟨found, listed, low, high⟩

end Search

section Complete

/-- A place of the value belongs to an occurrence of a credential. -/
def inCredential (value : List Char) (credentials : List String) (place : Nat) : Bool :=
  credentials.any fun secret => (List.range (place + 1)).any fun start =>
    secret.toList.isPrefixOf (value.drop start) && decide (place < start + secret.toList.length)

/-- A place belongs to one of the occurrences that the search for a credential counts. -/
def inFound (value : List Char) (credentials : List String) (place : Nat) : Bool :=
  credentials.any fun secret => !secret.isEmpty && (matchIndices secret.toList 0 0 value).any fun start =>
    decide (start ≤ place ∧ place < start + secret.toList.length)

/-- The value with each maximal run of credential characters replaced by one marker. -/
def redactedCompletely (value : String) (credentials : List String) : String :=
  String.ofList (maskRuns redactedMarker.toList (inCredential value.toList credentials) 0 value.toList)

variable {value : List Char} {credentials : List String} {place : Nat}

theorem inCredential_iff : inCredential value credentials place = true ↔
    ∃ secret ∈ credentials, ∃ start, OccursAt secret.toList value start ∧ start ≤ place ∧
      place < start + secret.toList.length := by
  simp only [inCredential, List.any_eq_true, Bool.and_eq_true, List.isPrefixOf_iff_prefix,
    decide_eq_true_eq, List.mem_range, OccursAt]
  constructor
  · rintro ⟨secret, listed, start, low, there, high⟩
    exact ⟨secret, listed, start, there, Nat.lt_succ_iff.mp low, high⟩
  · rintro ⟨secret, listed, start, there, low, high⟩
    exact ⟨secret, listed, start, Nat.lt_succ_iff.mpr low, there, high⟩

theorem inFound_iff : inFound value credentials place = true ↔
    ∃ secret ∈ credentials, secret.isEmpty = false ∧ ∃ start ∈ matchIndices secret.toList 0 0 value,
      start ≤ place ∧ place < start + secret.toList.length := by
  simp only [inFound, List.any_eq_true, Bool.and_eq_true, Bool.not_eq_true', decide_eq_true_eq]

theorem filled_of_isEmpty {secret : String} (h : secret.isEmpty = false) : secret.toList ≠ [] := by
  intro empty
  rw [String.toList_eq_nil_iff] at empty
  rw [empty] at h
  cases h

theorem isEmpty_of_inside {secret : String} {start : Nat} (low : start ≤ place)
    (high : place < start + secret.toList.length) : secret.isEmpty = false := by
  rw [Bool.eq_false_iff]
  intro empty
  rw [String.isEmpty_iff.mp empty] at high
  have none : "".toList.length = 0 := rfl
  omega

theorem mem_credentialRanges {r : Nat × Nat} : r ∈ credentialRanges value credentials ↔
    ∃ secret ∈ credentials, secret.isEmpty = false ∧ ∃ start ∈ matchIndices secret.toList 0 0 value,
      r = (start, start + secret.toList.length) := by
  unfold credentialRanges
  rw [List.mem_mergeSort, List.mem_flatMap]
  simp only [List.mem_filter, Bool.not_eq_true', List.mem_map]
  constructor
  · rintro ⟨secret, ⟨listed, filled⟩, start, found, rfl⟩
    exact ⟨secret, listed, filled, start, found, rfl⟩
  · rintro ⟨secret, listed, filled, start, found, rfl⟩
    exact ⟨secret, ⟨listed, filled⟩, start, found, rfl⟩

theorem credentialRanges_covers : Covers (credentialRanges value credentials) place ↔
    inFound value credentials place = true := by
  rw [inFound_iff]
  constructor
  · rintro ⟨r, listed, low, high⟩
    obtain ⟨secret, member, filled, start, found, rfl⟩ := mem_credentialRanges.mp listed
    exact ⟨secret, member, filled, start, found, low, high⟩
  · rintro ⟨secret, member, filled, start, found, low, high⟩
    exact ⟨_, mem_credentialRanges.mpr ⟨secret, member, filled, start, found, rfl⟩, low, high⟩

theorem occursAt_within {needle : List Char} {start : Nat} (filled : needle ≠ [])
    (h : OccursAt needle value start) : start + needle.length ≤ value.length := by
  have bounded := h.length_le
  have positive := List.length_pos_iff.mpr filled
  rw [List.length_drop] at bounded
  omega

/-- What the redaction leaves, whatever the credentials are, is the value without the found places. -/
theorem cutRanges_found : cutRanges redactedMarker.toList value 0
      (merge (credentialRanges value credentials)) =
    maskRuns redactedMarker.toList (inFound value credentials) 0 value := by
  have filled : ∀ r ∈ credentialRanges value credentials, r.1 < r.2 := by
    intro r listed
    obtain ⟨secret, -, filled, start, -, rfl⟩ := mem_credentialRanges.mp listed
    have positive := List.length_pos_iff.mpr (filled_of_isEmpty filled)
    show start < start + secret.toList.length
    omega
  have within : ∀ r ∈ credentialRanges value credentials, r.2 ≤ value.length := by
    intro r listed
    obtain ⟨secret, -, filled, start, found, rfl⟩ := mem_credentialRanges.mp listed
    obtain ⟨offset, rfl, there⟩ := matchIndices_occurs found
    have bounded := occursAt_within (filled_of_isEmpty filled) there
    show 0 + offset + secret.toList.length ≤ value.length
    omega
  have sorted : (credentialRanges value credentials).Pairwise fun a b => a.1 ≤ b.1 := by
    have keys : (credentialRanges value credentials).Pairwise fun a b => toLex a ≤ toLex b :=
      KeyedSort.mergeSort_sorted _
    refine keys.imp fun {a b} ordered => ?_
    rcases Prod.Lex.toLex_le_toLex.mp ordered with before | ⟨same, -⟩
    · exact before.le
    · exact same.le
  obtain ⟨wide, apart, covered⟩ := merge_spec filled sorted
  have masked : cutRanges redactedMarker.toList value 0 (merge (credentialRanges value credentials)) =
      maskRuns redactedMarker.toList (inFound value credentials) 0 (value.drop 0) :=
    cutRanges_eq_maskRuns wide apart (mem_merge_le filled sorted within) (.inl rfl) fun i _ =>
      ((covered i).trans credentialRanges_covers).symm
  rwa [List.drop_zero] at masked

theorem inCredential_of_inFound (h : inFound value credentials place = true) :
    inCredential value credentials place = true := by
  obtain ⟨secret, listed, -, start, found, low, high⟩ := inFound_iff.mp h
  obtain ⟨offset, rfl, there⟩ := matchIndices_occurs found
  rw [Nat.zero_add] at low high
  exact inCredential_iff.mpr ⟨secret, listed, offset, there, low, high⟩

/-- A run of credential characters starts with an occurrence, and the search has counted one there. -/
theorem inFound_of_start (h : inCredential value credentials place = true)
    (first : place = 0 ∨ inCredential value credentials (place - 1) = false) :
    inFound value credentials place = true := by
  obtain ⟨secret, listed, start, there, low, high⟩ := inCredential_iff.mp h
  have same : start = place := by
    by_contra apart
    rcases first with zero | free
    · omega
    · have before : inCredential value credentials (place - 1) = true :=
        inCredential_iff.mpr ⟨secret, listed, start, there, by omega, by omega⟩
      rw [free] at before
      cases before
  subst same
  have filled := isEmpty_of_inside low high
  obtain ⟨found, counted, below, above⟩ :=
    matchIndices_found (filled_of_isEmpty filled) there
  exact inFound_iff.mpr ⟨secret, listed, filled, found, counted, below, above⟩

/-- All characters of all occurrences belong to occurrences that the search counts. -/
def AllFound (value : List Char) (credentials : List String) : Prop :=
  ∀ secret ∈ credentials, ∀ start, OccursAt secret.toList value start → ∀ place, start ≤ place →
    place < start + secret.toList.length → inFound value credentials place = true

theorem redacted_iff (value : String) (credentials : List String) :
    redactConfiguredSecrets none value credentials = redactedCompletely value credentials ↔
      AllFound value.toList credentials := by
  have masks : redactConfiguredSecrets none value credentials =
      String.ofList (maskRuns redactedMarker.toList (inFound value.toList credentials) 0 value.toList) :=
    congrArg String.ofList cutRanges_found
  have agree : maskRuns redactedMarker.toList (inCredential value.toList credentials) 0 value.toList =
      maskRuns redactedMarker.toList (inFound value.toList credentials) 0 value.toList ↔ _ :=
    maskRuns_eq_iff (fun _ => inCredential_of_inFound) (fun _ => inFound_of_start) value.toList
  rw [masks, redactedCompletely, eq_comm, String.ofList_inj, agree]
  constructor
  · intro all secret listed start there place low high
    have bounded := occursAt_within (filled_of_isEmpty (isEmpty_of_inside low high)) there
    exact all place (by omega) (inCredential_iff.mpr ⟨secret, listed, start, there, low, high⟩)
  · intro all place _ inside
    obtain ⟨secret, listed, start, there, low, high⟩ := inCredential_iff.mp inside
    exact all secret listed start there place low high

/-- No end of a credential is a beginning of it. -/
def Unbordered (secret : String) : Prop :=
  ∀ k, 0 < k → k < secret.toList.length → ¬ secret.toList.drop k <+: secret.toList

/-- Credentials that cannot overlap themselves are always redacted completely. -/
theorem redaction_complete_of_unbordered {value : String} {credentials : List String}
    (free : ∀ secret ∈ credentials, Unbordered secret) :
    redactConfiguredSecrets none value credentials = redactedCompletely value credentials := by
  refine (redacted_iff value credentials).mpr ?_
  intro secret listed start there place low high
  have filled := isEmpty_of_inside low high
  obtain ⟨found, counted, below, above⟩ :=
    matchIndices_found (filled_of_isEmpty filled) there
  obtain ⟨offset, rfl, here⟩ := matchIndices_occurs counted
  rw [Nat.zero_add] at below above
  have same : offset = start := by
    by_contra apart
    have inner : secret.toList.drop (start - offset) <+: value.toList.drop start := by
      have shifted := here.drop (start - offset)
      rwa [List.drop_drop, Nat.add_sub_cancel' below] at shifted
    refine free secret listed (start - offset) (by omega) (by omega) ?_
    refine List.prefix_of_prefix_length_le inner there ?_
    rw [List.length_drop]
    omega
  subst same
  rw [Nat.zero_add] at counted
  exact inFound_iff.mpr ⟨secret, listed, filled, _, counted, low, high⟩

end Complete

end AutoHarness
