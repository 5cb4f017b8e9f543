import AutoHarness.Tool
import AutoHarness.StreamSearch
import Mathlib.Data.List.Flatten
import Mathlib.Data.List.Perm.Subperm
import Mathlib.Logic.Function.Basic

namespace AutoHarness

open StreamSearch (windows Occurs answers)

section Bytes

def isAsciiByte (byte : UInt8) : Bool :=
  byte < 128

/-- What the accumulator keeps of a text. -/
def asciiBytes (text : String) : List UInt8 :=
  (utf8Bytes text).filter isAsciiByte

/-- The forms that the accumulator searches for: the empty and the non-ASCII ones are passed over. -/
def protectedForms (secrets : List String) : List (List UInt8) :=
  (secrets.map utf8Bytes).filter fun secret => !secret.isEmpty && secret.all isAsciiByte

end Bytes

section Ordered

/-- Observation of provider-authored strings across one turn. -/
structure SecretAccumulator where
  asciiTail : List UInt8
deriving DecidableEq

def SecretAccumulator.new : SecretAccumulator := ⟨[]⟩

def containsSecret (combined : List UInt8) (secrets : List String) : Bool :=
  secrets.any fun secret =>
    !(utf8Bytes secret).isEmpty && (utf8Bytes secret).all isAsciiByte &&
      (windows (utf8Bytes secret).length combined).any (· == utf8Bytes secret)

def retainedBytes (secrets : List String) : Nat :=
  (secrets.map fun secret => (utf8Bytes secret).length - 1).foldr max 0

namespace SecretAccumulator

def observeAsciiSequence (secrets : List String) (accumulator : SecretAccumulator)
    (bytes : List UInt8) : Bool × SecretAccumulator :=
  let combined := accumulator.asciiTail ++ bytes.filter isAsciiByte
  let retained := min (retainedBytes secrets) combined.length
  (containsSecret combined secrets, ⟨combined.drop (combined.length - retained)⟩)

def observeText (secrets : List String) (accumulator : SecretAccumulator) (value : String) :
    Bool × SecretAccumulator :=
  accumulator.observeAsciiSequence secrets (utf8Bytes value)

/-- What the texts of a turn are answered, one after the other. -/
def observeTexts (secrets : List String) (accumulator : SecretAccumulator) : List String → List Bool
  | [] => []
  | text :: texts =>
    let (contains, accumulator') := accumulator.observeText secrets text
    contains :: observeTexts secrets accumulator' texts

mutual

def observeStructuredSequence (secrets : List String) (accumulator : SecretAccumulator) :
    JsonValue → Bool × SecretAccumulator
  | .string value => accumulator.observeText secrets value
  | .array values => observeItems secrets accumulator values
  | .object fields => observeFields secrets accumulator fields
  | .null | .bool _ | .number _ => (false, accumulator)

def observeItems (secrets : List String) (accumulator : SecretAccumulator) :
    List JsonValue → Bool × SecretAccumulator
  | [] => (false, accumulator)
  | value :: values =>
    match observeStructuredSequence secrets accumulator value with
    | (true, accumulator') => (true, accumulator')
    | (false, accumulator') => observeItems secrets accumulator' values

def observeFields (secrets : List String) (accumulator : SecretAccumulator) :
    List (String × JsonValue) → Bool × SecretAccumulator
  | [] => (false, accumulator)
  | (_, value) :: fields =>
    match observeStructuredSequence secrets accumulator value with
    | (true, accumulator') => (true, accumulator')
    | (false, accumulator') => observeFields secrets accumulator' fields

end

end SecretAccumulator

end Ordered

section Unordered

/-- The greatest `usize`, where a count stays. -/
def maxByteCount : Nat := 18446744073709551615

def countByte (counts : UInt8 → Nat) (byte : UInt8) : UInt8 → Nat :=
  Function.update counts byte (min (counts byte + 1) maxByteCount)

def collectAsciiBytes (counts : UInt8 → Nat) (text : String) : UInt8 → Nat :=
  (asciiBytes text).foldl countByte counts

mutual

def collectAsciiStringBytes (counts : UInt8 → Nat) : JsonValue → UInt8 → Nat
  | .string value => collectAsciiBytes counts value
  | .array values => collectItemBytes counts values
  | .object fields => collectFieldBytes counts fields
  | .null | .bool _ | .number _ => counts

def collectItemBytes (counts : UInt8 → Nat) : List JsonValue → UInt8 → Nat
  | [] => counts
  | value :: values => collectItemBytes (collectAsciiStringBytes counts value) values

def collectFieldBytes (counts : UInt8 → Nat) : List (String × JsonValue) → UInt8 → Nat
  | [] => counts
  | (key, value) :: fields =>
    collectFieldBytes (collectAsciiStringBytes (collectAsciiBytes counts key) value) fields

end

/-- Each byte of the secret takes one of the available ones. -/
def takeBytes (available : UInt8 → Nat) : (required : UInt8 → Nat) → List UInt8 → Bool
  | _, [] => true
  | required, byte :: secret =>
    if countByte required byte byte > available byte then false
    else takeBytes available (countByte required byte) secret

def byteMultisetContains (available : UInt8 → Nat) (secret : List UInt8) : Bool :=
  if secret.isEmpty || !secret.all isAsciiByte then false else takeBytes available (fun _ => 0) secret

/-- Whether string keys and leaves could reconstruct any complete secret form. -/
def structuredValueMayContainSecret (value : JsonValue) (secrets : List String) : Bool :=
  secrets.any fun secret =>
    byteMultisetContains (collectAsciiStringBytes (fun _ => 0) value) (utf8Bytes secret)

def SecretAccumulator.observeStructured (secrets : List String) (accumulator : SecretAccumulator)
    (value : JsonValue) : Bool × SecretAccumulator :=
  if structuredValueMayContainSecret value secrets then (true, accumulator)
  else accumulator.observeStructuredSequence secrets value

end Unordered

section Pieces

mutual

/-- The string keys and leaves of a value. -/
def JsonValue.pieces : JsonValue → List String
  | .string value => [value]
  | .array values => itemPieces values
  | .object fields => fieldPieces fields
  | .null | .bool _ | .number _ => []

def itemPieces : List JsonValue → List String
  | [] => []
  | value :: values => value.pieces ++ itemPieces values

def fieldPieces : List (String × JsonValue) → List String
  | [] => []
  | (key, value) :: fields => key :: value.pieces ++ fieldPieces fields

end

end Pieces

section Search

variable {secrets : List String}

theorem mem_protectedForms {form : List UInt8} :
    form ∈ protectedForms secrets ↔ ∃ secret ∈ secrets, utf8Bytes secret = form ∧
      form ≠ [] ∧ form.all isAsciiByte = true := by
  simp only [protectedForms, List.mem_filter, List.mem_map, Bool.and_eq_true, Bool.not_eq_true',
    List.isEmpty_eq_false_iff]
  constructor
  · rintro ⟨⟨secret, hm, he⟩, hne, ha⟩
    exact ⟨secret, hm, he, hne, ha⟩
  · rintro ⟨secret, hm, he, hne, ha⟩
    exact ⟨⟨secret, hm, he⟩, hne, ha⟩

theorem containsSecret_iff {combined : List UInt8} :
    containsSecret combined secrets = true ↔ Occurs (protectedForms secrets) combined := by
  simp only [containsSecret, List.any_eq_true, Bool.and_eq_true, Bool.not_eq_true',
    List.isEmpty_eq_false_iff, Occurs, mem_protectedForms, beq_iff_eq]
  constructor
  · rintro ⟨secret, hm, ⟨hne, ha⟩, window, hw, rfl⟩
    exact ⟨_, ⟨secret, hm, rfl, hne, ha⟩, hne, StreamSearch.mem_windows_iff.mp hw⟩
  · rintro ⟨_, ⟨secret, hm, rfl, -, ha⟩, hne, hi⟩
    exact ⟨secret, hm, ⟨hne, ha⟩, _, StreamSearch.mem_windows_iff.mpr hi, rfl⟩

theorem length_le_retainedBytes {secret : String} (hm : secret ∈ secrets) :
    (utf8Bytes secret).length ≤ retainedBytes secrets + 1 := by
  induction secrets with
  | nil => cases hm
  | cons first rest ih =>
    simp only [retainedBytes, List.map_cons, List.foldr_cons]
    rcases List.mem_cons.mp hm with rfl | hr
    · omega
    · have hrest := ih hr
      simp only [retainedBytes] at hrest
      omega

theorem length_protectedForm_le : ∀ form ∈ protectedForms secrets,
    form.length ≤ retainedBytes secrets + 1 := by
  intro form hf
  obtain ⟨secret, hm, rfl, -, -⟩ := mem_protectedForms.mp hf
  exact length_le_retainedBytes hm

theorem observeText_eq (accumulator : SecretAccumulator) (text : String) :
    accumulator.observeText secrets text =
      (containsSecret (accumulator.asciiTail ++ asciiBytes text) secrets,
        ⟨(accumulator.asciiTail ++ asciiBytes text).rtake (retainedBytes secrets)⟩) := by
  have hdrop (n : Nat) (xs : List UInt8) : xs.drop (xs.length - min n xs.length) = xs.rtake n := by
    have hk : xs.length - min n xs.length = xs.length - n := by omega
    rw [hk]
    rfl
  simp only [SecretAccumulator.observeText, SecretAccumulator.observeAsciiSequence, hdrop]
  rfl

/-- The accumulator is the search that keeps a tail one byte short of the longest secret. -/
theorem observeTexts_eq (accumulator : SecretAccumulator) (texts : List String) :
    accumulator.observeTexts secrets texts =
      answers (containsSecret · secrets) (retainedBytes secrets) accumulator.asciiTail
        (texts.map asciiBytes) := by
  induction texts generalizing accumulator with
  | nil => rfl
  | cons text texts ih =>
    simp only [SecretAccumulator.observeTexts, observeText_eq, List.map_cons, answers, ih]

end Search

section Counting

theorem countByte_apply (counts : UInt8 → Nat) (byte b : UInt8) :
    countByte counts byte b = if b = byte then min (counts byte + 1) maxByteCount else counts b := by
  simp only [countByte, Function.update_apply]

theorem foldl_countByte (bytes : List UInt8) (counts : UInt8 → Nat) (b : UInt8)
    (bounded : counts b ≤ maxByteCount) :
    bytes.foldl countByte counts b = min (counts b + bytes.count b) maxByteCount := by
  induction bytes generalizing counts with
  | nil =>
    simp only [List.foldl_nil, List.count_nil]
    omega
  | cons byte bytes ih =>
    rw [List.foldl_cons]
    by_cases he : b = byte
    · subst he
      have hc : countByte counts b b = min (counts b + 1) maxByteCount := by
        rw [countByte_apply, if_pos rfl]
      rw [ih _ (by omega), hc, List.count_cons_self]
      omega
    · have hc : countByte counts byte b = counts b := by
        rw [countByte_apply, if_neg he]
      rw [ih _ (by omega), hc, List.count_cons_of_ne (Ne.symm he)]

theorem collectAsciiBytes_apply (text : String) (counts : UInt8 → Nat) (b : UInt8)
    (bounded : counts b ≤ maxByteCount) :
    collectAsciiBytes counts text b = min (counts b + (asciiBytes text).count b) maxByteCount :=
  foldl_countByte (asciiBytes text) counts b bounded

mutual

/-- What is collected counts the bytes of every key and leaf. -/
theorem collectAsciiStringBytes_apply : ∀ (value : JsonValue) (counts : UInt8 → Nat) (b : UInt8),
    counts b ≤ maxByteCount → collectAsciiStringBytes counts value b =
      min (counts b + (value.pieces.flatMap asciiBytes).count b) maxByteCount
  | .null, counts, b, bounded | .bool _, counts, b, bounded | .number _, counts, b, bounded => by
    simp only [collectAsciiStringBytes, JsonValue.pieces, List.flatMap_nil, List.count_nil]
    omega
  | .string text, counts, b, bounded => by
    simp only [collectAsciiStringBytes, JsonValue.pieces, List.flatMap_cons, List.flatMap_nil,
      List.append_nil]
    exact collectAsciiBytes_apply text counts b bounded
  | .array values, counts, b, bounded => by
    simp only [collectAsciiStringBytes, JsonValue.pieces]
    exact collectItemBytes_apply values counts b bounded
  | .object fields, counts, b, bounded => by
    simp only [collectAsciiStringBytes, JsonValue.pieces]
    exact collectFieldBytes_apply fields counts b bounded

theorem collectItemBytes_apply : ∀ (values : List JsonValue) (counts : UInt8 → Nat) (b : UInt8),
    counts b ≤ maxByteCount → collectItemBytes counts values b =
      min (counts b + ((itemPieces values).flatMap asciiBytes).count b) maxByteCount
  | [], counts, b, bounded => by
    simp only [collectItemBytes, itemPieces, List.flatMap_nil, List.count_nil]
    omega
  | value :: values, counts, b, bounded => by
    have first := collectAsciiStringBytes_apply value counts b bounded
    have rest := collectItemBytes_apply values (collectAsciiStringBytes counts value) b (by omega)
    simp only [collectItemBytes, itemPieces, List.flatMap_append, List.count_append]
    omega

theorem collectFieldBytes_apply : ∀ (fields : List (String × JsonValue)) (counts : UInt8 → Nat)
    (b : UInt8), counts b ≤ maxByteCount → collectFieldBytes counts fields b =
      min (counts b + ((fieldPieces fields).flatMap asciiBytes).count b) maxByteCount
  | [], counts, b, bounded => by
    simp only [collectFieldBytes, fieldPieces, List.flatMap_nil, List.count_nil]
    omega
  | (key, value) :: fields, counts, b, bounded => by
    have name := collectAsciiBytes_apply key counts b bounded
    have first := collectAsciiStringBytes_apply value (collectAsciiBytes counts key) b (by omega)
    have rest := collectFieldBytes_apply fields
      (collectAsciiStringBytes (collectAsciiBytes counts key) value) b (by omega)
    simp only [collectFieldBytes, fieldPieces, List.cons_append, List.flatMap_cons,
      List.flatMap_append, List.count_append]
    omega

end

/-- The counts, saturated on both sides, never fall short where the true ones do not. -/
theorem takeBytes_of_count_le {available total required : UInt8 → Nat} (used : UInt8 → Nat)
    (havailable : ∀ b, available b = min (total b) maxByteCount)
    (hrequired : ∀ b, required b = min (used b) maxByteCount) {secret : List UInt8}
    (hle : ∀ b, used b + secret.count b ≤ total b) : takeBytes available required secret = true := by
  induction secret generalizing used required with
  | nil => rfl
  | cons byte secret ih =>
    have hstep (b : UInt8) : countByte required byte b =
        min (Function.update used byte (used byte + 1) b) maxByteCount := by
      rw [countByte_apply, Function.update_apply]
      have h := hrequired b
      split
      next he =>
        subst he
        omega
      next => exact h
    have hnext (b : UInt8) :
        Function.update used byte (used byte + 1) b + secret.count b ≤ total b := by
      have h := hle b
      rw [Function.update_apply]
      split
      next he =>
        subst he
        rw [List.count_cons_self] at h
        omega
      next he =>
        rw [List.count_cons_of_ne (Ne.symm he)] at h
        exact h
    have hroom : ¬ countByte required byte byte > available byte := by
      have h := hnext byte
      rw [Function.update_self] at h
      rw [hstep, Function.update_self, havailable]
      omega
    rw [takeBytes, if_neg hroom]
    exact ih _ hstep hnext

end Counting

section Exact

variable {secrets : List String}

/-- Whatever the order of the pieces, a secret that they spell is reported. -/
theorem structuredValueMayContainSecret_of_spelled {value : JsonValue} {ordering : List String}
    (order : List.Subperm ordering value.pieces)
    (spelled : Occurs (protectedForms secrets) (ordering.flatMap asciiBytes)) :
    structuredValueMayContainSecret value secrets = true := by
  obtain ⟨_, hf, hne, hi⟩ := spelled
  obtain ⟨secret, hm, rfl, -, ascii⟩ := mem_protectedForms.mp hf
  have hcount (b : UInt8) :
      (utf8Bytes secret).count b ≤ (value.pieces.flatMap asciiBytes).count b := by
    have hsub : List.Subperm (ordering.flatMap asciiBytes) (value.pieces.flatMap asciiBytes) := by
      obtain ⟨kept, perm, sub⟩ := order
      exact ⟨kept.flatMap asciiBytes, perm.flatMap_right asciiBytes, sub.flatMap asciiBytes⟩
    exact (hi.sublist.count_le b).trans (hsub.count_le b)
  have havailable (b : UInt8) : collectAsciiStringBytes (fun _ => 0) value b =
      min ((value.pieces.flatMap asciiBytes).count b) maxByteCount := by
    rw [collectAsciiStringBytes_apply value _ b (Nat.zero_le _), Nat.zero_add]
  refine List.any_eq_true.mpr ⟨secret, hm, ?_⟩
  have hkept : ¬ ((utf8Bytes secret).isEmpty || !(utf8Bytes secret).all isAsciiByte) = true := by
    simp [ascii, hne]
  rw [byteMultisetContains, if_neg hkept]
  refine takeBytes_of_count_le (fun _ => 0) havailable (fun _ => rfl) fun b => ?_
  have h := hcount b
  omega

/-- The ordered search is exact for the non-empty ASCII secrets, and the unordered check misses
none of them. -/
theorem secret_accumulator_exact (secrets texts : List String) :
    (SecretAccumulator.new.observeTexts secrets texts).length = texts.length ∧
    (true ∈ SecretAccumulator.new.observeTexts secrets texts ↔
      Occurs (protectedForms secrets) (texts.flatMap asciiBytes)) ∧
    (∀ k, ((SecretAccumulator.new.observeTexts secrets texts)[k]? = some true ∧
        ∀ j < k, (SecretAccumulator.new.observeTexts secrets texts)[j]? = some false) ↔
      k < texts.length ∧
        Occurs (protectedForms secrets) ((texts.take (k + 1)).flatMap asciiBytes) ∧
        ¬ Occurs (protectedForms secrets) ((texts.take k).flatMap asciiBytes)) ∧
    ∀ (accumulator : SecretAccumulator) (value : JsonValue) (ordering : List String),
      List.Subperm ordering value.pieces →
      Occurs (protectedForms secrets) (ordering.flatMap asciiBytes) →
      (accumulator.observeStructured secrets value).1 = true := by
  have hn : ∀ form ∈ protectedForms secrets, form.length ≤ retainedBytes secrets + 1 :=
    length_protectedForm_le
  have hc (text : List UInt8) : containsSecret text secrets = true ↔
      Occurs (protectedForms secrets) text := containsSecret_iff
  have hrun : SecretAccumulator.new.observeTexts secrets texts =
      answers (containsSecret · secrets) (retainedBytes secrets) [] (texts.map asciiBytes) :=
    observeTexts_eq .new texts
  rw [hrun]
  refine ⟨by simp, ?_, fun k => ?_, fun accumulator value ordering order spelled => ?_⟩
  · have h := StreamSearch.mem_answers_iff hn hc [] (texts.map asciiBytes)
    simpa [StreamSearch.not_occurs_nil, List.flatMap_def] using h
  · have h := StreamSearch.first_answer_iff hn hc (texts.map asciiBytes) k
    rw [h, List.length_map, ← List.map_take, ← List.map_take, List.flatMap_def, List.flatMap_def]
  · have reported := structuredValueMayContainSecret_of_spelled order spelled
    rw [SecretAccumulator.observeStructured, if_pos reported]

/-- A secret with a character outside ASCII is passed over, in one piece and filtered alike. -/
theorem non_ascii_secret_unseen :
    (¬ ∀ (secrets : List String) (value : JsonValue) (ordering : List String),
      List.Subperm ordering value.pieces →
      (∃ secret ∈ secrets, secret ≠ "" ∧ utf8Bytes secret <:+: ordering.flatMap utf8Bytes) →
      (SecretAccumulator.new.observeStructured secrets value).1 = true) ∧
    ¬ ∀ secrets texts : List String, true ∈ SecretAccumulator.new.observeTexts secrets texts ↔
      ∃ secret ∈ secrets, asciiBytes secret ≠ [] ∧
        asciiBytes secret <:+: texts.flatMap asciiBytes := by
  constructor
  · intro h
    have reported := h ["clé"] (.string "clé") ["clé"] (List.Subperm.refl _)
      ⟨"clé", List.mem_singleton_self _, by decide, by decide +kernel⟩
    revert reported
    decide +kernel
  · intro h
    have reported := (h ["clé"] ["cl"]).mpr
      ⟨"clé", List.mem_singleton_self _, by decide +kernel, by decide +kernel⟩
    revert reported
    decide +kernel

theorem secret_accumulator_exact_split :
    (SecretAccumulator.new.observeTexts ["first-halfsecond-half"] ["first-half", "second-half"])[1]? =
        some true ∧
      (SecretAccumulator.new.observeStructured ["first-halfsecond-half"]
        (.object [("arguments", .array [.string "noise", .string "first-half"]),
          ("path", .string "second-half")])).1 = true := by
  have exact := secret_accumulator_exact ["first-halfsecond-half"] ["first-half", "second-half"]
  have word : utf8Bytes "first-halfsecond-half" ∈ protectedForms ["first-halfsecond-half"] := by
    decide +kernel
  refine ⟨((exact.2.2.1 1).mpr ⟨by decide, ⟨_, word, by decide +kernel, by decide +kernel⟩, ?_⟩).1,
    exact.2.2.2 .new _ ["first-half", "second-half"] ?_
      ⟨_, word, by decide +kernel, by decide +kernel⟩⟩
  · rintro ⟨form, hf, -, hi⟩
    have he : form = utf8Bytes "first-halfsecond-half" := by
      obtain ⟨secret, hm, rfl, -⟩ := mem_protectedForms.mp hf
      rw [List.mem_singleton.mp hm]
    have hl := (he ▸ hi).length_le
    revert hl
    decide +kernel
  · decide +kernel

end Exact

end AutoHarness
