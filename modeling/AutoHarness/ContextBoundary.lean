import AutoHarness.ContextRender
import Mathlib.Data.String.Basic

namespace AutoHarness

section Escaping

/-- The characters that open, close or escape a tag. -/
def isBoundary (character : Char) : Bool := character = '<' || character = '>' || character = '&'

theorem digitChar_plain : ∀ digit < 16, isBoundary digit.digitChar = false := by
  decide

theorem hexWord_plain (code : Nat) : ∀ c ∈ JsonString.hexWord code, isBoundary c = false := by
  intro c mem
  have hdigit (n : Nat) : isBoundary (n % 16).digitChar = false :=
    digitChar_plain _ (Nat.mod_lt _ (by decide))
  simp only [JsonString.hexWord, List.mem_cons, List.not_mem_nil, or_false] at mem
  rcases mem with rfl | rfl | rfl | rfl | rfl | rfl
  · decide
  · decide
  · exact hdigit _
  · exact hdigit _
  · exact hdigit _
  · exact hdigit _

/-- Escaping leaves the character alone or writes none of the boundary characters. -/
theorem escape_plain (character : Char) :
    JsonString.escape character = [character] ∨
      (isBoundary character = false ∧ ∀ c ∈ JsonString.escape character, isBoundary c = false) := by
  have control (code : Nat) (h : character.toNat = code) (low : code < 32) :
      isBoundary character = false := by
    have small : character.toNat < 32 := h ▸ low
    have hne (other : Char) (big : 32 ≤ other.toNat) : character ≠ other := by
      rintro rfl
      omega
    simp [isBoundary, hne '<' (by decide), hne '>' (by decide), hne '&' (by decide)]
  unfold JsonString.escape
  split
  · rename_i h
    exact .inr ⟨h ▸ rfl, forall_mem_of_all (by decide)⟩
  split
  · rename_i h
    exact .inr ⟨h ▸ rfl, forall_mem_of_all (by decide)⟩
  split
  · exact .inr ⟨control _ ‹_› (by decide), forall_mem_of_all (by decide)⟩
  split
  · exact .inr ⟨control _ ‹_› (by decide), forall_mem_of_all (by decide)⟩
  split
  · exact .inr ⟨control _ ‹_› (by decide), forall_mem_of_all (by decide)⟩
  split
  · exact .inr ⟨control _ ‹_› (by decide), forall_mem_of_all (by decide)⟩
  split
  · exact .inr ⟨control _ ‹_› (by decide), forall_mem_of_all (by decide)⟩
  split
  · exact .inr ⟨control _ rfl ‹_›, hexWord_plain _⟩
  · exact .inl rfl

theorem boundarySafe_plain (character : Char) :
    ∀ c ∈ boundarySafe character, isBoundary c = false := by
  intro c mem
  unfold boundarySafe at mem
  split at mem
  · exact hexWord_plain _ c mem
  · rename_i h
    rcases escape_plain character with same | ⟨-, plain⟩
    · rw [same, List.mem_singleton] at mem
      simp only [not_or] at h
      simp [mem, isBoundary, h]
    · exact plain c mem

/-- `replaceChar` on the list of characters. -/
def replaceIn (old : Char) (new : List Char) (text : List Char) : List Char :=
  text.flatMap fun c => if c = old then new else [c]

theorem replaceIn_absent {old : Char} {new text : List Char} (h : old ∉ text) :
    replaceIn old new text = text := by
  induction text with
  | nil => rfl
  | cons c text ih =>
    obtain ⟨hc, ht⟩ := not_or.mp (mt List.mem_cons.mpr h)
    rw [replaceIn, List.flatMap_cons, if_neg (Ne.symm hc), ← replaceIn, ih ht]
    rfl

/-- The three replacements one after the other. -/
def replaceBoundaries (text : List Char) : List Char :=
  replaceIn '&' (JsonString.hexWord 0x26)
    (replaceIn '>' (JsonString.hexWord 0x3e) (replaceIn '<' (JsonString.hexWord 0x3c) text))

theorem replaceBoundaries_append (x y : List Char) :
    replaceBoundaries (x ++ y) = replaceBoundaries x ++ replaceBoundaries y := by
  simp [replaceBoundaries, replaceIn]

theorem replaceBoundaries_plain {text : List Char} (h : ∀ c ∈ text, isBoundary c = false) :
    replaceBoundaries text = text := by
  have absent (old : Char) (bad : isBoundary old = true) : old ∉ text := by
    intro mem
    rw [h old mem] at bad
    cases bad
  rw [replaceBoundaries, replaceIn_absent (absent '<' rfl), replaceIn_absent (absent '>' rfl),
    replaceIn_absent (absent '&' rfl)]

theorem replaceBoundaries_escape (character : Char) :
    replaceBoundaries (JsonString.escape character) = boundarySafe character := by
  unfold boundarySafe
  split
  · rename_i h
    rcases h with rfl | rfl | rfl <;> decide
  · rename_i h
    refine replaceBoundaries_plain ?_
    simp only [not_or] at h
    rcases escape_plain character with same | ⟨-, plain⟩
    · simp [same, isBoundary, h]
    · exact plain

theorem replaceBoundaries_flatMap (text : List Char) :
    replaceBoundaries (text.flatMap JsonString.escape) = text.flatMap boundarySafe := by
  induction text with
  | nil => rfl
  | cons c text ih =>
    rw [List.flatMap_cons, List.flatMap_cons, replaceBoundaries_append, replaceBoundaries_escape, ih]

theorem toList_replaceChar (old : Char) (new text : String) :
    (replaceChar old new text).toList = replaceIn old new.toList text.toList := by
  simp [replaceChar, replaceIn]

/-- The escaped string, character by character. -/
theorem toList_boundarySafeJsonString (value : String) :
    (boundarySafeJsonString value).toList = '"' :: (value.toList.flatMap boundarySafe ++ ['"']) := by
  have hlt : "\\u003c".toList = JsonString.hexWord 0x3c := by decide
  have hgt : "\\u003e".toList = JsonString.hexWord 0x3e := by decide
  have hamp : "\\u0026".toList = JsonString.hexWord 0x26 := by decide
  rw [boundarySafeJsonString, toList_replaceChar, toList_replaceChar, toList_replaceChar, hlt, hgt,
    hamp, ← replaceBoundaries, jsonString, String.toList_ofList, ← List.singleton_append,
    replaceBoundaries_append, replaceBoundaries_append, replaceBoundaries_flatMap,
    replaceBoundaries_plain (forall_mem_of_all (by decide) : ∀ c ∈ ['"'], isBoundary c = false)]
  rfl

end Escaping

section Size

open String (utf8Len)

theorem utf8Len_flatMap_le {k : Nat} {code : Char → List Char}
    (h : ∀ c, utf8Len (code c) ≤ k * c.utf8Size) (text : List Char) :
    utf8Len (text.flatMap code) ≤ k * utf8Len text := by
  induction text with
  | nil => simp
  | cons c text ih =>
    rw [List.flatMap_cons, String.utf8Len_append, String.utf8Len_cons, Nat.mul_add]
    have := h c
    omega

theorem digitChar_size : ∀ digit < 16, (Nat.digitChar digit).utf8Size = 1 := by
  decide

theorem utf8Len_hexWord (code : Nat) : utf8Len (JsonString.hexWord code) = 6 := by
  have hdigit (n : Nat) : (n % 16).digitChar.utf8Size = 1 := digitChar_size _ (Nat.mod_lt _ (by decide))
  have hslash : ('\\').utf8Size = 1 := by decide
  have hu : ('u').utf8Size = 1 := by decide
  simp only [JsonString.hexWord, String.utf8Len_cons, String.utf8Len_nil, hdigit, hslash, hu]

theorem utf8Len_boundarySafe (character : Char) :
    utf8Len (boundarySafe character) ≤ 6 * character.utf8Size := by
  have hpos : 0 < character.utf8Size := Char.utf8Size_pos character
  have hword : utf8Len (JsonString.hexWord character.toNat) = 6 := utf8Len_hexWord _
  have hself : utf8Len [character] = character.utf8Size := by simp
  have hpair (letter : Char) (small : letter.utf8Size = 1) : utf8Len ['\\', letter] = 2 := by
    simp only [String.utf8Len_cons, String.utf8Len_nil, small]
    decide
  unfold boundarySafe JsonString.escape
  repeat' split
  · omega
  · rw [hpair '"' (by decide)]
    omega
  · rw [hpair '\\' (by decide)]
    omega
  · rw [hpair 'b' (by decide)]
    omega
  · rw [hpair 't' (by decide)]
    omega
  · rw [hpair 'n' (by decide)]
    omega
  · rw [hpair 'f' (by decide)]
    omega
  · rw [hpair 'r' (by decide)]
    omega
  · omega
  · omega

/-- Each byte of the value costs at most six, and the quotes two. -/
theorem boundarySafeJsonString_size (value : String) :
    (boundarySafeJsonString value).utf8ByteSize ≤ 6 * value.utf8ByteSize + 2 := by
  have hlist (text : String) : text.utf8ByteSize = utf8Len text.toList := by
    rw [← String.utf8ByteSize_ofList, String.ofList_toList]
  have hquote : ('"').utf8Size = 1 := by decide
  have hbody := utf8Len_flatMap_le utf8Len_boundarySafe value.toList
  rw [hlist, hlist value, toList_boundarySafeJsonString, String.utf8Len_cons, String.utf8Len_append,
    String.utf8Len_cons, String.utf8Len_nil, hquote]
  omega

end Size

end AutoHarness
