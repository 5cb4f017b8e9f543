import AutoHarness.FallibleRun
import AutoHarness.Value
import AutoHarness.TitleWords
import AutoHarness.ToolCapture
import Mathlib.Tactic.SplitIfs

namespace AutoHarness

section Parts

/-- The bytes of the first character or of the maximal ill-formed part, and which it is. -/
def firstPart : List UInt8 → Nat × Bool
  | [] => (0, true)
  | lead :: rest =>
    if lead < 0x80 then (1, true)
    else
      match leadShape lead, rest with
      | none, _ => (1, false)
      | some _, [] => (1, false)
      | some (width, low, high), second :: rest₁ =>
        if second < low || high < second then (1, false)
        else if width = 2 then (2, true)
        else
          match rest₁ with
          | [] => (2, false)
          | third :: rest₂ =>
            if !isContinuation third then (2, false)
            else if width = 3 then (3, true)
            else
              match rest₂ with
              | [] => (3, false)
              | fourth :: _ => if !isContinuation fourth then (3, false) else (4, true)

/-- The lead byte and the range of the byte after it, by the width of the character. -/
theorem leadShape_cases {lead : UInt8} {width : Nat} {low high : UInt8}
    (h : leadShape lead = some (width, low, high)) :
    (width = 2 ∧ 0xC2 ≤ lead.toNat ∧ lead.toNat ≤ 0xDF ∧ low.toNat = 0x80 ∧ high.toNat = 0xBF) ∨
    (width = 3 ∧ lead.toNat = 0xE0 ∧ low.toNat = 0xA0 ∧ high.toNat = 0xBF) ∨
    (width = 3 ∧ lead.toNat = 0xED ∧ low.toNat = 0x80 ∧ high.toNat = 0x9F) ∨
    (width = 3 ∧ 0xE1 ≤ lead.toNat ∧ lead.toNat ≤ 0xEF ∧ lead.toNat ≠ 0xED ∧ low.toNat = 0x80 ∧
      high.toNat = 0xBF) ∨
    (width = 4 ∧ lead.toNat = 0xF0 ∧ low.toNat = 0x90 ∧ high.toNat = 0xBF) ∨
    (width = 4 ∧ 0xF1 ≤ lead.toNat ∧ lead.toNat ≤ 0xF3 ∧ low.toNat = 0x80 ∧ high.toNat = 0xBF) ∨
    (width = 4 ∧ lead.toNat = 0xF4 ∧ low.toNat = 0x80 ∧ high.toNat = 0x8F) := by
  unfold leadShape at h
  simp only [Bool.and_eq_true, decide_eq_true_eq, UInt8.le_iff_toNat_le, beq_iff_eq] at h
  split_ifs at h with h1 h2 h3 h4 h5 h6 h7
  all_goals
    simp only [Option.some.injEq, Prod.mk.injEq] at h
    obtain ⟨rfl, rfl, rfl⟩ := h
  · exact .inl ⟨rfl, h1.1, h1.2, rfl, rfl⟩
  · exact .inr (.inl ⟨rfl, by rw [h2]; rfl, rfl, rfl⟩)
  · exact .inr (.inr (.inl ⟨rfl, by rw [h3]; rfl, rfl, rfl⟩))
  · refine .inr (.inr (.inr (.inl ⟨rfl, h4.1, h4.2, ?_, rfl, rfl⟩)))
    intro same
    exact h3 (UInt8.toNat_inj.mp same)
  · exact .inr (.inr (.inr (.inr (.inl ⟨rfl, by rw [h5]; rfl, rfl, rfl⟩))))
  · exact .inr (.inr (.inr (.inr (.inr (.inl ⟨rfl, h6.1, h6.2, rfl, rfl⟩)))))
  · exact .inr (.inr (.inr (.inr (.inr (.inr ⟨rfl, by rw [h7]; rfl, rfl, rfl⟩)))))

theorem toNat_ofNat {code : Nat} (valid : code.isValidChar) : (Char.ofNat code).val.toNat = code := by
  unfold Char.ofNat
  rw [dif_pos valid]
  rfl

theorem utf8Size_two {code : Nat} (low : 0x80 ≤ code) (high : code ≤ 0x7FF) :
    (Char.ofNat code).utf8Size = 2 := by
  have hvalid : code.isValidChar := .inl (by omega)
  rw [Char.utf8Size_eq_two_iff, UInt32.lt_iff_toNat_lt, UInt32.le_iff_toNat_le, toNat_ofNat hvalid]
  exact ⟨Nat.lt_of_succ_le low, high⟩

theorem utf8Size_three {code : Nat} (low : 0x800 ≤ code) (high : code ≤ 0xFFFF)
    (valid : code.isValidChar) : (Char.ofNat code).utf8Size = 3 := by
  rw [Char.utf8Size_eq_three_iff, UInt32.lt_iff_toNat_lt, UInt32.le_iff_toNat_le, toNat_ofNat valid]
  exact ⟨Nat.lt_of_succ_le low, high⟩

theorem utf8Size_four {code : Nat} (low : 0x10000 ≤ code) (high : code < 0x110000) :
    (Char.ofNat code).utf8Size = 4 := by
  have hvalid : code.isValidChar := .inr ⟨by omega, high⟩
  rw [Char.utf8Size_eq_four_iff, UInt32.lt_iff_toNat_lt, toNat_ofNat hvalid]
  exact Nat.lt_of_succ_le low

theorem utf8Size_one {code : Nat} (low : code < 0x80) : (Char.ofNat code).utf8Size = 1 := by
  have hvalid : code.isValidChar := .inl (by omega)
  rw [Char.utf8Size_eq_one_iff, UInt32.le_iff_toNat_le, toNat_ofNat hvalid]
  have hbound : code ≤ 127 := by omega
  simpa using hbound

end Parts

section Sizes

/-- One step of the decoding: a character in as many bytes, or the replacement of an ill-formed
part. -/
def Takes (bytes : List UInt8) (text : List Char) (part : Nat × Bool) : Prop :=
  0 < part.1 ∧ part.1 ≤ bytes.length ∧ (part.2 = false → part.1 ≤ 3) ∧
    ∃ c : Char, text = c :: fromUtf8Lossy (bytes.drop part.1) ∧
      c.utf8Size = if part.2 then part.1 else 3

theorem takes_replacement {bytes rest : List UInt8} {n : Nat} (pos : 0 < n) (le : n ≤ bytes.length)
    (small : n ≤ 3) (drops : bytes.drop n = rest) :
    Takes bytes (replacementCharacter :: fromUtf8Lossy rest) (n, false) :=
  ⟨pos, le, fun _ => small, replacementCharacter, by rw [drops], (by decide : replacementCharacter.utf8Size = 3)⟩

theorem takes_character {bytes rest : List UInt8} {code n : Nat} (pos : 0 < n) (le : n ≤ bytes.length)
    (drops : bytes.drop n = rest) (size : (Char.ofNat code).utf8Size = n) :
    Takes bytes (Char.ofNat code :: fromUtf8Lossy rest) (n, true) :=
  ⟨pos, le, nofun, Char.ofNat code, by rw [drops], size⟩

theorem isContinuation_iff {byte : UInt8} :
    isContinuation byte = true ↔ 0x80 ≤ byte.toNat ∧ byte.toNat ≤ 0xBF := by
  unfold isContinuation
  simp only [Bool.and_eq_true, decide_eq_true_eq, UInt8.le_iff_toNat_le]
  exact Iff.rfl

theorem takes_firstPart {bytes : List UInt8} (filled : bytes ≠ []) :
    Takes bytes (fromUtf8Lossy bytes) (firstPart bytes) := by
  have hempty : fromUtf8Lossy [] = [] := by rw [fromUtf8Lossy]
  have hlast : [replacementCharacter] = replacementCharacter :: fromUtf8Lossy [] := by rw [hempty]
  cases bytes with
  | nil => exact absurd rfl filled
  | cons lead rest =>
    rw [fromUtf8Lossy.eq_def (lead :: rest)]
    unfold firstPart
    by_cases hascii : lead < 0x80
    · have hlow : lead.toNat < 0x80 := hascii
      simp only [if_pos hascii]
      exact takes_character (by omega) (by simp) rfl (utf8Size_one hlow)
    simp only [if_neg hascii]
    cases hshape : leadShape lead with
    | none => exact takes_replacement (by omega) (by simp) (by omega) rfl
    | some shape =>
      obtain ⟨width, low, high⟩ := shape
      have hlead := leadShape_cases hshape
      cases rest with
      | nil =>
        simp only [hlast]
        exact takes_replacement (by omega) (by simp) (by omega) rfl
      | cons second rest₁ =>
        by_cases hrange : (second < low || high < second) = true
        · simp only [if_pos hrange]
          exact takes_replacement (by omega) (by simp) (by omega) rfl
        simp only [if_neg hrange]
        simp only [Bool.or_eq_true, decide_eq_true_eq, not_or, UInt8.not_lt,
          UInt8.le_iff_toNat_le] at hrange
        by_cases htwo : width = 2
        · simp only [if_pos htwo]
          refine takes_character (by omega) (by simp) rfl (utf8Size_two ?_ ?_)
          all_goals
            unfold continuationBits
            omega
        simp only [if_neg htwo]
        cases rest₁ with
        | nil =>
          simp only [hlast]
          exact takes_replacement (by omega) (by simp) (by omega) rfl
        | cons third rest₂ =>
          by_cases hthird : (!isContinuation third) = true
          · simp only [if_pos hthird]
            exact takes_replacement (by omega) (by simp) (by omega) rfl
          simp only [if_neg hthird]
          by_cases hthree : width = 3
          · simp only [if_pos hthree]
            rw [Bool.not_eq_true', Bool.not_eq_false, isContinuation_iff] at hthird
            refine takes_character (by omega) (by simp) rfl (utf8Size_three ?_ ?_ ?_)
            · unfold continuationBits
              omega
            · unfold continuationBits
              omega
            · unfold continuationBits Nat.isValidChar
              omega
          simp only [if_neg hthree]
          cases rest₂ with
          | nil =>
            simp only [hlast]
            exact takes_replacement (by omega) (by simp) (by omega) rfl
          | cons fourth rest₃ =>
            by_cases hfourth : (!isContinuation fourth) = true
            · simp only [if_pos hfourth]
              exact takes_replacement (by omega) (by simp) (by omega) rfl
            simp only [if_neg hfourth]
            rw [Bool.not_eq_true', Bool.not_eq_false, isContinuation_iff] at hthird hfourth
            refine takes_character (by omega) (by simp) rfl (utf8Size_four ?_ ?_)
            all_goals
              unfold continuationBits
              omega

theorem firstPart_shrinks {bytes : List UInt8} (filled : bytes ≠ []) :
    (bytes.drop (firstPart bytes).1).length < bytes.length := by
  obtain ⟨pos, le, -⟩ := takes_firstPart filled
  rw [List.length_drop]
  omega

/-- How many bytes each maximal ill-formed part has. -/
def illFormedParts (bytes : List UInt8) : List Nat :=
  if _filled : bytes ≠ [] then
    (if (firstPart bytes).2 then [] else [(firstPart bytes).1]) ++
      illFormedParts (bytes.drop (firstPart bytes).1)
  else []
termination_by bytes.length
decreasing_by exact firstPart_shrinks _filled

/-- The decoding is longer than the bytes by what its replacements are longer than their parts. -/
theorem utf8Length_fromUtf8Lossy (bytes : List UInt8) :
    utf8Length (fromUtf8Lossy bytes) =
      bytes.length + ((illFormedParts bytes).map fun part => 3 - part).foldr (· + ·) 0 := by
  induction bytes using illFormedParts.induct with
  | case2 bytes empty =>
    have hnil : bytes = [] := not_not.mp empty
    subst hnil
    rw [fromUtf8Lossy, illFormedParts, dif_neg (by simp)]
    rfl
  | case1 bytes filled ih =>
    obtain ⟨-, le, small, c, text, size⟩ := takes_firstPart filled
    rw [illFormedParts, dif_pos filled, text]
    have hlength : utf8Length (c :: fromUtf8Lossy (bytes.drop (firstPart bytes).1)) =
        c.utf8Size + utf8Length (fromUtf8Lossy (bytes.drop (firstPart bytes).1)) := rfl
    rw [hlength, ih, size, List.length_drop]
    cases hok : (firstPart bytes).2 with
    | true =>
      simp only [if_true, List.nil_append]
      omega
    | false =>
      have hsmall := small hok
      simp only [Bool.false_eq_true, if_false, List.cons_append, List.nil_append, List.map_cons,
        List.foldr_cons]
      omega

theorem illFormedParts_le_three (bytes : List UInt8) : ∀ part ∈ illFormedParts bytes, part ≤ 3 := by
  induction bytes using illFormedParts.induct with
  | case2 bytes empty =>
    rw [illFormedParts, dif_neg empty]
    exact nofun
  | case1 bytes filled ih =>
    obtain ⟨-, -, small, -⟩ := takes_firstPart filled
    rw [illFormedParts, dif_pos filled]
    intro part mem
    rcases List.mem_append.mp mem with here | later
    · cases hok : (firstPart bytes).2 with
      | true => simp [hok] at here
      | false =>
        have hpart : part = (firstPart bytes).1 := by simpa [hok] using here
        rw [hpart]
        exact small hok
    · exact ih part later

theorem foldr_add_eq_zero {lengths : List Nat} :
    lengths.foldr (· + ·) 0 = 0 ↔ ∀ length ∈ lengths, length = 0 := by
  induction lengths with
  | nil => simp
  | cons length lengths ih =>
    rw [List.foldr_cons, Nat.add_eq_zero_iff, ih, List.forall_mem_cons]

/-- The decoding is no longer than the bytes when every ill-formed part has three of them. -/
theorem utf8Length_fromUtf8Lossy_le_iff (bytes : List UInt8) :
    utf8Length (fromUtf8Lossy bytes) ≤ bytes.length ↔ ∀ part ∈ illFormedParts bytes, part = 3 := by
  have hsum : utf8Length (fromUtf8Lossy bytes) ≤ bytes.length ↔
      ((illFormedParts bytes).map fun part => 3 - part).foldr (· + ·) 0 = 0 := by
    rw [utf8Length_fromUtf8Lossy]
    omega
  rw [hsum, foldr_add_eq_zero, List.forall_mem_map]
  constructor
  · intro h part mem
    have hle := illFormedParts_le_three bytes part mem
    have hzero := h part mem
    omega
  · intro h part mem
    rw [h part mem]

end Sizes

open FallibleRun (bind_eq_ok_iff mapError_ok_iff)

section Front

/-- The front of the output is cut as a title is. -/
theorem boundedFront_eq (limit : Nat) (text : List Char) :
    boundedFront limit text = truncateBytes limit text := by
  induction text generalizing limit with
  | nil => rfl
  | cons c text ih => rw [boundedFront, truncateBytes, ih]

theorem boundedFront_prefix (limit : Nat) (text : List Char) : boundedFront limit text <+: text :=
  boundedFront_eq limit text ▸ truncateBytes_prefix limit text

theorem utf8Length_boundedFront_le (limit : Nat) (text : List Char) :
    utf8Length (boundedFront limit text) ≤ limit :=
  boundedFront_eq limit text ▸ utf8Length_truncateBytes_le limit text

end Front

section Capture

/-- What the output of a call keeps of its bytes. -/
structure Captured (inlineOutputBytes : Nat) (bytes : List UInt8) (artifact : ArtifactRef)
    (output : ToolOutput) : Prop where
  bounded : output.content.utf8ByteSize ≤ inlineOutputBytes
  original : output.originalBytes.toNat = bytes.length
  front : output.content.toList <+: fromUtf8Lossy bytes
  retained : output.artifact = if bytes.length ≤ inlineOutputBytes then none else some artifact

theorem toolOutput_new_ok_iff (content : String) (artifact : Option ArtifactRef)
    (originalBytes : UInt64) (truncated : Bool) :
    (∃ output, ToolOutput.new content artifact originalBytes truncated = .ok output) ↔
      content.utf8ByteSize ≤ maxInlineToolOutputBytes ∧
        content.utf8ByteSize ≤ originalBytes.toNat ∧ truncated = artifact.isSome := by
  unfold ToolOutput.new
  constructor
  · rintro ⟨output, made⟩
    split at made
    next inlineBound =>
      split at made
      next originalBound =>
        split at made
        next retained => exact ⟨inlineBound, originalBound, retained⟩
        next => cases made
      next => cases made
    next => cases made
  · rintro ⟨inlineBound, originalBound, retained⟩
    rw [dif_pos inlineBound, dif_pos originalBound, dif_pos retained]
    exact ⟨_, rfl⟩

theorem byteCount_toNat {bytes : List UInt8} (addressable : bytes.length < UInt64.size) :
    (byteCount bytes).toNat = bytes.length := by
  have hsize : UInt64.size = 2 ^ 64 := rfl
  unfold byteCount
  rw [UInt64.toNat_ofNat_of_lt' (by omega)]
  omega

variable {inlineOutputBytes : Nat} {put : List UInt8 → String → Except ToolError ArtifactRef}
  {bytes : List UInt8} {artifact : ArtifactRef}

/-- Output within the bound is captured when its decoding has not grown. -/
theorem capture_inline_iff (admitted : inlineOutputBytes ≤ maxInlineToolOutputBytes)
    (addressable : bytes.length < UInt64.size) (fits : bytes.length ≤ inlineOutputBytes) :
    (∃ output, capture inlineOutputBytes put bytes = .ok output ∧
      Captured inlineOutputBytes bytes artifact output) ↔
    utf8Length (fromUtf8Lossy bytes) ≤ bytes.length := by
  have hcount := byteCount_toNat addressable
  have hnew := toolOutput_new_ok_iff (String.ofList (fromUtf8Lossy bytes)) none (byteCount bytes) false
  rw [utf8ByteSize_ofList_eq, hcount] at hnew
  unfold capture
  simp only [if_pos fits, mapError_ok_iff]
  constructor
  · rintro ⟨output, made, -⟩
    exact (hnew.mp ⟨output, made⟩).2.1
  · intro short
    obtain ⟨output, made⟩ := hnew.mpr ⟨by omega, short, rfl⟩
    obtain ⟨content, retained, original⟩ := toolOutput_new_fields made
    refine ⟨output, made, ?_, ?_, ?_, ?_⟩
    · rw [content, utf8ByteSize_ofList_eq]
      omega
    · rw [original, hcount]
    · have hcontent : output.content.toList = fromUtf8Lossy bytes := by
        rw [content, String.toList_ofList]
      exact hcontent ▸ List.prefix_refl _
    · rw [retained, if_pos fits]

/-- Output past the bound is captured with its front. -/
theorem capture_retained (admitted : inlineOutputBytes ≤ maxInlineToolOutputBytes)
    (addressable : bytes.length < UInt64.size) (exceeds : ¬ bytes.length ≤ inlineOutputBytes)
    (stored : put bytes "application/octet-stream" = .ok artifact) :
    ∃ output, capture inlineOutputBytes put bytes = .ok output ∧
      Captured inlineOutputBytes bytes artifact output := by
  have hcount := byteCount_toNat addressable
  have hfront := utf8Length_boundedFront_le inlineOutputBytes (fromUtf8Lossy bytes)
  have hsize := utf8ByteSize_ofList_eq (boundedFront inlineOutputBytes (fromUtf8Lossy bytes))
  obtain ⟨output, made⟩ := (toolOutput_new_ok_iff
    (String.ofList (boundedFront inlineOutputBytes (fromUtf8Lossy bytes))) (some artifact)
    (byteCount bytes) true).mpr ⟨by omega, by omega, rfl⟩
  obtain ⟨content, retained, original⟩ := toolOutput_new_fields made
  refine ⟨output, ?_, ?_, ?_, ?_, ?_⟩
  · unfold capture
    simp only [if_neg exceeds, stored, FallibleRun.ok_bind]
    exact mapError_ok_iff.mpr made
  · rw [content, hsize]
    exact hfront
  · rw [original, hcount]
  · rw [content, String.toList_ofList]
    exact boundedFront_prefix inlineOutputBytes (fromUtf8Lossy bytes)
  · rw [retained, if_neg exceeds]

/-- Output is captured unless it fits the bound and has an ill-formed part of one or two bytes. -/
theorem capture_ok_iff (admitted : inlineOutputBytes ≤ maxInlineToolOutputBytes)
    (addressable : bytes.length < UInt64.size)
    (stored : put bytes "application/octet-stream" = .ok artifact) :
    (∃ output, capture inlineOutputBytes put bytes = .ok output ∧
      Captured inlineOutputBytes bytes artifact output) ↔
    (bytes.length ≤ inlineOutputBytes → ∀ part ∈ illFormedParts bytes, part = 3) := by
  by_cases fits : bytes.length ≤ inlineOutputBytes
  · rw [capture_inline_iff admitted addressable fits, utf8Length_fromUtf8Lossy_le_iff]
    exact ⟨fun h _ => h, fun h => h fits⟩
  · exact ⟨fun _ h => absurd h fits,
      fun _ => capture_retained admitted addressable fits stored⟩

def retainedArtifact : ArtifactRef := ⟨⟨"sha256:ab", rfl⟩, 2, "application/octet-stream"⟩

/-- Two letters within a bound of four bytes. -/
theorem capture_ok_letters :
    ∃ output, capture 4 (fun _ _ => .ok retainedArtifact) [0x68, 0x69] = .ok output ∧
      Captured 4 [0x68, 0x69] retainedArtifact output := by
  refine (capture_ok_iff (by decide) (by decide) rfl).mpr fun _ => ?_
  have hparts : illFormedParts [0x68, 0x69] = [] := by
    rw [illFormedParts, dif_pos (by simp)]
    have hfirst : firstPart [0x68, 0x69] = (1, true) := rfl
    rw [hfirst]
    have hrest : illFormedParts [0x69] = [] := by
      rw [illFormedParts, dif_pos (by simp)]
      have hsecond : firstPart [0x69] = (1, true) := rfl
      rw [hsecond]
      have hnil : illFormedParts [] = [] := by rw [illFormedParts, dif_neg (by simp)]
      exact hnil
    exact hrest
  rw [hparts]
  exact nofun

/-- One byte that begins no character becomes three, more than the output had. -/
theorem lone_byte_not_captured :
    capture 4 (fun _ _ => .ok retainedArtifact) [0xFF] = .error internalToolError := by
  have htext : fromUtf8Lossy [0xFF] = [replacementCharacter] := by
    have hascii : ¬ (0xFF : UInt8) < 0x80 := by decide
    have hshape : leadShape 0xFF = none := rfl
    rw [fromUtf8Lossy.eq_def]
    simp only [if_neg hascii, hshape]
    rw [fromUtf8Lossy]
  unfold capture
  rw [htext]
  rfl

end Capture

end AutoHarness
