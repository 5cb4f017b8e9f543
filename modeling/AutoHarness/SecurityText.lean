import AutoHarness.ClientSnapshot
import AutoHarness.PrefixCode

namespace AutoHarness

open Client (isUnsafeDisplayControl validateSecurityText validateText ValidationError)

section Escape

def containsUnsafeDisplayControl (text : String) : Bool :=
  text.toList.any isUnsafeDisplayControl

/-- What `security_display_safe` writes for one character. -/
def displaySafe (character : Char) : List Char :=
  if character = '\\' then ['\\', '\\']
  else if isUnsafeDisplayControl character then
    ['\\', 'u', '\x7b'] ++ (Nat.toDigits 16 character.toNat ++ ['\x7d'])
  else [character]

/-- Escapes controls that can conceal or reorder security-critical text. -/
def securityDisplaySafe (text : String) : String :=
  String.ofList (text.toList.flatMap displaySafe)

example : securityDisplaySafe "safe\u202etxt.exe\u200b\nnext" =
    "safe\\u\x7b202e\x7dtxt.exe\\u\x7b200b\x7d\\u\x7ba\x7dnext" := by decide

end Escape

section Digits

theorem digitChar_hex : ∀ digit < 16, digit.digitChar ∈ "0123456789abcdef".toList := by
  decide

theorem digitChar_injective : ∀ x < 16, ∀ y < 16, x.digitChar = y.digitChar → x = y := by
  decide

theorem hexDigits_mem (n : Nat) : ∀ c ∈ Nat.toDigits 16 n, c ∈ "0123456789abcdef".toList := by
  induction n using Nat.strong_induction_on with
  | _ n ih =>
    intro c hc
    rw [Nat.toDigits_eq_if (by omega)] at hc
    split at hc
    next hlt =>
      have he : c = n.digitChar := by simpa using hc
      rw [he]
      exact digitChar_hex n hlt
    next hge =>
      rcases List.mem_append.mp hc with hc | hc
      · exact ih (n / 16) (by omega) c hc
      · have he : c = (n % 16).digitChar := by simpa using hc
        rw [he]
        exact digitChar_hex (n % 16) (Nat.mod_lt n (by omega))

theorem hexDigits_injective : Function.Injective (Nat.toDigits 16) := by
  intro x
  induction x using Nat.strong_induction_on with
  | _ x ih =>
    intro y h
    rw [Nat.toDigits_eq_if (by omega), Nat.toDigits_eq_if (by omega) (n := y)] at h
    have hx : 0 < (Nat.toDigits 16 (x / 16)).length := Nat.length_toDigits_pos
    have hy : 0 < (Nat.toDigits 16 (y / 16)).length := Nat.length_toDigits_pos
    split at h <;> split at h
    next hlx hly => exact digitChar_injective x hlx y hly (by simpa using h)
    next =>
      have hl := congrArg List.length h
      simp only [List.length_append, List.length_cons, List.length_nil] at hl
      omega
    next =>
      have hl := congrArg List.length h
      simp only [List.length_append, List.length_cons, List.length_nil] at hl
      omega
    next hge _ =>
      obtain ⟨hq, hr⟩ := List.append_inj' h rfl
      have hquot : x / 16 = y / 16 := ih (x / 16) (by omega) hq
      have hrem : x % 16 = y % 16 :=
        digitChar_injective (x % 16) (Nat.mod_lt x (by omega)) (y % 16) (Nat.mod_lt y (by omega))
        (by simpa using hr)
      omega

end Digits

section Faithful

theorem isUnsafe_ascii {c : Char} (low : 0x20 ≤ c.toNat) (high : c.toNat < 0x7F) :
    isUnsafeDisplayControl c = false := by
  simp [isUnsafeDisplayControl, isControl]
  omega

theorem isUnsafe_hex : ∀ c ∈ "0123456789abcdef".toList, isUnsafeDisplayControl c = false := by
  intro c hc
  have hr : ∀ c ∈ "0123456789abcdef".toList, 0x20 ≤ c.toNat ∧ c.toNat < 0x7F :=
    forall_mem_of_all (by decide)
  exact isUnsafe_ascii (hr c hc).1 (hr c hc).2

theorem displaySafe_control {c : Char} (hs : c ≠ '\\') (hu : isUnsafeDisplayControl c = true) :
    displaySafe c = ['\\', 'u', '\x7b'] ++ (Nat.toDigits 16 c.toNat ++ ['\x7d']) := by
  simp [displaySafe, hs, hu]

theorem displaySafe_self {c : Char} (hs : c ≠ '\\') (hu : isUnsafeDisplayControl c = false) :
    displaySafe c = [c] := by
  simp [displaySafe, hs, hu]

/-- Every character is written in one of three ways. -/
theorem displaySafe_cases (c : Char) :
    (c = '\\' ∧ displaySafe c = ['\\', '\\']) ∨
    (displaySafe c = ['\\', 'u', '\x7b'] ++ (Nat.toDigits 16 c.toNat ++ ['\x7d'])) ∨
    (c ≠ '\\' ∧ isUnsafeDisplayControl c = false ∧ displaySafe c = [c]) := by
  by_cases hs : c = '\\'
  · exact .inl ⟨hs, by simp [displaySafe, hs]⟩
  · cases hu : isUnsafeDisplayControl c with
    | true => exact .inr (.inl (displaySafe_control hs hu))
    | false => exact .inr (.inr ⟨hs, rfl, displaySafe_self hs hu⟩)

theorem brace_not_mem_toDigits (n : Nat) : '\x7d' ∉ Nat.toDigits 16 n := by
  intro hm
  have hx := hexDigits_mem n _ hm
  revert hx
  decide

/-- No escape begins another one, so an escaped text reads in one way only. -/
theorem displaySafe_isPrefixCode : PrefixCode.IsPrefixCode displaySafe where
  nonempty c := by
    rcases displaySafe_cases c with ⟨-, h⟩ | h | ⟨-, -, h⟩ <;> simp [h]
  free a b h := by
    rcases displaySafe_cases a with ⟨ha, ea⟩ | ea | ⟨ha, -, ea⟩ <;>
      rcases displaySafe_cases b with ⟨hb, eb⟩ | eb | ⟨hb, -, eb⟩ <;> rw [ea, eb] at h
    · rw [ha, hb]
    · simp at h
    · have he : '\\' = b := by simpa using h.subset
      exact absurd he.symm hb
    · simp at h
    · rw [List.prefix_append_right_inj] at h
      have hd := PrefixCode.eq_of_terminated_prefix (brace_not_mem_toDigits b.toNat) h
      exact Char.toNat_inj.mp (hexDigits_injective hd)
    · simp at h
    · simp [ha] at h
    · simp [ha] at h
    · simpa using h

theorem securityDisplaySafe_injective : Function.Injective securityDisplaySafe := by
  intro left right h
  have hl : left.toList.flatMap displaySafe = right.toList.flatMap displaySafe :=
    String.ofList_injective h
  exact String.toList_injective (displaySafe_isPrefixCode.flatMap_injective hl)

theorem displaySafe_safe (c : Char) : ∀ d ∈ displaySafe c, isUnsafeDisplayControl d = false := by
  intro d hd
  rcases displaySafe_cases c with ⟨-, h⟩ | h | ⟨-, hu, h⟩
  · have he : d = '\\' := by simpa [h] using hd
    rw [he]
    exact isUnsafe_ascii (by decide) (by decide)
  · rw [h, List.mem_append, List.mem_append] at hd
    rcases hd with hd | hd | hd
    · have hr : ∀ e ∈ ['\\', 'u', '\x7b'], 0x20 ≤ e.toNat ∧ e.toNat < 0x7F :=
        forall_mem_of_all (by decide)
      exact isUnsafe_ascii (hr d hd).1 (hr d hd).2
    · exact isUnsafe_hex d (hexDigits_mem c.toNat d hd)
    · have he : d = '\x7d' := by simpa using hd
      rw [he]
      exact isUnsafe_ascii (by decide) (by decide)
  · have he : d = c := by simpa [h] using hd
    rw [he, hu]

theorem securityDisplaySafe_safe (text : String) :
    containsUnsafeDisplayControl (securityDisplaySafe text) = false := by
  have hall : ∀ d ∈ text.toList.flatMap displaySafe, isUnsafeDisplayControl d = false := by
    intro d hd
    obtain ⟨c, -, hc⟩ := List.mem_flatMap.mp hd
    exact displaySafe_safe c d hc
  rw [containsUnsafeDisplayControl, securityDisplaySafe, String.toList_ofList, List.any_eq_false]
  intro d hd
  simp [hall d hd]

theorem securityDisplaySafe_self {text : String}
    (hu : containsUnsafeDisplayControl text = false) (hs : '\\' ∉ text.toList) :
    securityDisplaySafe text = text := by
  have hid : text.toList.flatMap displaySafe = text.toList := by
    have hc : ∀ c ∈ text.toList, displaySafe c = [c] := by
      intro c hm
      have hne : c ≠ '\\' := fun he => hs (he ▸ hm)
      have hsafe : isUnsafeDisplayControl c = false := by
        have := List.any_eq_false.mp hu c hm
        simpa using this
      exact displaySafe_self hne hsafe
    rw [List.flatMap_congr hc]
    simp
  rw [securityDisplaySafe, hid, String.ofList_toList]

end Faithful

end AutoHarness
