import AutoHarness.Identifier
import AutoHarness.FallibleRun

open FallibleRun (bind_eq_ok_iff)

namespace AutoHarness

/-- `char::is_ascii_graphic`. -/
def isAsciiGraphic (character : Char) : Bool :=
  0x21 ≤ character.toNat && character.toNat ≤ 0x7E

/-- `str::trim`. -/
def trim (text : String) : String :=
  String.ofList
    ((text.toList.dropWhile isWhitespace).reverse.dropWhile isWhitespace).reverse

def validateProfileId (value : String) : Except String Unit :=
  if value.isEmpty then .error "profile name must not be empty"
  else if value.utf8ByteSize > 64 then .error "profile name must be at most 64 characters"
  else if !value.toList.all fun character => isAsciiGraphic character && character != '"' then
    .error "profile name must be visible ASCII without quotes"
  else .ok ()

/-- Bounded profile-name value type. -/
structure ProfileId where
  value : String
  valid : validateProfileId value = .ok ()
deriving DecidableEq

def ProfileId.new (value : String) : Except String ProfileId :=
  match valid : validateProfileId value with
  | .error reason => .error reason
  | .ok _ => .ok ⟨value, valid⟩

def validateCredentialReference (value : String) : Except String Unit :=
  if value.isEmpty then .error "credential reference must not be empty"
  else if value.utf8ByteSize > 256 then .error "credential reference is too long"
  else if !value.toList.all isAsciiGraphic then
    .error "credential references must contain visible ASCII only"
  else .ok ()

/-- Opaque credential reference retained in non-secret settings. -/
structure CredentialReference where
  value : String
  valid : validateCredentialReference value = .ok ()
deriving DecidableEq

def CredentialReference.new (value : String) : Except String CredentialReference :=
  match valid : validateCredentialReference (trim value) with
  | .error reason => .error reason
  | .ok _ => .ok ⟨trim value, valid⟩

/-- `deterministic_reference`, before its error is wrapped. -/
def deterministicReference (profile : ProfileId) : Except String CredentialReference :=
  CredentialReference.new ("autoharness/profile/" ++ profile.value)

theorem isWhitespace_of_isAsciiGraphic {c : Char} (h : isAsciiGraphic c = true) :
    isWhitespace c = false := by
  simp only [isAsciiGraphic, Bool.and_eq_true, decide_eq_true_eq] at h
  rw [Bool.eq_false_iff]
  simp only [isWhitespace, ne_eq, Bool.or_eq_true, Bool.and_eq_true, decide_eq_true_eq, beq_iff_eq]
  omega

theorem trim_of_graphic {text : String} (h : ∀ c ∈ text.toList, isAsciiGraphic c = true) :
    trim text = text := by
  have keep : ∀ xs : List Char, (∀ c ∈ xs, isAsciiGraphic c = true) →
      xs.dropWhile isWhitespace = xs := by
    intro xs hx
    cases xs with
    | nil => rfl
    | cons c rest =>
      rw [List.dropWhile_cons_of_neg]
      simp [isWhitespace_of_isAsciiGraphic (hx c (by simp))]
  unfold trim
  rw [keep _ h, keep _ (by simpa using h), List.reverse_reverse, String.ofList_toList]

theorem utf8ByteSize_of_graphic {characters : List Char}
    (h : ∀ c ∈ characters, isAsciiGraphic c = true) :
    (String.ofList characters).utf8ByteSize = characters.length := by
  induction characters with
  | nil => rfl
  | cons c rest ih =>
    have tail := ih fun d hd => h d (List.mem_cons_of_mem _ hd)
    have bound := h c List.mem_cons_self
    simp only [isAsciiGraphic, Bool.and_eq_true, decide_eq_true_eq] at bound
    have head : (String.ofList [c]).utf8ByteSize = 1 := by
      have one : c.utf8Size = 1 := by
        rw [Char.utf8Size_eq_one_iff, UInt32.le_iff_toNat_le]
        show c.toNat ≤ 127
        omega
      simp [one]
    have split : String.ofList (c :: rest) = String.ofList [c] ++ String.ofList rest := by
      rw [← String.ofList_append]
      rfl
    rw [split, String.utf8ByteSize_append, head, tail, List.length_cons]
    omega

/-- What `CredentialReference::new` accepts is kept as it is. -/
theorem CredentialReference.new_value (reference : CredentialReference) :
    CredentialReference.new reference.value = .ok reference := by
  have valid := reference.valid
  have graphic : ∀ c ∈ reference.value.toList, isAsciiGraphic c = true := by
    unfold validateCredentialReference at valid
    split at valid
    next => cases valid
    next =>
      split at valid
      next => cases valid
      next =>
        split at valid
        next => cases valid
        next h => simpa using h
  have same := trim_of_graphic graphic
  unfold CredentialReference.new
  split
  next reason h =>
    rw [same, valid] at h
    cases h
  next h =>
    congr 1
    cases reference
    simp only [CredentialReference.mk.injEq]
    exact same

theorem ProfileId.graphic (profile : ProfileId) {c : Char} (hc : c ∈ profile.value.toList) :
    isAsciiGraphic c = true := by
  have valid := profile.valid
  unfold validateProfileId at valid
  split at valid
  next => cases valid
  next =>
    split at valid
    next => cases valid
    next =>
      split at valid
      next => cases valid
      next h =>
        simp only [Bool.not_eq_true', Bool.not_eq_false, List.all_eq_true, Bool.and_eq_true] at h
        exact (h c hc).1

theorem ProfileId.length_le (profile : ProfileId) : profile.value.toList.length ≤ 64 := by
  have size := utf8ByteSize_of_graphic (fun c hc => profile.graphic hc)
  rw [String.ofList_toList] at size
  have valid := profile.valid
  unfold validateProfileId at valid
  split at valid
  next => cases valid
  next =>
    split at valid
    next => cases valid
    next h => omega

theorem validateCredentialReference_of_graphic {value : String} (nonempty : value.toList ≠ [])
    (short : value.toList.length ≤ 256) (graphic : ∀ c ∈ value.toList, isAsciiGraphic c = true) :
    validateCredentialReference value = .ok () := by
  have size := utf8ByteSize_of_graphic graphic
  rw [String.ofList_toList] at size
  have filled : value.isEmpty = false := by
    rw [Bool.eq_false_iff, ne_eq, String.isEmpty_iff]
    rintro rfl
    exact nonempty rfl
  unfold validateCredentialReference
  rw [filled, if_neg (by simp), if_neg (by omega), if_neg]
  simpa using graphic

def profilePrefix : List Char := "autoharness/profile/".toList

theorem isAsciiGraphic_of_mem_profilePrefix {c : Char} (h : c ∈ profilePrefix) :
    isAsciiGraphic c = true := by
  have each : ∀ d ∈ "autoharness/profile/".toList, isAsciiGraphic d = true := by
    simp [isAsciiGraphic]
  exact each c h

theorem length_profilePrefix : profilePrefix.length = 20 := by
  unfold profilePrefix
  simp only [String.reduceToList, List.length_cons, List.length_nil]

theorem profilePath_toList (profile : ProfileId) :
    ("autoharness/profile/" ++ profile.value).toList = profilePrefix ++ profile.value.toList := by
  rw [String.toList_append]
  rfl

theorem validate_profilePath (profile : ProfileId) :
    validateCredentialReference ("autoharness/profile/" ++ profile.value) = .ok () := by
  have length := length_profilePrefix
  have short := profile.length_le
  refine validateCredentialReference_of_graphic ?_ ?_ ?_
  · rw [profilePath_toList]
    intro h
    rw [(List.append_eq_nil_iff.mp h).1] at length
    cases length
  · rw [profilePath_toList, List.length_append]
    omega
  · intro c hc
    rw [profilePath_toList, List.mem_append] at hc
    rcases hc with hc | hc
    · exact isAsciiGraphic_of_mem_profilePrefix hc
    · exact profile.graphic hc

def ProfileId.reference (profile : ProfileId) : CredentialReference :=
  ⟨"autoharness/profile/" ++ profile.value, validate_profilePath profile⟩

@[simp] theorem ProfileId.reference_toList (profile : ProfileId) :
    profile.reference.value.toList = profilePrefix ++ profile.value.toList :=
  profilePath_toList profile

/-- Every profile has its reference. -/
theorem deterministicReference_eq (profile : ProfileId) :
    deterministicReference profile = .ok profile.reference :=
  CredentialReference.new_value profile.reference

theorem CredentialReference.ext_value {p q : CredentialReference} (h : p.value = q.value) :
    p = q := by
  cases p
  cases q
  simpa using h

theorem ProfileId.ext_value {p q : ProfileId} (h : p.value = q.value) : p = q := by
  cases p
  cases q
  simpa using h

theorem ProfileId.reference_injective : Function.Injective ProfileId.reference := by
  intro p q h
  have lists : p.reference.value.toList = q.reference.value.toList := by rw [h]
  rw [reference_toList, reference_toList, List.append_cancel_left_eq, String.toList_inj] at lists
  exact ext_value lists

end AutoHarness
