import Mathlib.Data.String.Basic

namespace AutoHarness

/-- Code points with the Unicode `White_Space` property, as `char::is_whitespace` reads them. -/
def isWhitespace (character : Char) : Bool :=
  let code := character.toNat
  (0x09 ≤ code && code ≤ 0x0D) || code == 0x20 || code == 0x85 || code == 0xA0 ||
    code == 0x1680 || (0x2000 ≤ code && code ≤ 0x200A) || code == 0x2028 || code == 0x2029 ||
    code == 0x202F || code == 0x205F || code == 0x3000

/-- Code points of general category `Cc`, as `char::is_control` reads them. -/
def isControl (character : Char) : Bool :=
  let code := character.toNat
  code ≤ 0x1F || (0x7F ≤ code && code ≤ 0x9F)

/-- `text.trim().is_empty()`: every character is white space. -/
def isBlank (text : String) : Bool :=
  text.toList.all isWhitespace

/-- A property of all elements, from the check that runs over them. -/
theorem forall_mem_of_all {α : Type} {p : α → Prop} [DecidablePred p] {xs : List α}
    (h : xs.all (fun x => decide (p x)) = true) : ∀ x ∈ xs, p x := by
  intro x mem
  exact of_decide_eq_true (List.all_eq_true.mp h x mem)

inductive ValueError where
  | emptyIdentifier
  | identifierContainsWhitespace
  | identifierContainsControlCharacter
  | identifierContainsUnsafeCharacter
  | identifierTooLong
  | emptyPrompt
  | emptySessionTitle
  | sessionTitleTooLong
  | invalidSessionTitle
  | emptyResponseText
  | emptyPublicMessage
  | publicMessageTooLong
  | invalidToolArguments
  | invalidResource
  | invalidRunLimits
  | toolOutputTooLong
  | invalidArtifact
  | zeroSequence
  | sequenceTooLarge
  | invalidSha256Digest
deriving DecidableEq, Repr

def maxIdentifierBytes : Nat := 512

def isSafeIdentifierCharacter (character : Char) : Bool :=
  character.isAlphanum || "-_.:/@+%~".toList.contains character

def validateIdentifier (value : String) : Except ValueError Unit :=
  if value.isEmpty then .error .emptyIdentifier
  else if value.toList.any isControl then .error .identifierContainsControlCharacter
  else if value.toList.any isWhitespace then .error .identifierContainsWhitespace
  else if !value.toList.all isSafeIdentifierCharacter then
    .error .identifierContainsUnsafeCharacter
  else if value.utf8ByteSize > maxIdentifierBytes then .error .identifierTooLong
  else .ok ()

theorem toNat_of_isSafe {c : Char} (h : isSafeIdentifierCharacter c = true) :
    0x21 ≤ c.toNat ∧ c.toNat ≤ 0x7E := by
  simp only [isSafeIdentifierCharacter, Bool.or_eq_true, List.contains_iff_mem] at h
  rcases h with h | h
  · delta Char.isAlphanum Char.isAlpha Char.isUpper Char.isLower Char.isDigit at h
    simp only [Bool.or_eq_true, Bool.and_eq_true, decide_eq_true_eq, UInt32.le_iff_toNat_le, ge_iff_le,
      Char.reduceVal, UInt32.reduceToNat] at h
    show 33 ≤ c.val.toNat ∧ c.val.toNat ≤ 126
    omega
  · have each : ∀ d ∈ "-_.:/@+%~".toList, 0x21 ≤ d.toNat ∧ d.toNat ≤ 0x7E := by simp
    exact each c h

theorem utf8ByteSize_of_isSafe {characters : List Char}
    (safe : ∀ c ∈ characters, isSafeIdentifierCharacter c = true) :
    (String.ofList characters).utf8ByteSize = characters.length := by
  induction characters with
  | nil => rfl
  | cons c rest ih =>
    have tail := ih fun d hd => safe d (List.mem_cons_of_mem _ hd)
    have bound := toNat_of_isSafe (safe c List.mem_cons_self)
    have head : (String.ofList [c]).utf8ByteSize = 1 := by
      have one : c.utf8Size = 1 := by
        rw [Char.utf8Size_eq_one_iff, UInt32.le_iff_toNat_le]
        show c.toNat ≤ 127
        omega
      simpa using one
    rw [← List.singleton_append, String.ofList_append, String.utf8ByteSize_append, tail, head]
    simp [Nat.add_comm]

/-- Safe characters are printable, so a short text of them passes every check. -/
theorem validateIdentifier_of_isSafe {characters : List Char} (nonempty : characters ≠ [])
    (short : characters.length ≤ maxIdentifierBytes)
    (safe : ∀ c ∈ characters, isSafeIdentifierCharacter c = true) :
    validateIdentifier (String.ofList characters) = .ok () := by
  have size := utf8ByteSize_of_isSafe safe
  have filled : (String.ofList characters).isEmpty = false := by
    rw [String.isEmpty_eq_utf8ByteSize_beq_zero, size]
    simpa using nonempty
  have control : characters.any isControl = false := by
    simp only [List.any_eq_false]
    intro c hc
    have bound := toNat_of_isSafe (safe c hc)
    simp only [isControl, Bool.or_eq_true, Bool.and_eq_true, decide_eq_true_eq]
    omega
  have blank : characters.any isWhitespace = false := by
    simp only [List.any_eq_false]
    intro c hc
    have bound := toNat_of_isSafe (safe c hc)
    simp only [isWhitespace, Bool.or_eq_true, Bool.and_eq_true, decide_eq_true_eq, beq_iff_eq]
    omega
  have all : characters.all isSafeIdentifierCharacter = true := List.all_eq_true.mpr safe
  have bounded : ¬ (String.ofList characters).utf8ByteSize > maxIdentifierBytes := by omega
  simp only [validateIdentifier, filled, String.toList_ofList, control, blank, all, bounded,
    Bool.false_eq_true, Bool.not_true, if_false]

/-- The newtypes that the `identifier!` macro of the domain crate expands to. -/
inductive IdentifierKind where
  | session
  | command
  | event
  | input
  | attempt
  | toolCall
  | providerCall
  | permissionDecision
  | artifact
  | toolName
  | correlation
  | provider
  | model
  | contextTurn
  | memory
  | memorySubject
  | memoryRevision
  | memoryOperation
  | memoryEvidence
  | contextEpoch
  | contextSource
  | user
  | workspace
  | agent
  | errorCode
deriving DecidableEq, Repr

/-- One validated identifier; the kind keeps the newtypes of the source apart. -/
structure Identifier (kind : IdentifierKind) where
  value : String
  valid : validateIdentifier value = .ok ()
deriving DecidableEq, Repr

def Identifier.new {kind : IdentifierKind} (value : String) :
    Except ValueError (Identifier kind) :=
  match h : validateIdentifier value with
  | .ok () => .ok ⟨value, h⟩
  | .error e => .error e

abbrev SessionId := Identifier .session
abbrev CommandId := Identifier .command
abbrev EventId := Identifier .event
abbrev InputId := Identifier .input
abbrev AttemptId := Identifier .attempt
abbrev ToolCallId := Identifier .toolCall
abbrev ProviderCallId := Identifier .providerCall
abbrev PermissionDecisionId := Identifier .permissionDecision
abbrev ArtifactId := Identifier .artifact
abbrev ToolName := Identifier .toolName
abbrev CorrelationId := Identifier .correlation
abbrev ProviderId := Identifier .provider
abbrev ModelId := Identifier .model
abbrev ContextTurnId := Identifier .contextTurn
abbrev MemoryId := Identifier .memory
abbrev MemorySubjectKey := Identifier .memorySubject
abbrev MemoryRevisionId := Identifier .memoryRevision
abbrev MemoryOperationId := Identifier .memoryOperation
abbrev MemoryEvidenceId := Identifier .memoryEvidence
abbrev ContextEpochId := Identifier .contextEpoch
abbrev ContextSourceKey := Identifier .contextSource
abbrev UserId := Identifier .user
abbrev WorkspaceId := Identifier .workspace
abbrev AgentId := Identifier .agent
abbrev ErrorCode := Identifier .errorCode

/-- The constructor accepts exactly the values the type can hold and keeps them unchanged. -/
theorem identifier_new_eq_ok_iff {kind : IdentifierKind} {value : String} {id : Identifier kind} :
    Identifier.new value = .ok id ↔ id.value = value := by
  obtain ⟨text, valid⟩ := id
  unfold Identifier.new
  split
  · constructor
    · intro h
      cases Except.ok.inj h
      rfl
    · rintro rfl
      rfl
  · next e h =>
    constructor
    · intro h
      cases h
    · rintro rfl
      cases h.symm.trans valid

theorem Identifier.ext_value {kind : IdentifierKind} {a b : Identifier kind}
    (h : a.value = b.value) : a = b := by
  cases a
  cases b
  cases h
  rfl

/-- Identifiers are ordered as the strings they wrap. -/
instance {kind : IdentifierKind} : LinearOrder (Identifier kind) where
  le a b := a.value ≤ b.value
  lt a b := a.value < b.value
  le_refl a := le_refl a.value
  le_trans a b c := le_trans (a := a.value) (b := b.value) (c := c.value)
  lt_iff_le_not_ge a b := lt_iff_le_not_ge (a := a.value) (b := b.value)
  le_antisymm _ _ hab hba := Identifier.ext_value (le_antisymm hab hba)
  le_total a b := le_total a.value b.value
  toDecidableLE a b := inferInstanceAs (Decidable (a.value ≤ b.value))
  toDecidableLT a b := inferInstanceAs (Decidable (a.value < b.value))
  toDecidableEq := inferInstance

end AutoHarness
