import AutoHarness.Identifier

namespace AutoHarness

inductive ErrorClass where
  | validation
  | notFound
  | conflict
  | authentication
  | permissionDenied
  | rateLimited
  | timeout
  | unavailable
  | cancelled
  | protocol
  | storage
  | internal
deriving DecidableEq, Repr

inductive RetryAdvice where
  | never
  | immediate
  | backoff
  | after (delayMs : UInt64)
deriving DecidableEq, Repr

structure ModelRef where
  providerId : ProviderId
  modelId : ModelId
deriving DecidableEq, Repr

/-- Exact user-authored prompt content with some visible character. -/
structure PromptText where
  value : String
  nonblank : isBlank value = false
deriving DecidableEq, Repr

/-- Exact provider-authored response delta; white space alone is meaningful. -/
structure ResponseText where
  value : String
  nonempty : value.isEmpty = false
deriving DecidableEq, Repr

def maxPublicMessageBytes : Nat := 4096

structure PublicMessage where
  value : String
  nonblank : isBlank value = false
  bounded : value.utf8ByteSize ≤ maxPublicMessageBytes
deriving DecidableEq, Repr

structure UsageSnapshot where
  inputTokens : Option UInt64
  outputTokens : Option UInt64
  totalTokens : Option UInt64
  cachedInputTokens : Option UInt64
  reasoningTokens : Option UInt64
  toolTokens : Option UInt64
deriving DecidableEq, Repr

/-- Sanitized failure data that may cross the durable event boundary. -/
structure AttemptFailure where
  errorClass : ErrorClass
  code : ErrorCode
  message : PublicMessage
  retryAdvice : RetryAdvice
deriving DecidableEq, Repr

inductive DeliveryMode where
  | nextTurn
deriving DecidableEq, Repr

/-- Milliseconds relative to the Unix epoch. -/
structure TimestampMillis where
  value : Int64
deriving DecidableEq, Repr

/-- A lowercase SHA-256 digest without an algorithm tag. -/
structure Sha256Digest where
  value : String
  hex : (value.length == 64 && value.toList.all fun c => c.isDigit || ('a' ≤ c && c ≤ 'f')) = true
deriving DecidableEq, Repr

/-- The largest sequence that fits the signed durable store, `i64::MAX`. -/
def maxSequence : Nat := 9223372036854775807

/-- A one-based sequence within a session event stream. -/
structure SessionSequence where
  get : Nat
  positive : 1 ≤ get
  bounded : get ≤ maxSequence
deriving DecidableEq, Repr

def SessionSequence.first : SessionSequence := ⟨1, by decide, by decide⟩

def SessionSequence.new (value : Nat) : Except ValueError SessionSequence :=
  if hz : value = 0 then .error .zeroSequence
  else if hm : value ≤ maxSequence then .ok ⟨value, by omega, hm⟩
  else .error .sequenceTooLarge

/-- The next sequence, or `none` at exhaustion of the signed range. -/
def SessionSequence.checkedNext (sequence : SessionSequence) : Option SessionSequence :=
  if h : sequence.get + 1 ≤ maxSequence then some ⟨sequence.get + 1, by omega, h⟩ else none

theorem SessionSequence.ext_get {a b : SessionSequence} (h : a.get = b.get) : a = b := by
  cases a
  cases b
  cases h
  rfl

theorem SessionSequence.checkedNext_eq_some_iff {a b : SessionSequence} :
    a.checkedNext = some b ↔ b.get = a.get + 1 := by
  unfold SessionSequence.checkedNext
  split
  next h =>
    rw [Option.some.injEq]
    exact ⟨fun he => by rw [← he], fun he => SessionSequence.ext_get he.symm⟩
  next h =>
    have := b.bounded
    simp only [reduceCtorEq, false_iff]
    omega

/-- `u32::checked_add(1)`, the only arithmetic on provider-turn counters. -/
def checkedSucc (turn : UInt32) : Option UInt32 :=
  if turn.toNat + 1 < UInt32.size then some (turn + 1) else none

theorem checkedSucc_eq_some_iff {turn next : UInt32} :
    checkedSucc turn = some next ↔ next.toNat = turn.toNat + 1 := by
  unfold checkedSucc
  split
  next h =>
    have hadd : (turn + 1).toNat = turn.toNat + 1 := by
      rw [UInt32.toNat_add, UInt32.toNat_one, Nat.mod_eq_of_lt h]
    rw [Option.some.injEq, ← UInt32.toNat_inj, hadd]
    exact eq_comm
  next h =>
    have bound := next.toNat_lt_size
    simp only [reduceCtorEq, false_iff]
    omega

/-- A session label. The source builds derived titles without calling the checked
constructor, so the type itself carries no bound. -/
structure SessionTitle where
  value : String
deriving DecidableEq, Repr

def maxSessionTitleBytes : Nat := 128

def SessionTitle.new (value : String) : Except ValueError SessionTitle :=
  if isBlank value then .error .emptySessionTitle
  else if value.utf8ByteSize > maxSessionTitleBytes then .error .sessionTitleTooLong
  else if value.toList.any isControl then .error .invalidSessionTitle
  else .ok ⟨value⟩

/-- Byte length of the UTF-8 encoding. -/
def utf8Length (text : List Char) : Nat :=
  text.foldr (fun character bytes => character.utf8Size + bytes) 0

/-- `String::truncate` at a byte offset that lies on a character boundary. -/
def truncateBytes : Nat → List Char → List Char
  | _, [] => []
  | bytes, character :: rest =>
    if character.utf8Size ≤ bytes then
      character :: truncateBytes (bytes - character.utf8Size) rest
    else []

def stripCarriageReturn (line : List Char) : List Char :=
  if line.getLast? = some '\r' then line.dropLast else line

/-- `str::lines`: pieces ended by a line feed, without it and one carriage return before it. -/
def linesFrom (line : List Char) : List Char → List (List Char)
  | [] => if line.isEmpty then [] else [line]
  | character :: rest =>
    if character = '\n' then stripCarriageReturn line :: linesFrom [] rest
    else linesFrom (line ++ [character]) rest

/-- The character loop of `derive_from_line` with its three locals. -/
def deriveFromCharacters (title : List Char) (needsSeparator : Bool) (wordStart : Nat) :
    List Char → Option SessionTitle
  | [] => if title.isEmpty then none else some ⟨String.ofList title⟩
  | character :: rest =>
    if isWhitespace character || isControl character then
      deriveFromCharacters title (needsSeparator || !title.isEmpty) wordStart rest
    else if needsSeparator && utf8Length title + 1 + character.utf8Size > maxSessionTitleBytes then
      some ⟨String.ofList title⟩
    else
      let start := if needsSeparator then utf8Length title else wordStart
      let separated := if needsSeparator then title ++ [' '] else title
      if utf8Length separated + character.utf8Size > maxSessionTitleBytes then
        some ⟨String.ofList (if start > 0 then truncateBytes start separated else separated)⟩
      else deriveFromCharacters (separated ++ [character]) false start rest

def SessionTitle.deriveFromLine (line : List Char) : Option SessionTitle :=
  deriveFromCharacters [] false 0 line

/-- The first line with visible content wins; the fallback covers prompts without any. -/
def SessionTitle.deriveFromPrompt (prompt : PromptText) : SessionTitle :=
  ((linesFrom [] prompt.value.toList).findSome? SessionTitle.deriveFromLine).getD ⟨"New session"⟩

example : (SessionTitle.deriveFromPrompt
    ⟨"\n \t \n  Draft\x00 rollout \t plan\nignored", by decide⟩).value = "Draft rollout plan" := by
  decide

end AutoHarness
