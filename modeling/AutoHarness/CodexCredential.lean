import AutoHarness.CodexLogin
import AutoHarness.JsonParser
import AutoHarness.Vault

namespace AutoHarness.Codex

open Serde (required optional unsigned)

section Claims

def sextet (character : Char) : Option Nat :=
  let code := character.toNat
  if 0x41 ≤ code ∧ code ≤ 0x5A then some (code - 0x41)
  else if 0x61 ≤ code ∧ code ≤ 0x7A then some (code - 0x61 + 26)
  else if 0x30 ≤ code ∧ code ≤ 0x39 then some (code - 0x30 + 52)
  else if character = '-' then some 62
  else if character = '_' then some 63
  else none

/-- `URL_SAFE_NO_PAD`: no padding, and no bit set behind the last byte. -/
def bytesOfSextets : List Nat → Option (List UInt8)
  | a :: b :: c :: d :: rest =>
    (bytesOfSextets rest).map fun bytes =>
      UInt8.ofNat (a * 4 + b / 16) :: UInt8.ofNat (b % 16 * 16 + c / 4) ::
        UInt8.ofNat (c % 4 * 64 + d) :: bytes
  | [a, b, c] =>
    if c % 4 = 0 then some [UInt8.ofNat (a * 4 + b / 16), UInt8.ofNat (b % 16 * 16 + c / 4)]
    else none
  | [a, b] => if b % 16 = 0 then some [UInt8.ofNat (a * 4 + b / 16)] else none
  | [_] => none
  | [] => some []

def jwtAuthClaim : String := "https://api.openai.com/auth"

variable (otherNumber : List Char → Option JsonNumber)

/-- The claims in the middle part of a token. -/
def tokenClaims (token : String) : Option JsonValue := do
  let payload ← (token.toList.splitOn '.')[1]?
  let sextets ← payload.mapM sextet
  let decoded ← bytesOfSextets sextets
  let text ← String.fromUTF8? ⟨decoded.toArray⟩
  parseJson otherNumber text

def extractAccountId (token : String) : Option String := do
  let claims ← tokenClaims otherNumber token
  let auth ← claims.get? jwtAuthClaim
  let account ← auth.get? "chatgpt_account_id"
  let value ← Serde.string account
  if !value.isEmpty && value.utf8ByteSize ≤ 512 then some value else none

/-- The first residency claim that is present. -/
def extractResidency (token : String) : Option String := do
  let claims ← tokenClaims otherNumber token
  let auth ← claims.get? jwtAuthClaim
  ["chatgpt_data_residency", "chatgpt_compute_residency"].findSome? fun claim => do
    let value ← auth.get? claim
    let text ← Serde.string value
    if !(trim text).isEmpty && (trim text).utf8ByteSize ≤ 128 then some (trim text) else none

end Claims

section Structs

variable (otherNumber : List Char → Option JsonNumber)

/-- What a derived struct is read from: its own keys, each given once, or an array in their order. -/
def structFields (names : List String) (text : String) : Option (List (String × JsonValue)) :=
  match skipSpace text.toList with
  | '\x7b' :: rest => do
    let (fields, rest) ← readFields otherNumber (2 * text.toList.length + 2) 127 true rest
    let known := fields.filter fun field => names.contains field.1
    if skipSpace rest = [] ∧ (known.map Prod.fst).Nodup then some known else none
  | _ =>
    match parseJson otherNumber text with
    | some (.array items) => if items.length = names.length then some (names.zip items) else none
    | _ => none

def u64Bound : Nat := 18446744073709551616

def credentialNames : List String :=
  ["schema", "access_token", "refresh_token", "expires_at_unix_ms", "account_id"]

def readCredential (text : String) : Option CodexOAuthCredential := do
  let fields ← structFields otherNumber credentialNames text
  let schema ← required (unsigned 256) (fields.lookup "schema")
  let accessToken ← required Serde.string (fields.lookup "access_token")
  let refreshToken ← required Serde.string (fields.lookup "refresh_token")
  let expiresAtUnixMs ← required (unsigned u64Bound) (fields.lookup "expires_at_unix_ms")
  let accountId ← required Serde.string (fields.lookup "account_id")
  some ⟨schema, accessToken, refreshToken, expiresAtUnixMs, accountId⟩

def tokenNames : List String := ["access_token", "refresh_token", "expires_in", "id_token"]

def readToken (text : String) : Option TokenResponse := do
  let fields ← structFields otherNumber tokenNames text
  let accessToken ← required Serde.string (fields.lookup "access_token")
  let refreshToken ← required Serde.string (fields.lookup "refresh_token")
  let expiresIn ← required (unsigned u64Bound) (fields.lookup "expires_in")
  let idToken ← optional Serde.string (fields.lookup "id_token")
  some ⟨accessToken, refreshToken, expiresIn, idToken⟩

def responseReply (status : Nat) (body : List UInt8) : Reply :=
  if 200 ≤ status ∧ status < 300 then
    match (String.fromUTF8? ⟨body.toArray⟩).bind (readToken otherNumber) with
    | some token => .granted token
    | none => .unreadable
  else .refused status

end Structs

section Text

def quoted (text : String) : List Char :=
  '"' :: (text.toList.flatMap JsonString.escape ++ ['"'])

def CodexOAuthCredential.fieldTexts (credential : CodexOAuthCredential) : List (String × List Char) :=
  [("schema", Nat.toDigits 10 credential.schema), ("access_token", quoted credential.accessToken),
    ("refresh_token", quoted credential.refreshToken),
    ("expires_at_unix_ms", Nat.toDigits 10 credential.expiresAtUnixMs),
    ("account_id", quoted credential.accountId)]

/-- `serde_json::to_string`. -/
def CodexOAuthCredential.encode (credential : CodexOAuthCredential) : String :=
  String.ofList ('\x7b' :: (fieldsText credential.fieldTexts ++ ['\x7d']))

def serdeHost (otherNumber : List Char → Option JsonNumber) : CodexHost where
  fromJson := readCredential otherNumber
  encode := CodexOAuthCredential.encode
  extractAccountId := extractAccountId otherNumber
  extractResidency := extractResidency otherNumber

end Text

end AutoHarness.Codex
