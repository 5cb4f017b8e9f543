import AutoHarness.CodexCredential

namespace AutoHarness.Codex

variable {otherNumber : List Char → Option JsonNumber}

section RoundTrip

/-- A struct is read back from the compact text of its own fields. -/
theorem structFields_fieldsText (field : RenderedField otherNumber)
    (fields : List (RenderedField otherNumber)) (names : List String)
    (own : ∀ key ∈ (field :: fields).map RenderedField.key, key ∈ names)
    (apart : ((field :: fields).map RenderedField.key).Nodup) :
    structFields otherNumber names (String.ofList
        ('\x7b' :: (fieldsText ((field :: fields).map fun field => (field.key, field.text)) ++
          ['\x7d']))) =
      some ((field :: fields).map fun field => (field.key, field.value)) := by
  have enough : fields.length + 2 ≤ 2 * ('\x7b' :: (fieldsText
      ((field :: fields).map fun field => (field.key, field.text)) ++ ['\x7d'])).length + 2 := by
    have h := length_le_fieldsText (field :: fields)
    simp only [List.length_cons, List.length_append] at h ⊢
    omega
  have hread := readFields_fieldsText field fields 127 true [] enough
  have hknown : ((field :: fields).map fun field => (field.key, field.value)).filter
      (fun entry => names.contains entry.1) =
      (field :: fields).map fun field => (field.key, field.value) := by
    refine List.filter_eq_self.mpr fun entry mem => ?_
    obtain ⟨source, hmem, rfl⟩ := List.mem_map.mp mem
    exact List.contains_iff_mem.mpr (own source.key (List.mem_map_of_mem hmem))
  have hkeys : ((field :: fields).map fun field => (field.key, field.value)).map Prod.fst =
      (field :: fields).map RenderedField.key := by
    rw [List.map_map]
    rfl
  unfold structFields
  rw [String.toList_ofList, skipSpace_cons rfl]
  simp only [hread, Option.bind_eq_bind, Option.bind_some, hknown, hkeys]
  rw [if_pos ⟨rfl, apart⟩]

theorem plainKey_credential (key : String) (mem : key ∈ credentialNames) : PlainKey key := by
  have hall : ∀ key ∈ credentialNames,
      key.toList.all (fun c => decide (c ≠ '"' ∧ c ≠ '\\' ∧ 0x20 ≤ c.toNat)) = true := by decide
  exact forall_mem_of_all (hall key mem)

def numberField (key : String) (mem : key ∈ credentialNames) {n : Nat} (bound : n < u64Bound) :
    RenderedField otherNumber :=
  ⟨key, Nat.toDigits 10 n, .number (.posInt (UInt64.ofNat n)), plainKey_credential key mem,
    renders_number bound⟩

def textField (key : String) (mem : key ∈ credentialNames) (text : String) :
    RenderedField otherNumber :=
  ⟨key, quoted text, .string text, plainKey_credential key mem,
    renders_string JsonString.reads_escape_self text⟩

theorem unsigned_posInt {bound n : Nat} (small : n < bound) (wide : n < u64Bound) :
    Serde.unsigned bound (.number (.posInt (UInt64.ofNat n))) = some n := by
  have hn : (UInt64.ofNat n).toNat = n := UInt64.toNat_ofNat_of_lt' wide
  rw [Serde.unsigned, hn, if_pos small]

/-- The values in the text of a credential. -/
def credentialValues (credential : CodexOAuthCredential) : List (String × JsonValue) :=
  [("schema", .number (.posInt (UInt64.ofNat credential.schema))),
    ("access_token", .string credential.accessToken),
    ("refresh_token", .string credential.refreshToken),
    ("expires_at_unix_ms", .number (.posInt (UInt64.ofNat credential.expiresAtUnixMs))),
    ("account_id", .string credential.accountId)]

theorem structFields_encode {credential : CodexOAuthCredential}
    (schema : credential.schema < u64Bound) (expiry : credential.expiresAtUnixMs < u64Bound) :
    structFields otherNumber credentialNames credential.encode =
      some (credentialValues credential) := by
  have hown : ∀ key ∈ credentialNames, key ∈ credentialNames := fun _ mem => mem
  have happart : credentialNames.Nodup := by decide
  exact structFields_fieldsText (numberField "schema" (by decide) schema)
    [textField "access_token" (by decide) credential.accessToken,
      textField "refresh_token" (by decide) credential.refreshToken,
      numberField "expires_at_unix_ms" (by decide) expiry,
      textField "account_id" (by decide) credential.accountId] credentialNames hown happart

/-- The vault's text of a credential is read back as it was. -/
theorem readCredential_encode {credential : CodexOAuthCredential} (schema : credential.schema < 256)
    (expiry : credential.expiresAtUnixMs < u64Bound) :
    readCredential otherNumber credential.encode = some credential := by
  have hwide : credential.schema < u64Bound := Nat.lt_of_lt_of_le schema (by decide)
  have hschema := unsigned_posInt schema hwide
  have hexpiry := unsigned_posInt expiry expiry
  have hfirst : (credentialValues credential).lookup "schema" =
      some (.number (.posInt (UInt64.ofNat credential.schema))) := rfl
  have haccess : (credentialValues credential).lookup "access_token" =
      some (.string credential.accessToken) := rfl
  have hrefresh : (credentialValues credential).lookup "refresh_token" =
      some (.string credential.refreshToken) := rfl
  have hexpires : (credentialValues credential).lookup "expires_at_unix_ms" =
      some (.number (.posInt (UInt64.ofNat credential.expiresAtUnixMs))) := rfl
  have haccount : (credentialValues credential).lookup "account_id" =
      some (.string credential.accountId) := rfl
  rw [readCredential, structFields_encode hwide expiry]
  simp only [Serde.required, Serde.string, Option.bind_eq_bind, Option.bind_some, hfirst, haccess,
    hrefresh, hexpires, haccount, hschema, hexpiry]

end RoundTrip

section Visible

/-- A character that the vault takes inside the JSON text: it is visible, or it is escaped. -/
def Visible (character : Char) : Prop :=
  character ≠ ' ' ∧ character.toNat < 0x7F

theorem graphic_hexWord (code : Nat) : ∀ d ∈ JsonString.hexWord code, isAsciiGraphic d = true := by
  have hdigit : ∀ n < 16, isAsciiGraphic n.digitChar = true := by decide
  intro d mem
  simp only [JsonString.hexWord, List.mem_cons, List.not_mem_nil, or_false] at mem
  rcases mem with rfl | rfl | rfl | rfl | rfl | rfl
  · rfl
  · rfl
  all_goals exact hdigit _ (Nat.mod_lt _ (by omega))

theorem graphic_escape_iff (c : Char) :
    (∀ d ∈ JsonString.escape c, isAsciiGraphic d = true) ↔ Visible c := by
  have hspace : c = ' ' ↔ c.toNat = 0x20 := ⟨fun h => by rw [h]; rfl, fun h => by
    rw [← Char.ofNat_toNat c, h]⟩
  unfold Visible
  rw [ne_eq, hspace]
  unfold JsonString.escape
  split_ifs with hq hs hb ht hn hf hr hc
  · subst hq
    exact iff_of_true (forall_mem_of_all (by decide)) (by decide)
  · subst hs
    exact iff_of_true (forall_mem_of_all (by decide)) (by decide)
  · simp [isAsciiGraphic]; omega
  · simp [isAsciiGraphic]; omega
  · simp [isAsciiGraphic]; omega
  · simp [isAsciiGraphic]; omega
  · simp [isAsciiGraphic]; omega
  · exact ⟨fun _ => ⟨by omega, by omega⟩, fun _ => graphic_hexWord c.toNat⟩
  · simp only [List.mem_singleton, forall_eq, isAsciiGraphic, Bool.and_eq_true, decide_eq_true_eq]
    omega

theorem graphic_quoted_iff (text : String) :
    (∀ d ∈ quoted text, isAsciiGraphic d = true) ↔ ∀ c ∈ text.toList, Visible c := by
  have hquote : isAsciiGraphic '"' = true := rfl
  simp only [quoted, List.mem_cons, List.mem_append, List.not_mem_nil, or_false, List.mem_flatMap]
  constructor
  · intro h c mem
    exact (graphic_escape_iff c).mp fun d hd => h d (.inr (.inl ⟨c, mem, hd⟩))
  · rintro h d (rfl | ⟨c, mem, hd⟩ | rfl)
    · exact hquote
    · exact (graphic_escape_iff c).mpr (h c mem) d hd
    · exact hquote

theorem graphic_toDigits (n : Nat) : ∀ d ∈ Nat.toDigits 10 n, isAsciiGraphic d = true := by
  intro d mem
  have hdigit := isDigit_toDigits d mem
  simp only [Char.isDigit, Bool.and_eq_true, decide_eq_true_eq] at hdigit
  have hlow : 48 ≤ d.toNat := hdigit.1
  have hhigh : d.toNat ≤ 57 := hdigit.2
  simp only [isAsciiGraphic, Bool.and_eq_true, decide_eq_true_eq]
  omega

theorem graphic_fieldsText_iff (fields : List (String × List Char)) :
    (∀ d ∈ fieldsText fields, isAsciiGraphic d = true) ↔
      ∀ field ∈ fields, (∀ d ∈ field.1.toList, isAsciiGraphic d = true) ∧
        ∀ d ∈ field.2, isAsciiGraphic d = true := by
  have hquote : isAsciiGraphic '"' = true := rfl
  have hcolon : isAsciiGraphic ':' = true := rfl
  have hcomma : isAsciiGraphic ',' = true := rfl
  induction fields with
  | nil => simp [fieldsText]
  | cons field fields ih =>
    rw [List.forall_mem_cons]
    cases fields with
    | nil =>
      simp only [fieldsText, List.forall_mem_cons, List.forall_mem_append, hquote, hcolon, true_and]
      simp
    | cons next fields =>
      refine Iff.trans ?_ (and_congr Iff.rfl ih)
      simp only [fieldsText, List.forall_mem_cons, List.forall_mem_append, hquote, hcolon, hcomma,
        true_and]
      exact and_assoc.symm

end Visible

section Reuse

def escapedLength (text : String) : Nat := (text.toList.flatMap JsonString.escape).length

/-- What the vault and the decoder ask of tokens, an account and an expiry. -/
structure Keepable (token : TokenResponse) (accountId : String) (expiry : Nat) : Prop where
  accessFits : token.accessToken.utf8ByteSize ≤ 16 * 1024
  refreshFits : token.refreshToken.utf8ByteSize ≤ 16 * 1024
  accountFilled : accountId.isEmpty = false
  accountFits : accountId.utf8ByteSize ≤ 512
  accountClean : accountId.toList.any isControl = false
  accessVisible : ∀ c ∈ token.accessToken.toList, Visible c
  refreshVisible : ∀ c ∈ token.refreshToken.toList, Visible c
  accountVisible : ∀ c ∈ accountId.toList, Visible c
  short : escapedLength token.accessToken + escapedLength token.refreshToken +
    escapedLength accountId + (Nat.toDigits 10 expiry).length + 87 ≤ maxSecretBytes

theorem encode_length (credential : CodexOAuthCredential) :
    credential.encode.toList.length = escapedLength credential.accessToken +
      escapedLength credential.refreshToken + escapedLength credential.accountId +
      (Nat.toDigits 10 credential.expiresAtUnixMs).length +
      (Nat.toDigits 10 credential.schema).length + 86 := by
  have hkeys : "schema".toList.length = 6 ∧ "access_token".toList.length = 12 ∧
      "refresh_token".toList.length = 13 ∧ "expires_at_unix_ms".toList.length = 18 ∧
      "account_id".toList.length = 10 := by decide
  unfold CodexOAuthCredential.encode CodexOAuthCredential.fieldTexts escapedLength
  rw [String.toList_ofList]
  simp only [fieldsText, quoted, List.length_cons, List.length_append, List.length_nil]
  omega

theorem graphic_encode_iff (credential : CodexOAuthCredential) :
    (∀ d ∈ credential.encode.toList, isAsciiGraphic d = true) ↔
      (∀ c ∈ credential.accessToken.toList, Visible c) ∧
      (∀ c ∈ credential.refreshToken.toList, Visible c) ∧
      ∀ c ∈ credential.accountId.toList, Visible c := by
  have hnames : ∀ key ∈ credentialNames,
      key.toList.all (fun d => decide (isAsciiGraphic d = true)) = true := by decide
  have hkeys : ∀ key ∈ credentialNames, ∀ d ∈ key.toList, isAsciiGraphic d = true :=
    fun key mem => forall_mem_of_all (hnames key mem)
  have hopen : isAsciiGraphic '\x7b' = true := rfl
  have hclose : isAsciiGraphic '\x7d' = true := rfl
  simp only [credentialNames, List.forall_mem_cons] at hkeys
  obtain ⟨hschema, haccess, hrefresh, hexpires, haccount, -⟩ := hkeys
  unfold CodexOAuthCredential.encode
  rw [String.toList_ofList, List.forall_mem_cons, List.forall_mem_append, List.forall_mem_cons,
    graphic_fieldsText_iff]
  simp only [CodexOAuthCredential.fieldTexts, List.forall_mem_cons, graphic_quoted_iff]
  constructor
  · rintro ⟨-, ⟨-, ⟨-, access⟩, ⟨-, refresh⟩, -, ⟨-, account⟩, -⟩, -⟩
    exact ⟨access, refresh, account⟩
  · rintro ⟨access, refresh, account⟩
    exact ⟨hopen, ⟨⟨hschema, graphic_toDigits _⟩, ⟨haccess, access⟩, ⟨hrefresh, refresh⟩,
      ⟨hexpires, graphic_toDigits _⟩, ⟨haccount, account⟩, nofun⟩, hclose, nofun⟩

/-- The vault keeps a credential whose text is short and needs no space and no foreign character. -/
theorem validateSecret_encode_iff (credential : CodexOAuthCredential) :
    validateSecret credential.encode = .ok () ↔
      (escapedLength credential.accessToken + escapedLength credential.refreshToken +
        escapedLength credential.accountId + (Nat.toDigits 10 credential.expiresAtUnixMs).length +
        (Nat.toDigits 10 credential.schema).length + 86 ≤ maxSecretBytes) ∧
      (∀ c ∈ credential.accessToken.toList, Visible c) ∧
      (∀ c ∈ credential.refreshToken.toList, Visible c) ∧
      ∀ c ∈ credential.accountId.toList, Visible c := by
  rw [validateSecret_eq_ok_iff, ← graphic_encode_iff, ← encode_length]
  have hfilled : credential.encode.toList ≠ [] := by
    have hlength := encode_length credential
    intro empty
    rw [empty, List.length_nil] at hlength
    omega
  exact ⟨fun secret => ⟨secret.short, secret.graphic⟩,
    fun ⟨short, graphic⟩ => ⟨hfilled, short, graphic⟩⟩

def accountIdOf (host : CodexHost) (token : TokenResponse) (existing : Option String) :
    Option String :=
  ((host.extractAccountId token.accessToken).or
    (token.idToken.bind host.extractAccountId)).or existing

def expiryOf (now : Nat) (token : TokenResponse) : Nat :=
  min (now + min (token.expiresIn * 1000) maxTime) maxTime

theorem tokenResponse_ok {host : CodexHost} {now : Nat} {reply : Reply} {existing : Option String}
    {credential : CodexOAuthCredential}
    (h : tokenResponse host now reply existing = .ok credential) :
    ∃ token accountId, reply = .granted token ∧ token.isAcceptable = true ∧
      accountIdOf host token existing = some accountId ∧
      credential = ⟨credentialSchema, token.accessToken, token.refreshToken, expiryOf now token,
        accountId⟩ := by
  unfold tokenResponse at h
  cases reply with
  | failed failure => cases h
  | refused status => cases h
  | unreadable => cases h
  | granted token =>
    simp only at h
    split at h
    next accepted =>
      split at h
      next => cases h
      next accountId found =>
        exact ⟨token, accountId, rfl, accepted, found, (Except.ok.inj h).symm⟩
    next => cases h

theorem decode_ok_iff {host : CodexHost} {encoded : String} {credential : CodexOAuthCredential}
    (read : host.fromJson encoded = some credential) :
    CodexOAuthCredential.decode host encoded = .ok credential ↔
      credential.schema = credentialSchema ∧ credential.accessToken.isEmpty = false ∧
      credential.refreshToken.isEmpty = false ∧ credential.accountId.isEmpty = false ∧
      credential.accessToken.utf8ByteSize ≤ 16 * 1024 ∧
      credential.refreshToken.utf8ByteSize ≤ 16 * 1024 ∧
      credential.accountId.utf8ByteSize ≤ 512 ∧
      credential.accountId.toList.any isControl = false := by
  unfold CodexOAuthCredential.decode
  rw [read]
  simp only
  split
  next bad =>
    refine ⟨nofun, fun good => ?_⟩
    obtain ⟨schema, access, refresh, account, accessFits, refreshFits, accountFits, clean⟩ := good
    simp [schema, access, refresh, account, clean] at bad
    omega
  next good =>
    simp only [Bool.or_eq_true, not_or, decide_eq_true_eq, Bool.not_eq_true] at good
    obtain ⟨⟨⟨⟨⟨⟨⟨schema, access⟩, refresh⟩, account⟩, accessFits⟩, refreshFits⟩, accountFits⟩,
      clean⟩ := good
    refine ⟨fun _ => ⟨?_, access, refresh, account, by omega, by omega, by omega, clean⟩, fun _ => rfl⟩
    exact not_not.mp schema

/-- A login is kept and read again exactly when its parts are within the later bounds. -/
theorem login_reusable_iff {status now : Nat} {body : List UInt8} {existing : Option String}
    {credential : CodexOAuthCredential}
    (h : tokenResponse (serdeHost otherNumber) now (responseReply otherNumber status body) existing =
      .ok credential) :
    (validateSecret ((serdeHost otherNumber).encode credential) = .ok () ∧
      CodexOAuthCredential.decode (serdeHost otherNumber)
        ((serdeHost otherNumber).encode credential) = .ok credential) ↔
    ∃ token accountId, responseReply otherNumber status body = .granted token ∧
      accountIdOf (serdeHost otherNumber) token existing = some accountId ∧
      Keepable token accountId (expiryOf now token) := by
  obtain ⟨token, accountId, granted, acceptable, found, rfl⟩ := tokenResponse_ok h
  let credential : CodexOAuthCredential :=
    ⟨credentialSchema, token.accessToken, token.refreshToken, expiryOf now token, accountId⟩
  have hfilled : token.accessToken.isEmpty = false ∧ token.refreshToken.isEmpty = false := by
    simp only [TokenResponse.isAcceptable, Bool.not_eq_true', Bool.or_eq_false_iff] at acceptable
    exact ⟨acceptable.1.1.1, acceptable.1.1.2⟩
  have hexpiry : credential.expiresAtUnixMs < u64Bound := by
    have hmin : expiryOf now token ≤ maxTime := Nat.min_le_right _ _
    exact Nat.lt_of_le_of_lt hmin (by decide)
  have hread : (serdeHost otherNumber).fromJson credential.encode = some credential :=
    readCredential_encode (by decide : credentialSchema < 256) hexpiry
  have hdigit : (Nat.toDigits 10 credentialSchema).length = 1 := by decide
  have hdecode := decode_ok_iff hread
  have hsecret := validateSecret_encode_iff credential
  constructor
  · rintro ⟨stored, decoded⟩
    obtain ⟨short, access, refresh, account⟩ := hsecret.mp stored
    obtain ⟨-, -, -, filled, accessFits, refreshFits, accountFits, clean⟩ := hdecode.mp decoded
    have hshort : escapedLength token.accessToken + escapedLength token.refreshToken +
        escapedLength accountId + (Nat.toDigits 10 (expiryOf now token)).length + 87 ≤
          maxSecretBytes := by
      simp only [credential, hdigit] at short
      omega
    exact ⟨token, accountId, granted, found, accessFits, refreshFits, filled, accountFits, clean,
      access, refresh, account, hshort⟩
  · rintro ⟨other, otherId, otherGranted, otherFound, keepable⟩
    have htoken : token = other := Reply.granted.inj (granted.symm.trans otherGranted)
    subst htoken
    have hid : accountId = otherId := Option.some.inj (found.symm.trans otherFound)
    subst hid
    have hshort := keepable.short
    refine ⟨hsecret.mpr ⟨?_, keepable.accessVisible, keepable.refreshVisible,
      keepable.accountVisible⟩, hdecode.mpr ⟨rfl, hfilled.1, hfilled.2, keepable.accountFilled,
      keepable.accessFits, keepable.refreshFits, keepable.accountFits, keepable.accountClean⟩⟩
    simp only [credential, hdigit]
    omega

section Sample

/-- The endpoint answers with an opaque access token, which names no account. -/
def sampleText (accessToken : String) : String :=
  "\x7b\"access_token\":\"" ++ accessToken ++
    "\",\"refresh_token\":\"refresh-1\",\"expires_in\":3600\x7d"

def sampleBody (accessToken : String) : List UInt8 :=
  (sampleText accessToken).toByteArray.data.toList

def sampleToken (accessToken : String) : TokenResponse := ⟨accessToken, "refresh-1", 3600, none⟩

/-- No number but plain digits occurs in the samples. -/
def plainHost : CodexHost := serdeHost fun _ => none

def sampleLogin (accessToken : String) : CodexOAuthCredential :=
  ⟨1, accessToken, "refresh-1", 3602000, "account-1"⟩

theorem responseReply_text {text : String} {token : TokenResponse}
    (read : readToken otherNumber text = some token) :
    responseReply otherNumber 200 text.toByteArray.data.toList = .granted token := by
  have htext : String.fromUTF8? ⟨text.toByteArray.data.toList.toArray⟩ = some text := by
    rw [Array.toArray_toList]
    unfold String.fromUTF8?
    rw [dif_pos text.isValidUTF8]
    rfl
  unfold responseReply
  rw [if_pos (by omega), htext, Option.bind_some, read]

theorem tokenResponse_sample {accessToken : String} (filled : accessToken.isEmpty = false)
    (foreign : extractAccountId (fun _ => none) accessToken = none)
    (read : readToken (fun _ => none) (sampleText accessToken) = some (sampleToken accessToken)) :
    tokenResponse plainHost 2000 (responseReply (fun _ => none) 200 (sampleBody accessToken))
      (some "account-1") = .ok (sampleLogin accessToken) := by
  have hreply := responseReply_text read
  have hacceptable : (sampleToken accessToken).isAcceptable = true := by
    have hrefresh : "refresh-1".isEmpty = false := by decide
    simp only [TokenResponse.isAcceptable, sampleToken, filled, hrefresh]
    rfl
  have hid : plainHost.extractAccountId (sampleToken accessToken).accessToken = none := foreign
  unfold sampleBody
  rw [hreply]
  unfold tokenResponse
  have hexpiry : min (2000 + min (3600 * 1000) maxTime) maxTime = 3602000 := by decide
  simp only [hacceptable, if_true, hid]
  simp only [sampleToken, hexpiry]
  rfl

theorem login_reusable_sample :
    validateSecret (plainHost.encode (sampleLogin "access-1")) = .ok () ∧
      CodexOAuthCredential.decode plainHost (plainHost.encode (sampleLogin "access-1")) =
        .ok (sampleLogin "access-1") := by
  have hread : readToken (fun _ => none) (sampleText "access-1") = some (sampleToken "access-1") := by
    decide +kernel
  have hid : extractAccountId (fun _ => none) "access-1" = none := by decide +kernel
  have hgranted := tokenResponse_sample (by decide) hid hread
  refine (login_reusable_iff hgranted).mpr
    ⟨sampleToken "access-1", "account-1", responseReply_text hread, ?_, ?_⟩
  · simp only [accountIdOf]
    have hhost : (serdeHost fun _ => none).extractAccountId (sampleToken "access-1").accessToken =
        none := hid
    rw [hhost]
    rfl
  · have haccess : ∀ c ∈ (sampleToken "access-1").accessToken.toList, c ≠ ' ' ∧ c.toNat < 0x7F :=
      forall_mem_of_all (by decide)
    have hrefresh : ∀ c ∈ (sampleToken "access-1").refreshToken.toList, c ≠ ' ' ∧ c.toNat < 0x7F :=
      forall_mem_of_all (by decide)
    have haccount : ∀ c ∈ "account-1".toList, c ≠ ' ' ∧ c.toNat < 0x7F :=
      forall_mem_of_all (by decide)
    exact ⟨by decide, by decide, by decide, by decide, by decide, haccess, hrefresh, haccount,
      by decide⟩

/-- The endpoint may hand out a token with a space, which the vault refuses. -/
theorem spaced_token_not_stored :
    tokenResponse plainHost 2000 (responseReply (fun _ => none) 200 (sampleBody "access 1"))
        (some "account-1") = .ok (sampleLogin "access 1") ∧
      validateSecret (plainHost.encode (sampleLogin "access 1")) =
        .error (.invalidSecret "credentials must contain visible ASCII characters only") := by
  have hread : readToken (fun _ => none) (sampleText "access 1") = some (sampleToken "access 1") := by
    decide +kernel
  have hid : extractAccountId (fun _ => none) "access 1" = none := by decide +kernel
  exact ⟨tokenResponse_sample (by decide) hid hread, by decide +kernel⟩

end Sample

end Reuse

end AutoHarness.Codex
