import AutoHarness.FallibleRun
import AutoHarness.Value

namespace AutoHarness.Codex

open EventRun (run Along)

inductive ProviderErrorKind where
  | missingCredential
  | authentication
  | timeout
  | unavailable
  | transport
  | protocol
deriving DecidableEq

structure ProviderError where
  kind : ProviderErrorKind
  retryAdvice : RetryAdvice
  httpStatus : Option Nat
deriving DecidableEq

def missingCredentialError : ProviderError := ⟨.missingCredential, .never, none⟩

def authenticationError : ProviderError := ⟨.authentication, .never, none⟩

def protocolError : ProviderError := ⟨.protocol, .never, none⟩

inductive TransportFailure where
  | timeout
  | connect
  | other
deriving DecidableEq

def classifyTransportError : TransportFailure → ProviderError
  | .timeout => ⟨.timeout, .never, none⟩
  | .connect => ⟨.unavailable, .backoff, none⟩
  | .other => ⟨.transport, .never, none⟩

structure CodexOAuthCredential where
  schema : Nat
  accessToken : String
  refreshToken : String
  expiresAtUnixMs : Nat
  accountId : String
deriving DecidableEq

structure TokenResponse where
  accessToken : String
  refreshToken : String
  expiresIn : Nat
  idToken : Option String
deriving DecidableEq

/-- The JSON form of a credential, and what the claims of a token say. -/
structure CodexHost where
  fromJson : String → Option CodexOAuthCredential
  encode : CodexOAuthCredential → String
  extractAccountId : String → Option String
  extractResidency : String → Option String

def credentialSchema : Nat := 1

def maxTime : Nat := 18446744073709551615

def CodexOAuthCredential.expiresSoon (credential : CodexOAuthCredential) (now : Nat) : Bool :=
  credential.expiresAtUnixMs ≤ min (now + 60000) maxTime

/-- What the token endpoint sends back. -/
inductive Reply where
  | failed (failure : TransportFailure)
  | refused (status : Nat)
  | unreadable
  | granted (token : TokenResponse)

def TokenResponse.isAcceptable (token : TokenResponse) : Bool :=
  !(token.accessToken.isEmpty || token.refreshToken.isEmpty || token.expiresIn == 0 ||
    decide (token.expiresIn > 31 * 24 * 60 * 60))

section Provider

variable (host : CodexHost)

def CodexOAuthCredential.decode (encoded : String) : Except ProviderError CodexOAuthCredential :=
  match host.fromJson encoded with
  | none => .error authenticationError
  | some credential =>
    if credential.schema ≠ credentialSchema || credential.accessToken.isEmpty ||
        credential.refreshToken.isEmpty || credential.accountId.isEmpty ||
        credential.accessToken.utf8ByteSize > 16 * 1024 ||
        credential.refreshToken.utf8ByteSize > 16 * 1024 ||
        credential.accountId.utf8ByteSize > 512 || credential.accountId.toList.any isControl then
      .error authenticationError
    else .ok credential

def tokenResponse (now : Nat) (reply : Reply) (existingAccountId : Option String) :
    Except ProviderError CodexOAuthCredential :=
  match reply with
  | .failed failure => .error (classifyTransportError failure)
  | .refused status => .error { authenticationError with httpStatus := some status }
  | .unreadable => .error protocolError
  | .granted token =>
    if token.isAcceptable then
      match ((host.extractAccountId token.accessToken).or
          (token.idToken.bind host.extractAccountId)).or existingAccountId with
      | none => .error authenticationError
      | some accountId => .ok
        { schema := credentialSchema
          accessToken := token.accessToken
          refreshToken := token.refreshToken
          expiresAtUnixMs := min (now + min (token.expiresIn * 1000) maxTime) maxTime
          accountId := accountId }
    else .error protocolError

structure CodexProvider where
  credential : CodexOAuthCredential
  persists : Bool
  redactionSecrets : List String

def CodexProvider.new (encoded : String) (persists : Bool) : Except ProviderError CodexProvider :=
  if isBlank encoded then .error missingCredentialError
  else
    match CodexOAuthCredential.decode host encoded with
    | .error error => .error error
    | .ok credential =>
      .ok ⟨credential, persists, [credential.accessToken, credential.refreshToken]⟩

/-- It accepts one refresh token, once, and answers with one that it never issued. -/
structure AuthorizationServer where
  current : String
  spent : List String

def AuthorizationServer.Fresh (server : AuthorizationServer) (token : TokenResponse) : Prop :=
  token.refreshToken ∉ server.current :: server.spent

instance (server : AuthorizationServer) (token : TokenResponse) : Decidable (server.Fresh token) :=
  inferInstanceAs (Decidable (_ ∉ _))

def AuthorizationServer.answer (server : AuthorizationServer) (presented : String) :
    Reply → Reply × AuthorizationServer
  | .granted token =>
    if presented = server.current ∧ server.Fresh token then
      (.granted token, ⟨token.refreshToken, server.current :: server.spent⟩)
    else (.refused 400, server)
  | reply => (reply, server)

/-- The provider, its vault entry and the server that issues its tokens. -/
structure Login where
  provider : CodexProvider
  vault : Option String
  server : AuthorizationServer

/-- One caller holds the credential's lock from its start to its end. -/
structure Call where
  now : Nat
  reply : Reply
  answeredAt : Nat
  persisted : Except ProviderError Unit

abbrev Usable := String × String × Option String

def usable (credential : CodexOAuthCredential) : Usable :=
  (credential.accessToken, credential.accountId, host.extractResidency credential.accessToken)

def refreshCredential (call : Call) (login : Login) :
    Except ProviderError CodexOAuthCredential × Login :=
  let (reply, server) := login.server.answer login.provider.credential.refreshToken call.reply
  (tokenResponse host call.answeredAt reply (some login.provider.credential.accountId),
    { login with server := server })

def persist (encoded : String) (outcome : Except ProviderError Unit) (login : Login) :
    Except ProviderError Unit × Login :=
  if login.provider.persists then
    match outcome with
    | .error error => (.error error, login)
    | .ok () => (.ok (), { login with vault := some encoded })
  else (.ok (), login)

def usableCredential (call : Call) (login : Login) : Except ProviderError Usable × Login :=
  if login.provider.credential.expiresSoon call.now then
    match refreshCredential host call login with
    | (.error error, login) => (.error error, login)
    | (.ok refreshed, login) =>
      match persist (host.encode refreshed) call.persisted login with
      | (.error error, login) => (.error error, login)
      | (.ok (), login) =>
        (.ok (usable host refreshed), { login with
          provider := { login.provider with
            redactionSecrets := [refreshed.accessToken, refreshed.refreshToken]
            credential := refreshed } })
  else (.ok (usable host login.provider.credential), login)

def step (login : Login) (call : Call) : Login := (usableCredential host call login).2

end Provider

variable {host : CodexHost} {login : Login} {call : Call}

/-- The credential in memory has the refresh token that the server issued last. -/
def Login.Holds (login : Login) : Prop :=
  login.provider.credential.refreshToken = login.server.current

def Login.Redacts (login : Login) : Prop :=
  login.provider.redactionSecrets =
    [login.provider.credential.accessToken, login.provider.credential.refreshToken]

/-- The call asks for a token, and the server is willing to answer it. -/
def Rotates (login : Login) (call : Call) (token : TokenResponse) : Prop :=
  login.provider.credential.expiresSoon call.now = true ∧ call.reply = .granted token ∧
    login.server.Fresh token

/-- What the server issues is accepted, and saved where there is a vault. -/
def Saves (login : Login) (call : Call) : Prop :=
  ∀ token, Rotates login call token →
    token.isAcceptable = true ∧ (login.provider.persists = true → call.persisted = .ok ())

theorem tokenResponse_granted {now : Nat} {token : TokenResponse} {accountId : String} :
    (∃ credential, tokenResponse host now (.granted token) (some accountId) = .ok credential ∧
      credential.refreshToken = token.refreshToken) ↔ token.isAcceptable = true := by
  unfold tokenResponse
  constructor
  · rintro ⟨credential, made, -⟩
    by_contra refused
    simp only [refused] at made
    cases made
  · intro accepted
    simp only [accepted, if_true]
    cases host.extractAccountId token.accessToken with
    | some account => exact ⟨_, rfl, rfl⟩
    | none =>
      cases token.idToken.bind host.extractAccountId with
      | some account => exact ⟨_, rfl, rfl⟩
      | none => exact ⟨_, rfl, rfl⟩

theorem tokenResponse_refused {now : Nat} {reply : Reply} {existing : Option String}
    (h : ∀ token, reply ≠ .granted token) :
    ∃ error, tokenResponse host now reply existing = .error error := by
  cases reply with
  | failed failure => exact ⟨_, rfl⟩
  | refused status => exact ⟨_, rfl⟩
  | unreadable => exact ⟨_, rfl⟩
  | granted token => exact absurd rfl (h token)

/-- The server's state after it has issued a token. -/
def AuthorizationServer.issue (server : AuthorizationServer) (token : TokenResponse) :
    AuthorizationServer :=
  ⟨token.refreshToken, server.current :: server.spent⟩

theorem refreshCredential_granted {token : TokenResponse} (granted : call.reply = .granted token)
    (held : login.Holds) (fresh : login.server.Fresh token) :
    refreshCredential host call login =
      (tokenResponse host call.answeredAt (.granted token) (some login.provider.credential.accountId),
        { login with server := login.server.issue token }) := by
  unfold refreshCredential AuthorizationServer.answer
  simp only [granted]
  rw [if_pos ⟨held, fresh⟩]
  rfl

theorem refreshCredential_refused (host : CodexHost)
    (h : ∀ token, call.reply = .granted token → ¬ (login.Holds ∧ login.server.Fresh token)) :
    ∃ error, refreshCredential host call login = (.error error, login) := by
  have refused : ∃ reply, login.server.answer login.provider.credential.refreshToken call.reply =
      (reply, login.server) ∧ ∀ token, reply ≠ .granted token := by
    cases sent : call.reply with
    | granted token =>
      refine ⟨.refused 400, if_neg (h token sent), ?_⟩
      intro token same
      cases same
    | failed failure => exact ⟨_, rfl, fun token same => by cases same⟩
    | refused status => exact ⟨_, rfl, fun token same => by cases same⟩
    | unreadable => exact ⟨_, rfl, fun token same => by cases same⟩
  obtain ⟨reply, answered, notGranted⟩ := refused
  have rejected : ∃ error, tokenResponse host call.answeredAt reply
      (some login.provider.credential.accountId) = .error error := tokenResponse_refused notGranted
  obtain ⟨error, failed⟩ := rejected
  refine ⟨error, ?_⟩
  simp only [refreshCredential, answered, failed]

theorem step_unchanged (host : CodexHost)
    (h : ∀ token, Rotates login call token → ¬ login.Holds) :
    step host login call = login := by
  unfold step usableCredential
  by_cases soon : login.provider.credential.expiresSoon call.now = true
  · rw [if_pos soon]
    obtain ⟨error, failed⟩ := refreshCredential_refused host fun token granted both =>
      h token ⟨soon, granted, both.2⟩ both.1
    rw [failed]
  · rw [if_neg soon]

theorem step_issued (host : CodexHost) {token : TokenResponse} (rotates : Rotates login call token)
    (held : login.Holds) (lost : ¬ (token.isAcceptable = true ∧
      (login.provider.persists = true → call.persisted = .ok ()))) :
    step host login call = { login with server := login.server.issue token } := by
  obtain ⟨soon, granted, fresh⟩ := rotates
  unfold step usableCredential
  rw [if_pos soon, refreshCredential_granted granted held fresh]
  cases made : tokenResponse host call.answeredAt (.granted token)
      (some login.provider.credential.accountId) with
  | error error => rfl
  | ok refreshed =>
    have accepted : token.isAcceptable = true := by
      by_contra refused
      unfold tokenResponse at made
      simp only [refused] at made
      cases made
    have unsaved : ¬ (login.provider.persists = true → call.persisted = .ok ()) :=
      fun saved => lost ⟨accepted, saved⟩
    obtain ⟨persists, failed⟩ := Classical.not_imp.mp unsaved
    cases outcome : call.persisted with
    | ok value => exact absurd outcome failed
    | error error => simp only [persist, persists, if_true]

theorem step_saved (host : CodexHost) {token : TokenResponse} (rotates : Rotates login call token)
    (held : login.Holds) (accepted : token.isAcceptable = true)
    (saved : login.provider.persists = true → call.persisted = .ok ()) :
    ∃ refreshed vault, refreshed.refreshToken = token.refreshToken ∧
      step host login call =
        ⟨{ login.provider with
            redactionSecrets := [refreshed.accessToken, refreshed.refreshToken]
            credential := refreshed }, vault, login.server.issue token⟩ := by
  obtain ⟨soon, granted, fresh⟩ := rotates
  have response : ∃ refreshed, tokenResponse host call.answeredAt (.granted token)
      (some login.provider.credential.accountId) = .ok refreshed ∧
        refreshed.refreshToken = token.refreshToken := tokenResponse_granted.mpr accepted
  obtain ⟨refreshed, made, same⟩ := response
  unfold step usableCredential
  rw [if_pos soon, refreshCredential_granted granted held fresh, made]
  by_cases persists : login.provider.persists = true
  · refine ⟨refreshed, some (host.encode refreshed), same, ?_⟩
    simp only [persist, persists, if_true, saved persists]
  · refine ⟨refreshed, login.vault, same, ?_⟩
    simp only [persist, persists, if_false, Bool.false_eq_true]

/-- One call keeps the server's last token exactly when what the server issues is saved. -/
theorem holds_step_iff (held : login.Holds) : (step host login call).Holds ↔ Saves login call := by
  by_cases asked : ∃ token, Rotates login call token
  · obtain ⟨token, rotates⟩ := asked
    have saves : Saves login call ↔ token.isAcceptable = true ∧
        (login.provider.persists = true → call.persisted = .ok ()) := by
      constructor
      · exact fun h => h token rotates
      · intro h other again
        have same := rotates.2.1.symm.trans again.2.1
        cases same
        exact h
    by_cases safe : token.isAcceptable = true ∧
        (login.provider.persists = true → call.persisted = .ok ())
    · obtain ⟨refreshed, vault, same, next⟩ := step_saved host rotates held safe.1 safe.2
      have kept : (step host login call).Holds := by
        rw [next]
        exact same
      exact ⟨fun _ => saves.mpr safe, fun _ => kept⟩
    · have next := step_issued host rotates held safe
      have lost : ¬ (step host login call).Holds := by
        rw [next]
        intro still
        have spent : token.refreshToken ≠ login.server.current := by
          intro same
          exact rotates.2.2 (same ▸ List.mem_cons_self)
        exact spent (still.symm.trans held)
      exact ⟨fun still => absurd still lost, fun h => absurd (saves.mp h) safe⟩
  · have idle : ∀ token, ¬ Rotates login call token := fun token h => asked ⟨token, h⟩
    have same := step_unchanged host fun token h => absurd h (idle token)
    rw [same]
    exact ⟨fun _ token h => absurd h (idle token), fun _ => held⟩

theorem Login.Redacts.step (redacts : login.Redacts) : (step host login call).Redacts := by
  by_cases asked : ∃ token, Rotates login call token ∧ login.Holds
  · obtain ⟨token, rotates, held⟩ := asked
    by_cases safe : token.isAcceptable = true ∧
        (login.provider.persists = true → call.persisted = .ok ())
    · obtain ⟨refreshed, vault, -, next⟩ := step_saved host rotates held safe.1 safe.2
      rw [next]
      rfl
    · have next := step_issued host rotates held safe
      rw [next]
      exact redacts
  · have same := step_unchanged host fun token rotates held => asked ⟨token, rotates, held⟩
    rw [same]
    exact redacts

/-- Every refresh that the server is willing to answer succeeds. -/
def Login.Renews (host : CodexHost) (login : Login) : Prop :=
  ∀ call token, Rotates login call token → token.isAcceptable = true →
    ∃ refreshed, (refreshCredential host call login).1 = .ok refreshed ∧
      refreshed.refreshToken = token.refreshToken

theorem Login.Holds.renews (held : login.Holds) : login.Renews host := by
  intro call token rotates accepted
  rw [refreshCredential_granted rotates.2.1 held rotates.2.2]
  exact tokenResponse_granted.mpr accepted

/-- A provider meets a server that issued its refresh token last. -/
def Login.opened (provider : CodexProvider) (vault : Option String) (spent : List String) : Login :=
  ⟨provider, vault, ⟨provider.credential.refreshToken, spent⟩⟩

theorem new_redacts {encoded : String} {persists : Bool} {provider : CodexProvider}
    (made : CodexProvider.new host encoded persists = .ok provider) :
    provider.redactionSecrets = [provider.credential.accessToken, provider.credential.refreshToken] := by
  unfold CodexProvider.new at made
  split at made
  next => cases made
  next =>
    split at made
    next => cases made
    next =>
      cases made
      rfl

theorem login_kept_iff {encoded : String} {persists : Bool} {provider : CodexProvider}
    (made : CodexProvider.new host encoded persists = .ok provider) (vault : Option String)
    (spent : List String) (calls : List Call) :
    (∀ before, before <+: calls →
      (run (step host) (.opened provider vault spent) before).Redacts) ∧
    (∀ before, before <+: calls → (run (step host) (.opened provider vault spent) before).Holds →
      (run (step host) (.opened provider vault spent) before).Renews host) ∧
    ((∀ before, before <+: calls → (run (step host) (.opened provider vault spent) before).Holds) ↔
      Along (step host) Saves (.opened provider vault spent) calls) := by
  refine ⟨?_, fun _ _ held => held.renews, ?_⟩
  · intro before h
    have plain : Along (step host) (fun _ _ => True) (.opened provider vault spent) calls :=
      EventRun.along_of_forall fun _ _ => trivial
    have start : (Login.opened provider vault spent).Redacts := new_redacts made
    exact EventRun.forall_prefix (fun _ _ redacts _ => redacts.step) start plain h
  · exact EventRun.forall_prefix_iff (fun _ _ held => holds_step_iff held) rfl

section Sample

def sampleCredential : CodexOAuthCredential := ⟨1, "access-1", "refresh-1", 0, "account-1"⟩

def samplePayload : String :=
  "\x7b\"schema\":1,\"access_token\":\"access-1\",\"refresh_token\":\"refresh-1\"" ++
    ",\"expires_at_unix_ms\":0,\"account_id\":\"account-1\"\x7d"

def sampleHost : CodexHost where
  fromJson := fun encoded => if encoded = samplePayload then some sampleCredential else none
  encode := fun credential =>
    "\x7b\"schema\":" ++ toString credential.schema ++ ",\"access_token\":\"" ++
      credential.accessToken ++ "\",\"refresh_token\":\"" ++ credential.refreshToken ++
      "\",\"expires_at_unix_ms\":" ++ toString credential.expiresAtUnixMs ++
      ",\"account_id\":\"" ++ credential.accountId ++ "\"\x7d"
  extractAccountId := fun _ => none
  extractResidency := fun _ => none

def sampleProvider : CodexProvider := ⟨sampleCredential, true, ["access-1", "refresh-1"]⟩

/-- The server issues the second token. -/
def sampleCall (persisted : Except ProviderError Unit) : Call :=
  ⟨1000, .granted ⟨"access-2", "refresh-2", 3600, none⟩, 2000, persisted⟩

/-- The server would issue a third. -/
def nextCall : Call :=
  ⟨5000000, .granted ⟨"access-3", "refresh-3", 3600, none⟩, 5000000, .ok ()⟩

theorem new_sample : CodexProvider.new sampleHost samplePayload true = .ok sampleProvider := by
  have written : isBlank samplePayload = false := by decide +kernel
  have decoded : CodexOAuthCredential.decode sampleHost samplePayload = .ok sampleCredential := by
    have read : sampleHost.fromJson samplePayload = some sampleCredential := by
      simp only [sampleHost, if_true]
    unfold CodexOAuthCredential.decode
    rw [read]
    rfl
  unfold CodexProvider.new
  rw [written, decoded]
  rfl

theorem login_kept_saved :
    (run (step sampleHost) (.opened sampleProvider none [])
      [sampleCall (.ok ()), nextCall]).Holds := by
  have kept := login_kept_iff new_sample none [] [sampleCall (.ok ()), nextCall]
  refine kept.2.2.mpr ⟨?_, ?_, trivial⟩ _ (List.prefix_refl _)
  · intro token rotates
    cases rotates.2.1
    exact ⟨rfl, fun _ => rfl⟩
  · intro token rotates
    cases rotates.2.1
    exact ⟨rfl, fun _ => rfl⟩

/-- The vault is busy once, and the retry that its error asks for is refused. -/
theorem unsaved_login_lost :
    ¬ (run (step sampleHost) (.opened sampleProvider none [])
      [sampleCall (.error ⟨.unavailable, .immediate, none⟩)]).Holds ∧
    (usableCredential sampleHost nextCall (run (step sampleHost) (.opened sampleProvider none [])
      [sampleCall (.error ⟨.unavailable, .immediate, none⟩)])).1 =
        .error ⟨.authentication, .never, some 400⟩ := by
  refine ⟨?_, rfl⟩
  intro held
  have same : ("refresh-1" : String) = "refresh-2" := held
  exact absurd same (by decide)

end Sample

end AutoHarness.Codex
