import AutoHarness.Serde
import AutoHarness.SettingsDocument

namespace AutoHarness

namespace SettingsParser

open Serde

def okOnly {α : Type} : Except String α → Option α
  | .ok value => some value
  | .error _ => none

def profileId (value : JsonValue) : Option ProfileId := do
  let text ← string value
  okOnly (ProfileId.new text)

def credentialReference (value : JsonValue) : Option CredentialReference := do
  let text ← string value
  okOnly (CredentialReference.new text)

def displayLabel (value : JsonValue) : Option DisplayLabel := do
  let text ← string value
  okOnly (DisplayLabel.new text)

def zoomPercent (value : JsonValue) : Option GuiZoomPercent := do
  let percent ← unsigned 65536 value
  okOnly (GuiZoomPercent.new percent)

def providerKind : JsonValue → Option ProviderKind :=
  variant [("gemini", .gemini), ("router", .router), ("codexcli", .codexCli)]

def recoveryKind : JsonValue → Option CredentialRecoveryKind :=
  variant [("uncommitted_save", .uncommittedSave), ("delete", .delete)]

def themePreset : JsonValue → Option ThemePreset :=
  variant [("system", .system), ("light", .light), ("dark", .dark), ("aurora", .aurora),
    ("ember", .ember), ("midnight", .midnight), ("ocean", .ocean), ("forest", .forest),
    ("rose", .rose)]

def colorMode : JsonValue → Option ColorMode :=
  variant [("color", .color), ("soft", .soft), ("vivid", .vivid), ("no_color", .noColor),
    ("high_contrast", .highContrast)]

def glyphMode : JsonValue → Option GlyphMode :=
  variant [("unicode", .unicode), ("nerd_font", .nerdFont), ("ascii", .ascii)]

def density : JsonValue → Option Density :=
  variant [("comfortable", .comfortable), ("compact", .compact)]

def layout : JsonValue → Option Layout :=
  variant [("responsive", .responsive), ("single_column", .singleColumn)]

def timestampStyle : JsonValue → Option TimestampStyle :=
  variant [("relative", .relative), ("absolute", .absolute), ("hidden", .hidden)]

def composerSubmitBehavior : JsonValue → Option ComposerSubmitBehavior :=
  variant [("control_s", .controlS), ("enter", .enter)]

def fontSize : JsonValue → Option GuiFontSize :=
  variant [("small", .small), ("standard", .standard), ("large", .large),
    ("extra_large", .extraLarge)]

def promptStatusDetail : JsonValue → Option PromptStatusDetail :=
  variant [("essential", .essential), ("workspace", .workspace), ("detailed", .detailed)]

def sharedNames : List String :=
  ["theme_preset", "color_mode", "reduced_motion", "density", "timestamp_style",
    "composer_submit_behavior"]

def sharedPreferences (value : JsonValue) : Option SharedPreferences := do
  guard (shaped sharedNames value)
  let theme ← optional themePreset (member sharedNames "theme_preset" value)
  let color ← optional colorMode (member sharedNames "color_mode" value)
  let motion ← optional bool (member sharedNames "reduced_motion" value)
  let density ← optional density (member sharedNames "density" value)
  let timestamp ← optional timestampStyle (member sharedNames "timestamp_style" value)
  let composer ← optional composerSubmitBehavior (member sharedNames "composer_submit_behavior" value)
  some ⟨theme, color, motion, density, timestamp, composer⟩

def guiNames : List String := ["zoom_percent", "font_size"]

def guiPreferences (value : JsonValue) : Option GuiPreferences := do
  guard (shaped guiNames value)
  let zoom ← optional zoomPercent (member guiNames "zoom_percent" value)
  let font ← optional fontSize (member guiNames "font_size" value)
  some ⟨zoom, font⟩

def terminalNames : List String := ["glyph_mode", "layout", "prompt_status_detail"]

def terminalPreferences (value : JsonValue) : Option TerminalPreferences := do
  guard (shaped terminalNames value)
  let glyph ← optional glyphMode (member terminalNames "glyph_mode" value)
  let layout ← optional layout (member terminalNames "layout" value)
  let status ← optional promptStatusDetail (member terminalNames "prompt_status_detail" value)
  some ⟨glyph, layout, status⟩

def preferenceNames : List String := ["shared", "gui", "terminal"]

def localPreferences (value : JsonValue) : Option LocalPreferences := do
  guard (shaped preferenceNames value)
  let shared ← orDefault sharedPreferences .empty (member preferenceNames "shared" value)
  let gui ← orDefault guiPreferences .empty (member preferenceNames "gui" value)
  let terminal ← orDefault terminalPreferences .empty (member preferenceNames "terminal" value)
  some ⟨shared, gui, terminal⟩

def localProfileNames : List String := ["display_label", "preferences"]

def localProfile (value : JsonValue) : Option LocalProfile := do
  guard (shaped localProfileNames value)
  let label ← optional displayLabel (member localProfileNames "display_label" value)
  let preferences ← orDefault localPreferences .new (member localProfileNames "preferences" value)
  some ⟨label, preferences⟩

def legacyNames : List String :=
  ["theme_preset", "color_mode", "glyph_mode", "reduced_motion", "density", "layout",
    "terminal_timestamp_style", "composer_submit_behavior", "prompt_status_detail"]

/-- The flat preferences of the older schemas, moved to their groups. -/
def legacyPreferences (value : JsonValue) : Option LocalPreferences := do
  guard (shaped legacyNames value)
  let theme ← optional themePreset (member legacyNames "theme_preset" value)
  let color ← optional colorMode (member legacyNames "color_mode" value)
  let glyph ← optional glyphMode (member legacyNames "glyph_mode" value)
  let motion ← optional bool (member legacyNames "reduced_motion" value)
  let density ← optional density (member legacyNames "density" value)
  let layout ← optional layout (member legacyNames "layout" value)
  let timestamp ← optional timestampStyle (member legacyNames "terminal_timestamp_style" value)
  let composer ← optional composerSubmitBehavior (member legacyNames "composer_submit_behavior" value)
  let status ← optional promptStatusDetail (member legacyNames "prompt_status_detail" value)
  some ⟨⟨theme, color, motion, density, timestamp, composer⟩, .empty, ⟨glyph, layout, status⟩⟩

def legacyLocalProfile (value : JsonValue) : Option LocalProfile := do
  guard (shaped localProfileNames value)
  let label ← optional displayLabel (member localProfileNames "display_label" value)
  let preferences ← orDefault legacyPreferences .new (member localProfileNames "preferences" value)
  some ⟨label, preferences⟩

def credentialDocument (value : JsonValue) : Option CredentialReference := do
  guard (shaped ["reference"] value)
  required credentialReference (member ["reference"] "reference" value)

def providerProfileNames : List String :=
  ["kind", "base_url", "project", "auth_header", "models_path", "chat_path", "default_model",
    "default_reasoning_effort", "credential"]

def providerProfile (value : JsonValue) : Option ProviderProfile := do
  guard (shaped providerProfileNames value)
  let kind ← required providerKind (member providerProfileNames "kind" value)
  let baseUrl ← optional string (member providerProfileNames "base_url" value)
  let project ← optional string (member providerProfileNames "project" value)
  let header ← optional string (member providerProfileNames "auth_header" value)
  let models ← optional string (member providerProfileNames "models_path" value)
  let chat ← optional string (member providerProfileNames "chat_path" value)
  let model ← optional string (member providerProfileNames "default_model" value)
  let effort ← optional string (member providerProfileNames "default_reasoning_effort" value)
  let credential ← optional credentialDocument (member providerProfileNames "credential" value)
  some ⟨kind, baseUrl, project, header, models, chat, model, effort, credential⟩

def profileEntries : List (String × JsonValue) → SortedMap ProfileId ProviderProfile →
    Option (SortedMap ProfileId ProviderProfile)
  | [], profiles => some profiles
  | (name, value) :: rest, profiles => do
    let id ← okOnly (ProfileId.new name)
    let profile ← providerProfile value
    profileEntries rest (profiles.insert id profile)

/-- A map is read from an object only. -/
def profiles : JsonValue → Option (SortedMap ProfileId ProviderProfile)
  | .object fields => profileEntries fields .empty
  | _ => none

def recoveryNames : List String := ["profile", "reference", "kind"]

def recoveryRecord (value : JsonValue) : Option CredentialRecoveryRecord := do
  guard (shaped recoveryNames value)
  let profile ← required profileId (member recoveryNames "profile" value)
  let reference ← required credentialReference (member recoveryNames "reference" value)
  let kind ← required recoveryKind (member recoveryNames "kind" value)
  some ⟨profile, reference, kind⟩

def settingsSchemaVersion : Nat := 5

def documentNames : List String :=
  ["schema_version", "provider", "profiles", "active_profile", "credential_recovery",
    "local_profile"]

/-- The local profile in the layout of the declared schema. -/
def versionedLocalProfile (version : Nat) : Option JsonValue → Option LocalProfile
  | none => some .new
  | some value =>
    if version < settingsSchemaVersion then legacyLocalProfile value else localProfile value

def supportedVersion (value : JsonValue) : Option Nat := do
  let version ← unsigned 4294967296 value
  guard (1 ≤ version ∧ version ≤ settingsSchemaVersion)
  some version

/-- `SettingsDocument::deserialize`. -/
def settingsDocument (value : JsonValue) : Option SettingsDocument := do
  guard (shaped documentNames value)
  let version ← required supportedVersion (member documentNames "schema_version" value)
  let provider ← optional providerKind (member documentNames "provider" value)
  let profiles ← orDefault profiles .empty (member documentNames "profiles" value)
  let active ← optional profileId (member documentNames "active_profile" value)
  let recovery ← orDefault (list recoveryRecord) [] (member documentNames "credential_recovery" value)
  let present ← optional some (member documentNames "local_profile" value)
  let localProfile ← versionedLocalProfile version present
  some ⟨provider, profiles, active, recovery, localProfile⟩

end SettingsParser

end AutoHarness
