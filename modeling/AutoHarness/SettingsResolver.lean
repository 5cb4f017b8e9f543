import AutoHarness.SettingsParser
import AutoHarness.JsonText

namespace AutoHarness

inductive LayerKind where
  | userFile
  | workspaceFile
deriving DecidableEq, Repr

def LayerKind.label : LayerKind → String
  | .userFile => "user settings file"
  | .workspaceFile => "workspace settings file"

def LayerKind.source : LayerKind → Source
  | .userFile => .userFile
  | .workspaceFile => .workspaceFile

inductive SettingsError where
  | malformedLayer (layer : String)
  | unsupportedSchemaVersion (layer : String) (found : Nat)
  | disallowedWorkspaceKey (key : String)
  | invalidMerge (reason : String)
deriving DecidableEq, Repr

def SettingsError.text : SettingsError → String
  | .malformedLayer layer => "the " ++ layer ++ " could not be parsed and was ignored"
  | .unsupportedSchemaVersion layer found =>
    "the " ++ layer ++ " declares unsupported schema version " ++ toString found ++
      "; it was ignored"
  | .disallowedWorkspaceKey key => "the workspace settings file may not override '" ++ key ++ "'"
  | .invalidMerge reason => reason

section WorkspaceFilter

/-- Every key of an object passes; what is not an object is not looked into. -/
def validateKeys (check : String → JsonValue → Except SettingsError Unit) :
    JsonValue → Except SettingsError Unit
  | .object fields => fields.forM fun field => check field.1 field.2
  | _ => .ok ()

/-- `validate_workspace_preference_group`. -/
def validateWorkspacePreferenceGroup (group : String) (permitted : List String) :
    JsonValue → Except SettingsError Unit :=
  validateKeys fun key _ =>
    if permitted.contains key then .ok ()
    else .error (.disallowedWorkspaceKey ("local_profile.preferences." ++ group ++ "." ++ key))

def workspaceSharedKeys : List String :=
  ["theme_preset", "color_mode", "reduced_motion", "density", "timestamp_style"]

def workspaceLegacyKeys : List String :=
  ["theme_preset", "color_mode", "glyph_mode", "reduced_motion", "density", "layout",
    "terminal_timestamp_style", "prompt_status_detail"]

def validateLegacyWorkspacePreferences : JsonValue → Except SettingsError Unit :=
  validateKeys fun key _ =>
    if workspaceLegacyKeys.contains key then .ok ()
    else .error (.disallowedWorkspaceKey ("local_profile.preferences." ++ key))

def validateWorkspacePreferences (version : Nat) (value : JsonValue) :
    Except SettingsError Unit :=
  if version < SettingsParser.settingsSchemaVersion then validateLegacyWorkspacePreferences value
  else
    validateKeys (fun key value =>
      if key = "shared" then validateWorkspacePreferenceGroup "shared" workspaceSharedKeys value
      else if key = "gui" then
        validateWorkspacePreferenceGroup "gui" ["zoom_percent", "font_size"] value
      else if key = "terminal" then
        validateWorkspacePreferenceGroup "terminal" ["glyph_mode", "layout", "prompt_status_detail"]
          value
      else .error (.disallowedWorkspaceKey ("local_profile.preferences." ++ key))) value

def validateWorkspaceLocalProfile (version : Nat) : JsonValue → Except SettingsError Unit :=
  validateKeys fun key value =>
    if key = "preferences" then validateWorkspacePreferences version value
    else .error (.disallowedWorkspaceKey ("local_profile." ++ key))

def validateWorkspaceDocument (version : Nat) : JsonValue → Except SettingsError Unit :=
  validateKeys fun key value =>
    if key = "schema_version" then .ok ()
    else if key = "local_profile" then validateWorkspaceLocalProfile version value
    else .error (.disallowedWorkspaceKey key)

end WorkspaceFilter

/-- The version that a layer declares; anything but an unsigned integer counts as current. -/
def declaredVersion (value : JsonValue) : Nat :=
  ((value.get? "schema_version").bind JsonValue.asU64?).getD SettingsParser.settingsSchemaVersion

/-- Only a workspace layer is confined in what it may set. -/
def admitLayer (kind : LayerKind) (value : JsonValue) : Except SettingsError Unit :=
  if kind = .workspaceFile then validateWorkspaceDocument (declaredVersion value) value
  else .ok ()

def decodeLayer (kind : LayerKind) (value : JsonValue) : Except SettingsError SettingsDocument :=
  match SettingsParser.settingsDocument value with
  | none => .error (.malformedLayer kind.label)
  | some document => .ok document

/-- The parsed value of a layer, read into a document. -/
def readLayer (kind : LayerKind) (value : JsonValue) : Except SettingsError SettingsDocument :=
  if !value.isObject then .error (.malformedLayer kind.label)
  else if declaredVersion value > SettingsParser.settingsSchemaVersion then
    .error (.unsupportedSchemaVersion kind.label (min (declaredVersion value) 4294967295))
  else do
    admitLayer kind value
    decodeLayer kind value

structure RawLocalProfile where
  displayLabel : Option (DisplayLabel × Source)
  themePreset : Option (ThemePreset × Source)
  colorMode : Option (ColorMode × Source)
  glyphMode : Option (GlyphMode × Source)
  reducedMotion : Option (Bool × Source)
  density : Option (Density × Source)
  layout : Option (Layout × Source)
  terminalTimestampStyle : Option (TimestampStyle × Source)
  composerSubmitBehavior : Option (ComposerSubmitBehavior × Source)
  promptStatusDetail : Option (PromptStatusDetail × Source)
  guiZoomPercent : Option (GuiZoomPercent × Source)
  guiFontSize : Option (GuiFontSize × Source)

structure RawLayer where
  provider : Option (ProviderKind × Source)
  activeProfile : Option (ProfileId × Source)
  profiles : SortedMap ProfileId (ProviderProfile × Source)
  localProfile : RawLocalProfile

def RawLayer.empty : RawLayer :=
  ⟨none, none, .empty, ⟨none, none, none, none, none, none, none, none, none, none, none, none⟩⟩

/-- A value of a later layer replaces that of an earlier one. -/
def override {α : Type} (source : Source) (merged : Option (α × Source)) (value : Option α) :
    Option (α × Source) :=
  match value with
  | some value => some (value, source)
  | none => merged

def mergeLocalProfile (source : Source) (merged : RawLocalProfile) (profile : LocalProfile) :
    RawLocalProfile :=
  let shared := profile.preferences.shared
  let gui := profile.preferences.gui
  let terminal := profile.preferences.terminal
  { displayLabel := override source merged.displayLabel profile.displayLabel
    themePreset := override source merged.themePreset shared.themePreset
    colorMode := override source merged.colorMode shared.colorMode
    glyphMode := override source merged.glyphMode terminal.glyphMode
    reducedMotion := override source merged.reducedMotion shared.reducedMotion
    density := override source merged.density shared.density
    layout := override source merged.layout terminal.layout
    terminalTimestampStyle := override source merged.terminalTimestampStyle shared.timestampStyle
    composerSubmitBehavior :=
      override source merged.composerSubmitBehavior shared.composerSubmitBehavior
    promptStatusDetail := override source merged.promptStatusDetail terminal.promptStatusDetail
    guiZoomPercent := override source merged.guiZoomPercent gui.zoomPercent
    guiFontSize := override source merged.guiFontSize gui.fontSize }

def mergeDocument (source : Source) (merged : RawLayer) (document : SettingsDocument) : RawLayer where
  provider := override source merged.provider document.provider
  activeProfile := override source merged.activeProfile document.activeProfile
  profiles := document.profiles.entries.foldl
    (fun profiles entry => profiles.insert entry.1 (entry.2, source)) merged.profiles
  localProfile := mergeLocalProfile source merged.localProfile document.localProfile

def effectiveLeaf {α : Type} (default : α) : Option (α × Source) → EffectiveValue α
  | some (value, source) => ⟨value, source⟩
  | none => ⟨default, .default⟩

def effectiveOptionalLeaf {α : Type} : Option (α × Source) → EffectiveValue (Option α)
  | some (value, source) => ⟨some value, source⟩
  | none => ⟨none, .default⟩

def GuiZoomPercent.default : GuiZoomPercent := ⟨100, by omega⟩

def effectiveLocalProfile (raw : RawLocalProfile) : EffectiveLocalProfile where
  displayLabel := effectiveOptionalLeaf raw.displayLabel
  preferences := {
    themePreset := effectiveLeaf .system raw.themePreset
    colorMode := effectiveLeaf .color raw.colorMode
    glyphMode := effectiveLeaf .unicode raw.glyphMode
    reducedMotion := effectiveLeaf false raw.reducedMotion
    density := effectiveLeaf .comfortable raw.density
    layout := effectiveLeaf .responsive raw.layout
    terminalTimestampStyle := effectiveLeaf .relative raw.terminalTimestampStyle
    composerSubmitBehavior := effectiveLeaf .controlS raw.composerSubmitBehavior
    promptStatusDetail := effectiveLeaf .workspace raw.promptStatusDetail
    guiZoomPercent := effectiveLeaf .default raw.guiZoomPercent
    guiFontSize := effectiveLeaf .standard raw.guiFontSize }

structure ResolvedSettings where
  inner : RawLayer
  localProfile : EffectiveLocalProfile
  diagnostics : List String

/-- What the layers read so far come to. -/
structure Merging where
  merged : RawLayer
  diagnostics : List String

def parseProviderValue (value : String) : Option ProviderKind :=
  let name := String.ofList ((trim value).toList.map Char.toLower)
  if name = "gemini" ∨ name = "google" then some .gemini
  else if name = "router" ∨ name = "openai" then some .router
  else none

/-- One variable of the environment. -/
def applyVariable (m : Merging) (setting : String × String) : Merging :=
  if setting.1 = "AUTOHARNESS_PROVIDER" then
    match parseProviderValue setting.2 with
    | some kind => { m with merged := { m.merged with provider := some (kind, .environment) } }
    | none => { m with diagnostics := m.diagnostics ++ ["unknown provider '" ++ setting.2 ++ "'"] }
  else m

/-- The layers and the environment, with the parser of JSON text. -/
structure SettingsBuilder where
  fromStr : String → Option JsonValue
  layers : List (LayerKind × String)
  environment : List (String × String)

namespace SettingsBuilder

variable (builder : SettingsBuilder)

def withLayer (kind : LayerKind) (json : String) : SettingsBuilder :=
  { builder with layers := builder.layers ++ [(kind, json)] }

def parseLayer (kind : LayerKind) (json : String) : Except SettingsError SettingsDocument :=
  if isBlank json then .ok .new
  else
    match builder.fromStr json with
    | none => .error (.malformedLayer kind.label)
    | some value => readLayer kind value

/-- A layer that cannot be parsed is skipped; one that is refused ends the resolution. -/
def addLayer (m : Merging) (layer : LayerKind × String) : Except SettingsError Merging :=
  match builder.parseLayer layer.1 layer.2 with
  | .ok document => .ok { m with merged := mergeDocument layer.1.source m.merged document }
  | .error (.unsupportedSchemaVersion name found) => .error (.unsupportedSchemaVersion name found)
  | .error (.disallowedWorkspaceKey key) => .error (.disallowedWorkspaceKey key)
  | .error e => .ok { m with diagnostics := m.diagnostics ++ [e.text] }

def addLayers (kind : LayerKind) (m : Merging) : Except SettingsError Merging :=
  (builder.layers.filter fun layer => layer.1 = kind).foldlM builder.addLayer m

/-- An active profile has to be declared by some layer. -/
def finish (m : Merging) : Except SettingsError ResolvedSettings :=
  match m.merged.activeProfile with
  | some (active, _) =>
    if (m.merged.profiles.find? active).isNone then
      .error (.invalidMerge ("active profile '" ++ active.value ++ "' is not declared"))
    else .ok ⟨m.merged, effectiveLocalProfile m.merged.localProfile, m.diagnostics⟩
  | none => .ok ⟨m.merged, effectiveLocalProfile m.merged.localProfile, m.diagnostics⟩

def resolve : Except SettingsError ResolvedSettings := do
  let users ← builder.addLayers .userFile ⟨.empty, []⟩
  let layers ← builder.addLayers .workspaceFile users
  finish (builder.environment.foldl applyVariable layers)

end SettingsBuilder

end AutoHarness
