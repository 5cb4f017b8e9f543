import AutoHarness.Identifier

namespace AutoHarness

def maxDisplayLabelChars : Nat := 64

def validateDisplayLabel (value : String) : Except String Unit :=
  if isBlank value then .error "display label must not be empty"
  else if value.toList.length > maxDisplayLabelChars then
    .error "display label must be at most 64 characters"
  else if value.toList.any isControl then
    .error "display label must not contain control characters"
  else .ok ()

/-- A bounded, non-secret label shown for the local user profile. -/
structure DisplayLabel where
  value : String
  valid : validateDisplayLabel value = .ok ()
deriving DecidableEq

def DisplayLabel.new (value : String) : Except String DisplayLabel :=
  match valid : validateDisplayLabel value with
  | .error reason => .error reason
  | .ok _ => .ok ⟨value, valid⟩

inductive ThemePreset where
  | system
  | light
  | dark
  | aurora
  | ember
  | midnight
  | ocean
  | forest
  | rose
deriving DecidableEq, Repr

inductive ColorMode where
  | color
  | soft
  | vivid
  | noColor
  | highContrast
deriving DecidableEq, Repr

inductive GlyphMode where
  | unicode
  | nerdFont
  | ascii
deriving DecidableEq, Repr

inductive Density where
  | comfortable
  | compact
deriving DecidableEq, Repr

inductive Layout where
  | responsive
  | singleColumn
deriving DecidableEq, Repr

inductive TimestampStyle where
  | relative
  | absolute
  | hidden
deriving DecidableEq, Repr

inductive ComposerSubmitBehavior where
  | controlS
  | enter
deriving DecidableEq, Repr

inductive GuiFontSize where
  | small
  | standard
  | large
  | extraLarge
deriving DecidableEq, Repr

inductive PromptStatusDetail where
  | essential
  | workspace
  | detailed
deriving DecidableEq, Repr

/-- Validated whole-percent desktop zoom. -/
structure GuiZoomPercent where
  value : Nat
  supported : 75 ≤ value ∧ value ≤ 200
deriving DecidableEq

def GuiZoomPercent.new (value : Nat) : Except String GuiZoomPercent :=
  if supported : 75 ≤ value ∧ value ≤ 200 then .ok ⟨value, supported⟩
  else .error "GUI zoom must be between 75 and 200 percent"

structure SharedPreferences where
  themePreset : Option ThemePreset
  colorMode : Option ColorMode
  reducedMotion : Option Bool
  density : Option Density
  timestampStyle : Option TimestampStyle
  composerSubmitBehavior : Option ComposerSubmitBehavior
deriving DecidableEq

structure GuiPreferences where
  zoomPercent : Option GuiZoomPercent
  fontSize : Option GuiFontSize
deriving DecidableEq

structure TerminalPreferences where
  glyphMode : Option GlyphMode
  layout : Option Layout
  promptStatusDetail : Option PromptStatusDetail
deriving DecidableEq

/-- Optional local preferences stored by one configuration layer. -/
structure LocalPreferences where
  shared : SharedPreferences
  gui : GuiPreferences
  terminal : TerminalPreferences
deriving DecidableEq

def SharedPreferences.empty : SharedPreferences := ⟨none, none, none, none, none, none⟩

def GuiPreferences.empty : GuiPreferences := ⟨none, none⟩

def TerminalPreferences.empty : TerminalPreferences := ⟨none, none, none⟩

def LocalPreferences.new : LocalPreferences := ⟨.empty, .empty, .empty⟩

/-- Local identity and preferences stored in a settings document. -/
structure LocalProfile where
  displayLabel : Option DisplayLabel
  preferences : LocalPreferences
deriving DecidableEq

def LocalProfile.new : LocalProfile := ⟨none, .new⟩

/-- Which configuration layer supplied an effective value. -/
inductive Source where
  | default
  | userFile
  | workspaceFile
  | environment
  | commandLine
deriving DecidableEq, Repr

/-- One effective leaf value and the layer that supplied it. -/
structure EffectiveValue (α : Type) where
  value : α
  source : Source
deriving DecidableEq

structure EffectiveLocalPreferences where
  themePreset : EffectiveValue ThemePreset
  colorMode : EffectiveValue ColorMode
  glyphMode : EffectiveValue GlyphMode
  reducedMotion : EffectiveValue Bool
  density : EffectiveValue Density
  layout : EffectiveValue Layout
  terminalTimestampStyle : EffectiveValue TimestampStyle
  composerSubmitBehavior : EffectiveValue ComposerSubmitBehavior
  promptStatusDetail : EffectiveValue PromptStatusDetail
  guiZoomPercent : EffectiveValue GuiZoomPercent
  guiFontSize : EffectiveValue GuiFontSize
deriving DecidableEq

structure EffectiveLocalProfile where
  displayLabel : EffectiveValue (Option DisplayLabel)
  preferences : EffectiveLocalPreferences
deriving DecidableEq

end AutoHarness
