import AutoHarness.WorkspaceFilter

open FallibleRun (bind_eq_ok_iff)

namespace AutoHarness

open Serde SettingsParser

/-- The settings that are the user's alone, with where they come from. -/
structure UserSettings where
  provider : Option (ProviderKind × Source)
  activeProfile : Option (ProfileId × Source)
  profiles : SortedMap ProfileId (ProviderProfile × Source)
  displayLabel : EffectiveValue (Option DisplayLabel)
  composerSubmitBehavior : EffectiveValue ComposerSubmitBehavior

def ResolvedSettings.userSettings (settings : ResolvedSettings) : UserSettings where
  provider := settings.inner.provider
  activeProfile := settings.inner.activeProfile
  profiles := settings.inner.profiles
  displayLabel := settings.localProfile.displayLabel
  composerSubmitBehavior := settings.localProfile.preferences.composerSubmitBehavior

section Merging

variable {m other : Merging}

/-- The same provider and profiles, whatever the presentation. -/
def SameRouting (m other : Merging) : Prop :=
  m.merged.provider = other.merged.provider ∧
    m.merged.activeProfile = other.merged.activeProfile ∧ m.merged.profiles = other.merged.profiles

theorem applyVariable_localProfile (m : Merging) (setting : String × String) :
    (applyVariable m setting).merged.localProfile = m.merged.localProfile := by
  unfold applyVariable
  split
  next => split <;> rfl
  next => rfl

theorem applyVariable_sameRouting (h : SameRouting m other) (setting : String × String) :
    SameRouting (applyVariable m setting) (applyVariable other setting) := by
  obtain ⟨provider, active, profiles⟩ := h
  unfold applyVariable
  split
  next =>
    split
    next => exact ⟨rfl, active, profiles⟩
    next => exact ⟨provider, active, profiles⟩
  next => exact ⟨provider, active, profiles⟩

theorem environment_localProfile (environment : List (String × String)) (m : Merging) :
    (environment.foldl applyVariable m).merged.localProfile = m.merged.localProfile := by
  induction environment generalizing m with
  | nil => rfl
  | cons setting rest ih => exact (ih _).trans (applyVariable_localProfile m setting)

theorem environment_sameRouting (environment : List (String × String))
    (h : SameRouting m other) :
    SameRouting (environment.foldl applyVariable m) (environment.foldl applyVariable other) := by
  induction environment generalizing m other with
  | nil => exact h
  | cons setting rest ih => exact ih (applyVariable_sameRouting h setting)

theorem finish_ok {settings : ResolvedSettings} (h : SettingsBuilder.finish m = .ok settings) :
    settings = ⟨m.merged, effectiveLocalProfile m.merged.localProfile, m.diagnostics⟩ := by
  unfold SettingsBuilder.finish at h
  split at h
  next =>
    split at h
    next => cases h
    next => exact (Except.ok.inj h).symm
  next => exact (Except.ok.inj h).symm

/-- Whether the merge is accepted depends on the routing only. -/
theorem finish_sameRouting {settings : ResolvedSettings} (same : SameRouting m other)
    (h : SettingsBuilder.finish m = .ok settings) :
    SettingsBuilder.finish other =
      .ok ⟨other.merged, effectiveLocalProfile other.merged.localProfile, other.diagnostics⟩ := by
  obtain ⟨-, active, profiles⟩ := same
  unfold SettingsBuilder.finish at h ⊢
  rw [← active, ← profiles]
  split at h
  next found =>
    split at h
    next => cases h
    next declared => rw [if_neg declared]
  next found => rfl

theorem mergeDocument_workspace {document : SettingsDocument} (provider : document.provider = none)
    (active : document.activeProfile = none) (profiles : document.profiles = .empty)
    (diagnostics : List String) (source : Source) :
    SameRouting ⟨mergeDocument source m.merged document, diagnostics⟩ m := by
  unfold SameRouting mergeDocument
  rw [provider, active, profiles]
  exact ⟨rfl, rfl, rfl⟩

end Merging

section Confinement

variable {builder : SettingsBuilder} {fromStr : String → Option JsonValue}
  {user workspace : String} {environment : List (String × String)} {m merged : Merging}
  {document : SettingsDocument}

/-- Nothing in the workspace layer stands for the display label or the submit behaviour. -/
def LeavesReserved (fromStr : String → Option JsonValue) (workspace : String) : Prop :=
  ∀ value, isBlank workspace = false → fromStr workspace = some value → value.isObject = true →
    (settingsDocument value).isSome = true →
      Silent (displayLabelAt value) ∧ Silent (composerAt (declaredVersion value) value)

/-- The document of an accepted workspace layer. -/
theorem parseLayer_workspace (h : builder.parseLayer .workspaceFile workspace = .ok document) :
    (document.provider = none ∧ document.activeProfile = none ∧ document.profiles = .empty) ∧
      ((document.localProfile.displayLabel = none ∧
        document.localProfile.preferences.shared.composerSubmitBehavior = none) ↔
          LeavesReserved builder.fromStr workspace) := by
  unfold SettingsBuilder.parseLayer at h
  split at h
  next blank =>
    cases Except.ok.inj h
    refine ⟨⟨rfl, rfl, rfl⟩, ?_⟩
    have reserved : LeavesReserved builder.fromStr workspace := by
      intro value filled
      rw [blank] at filled
      cases filled
    exact iff_of_true ⟨rfl, rfl⟩ reserved
  next filled =>
    split at h
    next => cases h
    next value found =>
      refine ⟨readLayer_workspace_silent h, ?_⟩
      obtain ⟨fields, rfl, -, read⟩ := readLayer_workspace h
      obtain ⟨label, composer⟩ := decoded_leaves (settingsDocument_decoded read)
      rw [label, composer]
      constructor
      · intro silent value _ same _ _
        rw [found] at same
        cases Option.some.inj same
        exact silent
      · intro reserved
        exact reserved _ (by simpa using filled) found rfl (by rw [read]; rfl)

/-- A workspace layer that is skipped says nothing. -/
theorem parseLayer_skipped {e : SettingsError}
    (h : builder.parseLayer .workspaceFile workspace = .error e) (notRefused : ¬ Refusal e)
    (supported : ∀ layer found, e ≠ .unsupportedSchemaVersion layer found) :
    LeavesReserved builder.fromStr workspace := by
  intro value filled found object decodes
  unfold SettingsBuilder.parseLayer at h
  rw [if_neg (by simp [filled]), found] at h
  simp only [readLayer, object, Bool.not_true, Bool.false_eq_true, if_false] at h
  split at h
  next => exact absurd (Except.error.inj h).symm (supported _ _)
  next =>
    cases admitted : admitLayer .workspaceFile value with
    | error reason =>
      rw [admitted] at h
      cases Except.error.inj h
      exact absurd (validateWorkspaceDocument_refusal admitted) notRefused
    | ok passed =>
      rw [admitted] at h
      obtain ⟨decoded, some⟩ := Option.isSome_iff_exists.mp decodes
      have fails : decodeLayer .workspaceFile value = .error e := h
      unfold decodeLayer at fails
      rw [some] at fails
      cases fails

theorem addLayer_cases {layer : LayerKind × String} (h : builder.addLayer m layer = .ok merged) :
    (∃ document, builder.parseLayer layer.1 layer.2 = .ok document ∧
      merged = ⟨mergeDocument layer.1.source m.merged document, m.diagnostics⟩) ∨
    (merged.merged = m.merged ∧ ∃ e, builder.parseLayer layer.1 layer.2 = .error e ∧ ¬ Refusal e ∧
      ∀ name found, e ≠ .unsupportedSchemaVersion name found) := by
  unfold SettingsBuilder.addLayer at h
  split at h
  next document parsed => exact .inl ⟨document, parsed, (Except.ok.inj h).symm⟩
  next => cases h
  next => cases h
  next e supported allowed parsed =>
    refine .inr ⟨by rw [← Except.ok.inj h], e, parsed, ?_, ?_⟩
    · rintro ⟨key, rfl⟩
      exact allowed key rfl
    · intro name found same
      exact supported name found same

/-- The leaf comes from the user's file, if it is set at all. -/
def FromUser {α : Type} (leaf : Option (α × Source)) : Prop := ∀ set ∈ leaf, set.2 = .userFile

theorem effectiveLeaf_override {α : Type} {leaf : Option (α × Source)} (old : FromUser leaf)
    (default : α) (value : Option α) :
    effectiveLeaf default (override .workspaceFile leaf value) = effectiveLeaf default leaf ↔
      value = none := by
  cases value with
  | none => simp [override]
  | some value =>
    refine iff_of_false ?_ (by simp)
    intro same
    have sources := congrArg EffectiveValue.source same
    cases leaf with
    | none => cases sources
    | some set =>
      have user := old set rfl
      change Source.workspaceFile = set.2 at sources
      rw [user] at sources
      cases sources

theorem effectiveOptionalLeaf_override {α : Type} {leaf : Option (α × Source)}
    (old : FromUser leaf) (value : Option α) :
    effectiveOptionalLeaf (override .workspaceFile leaf value) = effectiveOptionalLeaf leaf ↔
      value = none := by
  cases value with
  | none => simp [override]
  | some value =>
    refine iff_of_false ?_ (by simp)
    intro same
    have sources := congrArg EffectiveValue.source same
    cases leaf with
    | none => cases sources
    | some set =>
      have user := old set rfl
      change Source.workspaceFile = set.2 at sources
      rw [user] at sources
      cases sources

theorem override_fromUser {α : Type} (value : Option α) :
    FromUser (override .userFile none value) := by
  intro set mem
  cases value with
  | none => cases mem
  | some value =>
    cases Option.some.inj mem
    rfl

theorem addLayer_user (h : builder.addLayer ⟨.empty, []⟩ (.userFile, user) = .ok merged) :
    FromUser merged.merged.localProfile.displayLabel ∧
      FromUser merged.merged.localProfile.composerSubmitBehavior := by
  obtain ⟨document, -, rfl⟩ | ⟨same, -⟩ := addLayer_cases h
  · exact ⟨override_fromUser _, override_fromUser _⟩
  · rw [same]
    exact ⟨by rintro _ ⟨⟩, by rintro _ ⟨⟩⟩

theorem resolve_workspace {settings : ResolvedSettings}
    (h : ((SettingsBuilder.mk fromStr [(.userFile, user)] environment).withLayer
      .workspaceFile workspace).resolve = .ok settings) :
    ∃ users m, (SettingsBuilder.mk fromStr [(.userFile, user)] environment).addLayer ⟨.empty, []⟩
        (.userFile, user) = .ok users ∧
      (SettingsBuilder.mk fromStr [(.userFile, user)] environment).addLayer users
        (.workspaceFile, workspace) = .ok m ∧
      SettingsBuilder.finish (environment.foldl applyVariable m) = .ok settings := by
  obtain ⟨users, first, h⟩ := bind_eq_ok_iff.mp h
  obtain ⟨m, second, h⟩ := bind_eq_ok_iff.mp h
  obtain ⟨_, first, done⟩ := bind_eq_ok_iff.mp first
  cases Except.ok.inj done
  obtain ⟨_, second, done⟩ := bind_eq_ok_iff.mp second
  cases Except.ok.inj done
  exact ⟨users, m, first, second, h⟩

theorem resolve_user
    (h : (SettingsBuilder.mk fromStr [(.userFile, user)] environment).addLayer ⟨.empty, []⟩
      (.userFile, user) = .ok m) :
    (SettingsBuilder.mk fromStr [(.userFile, user)] environment).resolve =
      SettingsBuilder.finish (environment.foldl applyVariable m) := by
  have users : (SettingsBuilder.mk fromStr [(.userFile, user)] environment).addLayers .userFile
      ⟨.empty, []⟩ = .ok m := by
    refine bind_eq_ok_iff.mpr ⟨m, h, rfl⟩
  unfold SettingsBuilder.resolve
  rw [users]
  rfl

/-- The user's settings stay as they are exactly when the merge leaves the two reserved leaves. -/
theorem finish_userSettings {settings : ResolvedSettings} (routing : SameRouting merged m)
    (h : SettingsBuilder.finish (environment.foldl applyVariable merged) = .ok settings) :
    ∃ plain, SettingsBuilder.finish (environment.foldl applyVariable m) = .ok plain ∧
      (settings.userSettings = plain.userSettings ↔
        effectiveOptionalLeaf merged.merged.localProfile.displayLabel =
            effectiveOptionalLeaf m.merged.localProfile.displayLabel ∧
          effectiveLeaf ComposerSubmitBehavior.controlS
              merged.merged.localProfile.composerSubmitBehavior =
            effectiveLeaf ComposerSubmitBehavior.controlS
              m.merged.localProfile.composerSubmitBehavior) := by
  have same := environment_sameRouting environment routing
  refine ⟨_, finish_sameRouting same h, ?_⟩
  rw [finish_ok h]
  obtain ⟨provider, active, profiles⟩ := same
  simp only [ResolvedSettings.userSettings, UserSettings.mk.injEq, provider, active, profiles,
    true_and, effectiveLocalProfile, environment_localProfile]

/-- A workspace layer changes none of the user's settings or their provenance exactly when nothing
in it stands for one of the two reserved leaves. -/
theorem workspace_confined_iff (fromStr : String → Option JsonValue) (user workspace : String)
    (environment : List (String × String)) (settings : ResolvedSettings)
    (h : ((SettingsBuilder.mk fromStr [(.userFile, user)] environment).withLayer
      .workspaceFile workspace).resolve = .ok settings) :
    (∃ plain, (SettingsBuilder.mk fromStr [(.userFile, user)] environment).resolve = .ok plain ∧
      settings.userSettings = plain.userSettings) ↔ LeavesReserved fromStr workspace := by
  obtain ⟨users, m, first, second, done⟩ := resolve_workspace h
  rw [resolve_user first]
  obtain ⟨label, composer⟩ := addLayer_user first
  obtain ⟨document, parsed, rfl⟩ | ⟨same, e, failed, notRefused, supported⟩ := addLayer_cases second
  · obtain ⟨⟨provider, active, profiles⟩, leaves⟩ := parseLayer_workspace parsed
    obtain ⟨plain, resolved, agree⟩ :=
      finish_userSettings (mergeDocument_workspace provider active profiles _ _) done
    have equal : settings.userSettings = plain.userSettings ↔ LeavesReserved fromStr workspace := by
      rw [agree, ← leaves]
      exact and_congr (effectiveOptionalLeaf_override label _) (effectiveLeaf_override composer _ _)
    constructor
    · rintro ⟨other, ok, kept⟩
      rw [resolved] at ok
      cases Except.ok.inj ok
      exact equal.mp kept
    · intro reserved
      exact ⟨plain, resolved, equal.mpr reserved⟩
  · have routing : SameRouting m users := by
      unfold SameRouting
      rw [same]
      exact ⟨rfl, rfl, rfl⟩
    obtain ⟨plain, resolved, agree⟩ := finish_userSettings routing done
    have reserved : LeavesReserved fromStr workspace :=
      parseLayer_skipped failed notRefused supported
    rw [same] at agree
    exact iff_of_true ⟨plain, resolved, agree.mpr ⟨rfl, rfl⟩⟩ reserved

end Confinement

section Samples

def relabellingText : String :=
  "\x7b\"schema_version\":5,\"local_profile\":[\"Mallory\"]\x7d"

def darkText : String :=
  "\x7b\"schema_version\":5,\"local_profile\":\x7b\"preferences\":" ++
    "\x7b\"shared\":\x7b\"theme_preset\":\"dark\"\x7d\x7d\x7d\x7d"

def darkValue : JsonValue :=
  .object [("schema_version", .number (.posInt 5)), ("local_profile", .object [("preferences",
    .object [("shared", .object [("theme_preset", .string "dark")])])])]

/-- The parser of JSON text on the two samples. -/
def sampleFromStr (text : String) : Option JsonValue :=
  if text = relabellingText then
    some (.object [("schema_version", .number (.posInt 5)),
      ("local_profile", .array [.string "Mallory"])])
  else if text = darkText then some darkValue
  else none

def resolvedLabel : Except SettingsError ResolvedSettings →
    Option (EffectiveValue (Option String))
  | .ok settings =>
    let label := settings.userSettings.displayLabel
    some ⟨label.value.map DisplayLabel.value, label.source⟩
  | .error _ => none

theorem darkText_reserved : LeavesReserved sampleFromStr darkText := by
  intro value _ found _ _
  have parsed : sampleFromStr darkText = some darkValue := by decide
  rw [parsed] at found
  cases Option.some.inj found
  decide

/-- A theme of the workspace leaves the user's settings alone. -/
theorem workspace_confined_dark :
    ∃ settings, ((SettingsBuilder.mk sampleFromStr [(.userFile, "")] []).withLayer
        .workspaceFile darkText).resolve = .ok settings ∧
      ∃ plain, (SettingsBuilder.mk sampleFromStr [(.userFile, "")] []).resolve = .ok plain ∧
        settings.userSettings = plain.userSettings := by
  have label : resolvedLabel ((SettingsBuilder.mk sampleFromStr [(.userFile, "")] []).withLayer
      .workspaceFile darkText).resolve = some ⟨none, .default⟩ := by decide
  cases resolved : ((SettingsBuilder.mk sampleFromStr [(.userFile, "")] []).withLayer
      .workspaceFile darkText).resolve with
  | error e =>
    rw [resolved] at label
    cases label
  | ok settings =>
    exact ⟨settings, rfl,
      (workspace_confined_iff sampleFromStr "" darkText [] settings resolved).mpr darkText_reserved⟩

/-- A file of the workspace names its user: the profile is given as an array. -/
theorem workspace_array_relabels :
    ∃ settings, ((SettingsBuilder.mk sampleFromStr [(.userFile, "")] []).withLayer
        .workspaceFile relabellingText).resolve = .ok settings ∧
      ¬ ∃ plain, (SettingsBuilder.mk sampleFromStr [(.userFile, "")] []).resolve = .ok plain ∧
        settings.userSettings = plain.userSettings := by
  have label : resolvedLabel ((SettingsBuilder.mk sampleFromStr [(.userFile, "")] []).withLayer
      .workspaceFile relabellingText).resolve = some ⟨some "Mallory", .workspaceFile⟩ := by decide
  have unset : resolvedLabel (SettingsBuilder.mk sampleFromStr [(.userFile, "")] []).resolve =
      some ⟨none, .default⟩ := by decide
  cases resolved : ((SettingsBuilder.mk sampleFromStr [(.userFile, "")] []).withLayer
      .workspaceFile relabellingText).resolve with
  | error e =>
    rw [resolved] at label
    cases label
  | ok settings =>
    refine ⟨settings, rfl, ?_⟩
    rintro ⟨plain, alone, same⟩
    rw [resolved, resolvedLabel, same] at label
    rw [alone, resolvedLabel, label] at unset
    cases unset

end Samples

end AutoHarness
