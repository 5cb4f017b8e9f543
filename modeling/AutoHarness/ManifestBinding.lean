import AutoHarness.ContextSeal
import AutoHarness.MemoryCommit
import AutoHarness.PrefixCode

namespace AutoHarness

open FallibleRun PrefixCode

section Fields

theorem toBeBytes_injective {x y : UInt64} (h : toBeBytes x = toBeBytes y) : x = y := by
  simp only [toBeBytes, List.cons.injEq, and_true] at h
  obtain ⟨h7, h6, h5, h4, h3, h2, h1, h0⟩ := h
  have bytes {a b : UInt64} (e : a.toUInt8 = b.toUInt8) : a.toNat % 256 = b.toNat % 256 := by
    have := congrArg UInt8.toNat e
    simpa using this
  have h7 := bytes h7
  have h6 := bytes h6
  have h5 := bytes h5
  have h4 := bytes h4
  have h3 := bytes h3
  have h2 := bytes h2
  have h1 := bytes h1
  have h0 := bytes h0
  simp [Nat.shiftRight_eq_div_pow] at h7 h6 h5 h4 h3 h2 h1
  have hx := x.toNat_lt
  have hy := y.toNat_lt
  exact UInt64.toNat_inj.mp (by omega)

theorem toBeBytes_length (x : UInt64) : (toBeBytes x).length = 8 := rfl

theorem sameLength (x y : UInt64) : (toBeBytes x).length = (toBeBytes y).length := by
  rw [toBeBytes_length, toBeBytes_length]

theorem integerBytes_inj {m n : Nat} (hm : m < 18446744073709551616) (hn : n < 18446744073709551616)
    (h : integerBytes m = integerBytes n) : m = n := by
  have same := congrArg UInt64.toNat (toBeBytes_injective h)
  rwa [UInt64.toNat_ofNat_of_lt' hm, UInt64.toNat_ofNat_of_lt' hn] at same

/-- One named byte field whose lengths fit 64 bits, as all lengths of the source do. -/
structure CanonicalField where
  name : String
  value : List UInt8
  short : name.utf8ByteSize < 18446744073709551616 ∧ value.length < 18446744073709551616

def CanonicalField.code (field : CanonicalField) : List UInt8 :=
  (CanonicalEncoder.new.field field.name field.value).bytes

theorem field_bytes (encoder : CanonicalEncoder) (name : String) (value : List UInt8) :
    (encoder.field name value).bytes =
      encoder.bytes ++ (CanonicalEncoder.new.field name value).bytes := by
  simp [CanonicalEncoder.field, CanonicalEncoder.new, appendLength]

theorem encodeFields_bytes (encoder : CanonicalEncoder) (fields : List CanonicalField) :
    (encodeFields encoder (fields.map fun field => (field.name, field.value))).bytes =
      encoder.bytes ++ fields.flatMap CanonicalField.code := by
  induction fields generalizing encoder with
  | nil => simp [encodeFields]
  | cons field fields ih =>
    rw [List.map_cons, encodeFields, List.foldl_cons, ← encodeFields, ih, field_bytes,
      List.flatMap_cons, List.append_assoc]
    rfl

/-- The length prefixes make the fields a prefix code. -/
theorem fieldCode_isPrefixCode : IsPrefixCode CanonicalField.code := by
  refine ⟨fun field => ?_, fun x y prefixed => ?_⟩
  · simp [CanonicalField.code, CanonicalEncoder.field, CanonicalEncoder.new, appendLength, toBeBytes]
  · obtain ⟨rest, same⟩ := prefixed
    obtain ⟨name, value, short, length⟩ := x
    obtain ⟨name', value', short', length'⟩ := y
    simp only [CanonicalField.code, CanonicalEncoder.field, CanonicalEncoder.new, appendLength,
      List.nil_append, List.append_assoc] at same
    obtain ⟨sizes, same⟩ := List.append_inj same (sameLength _ _)
    have names := integerBytes_inj short short' sizes
    obtain ⟨texts, same⟩ := List.append_inj same names
    obtain ⟨sizes', same⟩ := List.append_inj same (sameLength _ _)
    have values := integerBytes_inj length length' sizes'
    have closed : value ++ rest = value' ++ [] := by rw [same, List.append_nil]
    obtain ⟨whole, -⟩ := List.append_inj closed values
    have named : name = name' := utf8Bytes_injective texts
    subst named whole
    rfl

/-- Lengths that fit 64 bits. -/
def ShortField (field : String × List UInt8) : Prop :=
  field.1.utf8ByteSize < 18446744073709551616 ∧ field.2.length < 18446744073709551616

theorem exists_canonicalFields {fields : List (String × List UInt8)}
    (short : ∀ field ∈ fields, ShortField field) :
    ∃ canonical : List CanonicalField, canonical.map (fun field => (field.name, field.value)) = fields := by
  induction fields with
  | nil => exact ⟨[], rfl⟩
  | cons field fields ih =>
    obtain ⟨canonical, same⟩ := ih fun other mem => short other (List.mem_cons_of_mem _ mem)
    have first := short field List.mem_cons_self
    exact ⟨⟨field.1, field.2, first⟩ :: canonical, by rw [List.map_cons, same]⟩

/-- A sequence of named fields is determined by its bytes. -/
theorem encodeFields_injective {xs ys : List (String × List UInt8)}
    (hx : ∀ field ∈ xs, ShortField field) (hy : ∀ field ∈ ys, ShortField field)
    (h : (encodeFields CanonicalEncoder.new xs).bytes = (encodeFields CanonicalEncoder.new ys).bytes) :
    xs = ys := by
  obtain ⟨left, rfl⟩ := exists_canonicalFields hx
  obtain ⟨right, rfl⟩ := exists_canonicalFields hy
  rw [encodeFields_bytes, encodeFields_bytes] at h
  rw [fieldCode_isPrefixCode.flatMap_injective (List.append_cancel_left h)]

end Fields

section Material

variable {codec : ManifestCodec} {m m' : ManifestHashMaterial}

/-- The JSON texts of a manifest have lengths of 64 bits. -/
structure ShortTexts (codec : ManifestCodec) (m : ManifestHashMaterial) : Prop where
  eligibility : (codec.eligibilityJson m.eligibility).length < 18446744073709551616
  snapshots : (codec.snapshotsJson m.snapshots).length < 18446744073709551616
  admissions : (codec.admissionsJson m.admissions).length < 18446744073709551616

/-- Neither SHA-256 nor the JSON encoding collides on the two materials. -/
structure NoCollision (codec : ManifestCodec) (m m' : ManifestHashMaterial) : Prop where
  digest : hashManifestMaterial codec m = hashManifestMaterial codec m' →
    (encodeFields CanonicalEncoder.new (manifestFields codec m)).bytes =
      (encodeFields CanonicalEncoder.new (manifestFields codec m')).bytes
  eligibility : codec.eligibilityJson m.eligibility = codec.eligibilityJson m'.eligibility →
    m.eligibility = m'.eligibility
  snapshots : codec.snapshotsJson m.snapshots = codec.snapshotsJson m'.snapshots →
    m.snapshots = m'.snapshots
  admissions : codec.admissionsJson m.admissions = codec.admissionsJson m'.admissions →
    m.admissions = m'.admissions

theorem digest_bytes_short (digest : Sha256Digest) : (utf8Bytes digest.value).length < 65536 := by
  have size := digest_size digest
  rw [utf8Bytes_length]
  omega

theorem identifier_bytes_short {kind : IdentifierKind} (id : Identifier kind) :
    (utf8Bytes id.value).length < 65536 := id.short

theorem manifestFields_short (short : ShortTexts codec m) :
    ∀ field ∈ manifestFields codec m, ShortField field := by
  have names : ∀ name ∈ (manifestFields codec m).map Prod.fst,
      name.utf8ByteSize < 18446744073709551616 := by
    simp only [manifestFields, List.map_cons, List.map_nil]
    decide
  have digest (digest : Sha256Digest) : (utf8Bytes digest.value).length < 18446744073709551616 := by
    have := digest_bytes_short digest
    omega
  have id {kind : IdentifierKind} (id : Identifier kind) :
      (utf8Bytes id.value).length < 18446744073709551616 := by
    have := identifier_bytes_short id
    omega
  have integer (value : UInt64) : (toBeBytes value).length < 18446744073709551616 := by
    rw [toBeBytes_length]
    decide
  have values : ∀ value ∈ (manifestFields codec m).map Prod.snd,
      value.length < 18446744073709551616 := by
    simp only [manifestFields, integerBytes, List.map_cons, List.map_nil, List.forall_mem_cons, digest,
      id, integer, short.eligibility, short.snapshots, short.admissions, true_and]
    intro value mem
    cases mem
  intro field mem
  exact ⟨names _ (List.mem_map_of_mem mem), values _ (List.mem_map_of_mem mem)⟩

theorem EstimatedTokens.ext_get {a b : EstimatedTokens} (h : a.get = b.get) : a = b := by
  cases a
  cases b
  cases h
  rfl

theorem ContextTokenBudget.ext_get {a b : ContextTokenBudget} (h : a.get = b.get) : a = b := by
  cases a
  cases b
  cases h
  rfl

theorem MemoryGeneration.ext_get {a b : MemoryGeneration} (h : a.get = b.get) : a = b := by
  cases a
  cases b
  cases h
  rfl

theorem Sha256Digest.ext_value {a b : Sha256Digest} (h : a.value = b.value) : a = b := by
  cases a
  cases b
  cases h
  rfl

/-- The hash of a manifest determines everything that is hashed. -/
theorem hashManifestMaterial_inj (short : ShortTexts codec m) (short' : ShortTexts codec m')
    (free : NoCollision codec m m') (h : hashManifestMaterial codec m = hashManifestMaterial codec m') :
    m = m' := by
  have fields : manifestFields codec m = manifestFields codec m' :=
    encodeFields_injective (manifestFields_short short) (manifestFields_short short') (free.digest h)
  have tokens (a b : EstimatedTokens) (e : integerBytes a.get = integerBytes b.get) : a = b := by
    have ha := a.bounded
    have hb := b.bounded
    rw [maxEstimatedTokens] at ha hb
    exact EstimatedTokens.ext_get (integerBytes_inj (by omega) (by omega) e)
  have ids {kind : IdentifierKind} (a b : Identifier kind)
      (e : utf8Bytes a.value = utf8Bytes b.value) : a = b :=
    Identifier.ext_value (utf8Bytes_injective e)
  have digests (a b : Sha256Digest) (e : utf8Bytes a.value = utf8Bytes b.value) : a = b :=
    Sha256Digest.ext_value (utf8Bytes_injective e)
  simp only [manifestFields, List.cons.injEq, Prod.mk.injEq, true_and, and_true] at fields
  obtain ⟨turn, epoch, session, attempt, runTurn, sequence, generation, provider, model, request,
    rendered, eligibility, budget, reserved, durable, count, committed, snapshots, admissions⟩ := fields
  have sequences : m.expectedSessionSequence = m'.expectedSessionSequence := by
    have ha := m.expectedSessionSequence.bounded
    have hb := m'.expectedSessionSequence.bounded
    rw [maxSequence] at ha hb
    exact SessionSequence.ext_get (integerBytes_inj (by omega) (by omega) sequence)
  have generations : m.memoryGeneration = m'.memoryGeneration := by
    have ha := m.memoryGeneration.bounded
    have hb := m'.memoryGeneration.bounded
    rw [maxEstimatedTokens] at ha hb
    exact MemoryGeneration.ext_get (integerBytes_inj (by omega) (by omega) generation)
  have totals : m.budget.tokenBudget = m'.budget.tokenBudget := by
    have ha := m.budget.tokenBudget.bounded
    have hb := m'.budget.tokenBudget.bounded
    rw [maxEstimatedTokens] at ha hb
    exact ContextTokenBudget.ext_get (integerBytes_inj (by omega) (by omega) budget)
  have budgets : m.budget = m'.budget := by
    have reserved := tokens _ _ reserved
    have durable := tokens _ _ durable
    revert totals reserved durable
    cases m.budget
    cases m'.budget
    rintro rfl rfl rfl
    rfl
  have models : m.model = m'.model := by
    have provider := ids _ _ provider
    have model := ids _ _ model
    revert provider model
    cases m.model
    cases m'.model
    rintro rfl rfl
    rfl
  have turns : m.runTurn = m'.runTurn := UInt32.toUInt64_inj.mp (toBeBytes_injective runTurn)
  have times : m.committedAt = m'.committedAt := by
    have same := toBeBytes_injective committed
    revert same
    obtain ⟨⟨time⟩⟩ := m.committedAt
    obtain ⟨⟨time'⟩⟩ := m'.committedAt
    rintro rfl
    rfl
  have turn := ids _ _ turn
  have epoch := ids _ _ epoch
  have session := ids _ _ session
  have attempt := ids _ _ attempt
  have request := digests _ _ request
  have rendered := digests _ _ rendered
  have count := tokens _ _ count
  have eligibility := free.eligibility eligibility
  have snapshots := free.snapshots snapshots
  have admissions := free.admissions admissions
  cases m
  cases m'
  simp only at *
  subst turn epoch session attempt turns sequences generations models request rendered eligibility
    budgets count times snapshots admissions
  rfl

end Material

section Binding

variable {codec : ManifestCodec}

theorem manifestNew_eq {material : ManifestHashMaterial} {manifestHash : Sha256Digest}
    {manifest : ContextTurnManifest}
    (h : ContextTurnManifest.new material manifestHash = .ok manifest) :
    manifest.material = material ∧ manifest.manifestHash = manifestHash := by
  unfold ContextTurnManifest.new at h
  split at h
  · cases h
    exact ⟨rfl, rfl⟩
  · cases h

/-- What is sealed carries the hash of its own material. -/
theorem seal_verifies {built : BuiltContext} {requestHash : Sha256Digest} {manifest : ContextTurnManifest}
    (h : built.seal codec requestHash = .ok manifest) :
    verifyContextManifestHash codec manifest = true := by
  obtain ⟨budget, -, h⟩ := bind_eq_ok_iff.mp h
  obtain ⟨material, hash⟩ := manifestNew_eq (mapError_ok_iff.mp h)
  rw [verifyContextManifestHash, contextManifestHash, material, hash]
  exact decide_eq_true rfl

/-- The encoding is injective, so equal hashes come from equal material, and a sealed manifest is
verified but not after any change of its material. -/
theorem manifest_bound_to_material (codec : ManifestCodec) :
    (∀ xs ys : List (String × List UInt8), (∀ field ∈ xs, ShortField field) →
      (∀ field ∈ ys, ShortField field) →
      (encodeFields CanonicalEncoder.new xs).bytes = (encodeFields CanonicalEncoder.new ys).bytes →
        xs = ys) ∧
    (∀ m m' : ContextTurnManifest, ShortTexts codec m.material → ShortTexts codec m'.material →
      NoCollision codec m.material m'.material →
      contextManifestHash codec m = contextManifestHash codec m' → m.material = m'.material) ∧
    (∀ built requestHash manifest, BuiltContext.seal codec built requestHash = .ok manifest →
      verifyContextManifestHash codec manifest = true) ∧
    (∀ m m' : ContextTurnManifest, ShortTexts codec m.material → ShortTexts codec m'.material →
      NoCollision codec m.material m'.material → verifyContextManifestHash codec m = true →
      m'.manifestHash = m.manifestHash → m'.material ≠ m.material →
        verifyContextManifestHash codec m' = false) := by
  refine ⟨fun _ _ hx hy => encodeFields_injective hx hy, fun _ _ short short' free same =>
    hashManifestMaterial_inj short short' free same, fun _ _ _ sealed => seal_verifies sealed, ?_⟩
  intro m m' short short' free verified kept changed
  rw [verifyContextManifestHash, decide_eq_true_eq] at verified
  rw [verifyContextManifestHash, decide_eq_false_iff_not, kept, ← verified]
  intro same
  exact changed (hashManifestMaterial_inj short short' free same.symm).symm

end Binding

section Sample

theorem sampleAllocation_within : sampleReserved.get ≤ sampleBudget.get ∧
    sampleDurable.get ≤ sampleBudget.get - sampleReserved.get := by decide

def sampleAllocation : ContextBudgetAllocation :=
  ⟨sampleBudget, sampleReserved, sampleDurable, sampleAllocation_within⟩

def sampleMaterial (runTurn : UInt32) : ManifestHashMaterial where
  contextTurnId := sampleId _ 1
  epochId := sampleId _ 1
  sessionId := sampleSession
  attemptId := sampleAttempt
  runTurn := runTurn
  expectedSessionSequence := .first
  memoryGeneration := ⟨0, sampleGeneration_bounded⟩
  model := sampleModel
  requestHash := sampleHash
  renderedHash := sampleHash
  eligibility := ⟨sampleId _ 1, sampleId _ 1, sampleSession, none, .internal⟩
  budget := sampleAllocation
  renderedTokenCount := ⟨0, sampleGeneration_bounded⟩
  committedAt := ⟨0⟩
  snapshots := []
  admissions := []

def sampleFirstHash : Sha256Digest :=
  ⟨"7a3e012fb52fb6087c1e7ebc1aebc1c7d428e08a5e4b11d9ffdf8a6dbef52f79", rfl⟩

def sampleSecondHash : Sha256Digest :=
  ⟨"16cde0eca8334c344d5ce67973a773a9a84d473e1e4c30817f7a4f42b04b5cd6", rfl⟩

/-- The JSON texts of the sample material, and its digests under two run turns; only the second holds
the byte 77. -/
def sampleBoundCodec : ManifestCodec where
  sha256 bytes := if bytes.contains 77 then sampleSecondHash else sampleFirstHash
  callJson _ := []
  eligibilityJson _ := utf8Bytes ("\x7b\"user_id\":\"id-1\",\"workspace_id\":\"id-1\"," ++
    "\"session_id\":\"session-1\",\"sensitivity_ceiling\":\"internal\"\x7d")
  snapshotsJson _ := utf8Bytes "[]"
  admissionsJson _ := utf8Bytes "[]"

theorem sampleMaterial_valid (runTurn : UInt32) (turn : runTurn ≠ 0) :
    checkManifest (sampleMaterial runTurn) = .ok () := by
  have turned : (sampleMaterial runTurn).runTurn ≠ 0 := turn
  rw [checkManifest, if_neg turned]
  rfl

theorem sampleMaterial_hashes :
    hashManifestMaterial sampleBoundCodec (sampleMaterial 1) = sampleFirstHash ∧
      hashManifestMaterial sampleBoundCodec (sampleMaterial 77) = sampleSecondHash :=
  ⟨by decide +kernel, by decide +kernel⟩

theorem sampleShort (runTurn : UInt32) : ShortTexts sampleBoundCodec (sampleMaterial runTurn) where
  eligibility := by
    show (utf8Bytes ("\x7b\"user_id\":\"id-1\",\"workspace_id\":\"id-1\"," ++
      "\"session_id\":\"session-1\",\"sensitivity_ceiling\":\"internal\"\x7d")).length < _
    decide +kernel
  snapshots := by
    show (utf8Bytes "[]").length < _
    decide +kernel
  admissions := by
    show (utf8Bytes "[]").length < _
    decide +kernel

/-- The manifest of the first run turn is verified, and no longer under another. -/
theorem manifest_bound_to_run_turn :
    verifyContextManifestHash sampleBoundCodec
        ⟨sampleMaterial 1, sampleFirstHash, sampleMaterial_valid 1 (by decide)⟩ = true ∧
      verifyContextManifestHash sampleBoundCodec
        ⟨sampleMaterial 77, sampleFirstHash, sampleMaterial_valid 77 (by decide)⟩ = false := by
  have verified : verifyContextManifestHash sampleBoundCodec
      ⟨sampleMaterial 1, sampleFirstHash, sampleMaterial_valid 1 (by decide)⟩ = true :=
    decide_eq_true sampleMaterial_hashes.1
  have free : NoCollision sampleBoundCodec (sampleMaterial 1) (sampleMaterial 77) := by
    refine ⟨fun same => ?_, fun _ => rfl, fun _ => rfl, fun _ => rfl⟩
    rw [sampleMaterial_hashes.1, sampleMaterial_hashes.2] at same
    exact absurd same (by decide)
  have changed : sampleMaterial 77 ≠ sampleMaterial 1 := fun same =>
    absurd (congrArg ManifestHashMaterial.runTurn same) (by decide)
  exact ⟨verified, (manifest_bound_to_material sampleBoundCodec).2.2.2 _ _ (sampleShort 1)
    (sampleShort 77) free verified rfl changed⟩

end Sample

end AutoHarness
