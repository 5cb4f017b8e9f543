import AutoHarness.KeyringFailures
import Mathlib.Data.Set.Basic

namespace AutoHarness

namespace KeyringVault

variable {f : KeyringFaults} {k : Keyring} {r name secret : String} {g : Generation} {i n : Nat}

section Frame

variable {operation : VaultOperation}

/-- A call changes only the entry of its reference and the chunks derived from it. -/
theorem call_of_ne (hr : name ≠ operation.name)
    (h : ∀ g, ∀ i < maxChunks, name ≠ chunkReference operation.name g i) :
    (call f k operation).2 name = k name := by
  cases operation with
  | save text secret =>
    rcases save_cases f k text secret with ⟨e, e'⟩ | ⟨stored, named, valid, e'⟩
    · rw [show call f k (.save text secret) = (.error e, k) from e']
    · have own := CredentialReference.value_of_new named
      rw [show call f k (.save text secret) = _ from e', own]
      have short := chunkCount_le valid
      refine store_of_ne hr (fun i hi => h _ i (by omega)) fun g n there i hi => ?_
      have bound := existingManifest_bound there
      exact h g i (by omega)
  | replace reference secret =>
    rcases replace_cases f k reference secret with ⟨e, e'⟩ | ⟨current, existing, -, parsed, valid, e'⟩
    · rw [show call f k (.replace reference secret) = (.error e, k) from e']
    · rw [show call f k (.replace reference secret) = _ from e']
      have short := chunkCount_le valid
      refine store_of_ne hr (fun i hi => h _ i (by omega)) fun g n there i hi => ?_
      subst there
      have bound := parseManifest_bound parsed
      exact h g i (by omega)
  | load reference => rfl
  | delete reference =>
    rcases delete_cases f k reference with ⟨e, e'⟩ | e'
    · rw [show call f k (.delete reference) = (.error e, k) from e']
    · rw [show call f k (.delete reference) = _ from e']
      refine (deleteExisting_of_ne fun g n there i hi => ?_).trans (Function.update_of_ne hr _ _)
      have bound := existingManifest_bound there
      exact h g i (by omega)

theorem Holds.of_same {k' : Keyring} {content : Option String} (h : Holds k r content)
    (reference : k' r = k r)
    (chunks : ∀ g, ∀ i < maxChunks, k' (chunkReference r g i) = k (chunkReference r g i)) :
    Holds k' r content := by
  cases h with
  | vacant h => exact .vacant (reference.trans h)
  | stored s =>
    have short := chunkCount_le s.valid
    exact .stored (s.of_same reference fun i hi => chunks _ i (by omega))

end Frame

section Working

theorem writeChunks_quiet {chunks : List (List Char)} :
    (writeChunks .quiet r g chunks i k).1 = .ok () := by
  induction chunks generalizing i k with
  | nil => rfl
  | cons chunk rest ih => exact ih

theorem store_quiet (existing : Option (Generation × Nat)) :
    (store .quiet k r secret existing).1 = .ok () := by
  have written : (writeChunked .quiet k r secret (nextGeneration existing)).1 = .ok () := by
    have chunks : (writeChunks .quiet r (nextGeneration existing) (secretChunks secret) 0 k).1 =
        .ok () := writeChunks_quiet
    unfold writeChunked
    split
    next e k' h =>
      rw [h] at chunks
      cases chunks
    next => rfl
  unfold store
  split
  next e k' h =>
    rw [h] at written
    cases written
  next => rfl

/-- While the keyring works, every admitted secret can be saved. -/
theorem save_quiet (reference : CredentialReference) (valid : ValidSecret secret) :
    save .quiet k reference.value secret = (.ok (.saved reference),
      (store .quiet k reference.value secret (existingManifest .quiet k reference.value)).2) := by
  have done : (store .quiet k reference.value secret
      (existingManifest .quiet k reference.value)).1 = .ok () := store_quiet _
  unfold save
  rw [validateSecret_eq_ok_iff.mpr valid, reference.new_value]
  simp only [Keyring.entry, KeyringFaults.quiet] at done ⊢
  split
  next e k' h =>
    rw [h] at done
    cases done
  next u k' h => rw [h]

end Working

/-- What a log of replies leaves of each reference: the secret of the last store that succeeded,
unless a deletion followed. -/
def noted (memory : String → Option String) (operation : VaultOperation)
    (reply : Except VaultError VaultReply) : String → Option String :=
  match operation, reply with
  | .save text secret, .ok _ => Function.update memory (trim text) (some secret)
  | .replace reference secret, .ok _ => Function.update memory reference.value (some secret)
  | .delete reference, .ok _ => Function.update memory reference.value none
  | _, _ => memory

/-- The runs on references of a set of profiles, with what their replies leave to be loaded. -/
inductive MapRun (profiles : Set ProfileId) : Keyring → (String → Option String) → Prop
  | empty : MapRun profiles (fun _ => none) fun _ => none
  | step {k : Keyring} {memory : String → Option String} {operation : VaultOperation}
      {p : ProfileId} (run : MapRun profiles k memory) (hp : p ∈ profiles)
      (own : operation.name = p.reference.value) :
      MapRun profiles (call .quiet k operation).2
        (noted memory operation (call .quiet k operation).1)

/-- The entries that hold a secret of the profile. -/
def Belongs (p : ProfileId) (name : String) : Prop :=
  name = p.reference.value ∨
    ∃ g i, i < maxChunks ∧ name = chunkReference p.reference.value g i

/-- The vault is a map from the references of these profiles to secrets. -/
def ActsAsMap (profiles : Set ProfileId) : Prop :=
  ∀ k memory, MapRun profiles k memory →
    (∀ p ∈ profiles, load .quiet k p.reference = answer (memory p.reference.value)) ∧
    ∀ p ∈ profiles, ∀ q ∈ profiles, p ≠ q → ∀ operation : VaultOperation,
      operation.name = p.reference.value →
        load .quiet (call .quiet k operation).2 q.reference = load .quiet k q.reference ∧
        ∀ name, Belongs q name → (call .quiet k operation).2 name = k name

/-- No profile is named like a chunk of another one. -/
def NoneDerived (profiles : Set ProfileId) : Prop :=
  ∀ p ∈ profiles, ∀ q ∈ profiles, ∀ g, ∀ i < maxChunks, q.value ≠ chunkReference p.value g i

section Refinement

variable {profiles : Set ProfileId} {p q : ProfileId} {memory : String → Option String}
  {operation : VaultOperation}

theorem chunkReference_reference (p : ProfileId) (g : Generation) (i : Nat) :
    (chunkReference p.reference.value g i).toList =
      profilePrefix ++ (chunkReference p.value g i).toList := by
  simp [chunkReference_toList]

theorem reference_eq_chunk_iff :
    q.reference.value = chunkReference p.reference.value g i ↔
      q.value = chunkReference p.value g i := by
  rw [← String.toList_inj, chunkReference_reference, ProfileId.reference_toList,
    List.append_cancel_left_eq, String.toList_inj]

theorem reference_value_ne (h : p ≠ q) : p.reference.value ≠ q.reference.value := fun same =>
  h (ProfileId.reference_injective (CredentialReference.ext_value same))

/-- Operations on one profile leave the entries of the others alone. -/
theorem call_belongs (none : NoneDerived profiles) (hp : p ∈ profiles) (hq : q ∈ profiles)
    (different : p ≠ q) (own : operation.name = p.reference.value) (belongs : Belongs q name) :
    (call f k operation).2 name = k name := by
  rcases belongs with rfl | ⟨g, i, hi, rfl⟩
  · refine call_of_ne ?_ fun g i hi same => ?_
    · rw [own]
      exact (reference_value_ne different).symm
    · rw [own, reference_eq_chunk_iff] at same
      exact none p hp q hq g i hi same
  · refine call_of_ne ?_ fun h j _ same => ?_
    · rw [own]
      intro same
      exact none q hq p hp g i hi (reference_eq_chunk_iff.mp same.symm)
    · rw [own] at same
      exact reference_value_ne different (chunkReference_inj same).1.symm

theorem call_holds_other {content : Option String} (none : NoneDerived profiles) (hp : p ∈ profiles)
    (hq : q ∈ profiles) (different : p ≠ q) (own : operation.name = p.reference.value)
    (holds : Holds k q.reference.value content) :
    Holds (call f k operation).2 q.reference.value content :=
  holds.of_same (call_belongs none hp hq different own (.inl rfl)) fun g i hi =>
    call_belongs none hp hq different own (.inr ⟨g, i, hi, rfl⟩)

theorem noted_of_ne {reply : Except VaultError VaultReply} (h : r ≠ operation.name) :
    noted memory operation reply r = memory r := by
  unfold noted
  split
  next => exact Function.update_of_ne h _ _
  next => exact Function.update_of_ne h _ _
  next => exact Function.update_of_ne h _ _
  next => rfl

theorem reads_quiet : ReadsLiveGeneration .quiet k operation := by
  cases operation with
  | save text secret => exact fun _ _ => rfl
  | _ => trivial

theorem call_holds_noted (holds : Holds k operation.name (memory operation.name)) :
    Holds (call .quiet k operation).2 operation.name
      (noted memory operation (call .quiet k operation).1 operation.name) := by
  have outcome := call_outcome holds (reads_quiet (k := k))
  cases result : (call .quiet k operation).1 with
  | error e =>
    have same : noted memory operation (.error e) = memory := by cases operation <;> rfl
    rw [same]
    exact outcome.failed e result
  | ok reply =>
    cases operation with
    | save text secret =>
      have after : noted memory (.save text secret) (.ok reply) (trim text) = some secret :=
        Function.update_self _ _ _
      rw [show (VaultOperation.save text secret).name = trim text from rfl, after]
      exact outcome.stored secret rfl reply result
    | replace reference secret =>
      have after : noted memory (.replace reference secret) (.ok reply) reference.value =
          some secret := Function.update_self _ _ _
      rw [show (VaultOperation.replace reference secret).name = reference.value from rfl, after]
      exact outcome.stored secret rfl reply result
    | load reference => exact holds
    | delete reference =>
      have after : noted memory (.delete reference) (.ok reply) reference.value = none :=
        Function.update_self _ _ _
      rw [show (VaultOperation.delete reference).name = reference.value from rfl, after]
      exact .vacant (delete_vacant result)

/-- Along every run each reference holds what the replies say. -/
theorem mapRun_holds (none : NoneDerived profiles) (run : MapRun profiles k memory)
    (hq : q ∈ profiles) : Holds k q.reference.value (memory q.reference.value) := by
  induction run with
  | empty => exact .vacant rfl
  | @step k memory operation p run hp own ih =>
    by_cases same : p = q
    · subst same
      rw [← own] at ih ⊢
      exact call_holds_noted ih
    · have apart : q.reference.value ≠ operation.name := by
        rw [own]
        exact (reference_value_ne same).symm
      rw [noted_of_ne apart]
      exact call_holds_other none hp hq same own ih

theorem actsAsMap_of_noneDerived (none : NoneDerived profiles) : ActsAsMap profiles := by
  intro k memory run
  refine ⟨fun p hp => load_of_holds (mapRun_holds none run hp), ?_⟩
  intro p hp q hq different operation own
  have before := mapRun_holds none run hq
  have after := call_holds_other (f := .quiet) none hp hq different own before
  refine ⟨?_, fun name belongs => call_belongs none hp hq different own belongs⟩
  rw [load_of_holds after, load_of_holds before]

end Refinement

section Collision

variable {profiles : Set ProfileId} {p q : ProfileId} {memory : String → Option String}

/-- A secret with one character behind so many full chunks. -/
def filler (i : Nat) : String := String.ofList (List.replicate (keyringChunkBytes * i + 1) 'x')

theorem filler_valid (h : i < maxChunks) : ValidSecret (filler i) where
  nonempty := by simp [filler]
  short := by
    rw [maxChunks_eq] at h
    simp only [filler, String.toList_ofList, List.length_replicate, keyringChunkBytes, maxSecretBytes]
    omega
  graphic c hc := by
    have same : c = 'x' := by simpa [filler] using hc
    subst same
    decide

theorem lt_chunkCount_filler (i : Nat) : i < chunkCount (filler i) := by
  have all : (filler i).toList.length ≤ keyringChunkBytes * chunkCount (filler i) :=
    Chunks.length_le_mul_count (by decide)
  have length : (filler i).toList.length = keyringChunkBytes * i + 1 := by simp [filler]
  by_contra small
  have bound := Nat.mul_le_mul_left keyringChunkBytes (Nat.le_of_not_lt small)
  omega

theorem chunk_filler (i : Nat) : Chunks.chunk keyringChunkBytes (filler i).toList i = ['x'] := by
  unfold Chunks.chunk filler
  rw [String.toList_ofList, List.drop_replicate, Nat.add_sub_cancel_left]
  rfl

theorem save_stored (k : Keyring) (reference : CredentialReference) (valid : ValidSecret secret) :
    Stored (call .quiet k (.save reference.value secret)).2 reference.value
      (nextGeneration (existingManifest .quiet k reference.value)) secret := by
  rw [show call .quiet k (.save reference.value secret) = _ from save_quiet reference valid]
  exact store_ok valid (store_quiet _)

theorem save_name (reference : CredentialReference) :
    (VaultOperation.save reference.value secret).name = reference.value :=
  (CredentialReference.value_of_new reference.new_value).symm

theorem MapRun.save (run : MapRun profiles k memory) (hp : p ∈ profiles) (different : p ≠ q)
    (absent : memory q.reference.value = none) (secret : String) :
    ∃ memory', MapRun profiles (call .quiet k (.save p.reference.value secret)).2 memory' ∧
      memory' q.reference.value = none := by
  refine ⟨_, .step run hp (save_name p.reference), ?_⟩
  rw [noted_of_ne, absent]
  rw [save_name]
  exact (reference_value_ne different).symm

/-- Either generation of a secret of the profile can be made to stand. -/
theorem mapRun_generation (hp : p ∈ profiles) (different : p ≠ q) (valid : ValidSecret secret)
    (g : Generation) : ∃ k memory, MapRun profiles k memory ∧
      memory q.reference.value = none ∧ Stored k p.reference.value g secret := by
  obtain ⟨memory, run, absent⟩ := MapRun.empty.save hp different rfl secret
  have first : Stored (call .quiet (fun _ => none) (.save p.reference.value secret)).2
      p.reference.value .a secret := save_stored _ p.reference valid
  cases g with
  | a => exact ⟨_, memory, run, absent, first⟩
  | b =>
    obtain ⟨memory', run', absent'⟩ := run.save hp different absent secret
    refine ⟨_, memory', run', absent', ?_⟩
    have second := save_stored (call .quiet (fun _ => none) (.save p.reference.value secret)).2
      p.reference valid
    rwa [existingManifest_stored first rfl] at second

theorem load_plain {reference : CredentialReference} (there : k reference.value = some "x") :
    load .quiet k reference = .ok "x" := by
  have plain : parseManifest "x" = .ok none := by decide
  unfold load Keyring.getPassword
  simp only [Keyring.entry, KeyringFaults.quiet, there, plain]

theorem noneDerived_of_actsAsMap (acts : ActsAsMap profiles) : NoneDerived profiles := by
  intro p hp q hq g i hi derived
  have different : p ≠ q := by
    rintro rfl
    exact chunkReference_ne_self _ _ _ derived.symm
  obtain ⟨k, memory, run, absent, stored⟩ :=
    mapRun_generation (q := q) hp different (filler_valid hi) g
  have there := stored.chunks i (lt_chunkCount_filler i)
  rw [chunk_filler, ← reference_eq_chunk_iff.mpr derived] at there
  have loaded := (acts k memory run).1 q hq
  rw [absent, load_plain there] at loaded
  cases loaded

end Collision

end KeyringVault

open KeyringVault

/-- The vault is a map on a set of profiles exactly when no profile of it is named like a chunk of
another one. -/
theorem keyringVault_actsAsMap_iff (profiles : Set ProfileId) :
    ActsAsMap profiles ↔ NoneDerived profiles :=
  ⟨noneDerived_of_actsAsMap, actsAsMap_of_noneDerived⟩

/-- The profiles `p` and `p#v1#a#0` share an entry of the keyring. -/
theorem keyringVault_shared_entry : ¬ ∀ profiles : Set ProfileId, ActsAsMap profiles := by
  intro acts
  have none := noneDerived_of_actsAsMap (acts Set.univ)
  exact none ⟨"p", by decide⟩ trivial ⟨"p#v1#a#0", by decide⟩ trivial .a 0 (by decide) (by decide)

end AutoHarness
