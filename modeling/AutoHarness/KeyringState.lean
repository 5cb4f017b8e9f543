import AutoHarness.KeyringWrites
import AutoHarness.FallibleRun

namespace AutoHarness

namespace KeyringVault

variable {f : KeyringFaults} {k : Keyring} {r name secret : String} {g : Generation} {i n : Nat}

theorem chunkCount_pos (valid : ValidSecret secret) : 0 < chunkCount secret :=
  Chunks.count_pos (by decide) valid.nonempty

theorem chunkCount_le (valid : ValidSecret secret) : chunkCount secret ≤ maxChunks := by
  refine Chunks.count_le (by decide) ?_
  have short := valid.short
  unfold maxSecretBytes at short
  unfold keyringChunkBytes
  rw [maxChunks_eq]
  omega

theorem Stored.parse (s : Stored k r g secret) :
    parseManifest (manifest g (chunkCount secret)) = .ok (some (g, chunkCount secret)) :=
  parseManifest_manifest (chunkCount_pos s.valid) (chunkCount_le s.valid)

/-- Only the entries that hold it matter to a stored secret. -/
theorem Stored.of_same {k' : Keyring} (s : Stored k r g secret) (reference : k' r = k r)
    (chunks : ∀ i < chunkCount secret, k' (chunkReference r g i) = k (chunkReference r g i)) :
    Stored k' r g secret where
  valid := s.valid
  entry := by rw [reference, s.entry]
  chunks i hi := by rw [chunks i hi, s.chunks i hi]

/-- What stands under a reference: nothing, or a secret in one of the generations. -/
inductive Holds (k : Keyring) (r : String) : Option String → Prop
  | vacant (h : k r = none) : Holds k r none
  | stored {g : Generation} {secret : String} (h : Stored k r g secret) : Holds k r (some secret)

/-- The answer of `load` to what stands under a reference. -/
def answer : Option String → Except VaultError String
  | none => .error .missingEntry
  | some secret => .ok secret

theorem join_chunks (secret : String) :
    String.join ((List.range (chunkCount secret)).map fun i =>
      String.ofList (Chunks.chunk keyringChunkBytes secret.toList i)) = secret := by
  have whole : ((List.range (chunkCount secret)).map
      (Chunks.chunk keyringChunkBytes secret.toList)).flatten = secret.toList :=
    Chunks.flatten_chunks (by decide)
  rw [← String.toList_inj, String.toList_join, List.flatMap_map]
  rw [← List.flatMap_def] at whole
  simpa using whole

theorem assemble_stored (s : Stored k r g secret) :
    assemble .quiet k r g (chunkCount secret) = .ok secret := by
  have each : ∀ i ∈ List.range (chunkCount secret), readChunk .quiet k r g i =
      .ok (String.ofList (Chunks.chunk keyringChunkBytes secret.toList i)) := by
    intro i hi
    unfold readChunk Keyring.getPassword
    rw [s.chunks i (List.mem_range.mp hi)]
    rfl
  unfold assemble
  rw [FallibleRun.mapM_eq_ok each, FallibleRun.ok_bind]
  simp only [join_chunks, validateSecret_eq_ok_iff.mpr s.valid]
  rfl

/-- Once the keyring works, `load` answers what stands under the reference. -/
theorem load_of_holds {reference : CredentialReference} {content : Option String}
    (h : Holds k reference.value content) : load .quiet k reference = answer content := by
  cases h with
  | vacant h =>
    unfold load Keyring.getPassword
    simp only [Keyring.entry, KeyringFaults.quiet, h]
    rfl
  | stored s =>
    unfold load Keyring.getPassword
    simp only [Keyring.entry, KeyringFaults.quiet, s.entry, s.parse]
    exact assemble_stored s

section Manifest

theorem parseFields_bound {fields : List (List Char)} (h : parseFields fields = .ok (g, n)) :
    n ≤ maxChunks := by
  unfold parseFields at h
  split at h
  next =>
    split at h
    next =>
      split at h
      next bound =>
        obtain ⟨-, rfl⟩ := Prod.mk.inj (Except.ok.inj h)
        exact bound.2
      next => cases h
    next => cases h
  next => cases h

theorem parseManifest_bound {value : String} (h : parseManifest value = .ok (some (g, n))) :
    n ≤ maxChunks := by
  unfold parseManifest at h
  split at h
  next =>
    split at h
    next =>
      split at h
      next =>
        cases fields : parseFields _ with
        | error e =>
          rw [fields] at h
          cases h
        | ok pair =>
          rw [fields] at h
          cases Option.some.inj (Except.ok.inj h)
          exact parseFields_bound fields
      next => cases h
    next => cases h
  next => cases Except.ok.inj h

theorem existingManifest_bound (h : existingManifest f k r = some (g, n)) : n ≤ maxChunks := by
  unfold existingManifest at h
  split at h
  next => cases h
  next =>
    split at h
    next => cases h
    next value existing parsed =>
      rw [h] at parsed
      exact parseManifest_bound parsed

theorem existingManifest_of_fault (h : f .readReference ≠ none) : existingManifest f k r = none := by
  unfold existingManifest Keyring.getPassword
  cases read : f .readReference with
  | none => exact absurd read h
  | some fault => rfl

theorem existingManifest_vacant (h : k r = none) : existingManifest f k r = none := by
  unfold existingManifest Keyring.getPassword
  rw [h]
  cases f .readReference <;> rfl

theorem existingManifest_stored (s : Stored k r g secret) (read : f .readReference = none) :
    existingManifest f k r = some (g, chunkCount secret) := by
  unfold existingManifest Keyring.getPassword
  simp only [read, s.entry, s.parse]

end Manifest

section Store

variable {existing : Option (Generation × Nat)}

theorem deleteExisting_of_ne
    (h : ∀ g n, existing = some (g, n) → ∀ i < n, name ≠ chunkReference r g i) :
    deleteExisting f k r existing name = k name := by
  unfold deleteExisting
  split
  next => rfl
  next g n => exact deleteGeneration_of_ne (h g n rfl)

theorem store_of_ne (hr : name ≠ r)
    (fresh : ∀ i < chunkCount secret, name ≠ chunkReference r (nextGeneration existing) i)
    (stale : ∀ g n, existing = some (g, n) → ∀ i < n, name ≠ chunkReference r g i) :
    (store f k r secret existing).2 name = k name := by
  have written := writeChunked_of_ne (f := f) (k := k) hr fresh
  unfold store
  split
  next e k' h =>
    rw [h] at written
    exact written
  next u k' h =>
    rw [h] at written
    exact (deleteExisting_of_ne stale).trans written

theorem store_failed {e : VaultError} (failed : (store f k r secret existing).1 = .error e) :
    (store f k r secret existing).2 = (writeChunked f k r secret (nextGeneration existing)).2 ∧
      (writeChunked f k r secret (nextGeneration existing)).1 = .error e := by
  unfold store at failed ⊢
  split at failed
  next e' k' h =>
    rw [h]
    exact ⟨rfl, failed⟩
  next => cases failed

theorem store_done (done : (store f k r secret existing).1 = .ok ()) :
    (store f k r secret existing).2 =
        deleteExisting f (writeChunked f k r secret (nextGeneration existing)).2 r existing ∧
      (writeChunked f k r secret (nextGeneration existing)).1 = .ok () := by
  unfold store at done ⊢
  split at done
  next => cases done
  next u k' h =>
    rw [h]
    exact ⟨rfl, rfl⟩

/-- A secret that was stored whole stands in its generation. -/
theorem store_ok (valid : ValidSecret secret) (done : (store f k r secret existing).1 = .ok ()) :
    Stored (store f k r secret existing).2 r (nextGeneration existing) secret := by
  obtain ⟨same, written⟩ := store_done done
  rw [same]
  refine (writeChunked_stored valid written).of_same (deleteExisting_of_ne fun g n _ i _ => ?_)
    fun i _ => deleteExisting_of_ne fun g n he j _ same => ?_
  · exact (chunkReference_ne_self r g i).symm
  · have generation := (chunkReference_inj same).2.1
    subst he
    exact Generation.other_ne g generation

/-- A write that fails in the other generation keeps the secret that stands. -/
theorem store_failed_stored {e : VaultError} {old : String} (s : Stored k r g old)
    (other : nextGeneration existing ≠ g)
    (failed : (store f k r secret existing).1 = .error e) :
    Stored (store f k r secret existing).2 r g old := by
  obtain ⟨same, failed⟩ := store_failed failed
  rw [same]
  refine s.of_same (writeChunked_failed failed) fun i _ => ?_
  refine writeChunked_of_ne (chunkReference_ne_self r g i) fun j _ same => ?_
  exact other (chunkReference_inj same).2.1.symm

theorem store_failed_vacant {e : VaultError} (h : k r = none)
    (failed : (store f k r secret existing).1 = .error e) :
    (store f k r secret existing).2 r = none := by
  obtain ⟨same, failed⟩ := store_failed failed
  rw [same, writeChunked_failed failed, h]

end Store

end KeyringVault

end AutoHarness
