import AutoHarness.KeyringVault

namespace AutoHarness

namespace KeyringVault

variable {f : KeyringFaults} {k : Keyring} {r name secret : String} {g : Generation} {i n : Nat}

section Deletion

theorem deleteChunk_cases (f : KeyringFaults) (k : Keyring) (r : String) (g : Generation) (i : Nat) :
    deleteChunk f k r g i = k ∨
      deleteChunk f k r g i = Function.update k (chunkReference r g i) none := by
  unfold deleteChunk Keyring.deleteCredential
  cases Keyring.entry f (.openStale g i) with
  | error e => exact .inl rfl
  | ok u =>
    cases f (.deleteStale g i) with
    | some fault => exact .inl rfl
    | none =>
      cases h : k (chunkReference r g i) with
      | none => exact .inl rfl
      | some password => exact .inr rfl

theorem deleteChunk_of_ne (h : name ≠ chunkReference r g i) :
    deleteChunk f k r g i name = k name := by
  rcases deleteChunk_cases f k r g i with e | e
  · rw [e]
  · rw [e, Function.update_of_ne h]

theorem deleteChunk_self (opened : f (.openStale g i) = none) (works : f (.deleteStale g i) = none) :
    deleteChunk f k r g i (chunkReference r g i) = none := by
  unfold deleteChunk Keyring.entry Keyring.deleteCredential
  rw [opened, works]
  cases h : k (chunkReference r g i) with
  | none => simpa using h
  | some password => simp

theorem deleteChunk_of_none (h : k name = none) : deleteChunk f k r g i name = none := by
  rcases deleteChunk_cases f k r g i with e | e
  · rw [e, h]
  · by_cases same : name = chunkReference r g i
    · rw [e, same, Function.update_self]
    · rw [e, Function.update_of_ne same, h]

theorem deleteGeneration_succ :
    deleteGeneration f k r g (n + 1) = deleteChunk f (deleteGeneration f k r g n) r g n := by
  simp [deleteGeneration, List.range_succ]

theorem deleteGeneration_of_ne (h : ∀ i < n, name ≠ chunkReference r g i) :
    deleteGeneration f k r g n name = k name := by
  induction n with
  | zero => rfl
  | succ n ih =>
    rw [deleteGeneration_succ, deleteChunk_of_ne (h n (by omega)), ih fun i hi => h i (by omega)]

theorem deleteGeneration_of_none (h : k name = none) : deleteGeneration f k r g n name = none := by
  induction n with
  | zero => exact h
  | succ n ih =>
    rw [deleteGeneration_succ]
    exact deleteChunk_of_none ih

/-- The clean-up calls of an operation all work. -/
def CleanUpWorks (f : KeyringFaults) : Prop :=
  ∀ g i, f (.openStale g i) = none ∧ f (.deleteStale g i) = none

theorem deleteGeneration_erases (works : CleanUpWorks f) (h : i < n) :
    deleteGeneration f k r g n (chunkReference r g i) = none := by
  induction n with
  | zero => omega
  | succ n ih =>
    rw [deleteGeneration_succ]
    by_cases last : i = n
    · subst last
      exact deleteChunk_self (works g i).1 (works g i).2
    · exact deleteChunk_of_none (ih (by omega))

end Deletion

section Chunks

theorem setPassword_eq_ok {call : KeyringCall} {password : String} {k' : Keyring}
    (h : Keyring.setPassword f k call name password = .ok k') :
    k' = Function.update k name (some password) := by
  unfold Keyring.setPassword at h
  split at h
  next => cases h
  next => exact (Except.ok.inj h).symm

theorem writeChunks_of_ne {chunks : List (List Char)}
    (h : ∀ j < i + chunks.length, name ≠ chunkReference r g j) :
    (writeChunks f r g chunks i k).2 name = k name := by
  induction chunks generalizing i k with
  | nil => rfl
  | cons chunk rest ih =>
    rw [List.length_cons] at h
    unfold writeChunks
    split
    next => rfl
    next =>
      split
      next => exact deleteGeneration_of_ne fun j hj => h j (by omega)
      next _ k' written =>
        rw [ih fun j hj => h j (by omega), setPassword_eq_ok written]
        exact Function.update_of_ne (h i (by omega)) _ _

theorem writeChunks_before {chunks : List (List Char)} {j : Nat} (hj : j < i)
    (done : (writeChunks f r g chunks i k).1 = .ok ()) :
    (writeChunks f r g chunks i k).2 (chunkReference r g j) = k (chunkReference r g j) := by
  induction chunks generalizing i k with
  | nil => rfl
  | cons chunk rest ih =>
    unfold writeChunks at done ⊢
    split at done
    next => cases done
    next opened =>
      split at done
      next => cases done
      next _ k' written =>
        rw [ih (by omega) done, setPassword_eq_ok written]
        refine Function.update_of_ne (fun same => ?_) _ _
        have index := (chunkReference_inj same).2.2
        omega

/-- Written chunks stand under their names. -/
theorem writeChunks_stored (chunks : List (List Char)) {j : Nat} {chunk : List Char}
    (done : (writeChunks f r g chunks i k).1 = .ok ()) (hj : chunks[j]? = some chunk) :
    (writeChunks f r g chunks i k).2 (chunkReference r g (i + j)) = some (String.ofList chunk) := by
  induction chunks generalizing i j k with
  | nil => cases hj
  | cons head rest ih =>
    unfold writeChunks at done ⊢
    split at done
    next => cases done
    next opened =>
      split at done
      next => cases done
      next _ k' written =>
        cases j with
        | zero =>
          cases Option.some.inj hj
          rw [Nat.add_zero, writeChunks_before (by omega) done, setPassword_eq_ok written]
          exact Function.update_self _ _ _
        | succ j =>
          have next := ih done (by simpa using hj)
          rwa [Nat.add_assoc, Nat.add_comm 1 j] at next

/-- Where the clean-up works and only the first entry can fail to open, a failed write leaves no
chunk behind. -/
theorem writeChunks_undone {chunks : List (List Char)} {e : VaultError} (works : CleanUpWorks f)
    (opens : ∀ j, f (.openChunk g (j + 1)) = none)
    (absent : ∀ j, i ≤ j → k (chunkReference r g j) = none)
    (failed : (writeChunks f r g chunks i k).1 = .error e) (j : Nat) :
    (writeChunks f r g chunks i k).2 (chunkReference r g j) = none := by
  induction chunks generalizing i k with
  | nil => cases failed
  | cons chunk rest ih =>
    unfold writeChunks at failed ⊢
    split at failed
    next _ closed =>
      have first : i = 0 := by
        by_contra later
        obtain ⟨m, rfl⟩ := Nat.exists_eq_succ_of_ne_zero later
        unfold Keyring.entry at closed
        rw [opens m] at closed
        cases closed
      exact absent j (by omega)
    next opened =>
      split at failed
      next _ refused =>
        by_cases before : j < i
        · exact deleteGeneration_erases works before
        · exact deleteGeneration_of_none (absent j (by omega))
      next _ k' written =>
        refine ih (fun j hj => ?_) failed
        rw [setPassword_eq_ok written, Function.update_of_ne]
        · exact absent j (by omega)
        · intro same
          have index := (chunkReference_inj same).2.2
          omega

end Chunks

section Secret

/-- The number of chunks of a secret. -/
abbrev chunkCount (secret : String) : Nat := Chunks.count keyringChunkBytes secret.toList

@[simp] theorem length_secretChunks : (secretChunks secret).length = chunkCount secret :=
  Chunks.length_chunks

theorem writeManifest_of_ne (hr : name ≠ r) (h : ∀ j < n, name ≠ chunkReference r g j) :
    (writeManifest f k r g n).2 name = k name := by
  unfold writeManifest
  split
  next => rfl
  next =>
    split
    next => exact deleteGeneration_of_ne h
    next _ k' written =>
      rw [setPassword_eq_ok written]
      exact Function.update_of_ne hr _ _

theorem writeManifest_ok (done : (writeManifest f k r g n).1 = .ok ()) :
    (writeManifest f k r g n).2 = Function.update k r (some (manifest g n)) := by
  unfold writeManifest at done ⊢
  split at done
  next => cases done
  next =>
    split at done
    next => cases done
    next _ k' written => exact setPassword_eq_ok written

theorem writeManifest_failed {e : VaultError} (failed : (writeManifest f k r g n).1 = .error e) :
    (writeManifest f k r g n).2 r = k r := by
  unfold writeManifest at failed ⊢
  split at failed
  next => rfl
  next =>
    split at failed
    next => exact deleteGeneration_of_ne fun j _ => (chunkReference_ne_self r g j).symm
    next => cases failed

theorem writeManifest_undone {e : VaultError} (works : CleanUpWorks f)
    (opens : f .openManifest = none) (absent : ∀ j, n ≤ j → k (chunkReference r g j) = none)
    (failed : (writeManifest f k r g n).1 = .error e) (j : Nat) :
    (writeManifest f k r g n).2 (chunkReference r g j) = none := by
  unfold writeManifest at failed ⊢
  split at failed
  next _ closed =>
    unfold Keyring.entry at closed
    rw [opens] at closed
    cases closed
  next =>
    split at failed
    next =>
      by_cases before : j < n
      · exact deleteGeneration_erases works before
      · exact deleteGeneration_of_none (absent j (by omega))
    next => cases failed

theorem writeChunked_of_ne (hr : name ≠ r) (h : ∀ j < chunkCount secret, name ≠ chunkReference r g j) :
    (writeChunked f k r secret g).2 name = k name := by
  have chunks : (writeChunks f r g (secretChunks secret) 0 k).2 name =
      k name := writeChunks_of_ne (by simpa using h)
  unfold writeChunked
  split
  next e k' written =>
    rw [written] at chunks
    exact chunks
  next u k' written =>
    rw [written] at chunks
    rw [writeManifest_of_ne hr (by simpa using h)]
    exact chunks

theorem writeChunked_failed {e : VaultError} (failed : (writeChunked f k r secret g).1 = .error e) :
    (writeChunked f k r secret g).2 r = k r := by
  have chunks : (writeChunks f r g (secretChunks secret) 0 k).2 r = k r :=
    writeChunks_of_ne fun j _ => (chunkReference_ne_self r g j).symm
  unfold writeChunked at failed ⊢
  split at failed
  next e k' written =>
    rw [written] at chunks
    exact chunks
  next u k' written =>
    rw [written] at chunks
    exact (writeManifest_failed failed).trans chunks

/-- Where the clean-up works, a failed write leaves no chunk of its generation. -/
theorem writeChunked_undone {e : VaultError} (works : CleanUpWorks f)
    (opens : ∀ j, f (.openChunk g (j + 1)) = none) (manifest : f .openManifest = none)
    (absent : ∀ j, k (chunkReference r g j) = none)
    (failed : (writeChunked f k r secret g).1 = .error e) (j : Nat) :
    (writeChunked f k r secret g).2 (chunkReference r g j) = none := by
  unfold writeChunked at failed ⊢
  split at failed
  next e k' written =>
    have undone := writeChunks_undone (i := 0) works opens (fun j _ => absent j)
      (by rw [written]) j
    rw [written] at undone
    exact undone
  next u k' written =>
    refine writeManifest_undone works manifest (fun j hj => ?_) failed j
    have frame : (writeChunks f r g (secretChunks secret) 0 k).2
        (chunkReference r g j) = k (chunkReference r g j) := by
      refine writeChunks_of_ne fun m hm same => ?_
      have index := (chunkReference_inj same).2.2
      omega
    rw [written] at frame
    exact frame.trans (absent j)

/-- The secret that stands under a reference in one generation. -/
structure Stored (k : Keyring) (r : String) (g : Generation) (secret : String) : Prop where
  valid : ValidSecret secret
  entry : k r = some (manifest g (chunkCount secret))
  chunks : ∀ i < chunkCount secret, k (chunkReference r g i) =
    some (String.ofList (Chunks.chunk keyringChunkBytes secret.toList i))

theorem writeChunked_stored (valid : ValidSecret secret)
    (done : (writeChunked f k r secret g).1 = .ok ()) :
    Stored (writeChunked f k r secret g).2 r g secret := by
  unfold writeChunked at done ⊢
  split at done
  next => cases done
  next u k' written =>
    have chunks := writeManifest_ok done
    have stored : ∀ i < chunkCount secret, k' (chunkReference r g i) =
        some (String.ofList (Chunks.chunk keyringChunkBytes secret.toList i)) := by
      intro i hi
      have each := writeChunks_stored (f := f) (r := r) (g := g) (i := 0) (k := k)
        (secretChunks secret) (by rw [written]) (Chunks.getElem?_chunks hi)
      rw [written, Nat.zero_add] at each
      exact each
    refine ⟨valid, ?_, fun i hi => ?_⟩
    · rw [chunks, Function.update_self, length_secretChunks]
    · rw [chunks, Function.update_of_ne (chunkReference_ne_self r g i)]
      exact stored i hi

end Secret

end KeyringVault

end AutoHarness
