import AutoHarness.KeyringState

namespace AutoHarness

theorem CredentialReference.value_of_new {text : String} {reference : CredentialReference}
    (h : CredentialReference.new text = .ok reference) : reference.value = trim text := by
  unfold CredentialReference.new at h
  split at h
  next => cases h
  next =>
    cases Except.ok.inj h
    rfl

namespace KeyringVault

variable {f : KeyringFaults} {k : Keyring} {reference : CredentialReference} {secret : String}

section Operations

/-- A save fails at once or writes the secret behind the manifest it read. -/
theorem save_cases (f : KeyringFaults) (k : Keyring) (text secret : String) :
    (∃ e, save f k text secret = (.error e, k)) ∨
      ∃ stored, CredentialReference.new text = .ok stored ∧ ValidSecret secret ∧
        save f k text secret =
          ((store f k stored.value secret (existingManifest f k stored.value)).1.map
              fun _ => .saved stored,
            (store f k stored.value secret (existingManifest f k stored.value)).2) := by
  unfold save
  split
  next e _ => exact .inl ⟨e, rfl⟩
  next valid =>
    split
    next reason _ => exact .inl ⟨_, rfl⟩
    next stored named =>
      split
      next e _ => exact .inl ⟨_, rfl⟩
      next =>
        refine .inr ⟨stored, named, validateSecret_eq_ok_iff.mp valid, ?_⟩
        split
        next e k' h => simp [h, Except.map]
        next u k' h => simp [h, Except.map]

/-- A replacement reads the manifest or fails without effect. -/
theorem replace_cases (f : KeyringFaults) (k : Keyring) (reference : CredentialReference)
    (secret : String) :
    (∃ e, replace f k reference secret = (.error e, k)) ∨
      ∃ current existing, k reference.value = some current ∧
        parseManifest current = .ok existing ∧ ValidSecret secret ∧
        replace f k reference secret =
          ((store f k reference.value secret existing).1.map fun _ => .done,
            (store f k reference.value secret existing).2) := by
  unfold replace
  split
  next e _ => exact .inl ⟨e, rfl⟩
  next valid =>
    split
    next e _ => exact .inl ⟨_, rfl⟩
    next =>
      split
      next e _ => exact .inl ⟨_, rfl⟩
      next current read =>
        split
        next e _ => exact .inl ⟨_, rfl⟩
        next existing parsed =>
          have there : k reference.value = some current := by
            unfold Keyring.getPassword at read
            split at read
            next => cases read
            next =>
              split at read
              next found =>
                cases Except.ok.inj read
                exact found
              next => cases read
          refine .inr ⟨current, existing, there, parsed, validateSecret_eq_ok_iff.mp valid, ?_⟩
          split
          next e k' h => simp [h, Except.map]
          next u k' h => simp [h, Except.map]

theorem deleteManifest_eq_ok {r : String} {k' : Keyring} (h : deleteManifest f k r = .ok k') :
    k' = Function.update k r none := by
  unfold deleteManifest Keyring.deleteCredential at h
  cases fault : f .deleteReference with
  | some fault' =>
    rw [fault] at h
    have real := fault'.real
    cases e : fault'.error with
    | noEntry => exact absurd e real
    | noStorageAccess => simp [e] at h
    | other detail => simp [e] at h
  | none =>
    rw [fault] at h
    cases found : k r with
    | none =>
      rw [found] at h
      cases Except.ok.inj h
      exact (Function.update_eq_self_iff.mpr found.symm).symm
    | some password =>
      rw [found] at h
      exact (Except.ok.inj h).symm

/-- A deletion fails without effect, or removes the manifest and then what it names. -/
theorem delete_cases (f : KeyringFaults) (k : Keyring) (reference : CredentialReference) :
    (∃ e, delete f k reference = (.error e, k)) ∨
      delete f k reference = (.ok .done, deleteExisting f (Function.update k reference.value none)
        reference.value (existingManifest f k reference.value)) := by
  unfold delete
  split
  next e _ => exact .inl ⟨_, rfl⟩
  next =>
    split
    next e _ => exact .inl ⟨_, rfl⟩
    next k' removed =>
      rw [deleteManifest_eq_ok removed]
      exact .inr rfl

theorem delete_vacant {reply : VaultReply} (done : (delete f k reference).1 = .ok reply) :
    (delete f k reference).2 reference.value = none := by
  rcases delete_cases f k reference with ⟨e, h⟩ | h
  · rw [h] at done
    cases done
  · rw [h]
    refine (deleteExisting_of_ne fun g n _ i _ => ?_).trans (Function.update_self _ _ _)
    exact (chunkReference_ne_self _ g i).symm

end Operations

/-- The secret that an operation stores. -/
def newSecret? : VaultOperation → Option String
  | .save _ secret => some secret
  | .replace _ secret => some secret
  | .load _ => none
  | .delete _ => none

/-- The generation whose chunks a save would overwrite is known to it: its manifest read does not
fail while the live generation is the first one. -/
def ReadsLiveGeneration (f : KeyringFaults) (k : Keyring) : VaultOperation → Prop
  | .save text _ => ∀ n, k (trim text) = some (manifest .a n) → f .readReference = none
  | _ => True

/-- What the operation writes and clears away can be cleared: every clean-up call works, no entry
fails to open once a chunk is written, and the manifest is read where there is one. -/
def ClearsAway (f : KeyringFaults) (k : Keyring) : VaultOperation → Prop
  | .load _ => True
  | .save text _ => CleanUpWorks f ∧ (∀ g i, f (.openChunk g (i + 1)) = none) ∧
      f .openManifest = none ∧ (k (trim text) ≠ none → f .readReference = none)
  | .replace _ _ => CleanUpWorks f ∧ (∀ g i, f (.openChunk g (i + 1)) = none) ∧
      f .openManifest = none
  | .delete reference => CleanUpWorks f ∧ (k reference.value ≠ none → f .readReference = none)

/-- The keyrings that runs on one reference reach from the empty keyring, each operation with
failures of its keyring calls that the condition allows. -/
inductive Reached (allowed : KeyringFaults → Keyring → VaultOperation → Prop)
    (reference : CredentialReference) : Keyring → Prop
  | empty : Reached allowed reference fun _ => none
  | step {k : Keyring} {f : KeyringFaults} {operation : VaultOperation}
      (reached : Reached allowed reference k) (own : operation.name = reference.value)
      (fits : allowed f k operation) : Reached allowed reference (call f k operation).2

/-- An operation that stores a secret leaves the loaded one as it was when it fails, and makes it
the new one when it succeeds. -/
def Settles (reference : CredentialReference) (f : KeyringFaults) (k : Keyring)
    (operation : VaultOperation) : Prop :=
  ∀ secret, newSecret? operation = some secret →
    (∀ e, (call f k operation).1 = .error e →
      load .quiet (call f k operation).2 reference = load .quiet k reference) ∧
    (∀ reply, (call f k operation).1 = .ok reply →
      load .quiet (call f k operation).2 reference = .ok secret)

/-- No manifest and no chunk of the reference is left. -/
def Erased (reference : CredentialReference) (k : Keyring) : Prop :=
  k reference.value = none ∧ ∀ g i, k (chunkReference reference.value g i) = none

section Settling

variable {r : String} {content : Option String} {existing : Option (Generation × Nat)}

/-- The manifest an operation works with is not that of the generation it would overwrite. -/
def Apart (k : Keyring) (r : String) (existing : Option (Generation × Nat)) : Prop :=
  ∀ g secret, Stored k r g secret → nextGeneration existing ≠ g

theorem store_settles (holds : Holds k r content) (apart : Apart k r existing)
    (valid : ValidSecret secret) :
    (∀ e, (store f k r secret existing).1 = .error e →
      Holds (store f k r secret existing).2 r content) ∧
    ((store f k r secret existing).1 = .ok () →
      Holds (store f k r secret existing).2 r (some secret)) := by
  refine ⟨fun e failed => ?_, fun done => .stored (store_ok valid done)⟩
  cases holds with
  | vacant h => exact .vacant (store_failed_vacant h failed)
  | stored s => exact .stored (store_failed_stored s (apart _ _ s) failed)

theorem apart_existing {text : String} (reads : ReadsLiveGeneration f k (.save text secret)) :
    Apart k (trim text) (existingManifest f k (trim text)) := by
  intro g old s
  by_cases read : f .readReference = none
  · rw [existingManifest_stored s read]
    exact Generation.other_ne g
  · rw [existingManifest_of_fault read]
    intro same
    have first : g = .a := same.symm
    subst first
    exact read (reads _ s.entry)

theorem apart_current {current : String} (there : k r = some current)
    (parsed : parseManifest current = .ok existing) : Apart k r existing := by
  intro g old s
  have same : current = manifest g (chunkCount old) := Option.some.inj (there.symm.trans s.entry)
  rw [same, s.parse] at parsed
  cases Except.ok.inj parsed
  exact Generation.other_ne g

/-- What a call leaves under its reference. -/
structure Outcome (f : KeyringFaults) (k : Keyring) (operation : VaultOperation)
    (content : Option String) : Prop where
  failed : ∀ e, (call f k operation).1 = .error e →
    Holds (call f k operation).2 operation.name content
  stored : ∀ secret, newSecret? operation = some secret → ∀ reply,
    (call f k operation).1 = .ok reply → Holds (call f k operation).2 operation.name (some secret)

theorem outcome_of_store {operation : VaultOperation} {reply : VaultReply}
    (new : newSecret? operation = some secret) (holds : Holds k operation.name content)
    (apart : Apart k operation.name existing) (valid : ValidSecret secret)
    (h : call f k operation = ((store f k operation.name secret existing).1.map fun _ => reply,
      (store f k operation.name secret existing).2)) : Outcome f k operation content := by
  have settled := store_settles (f := f) holds apart valid
  constructor
  · intro e failed
    rw [h] at failed ⊢
    cases result : (store f k operation.name secret existing).1 with
    | error e' => exact settled.1 e' result
    | ok u =>
      rw [result] at failed
      cases failed
  · intro secret' same reply' done
    rw [new] at same
    cases Option.some.inj same
    rw [h] at done ⊢
    cases result : (store f k operation.name secret existing).1 with
    | error e' =>
      rw [result] at done
      cases done
    | ok u => exact settled.2 result

theorem outcome_of_refused {operation : VaultOperation} {e : VaultError}
    (holds : Holds k operation.name content) (h : call f k operation = (.error e, k)) :
    Outcome f k operation content where
  failed e' _ := by rwa [h]
  stored _ _ reply done := by
    rw [h] at done
    cases done

theorem call_outcome {operation : VaultOperation} (holds : Holds k operation.name content)
    (reads : ReadsLiveGeneration f k operation) : Outcome f k operation content := by
  cases operation with
  | save text secret =>
    rcases save_cases f k text secret with ⟨e, h⟩ | ⟨stored, named, valid, h⟩
    · exact outcome_of_refused holds h
    · have name := CredentialReference.value_of_new named
      rw [name] at h
      exact outcome_of_store rfl holds (apart_existing reads) valid h
  | replace reference secret =>
    rcases replace_cases f k reference secret with ⟨e, h⟩ | ⟨current, existing, there, parsed, valid, h⟩
    · exact outcome_of_refused holds h
    · exact outcome_of_store rfl holds (apart_current there parsed) valid h
  | load reference =>
    exact ⟨fun _ _ => holds, fun _ none => by cases none⟩
  | delete reference =>
    refine ⟨fun e failed => ?_, fun _ none => by cases none⟩
    rcases delete_cases f k reference with ⟨e', h⟩ | h
    · show Holds (delete f k reference).2 _ _
      rw [h]
      exact holds
    · rw [show call f k (.delete reference) = delete f k reference from rfl, h] at failed
      cases failed

/-- One operation keeps the keyring coherent. -/
theorem call_holds {operation : VaultOperation} (holds : Holds k operation.name content)
    (reads : ReadsLiveGeneration f k operation) :
    ∃ content', Holds (call f k operation).2 operation.name content' := by
  have outcome := call_outcome holds reads
  cases result : (call f k operation).1 with
  | error e => exact ⟨content, outcome.failed e result⟩
  | ok reply =>
    cases operation with
    | save text secret => exact ⟨_, outcome.stored secret rfl reply result⟩
    | replace reference secret => exact ⟨_, outcome.stored secret rfl reply result⟩
    | load reference => exact ⟨content, holds⟩
    | delete reference => exact ⟨none, .vacant (delete_vacant result)⟩

theorem reached_holds (reached : Reached ReadsLiveGeneration reference k) :
    ∃ content, Holds k reference.value content := by
  induction reached with
  | empty => exact ⟨none, .vacant rfl⟩
  | step _ own fits ih =>
    obtain ⟨content, holds⟩ := ih
    rw [← own] at holds ⊢
    exact call_holds holds fits

theorem settles_of_holds {operation : VaultOperation} (holds : Holds k reference.value content)
    (own : operation.name = reference.value) (reads : ReadsLiveGeneration f k operation) :
    Settles reference f k operation := by
  rw [← own] at holds
  have outcome := call_outcome holds reads
  intro secret new
  refine ⟨fun e failed => ?_, fun reply done => ?_⟩
  · have after := outcome.failed e failed
    rw [own] at holds after
    rw [load_of_holds after, load_of_holds holds]
  · have after := outcome.stored secret new reply done
    rw [own] at after
    exact load_of_holds after

end Settling

section Clearing

variable {r : String} {existing : Option (Generation × Nat)}

/-- The chunks in the keyring are those that its manifest names. -/
structure Tidy (k : Keyring) (r : String) (existing : Option (Generation × Nat)) : Prop where
  vacant : existing = none → k r = none
  stored : ∀ g n, existing = some (g, n) → ∃ secret, Stored k r g secret ∧ n = chunkCount secret
  owned : ∀ g i, k (chunkReference r g i) ≠ none → ∃ n, existing = some (g, n) ∧ i < n

theorem Tidy.existing_eq (tidy : Tidy k r existing)
    (read : k r ≠ none → f .readReference = none) : existingManifest f k r = existing := by
  cases existing with
  | none => exact existingManifest_vacant (tidy.vacant rfl)
  | some pair =>
    obtain ⟨secret, s, hn⟩ := tidy.stored pair.1 pair.2 rfl
    have there : k r ≠ none := by
      rw [s.entry]
      exact Option.some_ne_none _
    rw [existingManifest_stored s (read there), ← hn]

theorem Tidy.parsed_eq {current : String} {parsed : Option (Generation × Nat)}
    (tidy : Tidy k r existing) (there : k r = some current)
    (h : parseManifest current = .ok parsed) : parsed = existing := by
  cases existing with
  | none =>
    have vacant := tidy.vacant rfl
    rw [there] at vacant
    cases vacant
  | some pair =>
    obtain ⟨secret, s, hn⟩ := tidy.stored pair.1 pair.2 rfl
    have same := Option.some.inj (there.symm.trans s.entry)
    rw [same, s.parse, ← hn] at h
    exact (Except.ok.inj h).symm

theorem Tidy.next_absent (tidy : Tidy k r existing) (i : Nat) :
    k (chunkReference r (nextGeneration existing) i) = none := by
  by_contra there
  obtain ⟨n, he, -⟩ := tidy.owned _ i there
  have generation : nextGeneration existing = (nextGeneration existing).other := by
    nth_rewrite 1 [he]
    rfl
  exact Generation.other_ne _ generation.symm

theorem Tidy.ne_next {g : Generation} {n : Nat} (h : existing = some (g, n)) :
    nextGeneration existing ≠ g := by
  subst h
  exact Generation.other_ne g

/-- A failed write whose clean-up works leaves the keyring as tidy as it was. -/
theorem store_failed_tidy {e : VaultError} (tidy : Tidy k r existing) (works : CleanUpWorks f)
    (opens : ∀ g i, f (.openChunk g (i + 1)) = none) (manifest : f .openManifest = none)
    (failed : (store f k r secret existing).1 = .error e) :
    Tidy (store f k r secret existing).2 r existing where
  vacant h := store_failed_vacant (tidy.vacant h) failed
  stored g n h := by
    obtain ⟨old, s, hn⟩ := tidy.stored g n h
    exact ⟨old, store_failed_stored s (Tidy.ne_next h) failed, hn⟩
  owned g i there := by
    obtain ⟨same, failed⟩ := store_failed failed
    rw [same] at there
    by_cases next : g = nextGeneration existing
    · subst next
      exact absurd (writeChunked_undone works (opens _) manifest tidy.next_absent failed i) there
    · rw [writeChunked_of_ne (chunkReference_ne_self r g i)
        fun j _ same => next (chunkReference_inj same).2.1] at there
      exact tidy.owned g i there

theorem writeChunked_past_end {g : Generation} {i : Nat} (h : chunkCount secret ≤ i) :
    (writeChunked f k r secret g).2 (chunkReference r g i) = k (chunkReference r g i) := by
  refine writeChunked_of_ne (chunkReference_ne_self r g i) fun j hj name => ?_
  have index := (chunkReference_inj name).2.2
  omega

theorem deleteExisting_of_none {name : String} (h : k name = none) :
    deleteExisting f k r existing name = none := by
  unfold deleteExisting
  split
  next => exact h
  next => exact deleteGeneration_of_none h

/-- A completed write whose clean-up works leaves only the new chunks. -/
theorem store_ok_tidy (tidy : Tidy k r existing) (works : CleanUpWorks f)
    (valid : ValidSecret secret) (done : (store f k r secret existing).1 = .ok ()) :
    Tidy (store f k r secret existing).2 r (some (nextGeneration existing, chunkCount secret)) where
  vacant h := by cases h
  stored g n h := by
    obtain ⟨rfl, rfl⟩ := Prod.mk.inj (Option.some.inj h)
    exact ⟨secret, store_ok valid done, rfl⟩
  owned g i there := by
    rw [(store_done done).1] at there
    have written : (writeChunked f k r secret (nextGeneration existing)).2
        (chunkReference r g i) ≠ none := fun gone => there (deleteExisting_of_none gone)
    by_cases next : g = nextGeneration existing
    · subst next
      refine ⟨_, rfl, ?_⟩
      by_contra outside
      rw [writeChunked_past_end (by omega)] at written
      exact written (tidy.next_absent i)
    · rw [writeChunked_of_ne (chunkReference_ne_self r g i)
        fun j _ same => next (chunkReference_inj same).2.1] at written
      obtain ⟨n, he, hi⟩ := tidy.owned g i written
      subst he
      exact absurd (deleteGeneration_erases works hi) there

theorem store_tidy (tidy : Tidy k r existing) (works : CleanUpWorks f)
    (opens : ∀ g i, f (.openChunk g (i + 1)) = none) (manifest : f .openManifest = none)
    (valid : ValidSecret secret) : ∃ next, Tidy (store f k r secret existing).2 r next := by
  cases result : (store f k r secret existing).1 with
  | error e => exact ⟨_, store_failed_tidy tidy works opens manifest result⟩
  | ok u => exact ⟨_, store_ok_tidy tidy works valid result⟩

theorem delete_erased {reply : VaultReply} (tidy : Tidy k reference.value existing)
    (clears : ClearsAway f k (.delete reference))
    (done : (delete f k reference).1 = .ok reply) : Erased reference (delete f k reference).2 := by
  refine ⟨delete_vacant done, fun g i => ?_⟩
  rcases delete_cases f k reference with ⟨e, h⟩ | h
  · rw [h] at done
    cases done
  · rw [h, tidy.existing_eq clears.2]
    by_contra there
    have before : k (chunkReference reference.value g i) ≠ none := by
      intro gone
      refine there (deleteExisting_of_none ?_)
      rw [Function.update_of_ne (chunkReference_ne_self _ g i), gone]
    obtain ⟨n, he, hi⟩ := tidy.owned g i before
    subst he
    exact there (deleteGeneration_erases clears.1 hi)

theorem Erased.tidy (h : Erased reference k) : Tidy k reference.value none where
  vacant _ := h.1
  stored _ _ e := by cases e
  owned g i there := absurd (h.2 g i) there

theorem call_tidy {operation : VaultOperation} (tidy : Tidy k operation.name existing)
    (clears : ClearsAway f k operation) :
    ∃ next, Tidy (call f k operation).2 operation.name next := by
  cases operation with
  | save text secret =>
    obtain ⟨works, opens, manifest, read⟩ := clears
    rcases save_cases f k text secret with ⟨e, h⟩ | ⟨stored, named, valid, h⟩
    · exact ⟨existing, by rw [show call f k (.save text secret) = (.error e, k) from h]; exact tidy⟩
    · have name := CredentialReference.value_of_new named
      have standing : existingManifest f k (trim text) = existing := tidy.existing_eq read
      rw [name, standing] at h
      rw [show call f k (.save text secret) = _ from h]
      exact store_tidy tidy works opens manifest valid
  | replace reference secret =>
    obtain ⟨works, opens, manifest⟩ := clears
    rcases replace_cases f k reference secret with ⟨e, h⟩ | ⟨current, parsed, there, hp, valid, h⟩
    · exact ⟨existing, by
        rw [show call f k (.replace reference secret) = (.error e, k) from h]; exact tidy⟩
    · rw [tidy.parsed_eq there hp] at h
      rw [show call f k (.replace reference secret) = _ from h]
      exact store_tidy tidy works opens manifest valid
  | load reference => exact ⟨existing, tidy⟩
  | delete reference =>
    cases result : (delete f k reference).1 with
    | error e =>
      rcases delete_cases f k reference with ⟨e', h⟩ | h
      · exact ⟨existing, by rw [show call f k (.delete reference) = (.error e', k) from h]; exact tidy⟩
      · rw [h] at result
        cases result
    | ok reply => exact ⟨none, (delete_erased tidy clears result).tidy⟩

theorem reached_tidy (reached : Reached ClearsAway reference k) :
    ∃ existing, Tidy k reference.value existing := by
  induction reached with
  | empty => exact ⟨none, fun _ => rfl, nofun, fun _ _ there => absurd rfl there⟩
  | step _ own fits ih =>
    obtain ⟨existing, tidy⟩ := ih
    rw [← own] at tidy ⊢
    exact call_tidy tidy fits

end Clearing

theorem ClearsAway.reads {operation : VaultOperation} (clears : ClearsAway f k operation) :
    ReadsLiveGeneration f k operation := by
  cases operation with
  | save text secret =>
    intro n there
    refine clears.2.2.2 ?_
    rw [there]
    exact Option.some_ne_none _
  | _ => trivial

theorem Reached.mono {allowed wider : KeyringFaults → Keyring → VaultOperation → Prop}
    (h : ∀ f k operation, allowed f k operation → wider f k operation)
    (reached : Reached allowed reference k) : Reached wider reference k := by
  induction reached with
  | empty => exact .empty
  | step _ own fits ih => exact .step ih own (h _ _ _ fits)

end KeyringVault

open KeyringVault

/-- A store that fails keeps the secret that is loaded, one that succeeds sets it, and after a
deletion that succeeds nothing of the reference is left. -/
def KeyringVault.Dependable (reference : CredentialReference) (f : KeyringFaults) (k : Keyring)
    (operation : VaultOperation) : Prop :=
  Settles reference f k operation ∧
    (operation = .delete reference → ∀ reply, (call f k operation).1 = .ok reply →
      Erased reference (call f k operation).2)

/-- On one reference, whatever keyring calls fail: in a run where the clean-up of every operation
works the vault is dependable, and its stores already are where no save misses the manifest of a
live first generation. -/
theorem keyringVault_dependable (reference : CredentialReference) (f : KeyringFaults) (k : Keyring)
    (operation : VaultOperation) (own : operation.name = reference.value) :
    (Reached ClearsAway reference k → ClearsAway f k operation →
      Dependable reference f k operation) ∧
    (Reached ReadsLiveGeneration reference k → ReadsLiveGeneration f k operation →
      Settles reference f k operation) := by
  have settles : Reached ReadsLiveGeneration reference k → ReadsLiveGeneration f k operation →
      Settles reference f k operation := by
    intro reached reads
    obtain ⟨content, holds⟩ := reached_holds reached
    exact settles_of_holds holds own reads
  refine ⟨fun reached clears => ⟨?_, fun deletes reply done => ?_⟩, settles⟩
  · exact settles (reached.mono fun _ _ _ => ClearsAway.reads) clears.reads
  · obtain ⟨existing, tidy⟩ := reached_tidy reached
    subst deletes
    exact delete_erased tidy clears done

def sampleReference : CredentialReference := ⟨"autoharness/profile/p", by decide⟩

/-- A keyring in which the named calls are refused. -/
def refusing (refused : KeyringCall → Bool) : KeyringFaults :=
  fun call => if refused call then some ⟨.noStorageAccess, by decide⟩ else none

def savedSample : Keyring := (call .quiet (fun _ => none) (.save "autoharness/profile/p" "s")).2

theorem keyringVault_dependable_delete :
    Dependable sampleReference .quiet savedSample (.delete sampleReference) :=
  (keyringVault_dependable sampleReference .quiet savedSample (.delete sampleReference) rfl).1
    (.step .empty rfl ⟨fun _ _ => ⟨rfl, rfl⟩, fun _ _ => rfl, rfl, fun _ => rfl⟩)
    ⟨fun _ _ => ⟨rfl, rfl⟩, fun _ => rfl⟩

/-- A deletion whose chunk removal is refused succeeds and leaves the secret; a save that cannot
read the manifest and then fails has destroyed the secret that was stored. -/
theorem keyringVault_undependable :
    ¬ (∀ reference f k operation, operation.name = reference.value →
      Reached (fun _ _ _ => True) reference k → Dependable reference f k operation) ∧
    ¬ (∀ reference f k operation, operation.name = reference.value →
      Reached (fun _ _ _ => True) reference k → Settles reference f k operation) := by
  have reached : Reached (fun _ _ _ => True) sampleReference savedSample :=
    .step .empty rfl trivial
  constructor
  · intro dependable
    have erased := (dependable sampleReference
      (refusing fun call => call matches .deleteStale _ _) savedSample (.delete sampleReference)
      rfl reached).2 rfl .done (by decide +kernel)
    have left := erased.2 .a 0
    revert left
    decide +kernel
  · intro settles
    have kept := (settles sampleReference
      (refusing fun call => call matches .readReference | .writeManifest) savedSample
      (.save "autoharness/profile/p" "t") (by decide +kernel) reached "t" rfl).1 .unavailable
      (by decide +kernel)
    revert kept
    decide +kernel

end AutoHarness
