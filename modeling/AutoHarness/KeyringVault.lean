import AutoHarness.Vault

namespace AutoHarness

/-- The two generations between which the chunks of a secret alternate. -/
inductive Generation where
  | a
  | b
deriving DecidableEq, Repr

def Generation.char : Generation → Char
  | .a => 'a'
  | .b => 'b'

def Generation.other : Generation → Generation
  | .a => .b
  | .b => .a

inductive KeyringError where
  | noEntry
  | noStorageAccess
  | other (detail : String)
deriving DecidableEq, Repr

def mapKeyringError : KeyringError → VaultError
  | .noEntry => .missingEntry
  | .noStorageAccess => .unavailable
  | .other detail => .platform detail

/-- A failure of a keyring call; only a call that finds no entry reports a missing one. -/
structure KeyringFault where
  error : KeyringError
  real : error ≠ .noEntry

/-- The keyring calls of one vault operation, by their place in it. -/
inductive KeyringCall where
  | openReference
  | readReference
  | deleteReference
  | openChunk (generation : Generation) (index : Nat)
  | readChunk (generation : Generation) (index : Nat)
  | writeChunk (generation : Generation) (index : Nat)
  | openManifest
  | writeManifest
  | openStale (generation : Generation) (index : Nat)
  | deleteStale (generation : Generation) (index : Nat)

/-- Which of the keyring calls of one operation fail. -/
abbrev KeyringFaults := KeyringCall → Option KeyringFault

def KeyringFaults.quiet : KeyringFaults := fun _ => none

/-- The entries of one keyring service. -/
abbrev Keyring := String → Option String

namespace Keyring

variable (f : KeyringFaults) (k : Keyring)

def entry (call : KeyringCall) : Except KeyringError Unit :=
  match f call with
  | some fault => .error fault.error
  | none => .ok ()

def getPassword (call : KeyringCall) (name : String) : Except KeyringError String :=
  match f call with
  | some fault => .error fault.error
  | none =>
    match k name with
    | some password => .ok password
    | none => .error .noEntry

def setPassword (call : KeyringCall) (name password : String) : Except KeyringError Keyring :=
  match f call with
  | some fault => .error fault.error
  | none => .ok (Function.update k name (some password))

def deleteCredential (call : KeyringCall) (name : String) : Except KeyringError Keyring :=
  match f call with
  | some fault => .error fault.error
  | none =>
    match k name with
    | some _ => .ok (Function.update k name none)
    | none => .error .noEntry

end Keyring

def keyringChunkBytes : Nat := 1000

def keyringManifestPrefix : String := "autoharness-vault-v1"

def maxChunks : Nat := (maxSecretBytes + keyringChunkBytes - 1) / keyringChunkBytes

/-- The number of values of `usize` on a 64-bit target. -/
def usizeValues : Nat := 18446744073709551616

/-- `str::parse::<usize>`. -/
def parseUsize (text : List Char) : Option Nat :=
  let digits := if text.head? = some '+' then text.tail else text
  if digits ≠ [] ∧ digits.all Char.isDigit ∧ Nat.ofDigitChars 10 digits 0 < usizeValues then
    some (Nat.ofDigitChars 10 digits 0)
  else none

def parseGeneration : List Char → Option Generation
  | ['a'] => some .a
  | ['b'] => some .b
  | _ => none

namespace KeyringVault

def chunkReference (reference : String) (generation : Generation) (index : Nat) : String :=
  reference ++ "#v1#" ++ String.ofList [generation.char] ++ "#" ++ toString index

def manifest (generation : Generation) (count : Nat) : String :=
  keyringManifestPrefix ++ ":" ++ String.ofList [generation.char] ++ ":" ++ toString count

/-- The fields of a manifest behind its name. -/
def parseFields : List (List Char) → Except VaultError (Generation × Nat)
  | [generation, count] =>
    match parseGeneration generation, parseUsize count with
    | some generation, some count =>
      if 0 < count ∧ count ≤ maxChunks then .ok (generation, count) else .error .unavailable
    | _, _ => .error .unavailable
  | _ => .error .unavailable

def parseManifest (value : String) : Except VaultError (Option (Generation × Nat)) :=
  if keyringManifestPrefix.toList.isPrefixOf value.toList then
    match value.toList.splitOn ':' with
    | name :: fields =>
      if name = keyringManifestPrefix.toList then (parseFields fields).map some
      else .error .unavailable
    | [] => .error .unavailable
  else .ok none

variable (f : KeyringFaults) (k : Keyring)

/-- One turn of `delete_generation`: whatever fails is passed over. -/
def deleteChunk (reference : String) (generation : Generation) (index : Nat) : Keyring :=
  match Keyring.entry f (.openStale generation index) with
  | .error _ => k
  | .ok _ =>
    match Keyring.deleteCredential f k (.deleteStale generation index)
        (chunkReference reference generation index) with
    | .error _ => k
    | .ok k => k

def deleteGeneration (reference : String) (generation : Generation) (count : Nat) : Keyring :=
  (List.range count).foldl (fun k index => deleteChunk f k reference generation index) k

/-- The loop of `write_chunked`. -/
def writeChunks (reference : String) (generation : Generation) :
    List (List Char) → Nat → Keyring → Except VaultError Unit × Keyring
  | [], _, k => (.ok (), k)
  | chunk :: rest, index, k =>
    match Keyring.entry f (.openChunk generation index) with
    | .error e => (.error (mapKeyringError e), k)
    | .ok _ =>
      match Keyring.setPassword f k (.writeChunk generation index)
          (chunkReference reference generation index) (String.ofList chunk) with
      | .error e => (.error (mapKeyringError e), deleteGeneration f k reference generation index)
      | .ok k => writeChunks reference generation rest (index + 1) k

def writeManifest (reference : String) (generation : Generation) (count : Nat) :
    Except VaultError Unit × Keyring :=
  match Keyring.entry f .openManifest with
  | .error e => (.error (mapKeyringError e), k)
  | .ok _ =>
    match Keyring.setPassword f k .writeManifest reference (manifest generation count) with
    | .error e => (.error (mapKeyringError e), deleteGeneration f k reference generation count)
    | .ok k => (.ok (), k)

def secretChunks (secret : String) : List (List Char) :=
  Chunks.chunks keyringChunkBytes secret.toList

def writeChunked (reference secret : String) (generation : Generation) :
    Except VaultError Unit × Keyring :=
  match writeChunks f reference generation (secretChunks secret) 0 k with
  | (.error e, k) => (.error e, k)
  | (.ok _, k) => writeManifest f k reference generation (secretChunks secret).length

def nextGeneration (existing : Option (Generation × Nat)) : Generation :=
  match existing with
  | none => .a
  | some (generation, _) => generation.other

def deleteExisting (reference : String) (existing : Option (Generation × Nat)) : Keyring :=
  match existing with
  | none => k
  | some (generation, count) => deleteGeneration f k reference generation count

/-- Write the next generation of a secret, then clear the one it supersedes. -/
def store (reference secret : String) (existing : Option (Generation × Nat)) :
    Except VaultError Unit × Keyring :=
  match writeChunked f k reference secret (nextGeneration existing) with
  | (.error e, k) => (.error e, k)
  | (.ok _, k) => (.ok (), deleteExisting f k reference existing)

/-- The manifest as `save` and `delete` read it: every failure counts as none. -/
def existingManifest (reference : String) : Option (Generation × Nat) :=
  match Keyring.getPassword f k .readReference reference with
  | .error _ => none
  | .ok value =>
    match parseManifest value with
    | .error _ => none
    | .ok existing => existing

def save (reference secret : String) : Except VaultError VaultReply × Keyring :=
  match validateSecret secret with
  | .error e => (.error e, k)
  | .ok _ =>
    match CredentialReference.new reference with
    | .error reason => (.error (.invalidSecret reason), k)
    | .ok stored =>
      match Keyring.entry f .openReference with
      | .error e => (.error (mapKeyringError e), k)
      | .ok _ =>
        match store f k stored.value secret (existingManifest f k stored.value) with
        | (.error e, k) => (.error e, k)
        | (.ok _, k) => (.ok (.saved stored), k)

def readChunk (reference : String) (generation : Generation) (index : Nat) :
    Except VaultError String :=
  match Keyring.entry f (.openChunk generation index) with
  | .error e => .error (mapKeyringError e)
  | .ok _ =>
    (Keyring.getPassword f k (.readChunk generation index)
      (chunkReference reference generation index)).mapError mapKeyringError

def assemble (reference : String) (generation : Generation) (count : Nat) :
    Except VaultError String := do
  let chunks ← (List.range count).mapM (readChunk f k reference generation)
  let assembled := String.join chunks
  validateSecret assembled
  .ok assembled

def load (reference : CredentialReference) : Except VaultError String :=
  match Keyring.entry f .openReference with
  | .error e => .error (mapKeyringError e)
  | .ok _ =>
    match Keyring.getPassword f k .readReference reference.value with
    | .error e => .error (mapKeyringError e)
    | .ok secret =>
      match parseManifest secret with
      | .error e => .error e
      | .ok none => .ok secret
      | .ok (some (generation, count)) => assemble f k reference.value generation count

def replace (reference : CredentialReference) (secret : String) :
    Except VaultError VaultReply × Keyring :=
  match validateSecret secret with
  | .error e => (.error e, k)
  | .ok _ =>
    match Keyring.entry f .openReference with
    | .error e => (.error (mapKeyringError e), k)
    | .ok _ =>
      match Keyring.getPassword f k .readReference reference.value with
      | .error e => (.error (mapKeyringError e), k)
      | .ok current =>
        match parseManifest current with
        | .error e => (.error e, k)
        | .ok existing =>
          match store f k reference.value secret existing with
          | (.error e, k) => (.error e, k)
          | (.ok _, k) => (.ok .done, k)

/-- Remove the entry of the reference itself; one that is not there counts as removed. -/
def deleteManifest (reference : String) : Except VaultError Keyring :=
  match Keyring.deleteCredential f k .deleteReference reference with
  | .ok k => .ok k
  | .error .noEntry => .ok k
  | .error e => .error (mapKeyringError e)

def delete (reference : CredentialReference) : Except VaultError VaultReply × Keyring :=
  match Keyring.entry f .openReference with
  | .error e => (.error (mapKeyringError e), k)
  | .ok _ =>
    match deleteManifest f k reference.value with
    | .error e => (.error e, k)
    | .ok removed =>
      (.ok .done, deleteExisting f removed reference.value (existingManifest f k reference.value))

def call : VaultOperation → Except VaultError VaultReply × Keyring
  | .save reference secret => save f k reference secret
  | .load reference => ((load f k reference).map .loaded, k)
  | .replace reference secret => replace f k reference secret
  | .delete reference => delete f k reference

end KeyringVault

example : KeyringVault.parseManifest "autoharness-vault-v1:a:3" = .ok (some (.a, 3)) := by decide

@[simp] theorem Generation.other_other (g : Generation) : g.other.other = g := by cases g <;> rfl

theorem Generation.other_ne (g : Generation) : g.other ≠ g := by cases g <;> decide

theorem Generation.char_injective {g h : Generation} (e : g.char = h.char) : g = h := by
  cases g <;> cases h <;> first | rfl | exact absurd e (by decide)

theorem maxChunks_eq : maxChunks = 33 := by decide

/-- Two texts with one separator each are told apart by what stands before and behind it. -/
theorem append_separator_inj {c : Char} {xs ys ds es : List Char} (hd : c ∉ ds) (he : c ∉ es)
    (h : xs ++ c :: ds = ys ++ c :: es) : xs = ys ∧ ds = es := by
  rcases List.append_eq_append_iff.mp h with ⟨middle, rfl, hm⟩ | ⟨middle, rfl, hm⟩
  · cases middle with
    | nil => simpa using hm
    | cons d middle =>
      have inside : ds = middle ++ c :: es := (List.cons.inj hm).2
      exact absurd (by simp [inside]) hd
  · cases middle with
    | nil => simpa using hm.symm
    | cons d middle =>
      have inside : es = middle ++ c :: ds := (List.cons.inj hm).2
      exact absurd (by simp [inside]) he

theorem not_mem_toDigits {c : Char} (h : c.isDigit = false) (n : Nat) :
    c ∉ Nat.toDigits 10 n := by
  intro hc
  have digit := Nat.isDigit_of_mem_toDigits (by decide) (by decide) hc
  rw [h] at digit
  cases digit

theorem toDigits_injective {m n : Nat} (h : Nat.toDigits 10 m = Nat.toDigits 10 n) : m = n := by
  have values := congrArg (fun digits => Nat.ofDigitChars 10 digits 0) h
  simpa using values

namespace KeyringVault

theorem chunkReference_toList (reference : String) (g : Generation) (i : Nat) :
    (chunkReference reference g i).toList =
      (reference.toList ++ ['#', 'v', '1', '#', g.char]) ++ '#' :: Nat.toDigits 10 i := by
  simp [chunkReference]

/-- A chunk name determines what it was derived from. -/
theorem chunkReference_inj {r s : String} {g h : Generation} {i j : Nat}
    (e : chunkReference r g i = chunkReference s h j) : r = s ∧ g = h ∧ i = j := by
  have lists := congrArg String.toList e
  rw [chunkReference_toList, chunkReference_toList] at lists
  obtain ⟨front, digits⟩ := append_separator_inj (not_mem_toDigits (by decide) i)
    (not_mem_toDigits (by decide) j) lists
  obtain ⟨names, middle⟩ := List.append_inj' front (by simp)
  have chars : g.char = h.char := by simpa using middle
  exact ⟨String.toList_inj.mp names, Generation.char_injective chars, toDigits_injective digits⟩

theorem chunkReference_ne_self (r : String) (g : Generation) (i : Nat) :
    chunkReference r g i ≠ r := by
  intro e
  have lengths := congrArg (fun s => s.toList.length) e
  simp only [chunkReference_toList, List.length_append, List.length_cons] at lengths
  omega

theorem manifest_toList (g : Generation) (n : Nat) :
    (manifest g n).toList =
      keyringManifestPrefix.toList ++ ':' :: ([g.char] ++ ':' :: Nat.toDigits 10 n) := by
  simp [manifest]

theorem parseUsize_toDigits {n : Nat} (h : n < usizeValues) :
    parseUsize (Nat.toDigits 10 n) = some n := by
  have unsigned : (Nat.toDigits 10 n).head? ≠ some '+' := fun plus =>
    not_mem_toDigits (by decide) n (List.mem_of_mem_head? plus)
  have digits : (Nat.toDigits 10 n).all Char.isDigit = true := by
    rw [List.all_eq_true]
    exact fun c hc => Nat.isDigit_of_mem_toDigits (by decide) (by decide) hc
  unfold parseUsize
  rw [if_neg unsigned, if_pos]
  · simp
  · exact ⟨Nat.toDigits_ne_nil, digits, by simpa using h⟩

theorem splitOn_manifest (g : Generation) (n : Nat) :
    (manifest g n).toList.splitOn ':' =
      [keyringManifestPrefix.toList, [g.char], Nat.toDigits 10 n] := by
  have name : ':' ∉ keyringManifestPrefix.toList := by simp [keyringManifestPrefix]
  have generation : ':' ∉ [g.char] := by cases g <;> simp [Generation.char]
  have joined : (manifest g n).toList =
      [':'].intercalate [keyringManifestPrefix.toList, [g.char], Nat.toDigits 10 n] := by
    rw [manifest_toList]
    simp [List.intercalate]
  rw [joined]
  refine List.splitOn_intercalate ':' (fun field hf => ?_) (by simp)
  simp only [List.mem_cons, List.not_mem_nil, or_false] at hf
  rcases hf with rfl | rfl | rfl
  · exact name
  · exact generation
  · exact not_mem_toDigits (by decide) n

/-- A manifest reads back as it was written. -/
theorem parseManifest_manifest {g : Generation} {n : Nat} (pos : 0 < n) (bound : n ≤ maxChunks) :
    parseManifest (manifest g n) = .ok (some (g, n)) := by
  have small : n < usizeValues := by
    rw [maxChunks_eq] at bound
    unfold usizeValues
    omega
  have generation : parseGeneration [g.char] = some g := by cases g <;> rfl
  unfold parseManifest
  rw [if_pos, splitOn_manifest]
  · simp [parseFields, generation, parseUsize_toDigits small, pos, bound, Except.map]
  · rw [manifest_toList]
    simp

end KeyringVault

end AutoHarness
