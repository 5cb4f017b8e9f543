import AutoHarness.Capability

namespace AutoHarness

open FileTree (Tree Component Location Entry Errno Writable walk walk_below walk_found walk_concat
  walk_unique)

theorem not_mem_of_mem_splitOn {separator : Char} {text piece : List Char}
    (h : piece ∈ text.splitOn separator) : separator ∉ piece := by
  rw [List.splitOn_eq_splitOnP] at h
  induction text generalizing piece with
  | nil =>
    rw [List.splitOnP_nil, List.mem_singleton] at h
    rw [h]
    exact List.not_mem_nil
  | cons first text ih =>
    rw [List.splitOnP_cons_eq_if_modifyHead] at h
    split at h
    next =>
      rcases List.mem_cons.mp h with rfl | later
      · exact List.not_mem_nil
      · exact ih later
    next other =>
      cases pieces : text.splitOnP (· == separator) with
      | nil =>
        rw [pieces] at h
        cases h
      | cons head rest =>
        rw [pieces] at h ih
        rcases List.mem_cons.mp h with rfl | later
        · have clear := ih List.mem_cons_self
          simp only [beq_iff_eq] at other
          simp [Ne.symm other, clear]
        · exact ih (List.mem_cons_of_mem _ later)

/-- The paths that the tools pass on have normal components only. -/
theorem workspacePath_normal {value : String} {path : List String}
    (h : workspacePath value = .ok path) :
    ∀ part ∈ path, part ≠ "" ∧ part ≠ "." ∧ part ≠ ".." ∧ '/' ∉ part.toList := by
  unfold workspacePath at h
  split at h
  next => cases h
  next =>
    split at h
    next => cases h
    next =>
      simp only at h
      split at h
      next => cases h
      next upward =>
        cases h
        intro part member
        have dots : part ≠ ".." := by
          rintro rfl
          exact upward (List.contains_iff_mem.mpr member)
        obtain ⟨split, kept⟩ := List.mem_filter.mp member
        obtain ⟨piece, listed, rfl⟩ := List.mem_map.mp split
        have clear := not_mem_of_mem_splitOn listed
        simp only [Bool.and_eq_true, bne_iff_ne] at kept
        refine ⟨kept.1, kept.2, dots, ?_⟩
        rw [String.toList_ofList]
        exact clear

namespace FileSystem

variable {fs : FileSystem} {location : Location String} {entry : Entry String Bytes}

theorem canonicalize_found {path : List (Component String)}
    (h : fs.canonicalize path = .ok location) :
    ∃ entry, fs.tree.lookup location = some entry ∧ entry.isLink = false :=
  walk_found fs.tree.rooted h

theorem canonicalize_self (found : fs.tree.lookup location = some entry)
    (plain : entry.isLink = false) : fs.canonicalize location.path = .ok location := by
  have walked : walk fs.tree false fs.realpathLinks [] location.path = .ok ([] ++ location) :=
    walk_below found plain
  exact walked

theorem walk_self (found : fs.tree.lookup location = some entry) (plain : entry.isLink = false) :
    walk fs.tree false fs.kernelLinks [] location.path = .ok location := by
  have walked : walk fs.tree false fs.kernelLinks [] location.path = .ok ([] ++ location) :=
    walk_below found plain
  exact walked

theorem metadata_self (found : fs.tree.lookup location = some entry)
    (plain : entry.isLink = false) : fs.metadata location = some entry := by
  unfold metadata
  rw [walk_self found plain]
  exact found

/-- Where a call to `write` may have its effect, and what it leaves there. -/
theorem write_cases (fs : FileSystem) (path : Location String) (content : Bytes)
    (outcome : WriteOutcome) :
    (∃ errno, fs.write path content outcome = (.error errno, fs)) ∨
      ∃ location, ∃ writable : Writable fs.tree location,
        walk fs.tree true fs.kernelLinks [] path.path = .ok location ∧
        ((fs.write path content outcome =
            (.ok (), { fs with tree := fs.tree.put location content writable })) ∨
          ∃ errno written, fs.write path content outcome =
            (.error errno, { fs with tree := fs.tree.put location written writable })) := by
  unfold write
  cases opened : walk fs.tree true fs.kernelLinks [] path.path with
  | error errno => exact .inl ⟨errno, rfl⟩
  | ok location =>
    by_cases writable : Writable fs.tree location
    · refine .inr ⟨location, writable, rfl, ?_⟩
      cases outcome with
      | done => exact .inl (by simp only [writable, dif_pos])
      | failed written => exact .inr ⟨.noEntry, written, by simp only [writable, dif_pos]⟩
    · exact .inl ⟨.isDirectory, by simp only [writable, dif_neg, not_false_eq_true]⟩

end FileSystem

namespace LocalFilesystem

variable {capability : LocalFilesystem} {fs : FileSystem} {path : List String}
  {location : Location String}

theorem readHardBounded_ok {limit turn : Nat} {cancelled : Nat → Bool} {chunks : List Bytes}
    {output bytes : Bytes} (h : readHardBounded limit cancelled turn chunks output = .ok bytes) :
    bytes = output ++ chunks.flatten := by
  induction chunks generalizing turn output with
  | nil =>
    unfold readHardBounded at h
    split at h
    next => cases h
    next =>
      cases h
      simp
  | cons chunk chunks ih =>
    unfold readHardBounded at h
    split at h
    next => cases h
    next =>
      split at h
      next => cases h
      next =>
        rw [ih h]
        simp

theorem readPath_ok (h : capability.readPath fs path = .ok location) :
    fs.canonicalize (capability.join path).path = .ok location ∧ capability.root <+: location ∧
      ∃ content, fs.tree.lookup location = some (.file content) := by
  unfold readPath at h
  cases resolved : fs.canonicalize (capability.join path).path with
  | error errno =>
    rw [resolved] at h
    cases h
  | ok reached =>
    obtain ⟨entry, found, plain⟩ := FileSystem.canonicalize_found resolved
    simp only [resolved] at h
    split at h
    next => cases h
    next accepted =>
      cases h
      simp only [Bool.or_eq_true, Bool.not_eq_true', not_or, Bool.not_eq_false] at accepted
      obtain ⟨inside, isFile⟩ := accepted
      rw [FileSystem.isFile, FileSystem.metadata_self found plain] at isFile
      obtain ⟨content, rfl⟩ := Entry.isFile_iff.mp isFile
      exact ⟨rfl, List.isPrefixOf_iff_prefix.mp inside, content, found⟩

theorem directoryPath_ok (h : capability.directoryPath fs path = .ok location) :
    fs.canonicalize (capability.join path).path = .ok location ∧ capability.root <+: location ∧
      fs.tree.lookup location = some .directory := by
  unfold directoryPath at h
  cases resolved : fs.canonicalize (capability.join path).path with
  | error errno =>
    rw [resolved] at h
    cases h
  | ok reached =>
    obtain ⟨entry, found, plain⟩ := FileSystem.canonicalize_found resolved
    simp only [resolved] at h
    split at h
    next => cases h
    next accepted =>
      cases h
      simp only [Bool.or_eq_true, Bool.not_eq_true', not_or, Bool.not_eq_false] at accepted
      obtain ⟨inside, isDir⟩ := accepted
      rw [FileSystem.isDir, FileSystem.metadata_self found plain, ← found] at isDir
      exact ⟨rfl, List.isPrefixOf_iff_prefix.mp inside, FileTree.any_isDirectory.mp isDir⟩

theorem read_ok {cancelled : Nat → Bool} {bytes : Bytes}
    (h : capability.read fs path cancelled = .ok bytes) :
    ∃ location, fs.canonicalize (capability.join path).path = .ok location ∧
      capability.root <+: location ∧ fs.tree.lookup location = some (.file bytes) := by
  unfold read at h
  cases checked : capability.readPath fs path with
  | error error =>
    rw [checked] at h
    cases h
  | ok location =>
    obtain ⟨resolved, inside, content, found⟩ := readPath_ok checked
    have opened : fs.openRead location = .ok content := by
      unfold FileSystem.openRead
      rw [FileSystem.metadata_self found rfl]
    simp only [checked, opened] at h
    have same := readHardBounded_ok h
    rw [List.nil_append, Chunks.flatten_chunks (by omega)] at same
    exact ⟨location, resolved, inside, same ▸ found⟩

/-- The file that a checked candidate opens lies below the root. -/
theorem writePath_opens {candidate : Location String}
    (checked : capability.writePath fs path = .ok candidate)
    (opened : walk fs.tree true fs.kernelLinks [] candidate.path = .ok location) :
    capability.root <+: location := by
  unfold writePath at checked
  cases joined : capability.join path using List.reverseRecOn with
  | nil =>
    rw [joined] at checked
    cases checked
  | append_singleton front name =>
    rw [joined] at checked
    have present : (front ++ [name]).isEmpty = false := by simp
    simp only [present, List.dropLast_concat] at checked
    cases resolved : fs.canonicalize (Location.path front) with
    | error errno =>
      rw [resolved] at checked
      cases checked
    | ok parent =>
      simp only [resolved] at checked
      by_cases inside : capability.root.isPrefixOf parent = true
      · by_cases linked : (fs.symlinkMetadata (front ++ [name])).any Entry.isLink = true
        · simp [inside, linked] at checked
        · simp only [inside, linked] at checked
          cases checked
          have steps : Location.path (front ++ [name]) = Location.path front ++ [.normal name] := by
            simp [Location.path]
          rw [steps] at opened
          obtain ⟨above, remaining, walked, -, last⟩ := walk_concat fs.tree.rooted opened
          have same : parent = above := walk_unique resolved walked
          have seen : fs.symlinkMetadata (front ++ [name]) = fs.tree.lookup (above ++ [name]) := by
            unfold FileSystem.symlinkMetadata
            rw [List.getLast?_concat, List.dropLast_concat]
            simp only [walked]
          have ends : location = above ++ [name] := by
            rw [seen] at linked
            cases found : fs.tree.lookup (above ++ [name]) with
            | none =>
              rw [FileTree.walk_missing fs.tree true _ found] at last
              cases last
              rfl
            | some entry =>
              cases entry with
              | directory =>
                rw [FileTree.walk_directory fs.tree true _ found, FileTree.walk_nil] at last
                cases last
                rfl
              | file content =>
                rw [FileTree.walk_file fs.tree true _ found] at last
                cases last
                rfl
              | link target =>
                rw [found] at linked
                exact absurd rfl linked
          rw [ends, ← same]
          exact (List.isPrefixOf_iff_prefix.mp inside).trans (List.prefix_append _ _)
      · simp [inside] at checked

/-- Whatever becomes of a write, it changes one file below the root or nothing. -/
theorem write_cases (capability : LocalFilesystem) (fs : FileSystem) (path : List String)
    (content : Bytes) (cancellation : WriteCancellation) (outcome : FileSystem.WriteOutcome) :
    (∃ error, capability.write fs path content cancellation outcome = (.error error, fs)) ∨
      ∃ location written, ∃ writable : Writable fs.tree location, capability.root <+: location ∧
        (capability.write fs path content cancellation outcome).2 =
          { fs with tree := fs.tree.put location written writable } ∧
        ∀ reply, (capability.write fs path content cancellation outcome).1 = .ok reply →
          written = content := by
  unfold write
  cases checked : capability.writePath fs path with
  | error error => exact .inl ⟨error, rfl⟩
  | ok candidate =>
    rcases fs.write_cases candidate content outcome with ⟨errno, failed⟩ |
      ⟨location, writable, opened, done | ⟨errno, written, failed⟩⟩
    · refine .inl ?_
      cases cancellation with
      | never => exact ⟨filesystemError, by simp only [failed]⟩
      | first => exact ⟨cancelledError, rfl⟩
      | later => exact ⟨cancelledError, by simp only [failed]⟩
    · have inside := writePath_opens checked opened
      cases cancellation with
      | never =>
        exact .inr ⟨location, content, writable, inside, by simp only [done], fun _ _ => rfl⟩
      | first => exact .inl ⟨cancelledError, rfl⟩
      | later =>
        exact .inr ⟨location, content, writable, inside, by simp only [done], fun _ _ => rfl⟩
    · have inside := writePath_opens checked opened
      cases cancellation with
      | never =>
        refine .inr ⟨location, written, writable, inside, by simp only [failed], fun reply h => ?_⟩
        simp only [failed] at h
        cases h
      | first => exact .inl ⟨cancelledError, rfl⟩
      | later =>
        refine .inr ⟨location, written, writable, inside, by simp only [failed], fun reply h => ?_⟩
        cases h

end LocalFilesystem

namespace LocalProcess

variable {fs : FileSystem}

theorem run_spawned {process : LocalProcess} {program : String} {arguments cwd : List String}
    {runs : Bool} {child : ChildEnd} {spawned : Spawned}
    (h : (process.run fs program arguments cwd runs child).2 = some spawned) :
    fs.canonicalize (process.filesystem.join cwd).path = .ok spawned.directory ∧
      process.filesystem.root <+: spawned.directory ∧
      fs.tree.lookup spawned.directory = some .directory := by
  unfold run at h
  cases checked : process.filesystem.directoryPath fs cwd with
  | error error =>
    rw [checked] at h
    cases h
  | ok directory =>
    have confined := LocalFilesystem.directoryPath_ok checked
    have entered : ∀ started, spawn fs program arguments directory runs = some started →
        started.directory = directory := by
      intro started made
      unfold spawn at made
      rw [FileSystem.walk_self confined.2.2 rfl] at made
      simp only at made
      split at made
      next =>
        cases made
        rfl
      next => cases made
    simp only [checked] at h
    cases made : spawn fs program arguments directory runs with
    | none =>
      simp only [made] at h
      cases h
    | some started =>
      have same := entered started made
      have reached : started = spawned := by
        simp only [made] at h
        cases child with
        | cancelled => exact Option.some.inj h
        | failed => exact Option.some.inj h
        | exited exitCode stdout stderr => exact Option.some.inj h
      rw [← reached, same]
      exact confined

end LocalProcess

/-- Reads, writes and processes stay below the root, through any links. -/
theorem capabilities_confined (fs : FileSystem) (capability : LocalFilesystem) (path : List String) :
    (∀ cancelled bytes, capability.read fs path cancelled = .ok bytes →
      ∃ location, fs.canonicalize (capability.join path).path = .ok location ∧
        capability.root <+: location ∧ fs.tree.lookup location = some (.file bytes)) ∧
    (∀ content cancellation outcome reply after,
      capability.write fs path content cancellation outcome = (.ok reply, after) →
      ∃ location, after.canonicalize location.path = .ok location ∧ capability.root <+: location ∧
        Writable fs.tree location ∧ after.tree.lookup location = some (.file content) ∧
        ∀ other, other ≠ location → after.tree.lookup other = fs.tree.lookup other) ∧
    (∀ maxStreamBytes program arguments runs child spawned,
      (LocalProcess.run ⟨capability, maxStreamBytes⟩ fs program arguments path runs child).2 =
        some spawned →
      fs.canonicalize (capability.join path).path = .ok spawned.directory ∧
        capability.root <+: spawned.directory ∧
        fs.tree.lookup spawned.directory = some .directory) := by
  refine ⟨fun _ _ h => LocalFilesystem.read_ok h, ?_, fun _ _ _ _ _ _ h => LocalProcess.run_spawned h⟩
  intro content cancellation outcome reply after h
  rcases capability.write_cases fs path content cancellation outcome with ⟨error, failed⟩ |
    ⟨location, written, writable, inside, changed, whole⟩
  · rw [failed] at h
    cases h
  · rw [h] at changed whole
    have same := whole reply rfl
    subst same
    subst changed
    have present : (fs.tree.put location written writable).lookup location = some (.file written) :=
      FileTree.Tree.put_lookup_self writable
    exact ⟨location, FileSystem.canonicalize_self present rfl, inside, writable, present,
      fun other apart => FileTree.Tree.put_lookup_ne writable apart⟩

section Sample

/-- A workspace with a link that leaves it, to a directory with a link that comes back. -/
def sampleEntries : List (Location String × Entry String Bytes) :=
  [(["work"], .directory), (["work", "notes"], .file [104, 105]), (["work", "inner"], .directory),
    (["work", "out"], .link ⟨true, [.normal "outside"]⟩), (["outside"], .directory),
    (["outside", "secret"], .file [115]),
    (["outside", "back"], .link ⟨false, [.parent, .normal "work", .normal "inner"]⟩)]

def sampleLookup : Location String → Option (Entry String Bytes)
  | [] => some .directory
  | location => sampleEntries.lookup location

theorem sampleLookup_parents (location : Location String) (name : String)
    (h : sampleLookup (location ++ [name]) ≠ none) : sampleLookup location = some .directory := by
  have listed : sampleEntries.lookup (location ++ [name]) ≠ none := by
    cases location <;> exact h
  have found : ∃ entry, (location ++ [name], entry) ∈ sampleEntries := by
    obtain ⟨entry, looked⟩ := Option.ne_none_iff_exists'.mp listed
    obtain ⟨before, after, same, -⟩ := List.lookup_eq_some_iff.mp looked
    exact ⟨entry, by rw [same]; simp⟩
  have closed : ∀ pair ∈ sampleEntries, sampleLookup pair.1.dropLast = some .directory := by
    simp [sampleEntries, sampleLookup, List.lookup_cons]
  obtain ⟨entry, member⟩ := found
  have above := closed _ member
  rw [List.dropLast_concat] at above
  exact above

def sampleFiles : FileSystem :=
  ⟨⟨sampleLookup, rfl, sampleLookup_parents⟩, 40, 40⟩

def sampleCapability : LocalFilesystem := ⟨["work"], 1024⟩

theorem capabilities_confined_links :
    (∃ location, sampleFiles.canonicalize (sampleCapability.join ["notes"]).path = .ok location ∧
      sampleCapability.root <+: location ∧
      sampleFiles.tree.lookup location = some (.file [104, 105])) ∧
    (∃ location, sampleCapability.root <+: location ∧ Writable sampleFiles.tree location) ∧
    ∃ directory, sampleFiles.canonicalize (sampleCapability.join ["out", "back"]).path =
      .ok directory ∧ sampleCapability.root <+: directory := by
  have reads : sampleCapability.read sampleFiles ["notes"] (fun _ => false) = .ok [104, 105] := rfl
  have writes : ∃ after, sampleCapability.write sampleFiles ["out", "back", "draft"] [33] .never
      .done = (.ok "wrote 1 bytes", after) := ⟨_, rfl⟩
  have starts : ∃ spawned, (LocalProcess.run ⟨sampleCapability, 1024⟩ sampleFiles "ls" []
      ["out", "back"] true .cancelled).2 = some spawned := ⟨_, rfl⟩
  obtain ⟨after, writes⟩ := writes
  obtain ⟨spawned, starts⟩ := starts
  obtain ⟨location, -, below, writable, -⟩ :=
    (capabilities_confined sampleFiles sampleCapability ["out", "back", "draft"]).2.1 _ _ _ _ _ writes
  obtain ⟨entered, inside, -⟩ :=
    (capabilities_confined sampleFiles sampleCapability ["out", "back"]).2.2 _ _ _ _ _ _ starts
  exact ⟨(capabilities_confined sampleFiles sampleCapability ["notes"]).1 _ _ reads,
    ⟨location, below, writable⟩, spawned.directory, entered, inside⟩

/-- The file behind the link that leaves the workspace is refused. -/
example : sampleCapability.read sampleFiles ["out", "secret"] (fun _ => false) =
    .error filesystemError := rfl

end Sample

end AutoHarness
