import Mathlib.Data.List.Induction

/-! Path resolution in a tree of directories, files and symbolic links. -/

namespace FileTree

universe u v

variable {ν : Type u} {β : Type v}

inductive Component (ν : Type u) where
  | normal (name : ν)
  | current
  | parent

/-- What a symbolic link says. A trailing separator is a trailing `current`. -/
structure Target (ν : Type u) where
  absolute : Bool
  components : List (Component ν)

inductive Entry (ν : Type u) (β : Type v) where
  | directory
  | file (content : β)
  | link (target : Target ν)

def Entry.isDirectory : Entry ν β → Bool
  | .directory => true
  | _ => false

def Entry.isFile : Entry ν β → Bool
  | .file _ => true
  | _ => false

def Entry.isLink : Entry ν β → Bool
  | .link _ => true
  | _ => false

theorem Entry.isFile_iff {entry : Entry ν β} :
    entry.isFile = true ↔ ∃ content, entry = .file content := by
  cases entry <;> simp [Entry.isFile]

theorem any_isDirectory {entry : Option (Entry ν β)} :
    entry.any Entry.isDirectory = true ↔ entry = some .directory := by
  cases entry with
  | none => simp
  | some entry => cases entry <;> simp [Entry.isDirectory]

/-- The names from the root of the tree down to an entry. -/
abbrev Location (ν : Type u) := List ν

structure Tree (ν : Type u) (β : Type v) where
  lookup : Location ν → Option (Entry ν β)
  rooted : lookup [] = some .directory
  parents : ∀ location name, lookup (location ++ [name]) ≠ none → lookup location = some .directory

inductive Errno where
  | noEntry
  | notDirectory
  | isDirectory
  | tooManyLinks
deriving DecidableEq

def Location.path (location : Location ν) : List (Component ν) := location.map .normal

section Walk

variable (tree : Tree ν β) (create : Bool)

def walkFrom (follow : Location ν → List (Component ν) → Except Errno (Location ν)) :
    Location ν → List (Component ν) → Except Errno (Location ν)
  | here, [] => .ok here
  | here, .current :: rest => walkFrom follow here rest
  | here, .parent :: rest => walkFrom follow here.dropLast rest
  | here, .normal name :: rest =>
    match tree.lookup (here ++ [name]) with
    | none => if create && rest.isEmpty then .ok (here ++ [name]) else .error .noEntry
    | some .directory => walkFrom follow (here ++ [name]) rest
    | some (.file _) => if rest.isEmpty then .ok (here ++ [name]) else .error .notDirectory
    | some (.link target) => follow (if target.absolute then [] else here) (target.components ++ rest)

/-- The location that a path leads to from a directory, through a bounded number of links. A walk
that creates may end at a name that the last directory does not have. -/
def walk : Nat → Location ν → List (Component ν) → Except Errno (Location ν)
  | 0 => walkFrom tree create fun _ _ => .error .tooManyLinks
  | links + 1 => walkFrom tree create (walk links)

end Walk

variable {tree : Tree ν β} {create : Bool} {links more : Nat} {here location : Location ν}
  {todo rest : List (Component ν)} {name : ν}

section Steps

variable (tree create links)

@[simp] theorem walk_nil : walk tree create links here [] = .ok here := by
  cases links <;> rfl

@[simp] theorem walk_current :
    walk tree create links here (.current :: rest) = walk tree create links here rest := by
  cases links <;> rfl

@[simp] theorem walk_parent :
    walk tree create links here (.parent :: rest) = walk tree create links here.dropLast rest := by
  cases links <;> rfl

omit links in
theorem walkFrom_name (follow : Location ν → List (Component ν) → Except Errno (Location ν)) :
    walkFrom tree create follow here (.normal name :: rest) =
      match tree.lookup (here ++ [name]) with
      | none => if create && rest.isEmpty then .ok (here ++ [name]) else .error .noEntry
      | some .directory => walkFrom tree create follow (here ++ [name]) rest
      | some (.file _) => if rest.isEmpty then .ok (here ++ [name]) else .error .notDirectory
      | some (.link target) =>
        follow (if target.absolute then [] else here) (target.components ++ rest) := rfl

theorem walk_missing (h : tree.lookup (here ++ [name]) = none) :
    walk tree create links here (.normal name :: rest) =
      if create && rest.isEmpty then .ok (here ++ [name]) else .error .noEntry := by
  cases links with
  | zero => exact (walkFrom_name ..).trans (by simp only [h])
  | succ links => exact (walkFrom_name ..).trans (by simp only [h])

theorem walk_directory (h : tree.lookup (here ++ [name]) = some .directory) :
    walk tree create links here (.normal name :: rest) =
      walk tree create links (here ++ [name]) rest := by
  cases links with
  | zero => exact (walkFrom_name ..).trans (by simp only [h]; rfl)
  | succ links => exact (walkFrom_name ..).trans (by simp only [h]; rfl)

theorem walk_file {content : β} (h : tree.lookup (here ++ [name]) = some (.file content)) :
    walk tree create links here (.normal name :: rest) =
      if rest.isEmpty then .ok (here ++ [name]) else .error .notDirectory := by
  cases links with
  | zero => exact (walkFrom_name ..).trans (by simp only [h])
  | succ links => exact (walkFrom_name ..).trans (by simp only [h])

theorem walk_link {target : Target ν} (h : tree.lookup (here ++ [name]) = some (.link target)) :
    walk tree create (links + 1) here (.normal name :: rest) =
      walk tree create links (if target.absolute then [] else here) (target.components ++ rest) := by
  exact (walkFrom_name ..).trans (by simp only [h])

theorem walk_link_exhausted {target : Target ν}
    (h : tree.lookup (here ++ [name]) = some (.link target)) :
    walk tree create 0 here (.normal name :: rest) = .error .tooManyLinks := by
  exact (walkFrom_name ..).trans (by simp only [h])

end Steps

/-- Every ancestor of an entry is a directory. -/
theorem Tree.directory_of_append {front back : Location ν} (tree : Tree ν β) (proper : back ≠ [])
    (h : tree.lookup (front ++ back) ≠ none) : tree.lookup front = some .directory := by
  induction back using List.reverseRecOn with
  | nil => exact absurd rfl proper
  | append_singleton back last ih =>
    rw [← List.append_assoc] at h
    have above := tree.parents (front ++ back) last h
    by_cases empty : back = []
    · rw [empty, List.append_nil] at above
      exact above
    · exact ih empty (by rw [above]; exact Option.some_ne_none _)

theorem Tree.directory_dropLast {location : Location ν} (tree : Tree ν β)
    (h : tree.lookup location = some .directory) :
    tree.lookup location.dropLast = some .directory := by
  cases location using List.reverseRecOn with
  | nil => exact tree.rooted
  | append_singleton front last =>
    rw [List.dropLast_concat]
    exact tree.parents front last (by rw [h]; exact Option.some_ne_none _)

/-- A walk looks at one component after the other, and follows a link by its target. -/
theorem walk_induction (tree : Tree ν β) {motive : Nat → Location ν → List (Component ν) → Prop}
    (nil : ∀ links here, motive links here [])
    (current : ∀ links here rest, motive links here rest → motive links here (.current :: rest))
    (parent : ∀ links here rest, motive links here.dropLast rest →
      motive links here (.parent :: rest))
    (missing : ∀ links here name rest, tree.lookup (here ++ [name]) = none →
      motive links here (.normal name :: rest))
    (directory : ∀ links here name rest, tree.lookup (here ++ [name]) = some .directory →
      motive links (here ++ [name]) rest → motive links here (.normal name :: rest))
    (file : ∀ links here name rest content, tree.lookup (here ++ [name]) = some (.file content) →
      motive links here (.normal name :: rest))
    (exhausted : ∀ here name rest target, tree.lookup (here ++ [name]) = some (.link target) →
      motive 0 here (.normal name :: rest))
    (link : ∀ links here name rest target, tree.lookup (here ++ [name]) = some (.link target) →
      motive links (if target.absolute then [] else here) (target.components ++ rest) →
      motive (links + 1) here (.normal name :: rest))
    (links : Nat) (here : Location ν) (todo : List (Component ν)) : motive links here todo := by
  induction links generalizing here todo with
  | zero =>
    induction todo generalizing here with
    | nil => exact nil 0 here
    | cons component rest ih =>
      cases component with
      | current => exact current 0 here rest (ih here)
      | parent => exact parent 0 here rest (ih here.dropLast)
      | normal name =>
        cases found : tree.lookup (here ++ [name]) with
        | none => exact missing 0 here name rest found
        | some entry =>
          cases entry with
          | directory => exact directory 0 here name rest found (ih _)
          | file content => exact file 0 here name rest content found
          | link target => exact exhausted here name rest target found
  | succ links follow =>
    induction todo generalizing here with
    | nil => exact nil (links + 1) here
    | cons component rest ih =>
      cases component with
      | current => exact current (links + 1) here rest (ih here)
      | parent => exact parent (links + 1) here rest (ih here.dropLast)
      | normal name =>
        cases found : tree.lookup (here ++ [name]) with
        | none => exact missing (links + 1) here name rest found
        | some entry =>
          cases entry with
          | directory => exact directory (links + 1) here name rest found (ih _)
          | file content => exact file (links + 1) here name rest content found
          | link target => exact link links here name rest target found (follow _ _)

/-- More links allowed lead to the same place. -/
theorem walk_mono (h : walk tree create links here todo = .ok location) (le : links ≤ more) :
    walk tree create more here todo = .ok location := by
  induction links, here, todo using walk_induction tree generalizing more with
  | nil links here =>
    rw [walk_nil] at h ⊢
    exact h
  | current links here rest ih =>
    rw [walk_current] at h ⊢
    exact ih h le
  | parent links here rest ih =>
    rw [walk_parent] at h ⊢
    exact ih h le
  | missing links here name rest found =>
    rw [walk_missing tree create _ found] at h ⊢
    exact h
  | directory links here name rest found ih =>
    rw [walk_directory tree create _ found] at h ⊢
    exact ih h le
  | file links here name rest content found =>
    rw [walk_file tree create _ found] at h ⊢
    exact h
  | exhausted here name rest target found =>
    rw [walk_link_exhausted tree create found] at h
    cases h
  | link links here name rest target found ih =>
    cases more with
    | zero => omega
    | succ more =>
      rw [walk_link tree create _ found] at h ⊢
      exact ih h (by omega)

theorem walk_unique {other : Location ν} (h : walk tree create links here todo = .ok location)
    (h' : walk tree create more here todo = .ok other) : location = other := by
  rcases Nat.le_total links more with le | le
  · exact Except.ok.inj ((walk_mono h le).symm.trans h')
  · exact Except.ok.inj (h.symm.trans (walk_mono h' le))

/-- The name that a walk ends at is looked for in the directory that the names before it lead to. -/
theorem walk_concat (start : tree.lookup here = some .directory)
    (h : walk tree create links here (todo ++ [.normal name]) = .ok location) :
    ∃ above remaining, walk tree false links here todo = .ok above ∧
      tree.lookup above = some .directory ∧
      walk tree create remaining above [.normal name] = .ok location := by
  induction links, here, todo using walk_induction tree with
  | nil links here => exact ⟨here, links, walk_nil .., start, h⟩
  | current links here rest ih =>
    rw [List.cons_append, walk_current] at h
    rw [walk_current]
    exact ih start h
  | parent links here rest ih =>
    rw [List.cons_append, walk_parent] at h
    rw [walk_parent]
    exact ih (tree.directory_dropLast start) h
  | missing links here first rest found =>
    rw [List.cons_append, walk_missing tree create _ found] at h
    simp at h
  | directory links here first rest found ih =>
    rw [List.cons_append, walk_directory tree create _ found] at h
    rw [walk_directory tree false _ found]
    exact ih found h
  | file links here first rest content found =>
    rw [List.cons_append, walk_file tree create _ found] at h
    simp at h
  | exhausted here first rest target found =>
    rw [List.cons_append, walk_link_exhausted tree create found] at h
    cases h
  | link links here first rest target found ih =>
    rw [List.cons_append, walk_link tree create _ found, ← List.append_assoc] at h
    rw [walk_link tree false _ found]
    refine ih ?_ h
    by_cases absolute : target.absolute = true
    · rw [if_pos absolute]
      exact tree.rooted
    · rw [if_neg absolute]
      exact start

/-- A walk ends at an entry that is no link. -/
theorem walk_found (start : tree.lookup here = some .directory)
    (h : walk tree false links here todo = .ok location) :
    ∃ entry, tree.lookup location = some entry ∧ entry.isLink = false := by
  induction links, here, todo using walk_induction tree with
  | nil links here =>
    rw [walk_nil] at h
    cases h
    exact ⟨.directory, start, rfl⟩
  | current links here rest ih =>
    rw [walk_current] at h
    exact ih start h
  | parent links here rest ih =>
    rw [walk_parent] at h
    exact ih (tree.directory_dropLast start) h
  | missing links here name rest found =>
    rw [walk_missing tree false _ found] at h
    cases h
  | directory links here name rest found ih =>
    rw [walk_directory tree false _ found] at h
    exact ih found h
  | file links here name rest content found =>
    rw [walk_file tree false _ found] at h
    split at h
    next =>
      cases h
      exact ⟨.file content, found, rfl⟩
    next => cases h
  | exhausted here name rest target found =>
    rw [walk_link_exhausted tree false found] at h
    cases h
  | link links here name rest target found ih =>
    rw [walk_link tree false _ found] at h
    refine ih ?_ h
    by_cases absolute : target.absolute = true
    · rw [if_pos absolute]
      exact tree.rooted
    · rw [if_neg absolute]
      exact start

/-- A location that is no link is where its own names lead. -/
theorem walk_below {below : Location ν} {entry : Entry ν β}
    (found : tree.lookup (here ++ below) = some entry) (plain : entry.isLink = false) :
    walk tree create links here (Location.path below) = .ok (here ++ below) := by
  induction below generalizing here with
  | nil =>
    rw [List.append_nil]
    exact walk_nil ..
  | cons name below ih =>
    show walk tree create links here (.normal name :: Location.path below) = _
    have split : here ++ name :: below = here ++ [name] ++ below := by simp
    rw [split] at found ⊢
    cases below with
    | nil =>
      rw [List.append_nil] at found ⊢
      cases entry with
      | directory =>
        rw [walk_directory tree create _ found]
        exact walk_nil ..
      | file content =>
        rw [walk_file tree create _ found]
        rfl
      | link target => cases plain
    | cons next below =>
      have inner : tree.lookup (here ++ [name]) = some .directory :=
        tree.directory_of_append (List.cons_ne_nil _ _) (by rw [found]; exact Option.some_ne_none _)
      rw [walk_directory tree create _ inner]
      exact ih found

section Write

variable [DecidableEq ν]

/-- A file can be created there, or is there to be replaced. -/
structure Writable (tree : Tree ν β) (location : Location ν) : Prop where
  below : location ≠ []
  inside : tree.lookup location.dropLast = some .directory
  plain : ∀ entry, tree.lookup location = some entry → ∃ content, entry = .file content

theorem writable_iff : Writable tree location ↔ location ≠ [] ∧
    (tree.lookup location.dropLast).any Entry.isDirectory = true ∧
    (tree.lookup location).all Entry.isFile = true := by
  constructor
  · rintro ⟨below, inside, plain⟩
    refine ⟨below, by rw [inside]; rfl, ?_⟩
    cases found : tree.lookup location with
    | none => rfl
    | some entry =>
      obtain ⟨content, rfl⟩ := plain entry found
      rfl
  · rintro ⟨below, inside, plain⟩
    refine ⟨below, any_isDirectory.mp inside, fun entry found => ?_⟩
    rw [found] at plain
    exact Entry.isFile_iff.mp plain

instance : Decidable (Writable tree location) := decidable_of_iff _ writable_iff.symm

def Tree.put (tree : Tree ν β) (location : Location ν) (content : β)
    (writable : Writable tree location) : Tree ν β where
  lookup other := if other = location then some (.file content) else tree.lookup other
  rooted := by
    rw [if_neg writable.below.symm]
    exact tree.rooted
  parents := by
    intro above name held
    have apart : above ≠ location := by
      intro same
      subst same
      rw [if_neg (by simp)] at held
      have directory := tree.parents above name held
      obtain ⟨content, file⟩ := writable.plain _ directory
      cases file
    rw [if_neg apart]
    by_cases here : above ++ [name] = location
    · have inside := writable.inside
      rw [← here, List.dropLast_concat] at inside
      exact inside
    · rw [if_neg here] at held
      exact tree.parents above name held

theorem Tree.put_lookup_self {content : β} (writable : Writable tree location) :
    (tree.put location content writable).lookup location = some (.file content) :=
  if_pos rfl

theorem Tree.put_lookup_ne {content : β} {other : Location ν} (writable : Writable tree location)
    (h : other ≠ location) : (tree.put location content writable).lookup other = tree.lookup other :=
  if_neg h

end Write

end FileTree
