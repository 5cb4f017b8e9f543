import AutoHarness.Chunks
import AutoHarness.FileTree
import AutoHarness.ToolPlan

namespace AutoHarness

open FileTree (Tree Component Location Entry Errno Writable walk)

def filesystemError : ToolError := ⟨.filesystem, .never⟩

def processError : ToolError := ⟨.process, .never⟩

def cancelledError : ToolError := ⟨.cancelled, .never⟩

def internalError : ToolError := ⟨.internal, .never⟩

def outputLimitError : ToolError := ⟨.outputLimit, .never⟩

abbrev Bytes := List UInt8

/-- The files, and how many links `realpath` and the system calls follow. -/
structure FileSystem where
  tree : Tree String Bytes
  realpathLinks : Nat
  kernelLinks : Nat

namespace FileSystem

variable (fs : FileSystem)

def canonicalize (path : List (Component String)) : Except Errno (Location String) :=
  walk fs.tree false fs.realpathLinks [] path

def metadata (path : Location String) : Option (Entry String Bytes) :=
  match walk fs.tree false fs.kernelLinks [] path.path with
  | .ok location => fs.tree.lookup location
  | .error _ => none

/-- The last name is looked up and not followed. -/
def symlinkMetadata (path : Location String) : Option (Entry String Bytes) :=
  match path.getLast? with
  | none => fs.tree.lookup []
  | some name =>
    match walk fs.tree false fs.kernelLinks [] (Location.path path.dropLast) with
    | .ok above => fs.tree.lookup (above ++ [name])
    | .error _ => none

def isFile (path : Location String) : Bool := (fs.metadata path).any Entry.isFile

def isDir (path : Location String) : Bool := (fs.metadata path).any Entry.isDirectory

def openRead (path : Location String) : Except Errno Bytes :=
  match fs.metadata path with
  | some (.file content) => .ok content
  | some _ => .error .isDirectory
  | none => .error .noEntry

/-- How the writing of an opened file ends. A failure leaves what was written. -/
inductive WriteOutcome where
  | done
  | failed (written : Bytes)

/-- The file is created or truncated, and the content written. -/
def write (path : Location String) (content : Bytes) (outcome : WriteOutcome) :
    Except Errno Unit × FileSystem :=
  match walk fs.tree true fs.kernelLinks [] path.path with
  | .error errno => (.error errno, fs)
  | .ok location =>
    if writable : Writable fs.tree location then
      match outcome with
      | .done => (.ok (), { fs with tree := fs.tree.put location content writable })
      | .failed written =>
        (.error .noEntry, { fs with tree := fs.tree.put location written writable })
    else (.error .isDirectory, fs)

end FileSystem

structure LocalFilesystem where
  root : Location String
  maxReadBytes : Nat

/-- When the cancellation of a write is seen. -/
inductive WriteCancellation where
  | never
  | first
  | later

namespace LocalFilesystem

def new (fs : FileSystem) (root : List (Component String)) (maxReadBytes : Nat) :
    Except ToolError LocalFilesystem :=
  if maxReadBytes = 0 then .error internalError
  else
    match fs.canonicalize root with
    | .error _ => .error filesystemError
    | .ok root => if fs.isDir root then .ok ⟨root, maxReadBytes⟩ else .error filesystemError

variable (capability : LocalFilesystem) (fs : FileSystem)

/-- A path is the list of its normal components. -/
def join (path : List String) : Location String := capability.root ++ path

def readPath (path : List String) : Except ToolError (Location String) :=
  match fs.canonicalize (capability.join path).path with
  | .error _ => .error filesystemError
  | .ok resolved =>
    if !capability.root.isPrefixOf resolved || !fs.isFile resolved then .error filesystemError
    else .ok resolved

def writePath (path : List String) : Except ToolError (Location String) :=
  let candidate := capability.join path
  if candidate.isEmpty then .error filesystemError
  else
    match fs.canonicalize (Location.path candidate.dropLast) with
    | .error _ => .error filesystemError
    | .ok parent =>
      if !capability.root.isPrefixOf parent then .error filesystemError
      else if (fs.symlinkMetadata candidate).any Entry.isLink then .error filesystemError
      else .ok candidate

def directoryPath (path : List String) : Except ToolError (Location String) :=
  match fs.canonicalize (capability.join path).path with
  | .error _ => .error filesystemError
  | .ok resolved =>
    if !capability.root.isPrefixOf resolved || !fs.isDir resolved then .error filesystemError
    else .ok resolved

/-- The cancellation is looked at before each read of the buffer. -/
def readHardBounded (limit : Nat) (cancelled : Nat → Bool) :
    Nat → List Bytes → Bytes → Except ToolError Bytes
  | turn, [], output => if cancelled turn then .error cancelledError else .ok output
  | turn, chunk :: chunks, output =>
    if cancelled turn then .error cancelledError
    else if output.length + chunk.length > limit then .error outputLimitError
    else readHardBounded limit cancelled (turn + 1) chunks (output ++ chunk)

def read (path : List String) (cancelled : Nat → Bool) : Except ToolError Bytes :=
  match capability.readPath fs path with
  | .error error => .error error
  | .ok path =>
    match fs.openRead path with
    | .error _ => .error filesystemError
    | .ok content =>
      readHardBounded capability.maxReadBytes cancelled 0 (Chunks.chunks 8192 content) []

/-- A write that has begun goes on after its cancellation. -/
def write (path : List String) (content : Bytes) (cancellation : WriteCancellation)
    (outcome : FileSystem.WriteOutcome) : Except ToolError String × FileSystem :=
  match capability.writePath fs path with
  | .error error => (.error error, fs)
  | .ok path =>
    match cancellation with
    | .first => (.error cancelledError, fs)
    | .later => (.error cancelledError, (fs.write path content outcome).2)
    | .never =>
      match fs.write path content outcome with
      | (.error _, fs) => (.error filesystemError, fs)
      | (.ok (), fs) => (.ok ("wrote " ++ toString content.length ++ " bytes"), fs)

end LocalFilesystem

structure LocalProcess where
  filesystem : LocalFilesystem
  maxStreamBytes : Nat

structure ProcessResult where
  exitCode : Option Int
  stdout : Bytes
  stderr : Bytes
  truncated : Bool

/-- A child that was started, and where. -/
structure Spawned where
  program : String
  arguments : List String
  directory : Location String

/-- How a child ends, with what it wrote. -/
inductive ChildEnd where
  | exited (exitCode : Option Int) (stdout stderr : List Bytes)
  | failed
  | cancelled

namespace LocalProcess

def new (fs : FileSystem) (root : List (Component String)) (maxStreamBytes : Nat) :
    Except ToolError LocalProcess :=
  match LocalFilesystem.new fs root maxStreamBytes with
  | .error error => .error error
  | .ok filesystem => .ok ⟨filesystem, maxStreamBytes⟩

def readPrefix (limit : Nat) : List Bytes → Bytes → Bool → Bytes × Bool
  | [], output, truncated => (output, truncated)
  | chunk :: chunks, output, truncated =>
    let retained := min (limit - output.length) chunk.length
    readPrefix limit chunks (output ++ chunk.take retained) (truncated || retained < chunk.length)

/-- The system enters the directory by its path before the program runs. -/
def spawn (fs : FileSystem) (program : String) (arguments : List String) (cwd : Location String)
    (runs : Bool) : Option Spawned :=
  match walk fs.tree false fs.kernelLinks [] cwd.path with
  | .error _ => none
  | .ok directory =>
    if runs && (fs.tree.lookup directory).any Entry.isDirectory then
      some ⟨program, arguments, directory⟩
    else none

variable (process : LocalProcess) (fs : FileSystem)

def run (program : String) (arguments : List String) (cwd : List String) (runs : Bool)
    (child : ChildEnd) : Except ToolError ProcessResult × Option Spawned :=
  match process.filesystem.directoryPath fs cwd with
  | .error error => (.error error, none)
  | .ok cwd =>
    match spawn fs program arguments cwd runs with
    | none => (.error processError, none)
    | some spawned =>
      match child with
      | .cancelled => (.error cancelledError, some spawned)
      | .failed => (.error processError, some spawned)
      | .exited exitCode stdout stderr =>
        let (stdout, stdoutTruncated) := readPrefix process.maxStreamBytes stdout [] false
        let (stderr, stderrTruncated) := readPrefix process.maxStreamBytes stderr [] false
        (.ok ⟨exitCode, stdout, stderr, stdoutTruncated || stderrTruncated⟩, some spawned)

end LocalProcess

end AutoHarness
