import Custody.Path
import Std.Data.ExtTreeMap

set_option autoImplicit false

/-! # The file tree

Files and directories as a value. A node lies at its location, the list of names on the way from the
root; a path is resolved to a location component by component, and each operation answers with the
new tree or with the error that the system gives. A file has an identity that outlives its name, by
which locks are held. -/

namespace Custody

/-! ## Errors -/

/-- What a file operation can fail with. -/
inductive IoError
  | notFound
  | deviceFailure
  | wouldBlock
  | busy
  | alreadyExists
  | notDirectory
  | isDirectory
  | invalid
  | noSpace
  | nameTooLong
  | notEmpty
  | nulInPath
  | notRegular
  | noParent
  deriving DecidableEq, Repr, Inhabited

/-- The error as the system words it. -/
def IoError.message : IoError → String
  | .notFound => "No such file or directory (os error 2)"
  | .deviceFailure => "Input/output error (os error 5)"
  | .wouldBlock => "Resource temporarily unavailable (os error 11)"
  | .busy => "Device or resource busy (os error 16)"
  | .alreadyExists => "File exists (os error 17)"
  | .notDirectory => "Not a directory (os error 20)"
  | .isDirectory => "Is a directory (os error 21)"
  | .invalid => "Invalid argument (os error 22)"
  | .noSpace => "No space left on device (os error 28)"
  | .nameTooLong => "File name too long (os error 36)"
  | .notEmpty => "Directory not empty (os error 39)"
  | .nulInPath => "file name contained an unexpected NUL byte"
  | .notRegular => "the source path is neither a regular file nor a symlink to a regular file"
  | .noParent => "failed to create whole tree"

/-! ## Nodes -/

/-- The names on the way from the root to a node. -/
abbrev Location := List Bytes

/-- The identity of a file. -/
abbrev FileId := Nat

/-- A file: its identity, its permission bits and its bytes. -/
structure File where
  id : FileId
  mode : Nat
  content : Bytes
  deriving DecidableEq, Repr, Inhabited

inductive Node
  | file (file : File)
  | directory
  deriving DecidableEq, Repr, Inhabited

/-- A file tree with a working directory, in which relative paths start, and the files that are
    locked. -/
structure Disk where
  nodes : Std.ExtTreeMap Location Node
  home : Location
  nextId : FileId
  locked : List FileId

namespace Disk

/-- A tree that holds nothing but its working directory and the directories above it. -/
def empty (home : Location) : Disk :=
  let locations := (List.range home.length).map fun depth => home.take (depth + 1)
  ⟨locations.foldl (fun nodes location => nodes.insert location .directory) ∅, home, 0, []⟩

/-- The node at a location. The root is always there. -/
def node? (disk : Disk) (location : Location) : Option Node :=
  if location = [] then some .directory else disk.nodes[location]?

/-- Put a node at a location. -/
def put (disk : Disk) (location : Location) (node : Node) : Disk :=
  { disk with nodes := disk.nodes.insert location node }

/-- Take the node at a location away. -/
def erase (disk : Disk) (location : Location) : Disk :=
  { disk with nodes := disk.nodes.erase location }

/-! ## Resolving paths -/

/-- The most bytes of a name, and the least number of bytes that is too many for a path. -/
def maxName : Nat := 255

def pathLimit : Nat := 4096

/-- What a path leads to: a directory, and a name in it unless the path ends with a component that
    stands for a directory. `slashed` tells whether a slash follows the name. -/
structure Target where
  parent : Location
  name? : Option Bytes
  slashed : Bool
  deriving DecidableEq, Repr

def Target.location (target : Target) : Location :=
  match target.name? with
  | some name => target.parent ++ [name]
  | none => target.parent

/-- Go on from a directory by one component, which must lead to a directory. -/
def enter (disk : Disk) (location : Location) (component : Bytes) : Except IoError Location :=
  if component = Path.here then .ok location
  else if component = Path.above then .ok location.dropLast
  else if maxName < component.length then .error .nameTooLong
  else
    match disk.node? (location ++ [component]) with
    | none => .error .notFound
    | some (.file _) => .error .notDirectory
    | some .directory => .ok (location ++ [component])

/-- Resolve a path up to its last component. -/
def locate (disk : Disk) (path : Path) : Except IoError Target := do
  if path.bytes.contains 0 then throw .nulInPath
  if path.bytes = [] then throw .notFound
  if pathLimit ≤ path.bytes.length then throw .nameTooLong
  let components := path.components
  let start := if path.isAbsolute then [] else disk.home
  let parent ← components.dropLast.foldlM disk.enter start
  match components.getLast? with
  | none => return ⟨parent, none, true⟩
  | some last =>
    if last = Path.here then return ⟨parent, none, true⟩
    else if last = Path.above then return ⟨parent.dropLast, none, true⟩
    else return ⟨parent, some last, path.bytes.getLast? = some Path.slash⟩

/-- The node that a target names, if there is one. -/
def lookup (disk : Disk) (target : Target) : Except IoError (Option Node) :=
  match target.name? with
  | none => .ok (some .directory)
  | some name =>
    if maxName < name.length then .error .nameTooLong else .ok (disk.node? target.location)

/-! ## Looking -/

/-- The node at a path. -/
def inspect (disk : Disk) (path : Path) : Except IoError Node := do
  let target ← disk.locate path
  match ← disk.lookup target with
  | none => throw .notFound
  | some (.file file) => if target.slashed then throw .notDirectory else return .file file
  | some .directory => return .directory

/-- Whether a path leads to a directory. -/
def isDirectory (disk : Disk) (path : Path) : Bool :=
  match disk.inspect path with
  | .ok .directory => true
  | _ => false

/-- The bytes of the file at a path. -/
def read (disk : Disk) (path : Path) : Except IoError Bytes := do
  match ← disk.inspect path with
  | .file file => return file.content
  | .directory => throw .isDirectory

/-! ## Files -/

/-- Open the file at a path for writing: it is emptied, or made with the given permissions if it is
    not there. -/
def create (disk : Disk) (path : Path) (mode : Nat) : Except IoError (FileId × Disk) := do
  let target ← disk.locate path
  -- a slash after the name asks for a directory, whether there is one or not
  if target.slashed then throw .isDirectory
  match ← disk.lookup target with
  | some .directory => throw .isDirectory
  | some (.file file) =>
    return (file.id, disk.put target.location (.file { file with content := [] }))
  | none =>
    let disk' := disk.put target.location (.file ⟨disk.nextId, mode, []⟩)
    return (disk.nextId, { disk' with nextId := disk.nextId + 1 })

/-- Replace the bytes of the file at a path. -/
def write (disk : Disk) (path : Path) (content : Bytes) : Except IoError Disk := do
  let target ← disk.locate path
  match ← disk.lookup target with
  | some (.file file) => return disk.put target.location (.file { file with content })
  | some .directory => throw .isDirectory
  | none => throw .notFound

/-- Write a whole file, making it with the given permissions if it is not there. -/
def store (disk : Disk) (path : Path) (mode : Nat) (content : Bytes) : Except IoError Disk := do
  let (_, disk) ← disk.create path mode
  disk.write path content

/-- Copy a file with its permissions. The destination is emptied before the source is read, so a
    file that is copied onto itself ends up empty. -/
def copy (disk : Disk) (source destination : Path) : Except IoError Disk := do
  match ← disk.inspect source with
  | .directory => throw .notRegular
  | .file old =>
    let (id, disk) ← disk.create destination old.mode
    let content ← disk.read source
    let target ← disk.locate destination
    return disk.put target.location (.file ⟨id, old.mode, content⟩)

/-- Take away the file at a path. -/
def unlink (disk : Disk) (path : Path) : Except IoError Disk := do
  let target ← disk.locate path
  match ← disk.lookup target with
  | some .directory => throw .isDirectory
  | some (.file _) =>
    if target.slashed then throw .notDirectory else return disk.erase target.location
  | none => throw .notFound

/-! ## Directories -/

/-- Whether a location lies below a directory, at any depth. -/
def isBelow (directory location : Location) : Bool :=
  directory.isPrefixOf location && directory.length < location.length

/-- Everything below a directory. -/
def below (disk : Disk) (directory : Location) : List (Location × Node) :=
  disk.nodes.toList.filter fun entry => isBelow directory entry.1

/-- Make a directory. -/
def makeDirectory (disk : Disk) (path : Path) : Except IoError Disk := do
  let target ← disk.locate path
  match ← disk.lookup target with
  | some _ => throw .alreadyExists
  | none => return disk.put target.location .directory

/-- Move whatever is at one path to another. A file replaces a file; a directory replaces an empty
    directory, and never moves below itself. -/
def rename (disk : Disk) (source destination : Path) : Except IoError Disk := do
  -- neither path is looked up unless both can be handed to the system
  if source.bytes.contains 0 ∨ destination.bytes.contains 0 then throw .nulInPath
  let old ← disk.locate source
  let new ← disk.locate destination
  if old.name? = none ∨ new.name? = none then throw .busy
  match ← disk.lookup old with
  | none => throw .notFound
  | some node =>
    -- the source is there, so only now may a fault of the destination show
    let occupant ← disk.lookup new
    if node ≠ .directory ∧ (old.slashed ∨ new.slashed) then throw .notDirectory
    if isBelow old.location new.location then throw .invalid
    if isBelow new.location old.location then throw .notEmpty
    if old.location = new.location then return disk
    match node, occupant with
    | .file _, some .directory => throw .isDirectory
    | .directory, some (.file _) => throw .notDirectory
    | .file _, _ => return (disk.erase old.location).put new.location node
    | .directory, _ =>
      if disk.below new.location ≠ [] then throw .notEmpty
      let moved := disk.below old.location
      let cleared := moved.foldl (fun disk entry => disk.erase entry.1) (disk.erase old.location)
      return moved.foldl
        (fun disk entry => disk.put (new.location ++ entry.1.drop old.location.length) entry.2)
        (cleared.put new.location .directory)

/-- Take away everything below a directory. -/
def clear (disk : Disk) (path : Path) : Except IoError Disk := do
  let target ← disk.locate path
  match ← disk.lookup target with
  | none => throw .notFound
  | some (.file _) => throw .notDirectory
  | some .directory =>
    return (disk.below target.location).foldl (fun disk entry => disk.erase entry.1) disk

/-- Take away an empty directory, which must be called by its name. -/
def removeDirectory (disk : Disk) (path : Path) : Except IoError Disk := do
  let target ← disk.locate path
  if path.components.getLast? = some Path.above then throw .notEmpty
  if target.name? = none then throw .invalid
  match ← disk.lookup target with
  | none => throw .notFound
  | some (.file _) => throw .notDirectory
  | some .directory =>
    if disk.below target.location ≠ [] then throw .notEmpty
    return disk.erase target.location

/-- Take away a directory with everything below it; also answers with the tree that is left if that
    fails half-way. The path may lead through what is taken away: `a/..` is gone as soon as `a` is,
    and nothing is left to be done. -/
def removeTree (disk : Disk) (path : Path) : Except IoError Unit × Disk :=
  match disk.clear path with
  | .error error => (.error error, disk)
  | .ok cleared =>
    match cleared.removeDirectory path with
    | .ok disk => (.ok (), disk)
    | .error .notFound => (.ok (), cleared)
    | .error error => (.error error, cleared)

/-- The paths of everything below the working directory, in the order of their bytes; a slash
    follows the path of a directory. -/
def listing (disk : Disk) : List Bytes :=
  let shown (entry : Location × Node) : Bytes :=
    let path := [Path.slash].intercalate (entry.1.drop disk.home.length)
    match entry.2 with
    | .directory => path ++ [Path.slash]
    | .file _ => path
  ((disk.below disk.home).map shown).mergeSort fun a b => (compare a b).isLE

/-! ## Locks -/

/-- Whether a file is locked. -/
def isLocked (disk : Disk) (file : FileId) : Bool := disk.locked.contains file

/-- Lock a file that is not locked yet. -/
def tryLock (disk : Disk) (file : FileId) : Except IoError Disk :=
  if disk.isLocked file then .error .wouldBlock
  else .ok { disk with locked := file :: disk.locked }

/-- Release the lock of a file. -/
def release (disk : Disk) (file : FileId) : Disk :=
  { disk with locked := disk.locked.filter (· != file) }

end Disk

end Custody
