import Custody.Text.Quoted

set_option autoImplicit false

/-! # Paths

A path is a byte string as it was written; it is never normalised, and appears in messages as it
is. Its components are what lies between the slashes. -/

namespace Custody

/-- A path of a file or directory. -/
structure Path where
  bytes : Bytes
  deriving DecidableEq, Repr, Inhabited

namespace Path

/-- The byte that separates components. -/
def slash : UInt8 := 0x2f

/-- The component that stands for the directory itself. -/
def here : Bytes := [0x2e]

/-- The component that stands for the directory above. -/
def above : Bytes := [0x2e, 0x2e]

def ofString (text : String) : Path := ⟨Utf8.encode text⟩

/-- The path as plain text. -/
def shown (path : Path) : String := Text.lossy path.bytes

/-- The path between quotes. -/
def quoted (path : Path) : String := Text.quoteBytes path.bytes

/-- Whether the path starts at the root. -/
def isAbsolute (path : Path) : Bool := path.bytes.head? == some slash

/-- A path below a directory. A slash is put between the two unless there is one already or the
    directory is the empty path; an absolute path stands for itself. -/
def join (dir : Path) (rest : Path) : Path :=
  if rest.isAbsolute then rest
  else if dir.bytes = [] ∨ dir.bytes.getLast? = some slash then ⟨dir.bytes ++ rest.bytes⟩
  else ⟨dir.bytes ++ slash :: rest.bytes⟩

/-- The path with something written after its last byte. -/
def withSuffix (path : Path) (suffix : String) : Path := ⟨path.bytes ++ Utf8.encode suffix⟩

/-- The pieces of a byte string between its slashes, empty ones included. -/
def pieces (bytes : Bytes) : List Bytes := bytes.splitOn slash

/-- The components: the pieces that are not empty. -/
def components (path : Path) : List Bytes := (pieces path.bytes).filter (· != [])

/-- A byte string without the slashes, and pieces that stand for the directory itself, at its
    end. The input is reversed. -/
def dropTrailing : Bytes → Bytes
  | 0x2f :: rest => dropTrailing rest
  | 0x2e :: 0x2f :: rest => dropTrailing rest
  | bytes => bytes

/-- The path of the directory that the last component lies in, or nothing for the root and the empty
    path. Pieces that stand for the directory itself count only at the very front. -/
def parent? (path : Path) : Option Path :=
  let trimmed := dropTrailing path.bytes.reverse
  if trimmed = [] then none
  else
    let front := trimmed.dropWhile (· != slash)
    let parent := dropTrailing front
    if parent = [] ∧ path.isAbsolute then some ⟨[slash]⟩ else some ⟨parent.reverse⟩

/-- The name that the path ends with; none if it ends with a piece that stands for a directory. -/
def fileName? (path : Path) : Option Bytes :=
  let name := ((dropTrailing path.bytes.reverse).takeWhile (· != slash)).reverse
  if name = [] ∨ name = here ∨ name = above then none else some name

end Path

end Custody
