import Custody.Envelope.Basic
import Custody.World

set_option autoImplicit false

/-! # Wallet files

A sealed wallet is written to a temporary file beside its place, forced to the device and then put
in place in one step, so that a failure on the way leaves the previous file as it was. A file is
read only if it is a plain file of at most four MiB. -/

namespace Custody.Envelope

/-- The most bytes of a wallet file that is read. -/
def maxFileSize : Nat := 4 * 1024 * 1024

/-- The permissions of a wallet file: its owner reads and writes. -/
def fileMode : Nat := 0o600

/-- Where a file is written before it is put in place. -/
def temporaryPath (path : Path) : Path := path.withSuffix ".tmp"

/-- Write a sealed wallet to a path. -/
def save (envelope : Envelope) (path : Path) : Act EnvelopeFault World Unit := do
  let temporary := temporaryPath path
  let _ ← (World.attempt .create (·.create temporary fileMode)).mapError (.uncreatable temporary)
  (World.writeFile temporary envelope.encode).mapError .unwritable
  (World.change .sync .ok).mapError .unwritable
  (World.change .rename (·.rename temporary path)).mapError (.irreplaceable path)

/-- Read the sealed wallet at a path. -/
def load (path : Path) : Act EnvelopeFault World Envelope := do
  match ← (World.observe .inspect (·.inspect path)).mapError (.unreadable path) with
  | .directory => throw (.notAFile path)
  | .file file =>
    if maxFileSize < file.content.length then throw (.tooLarge file.content.length)
    let bytes ← (World.observe .read (·.read path)).mapError (.unreadable path)
    match Envelope.decode.run bytes with
    | .error fault => throw (.malformed fault)
    | .ok envelope =>
      if envelope.version ≠ currentVersion then throw (.version envelope.version)
      return envelope

end Custody.Envelope
