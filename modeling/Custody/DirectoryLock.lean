import Custody.Error
import Custody.World

set_option autoImplicit false

/-! # Directory locks

A wallet directory is taken by locking a marker file in it. One attempt is made, without waiting.
The marker is removed before the lock is released, so that nobody can lock a marker that is about to
go. -/

namespace Custody

/-- A held lock: the path of its marker, and the marker itself. -/
structure DirectoryLock where
  marker : Path
  file : FileId
  deriving DecidableEq, Repr

namespace DirectoryLock

/-- Where the marker of a directory is. -/
def markerPath (dir : Path) : Path := dir.join (.ofString "wallet.lock")

/-- The permissions of a marker. -/
def markerMode : Nat := 0o644

/-- Whether a path still leads to the marker. -/
def isStillThere (marker : Path) (file : FileId) : Act Error World Bool := do
  match ← (World.observe .inspect (·.inspect marker)).settled with
  | .ok (.file found) => return found.id = file
  | _ => return false

/-- Lock a directory. -/
def acquire (dir : Path) : Act Error World DirectoryLock := do
  let marker := markerPath dir
  let file ← (World.attempt .openMarker (·.create marker markerMode)).mapError fun error =>
    Error.directoryLockUnavailable marker (.marker error)
  match (← get).disk.tryLock file with
  | .error error => throw (.directoryLockUnavailable marker (.contended error))
  | .ok disk => modify fun world => { world with disk }
  if ← isStillThere marker file then return ⟨marker, file⟩
  else
    modify fun world => { world with disk := world.disk.release file }
    throw (.directoryLockUnavailable marker .replaced)

/-- Remove the marker, if it can be removed, and release the lock. -/
def release (lock : DirectoryLock) : Act Error World Unit := do
  let _ ← (World.change .unlinkMarker (·.unlink lock.marker)).settled
  modify fun world => { world with disk := world.disk.release lock.file }

end DirectoryLock

end Custody
