import Custody.Disk.Basic
import Custody.Entropy
import Custody.Timeout.Instant

set_option autoImplicit false

/-! # The world of an operation

What operations act on besides their own object: the file tree, the random source and the clocks.
Operations are functions on states that fail with an error or answer with a value; the state that
they leave behind is there in either case. Any step that touches the file tree may be made to fail
by the world's `FaultPlan`, so that a statement about all worlds covers failures at every step. -/

namespace Custody

/-- An operation on a state: what it leaves behind is kept when it fails. -/
abbrev Act (ε σ α : Type) := ExceptT ε (StateM σ) α

namespace Act

variable {ε ε' σ τ α : Type}

/-- The outcome and the state left behind. -/
def outcome (act : Act ε σ α) (state : σ) : Except ε α × σ := act.run.run state

/-- An operation on a part of the state. -/
def zoom (part : τ → σ) (restore : σ → τ → τ) (act : Act ε σ α) : Act ε τ α :=
  ExceptT.mk fun state =>
    let (result, part') := act.run.run (part state)
    (result, restore part' state)

/-- The same operation with its errors reworded. -/
def mapError (reword : ε → ε') (act : Act ε σ α) : Act ε' σ α :=
  ExceptT.mk fun state =>
    let (result, state') := act.run.run state
    (result.mapError reword, state')

/-- The outcome as an answer. -/
def settled (act : Act ε σ α) : Act ε' σ (Except ε α) :=
  ExceptT.mk fun state =>
    let (result, state') := act.run.run state
    (.ok result, state')

/-- An answer or a failure that leaves the state alone. -/
def ofExcept (result : Except ε α) : Act ε σ α := ExceptT.mk (pure result)

end Act

/-! ## Steps that may fail -/

/-- The steps that touch the file tree. -/
inductive IoStep
  /-- Look at what is at a path. -/
  | inspect
  /-- Read a file. -/
  | read
  /-- Make a directory. -/
  | makeDirectory
  /-- Open a temporary file for writing. -/
  | create
  /-- Write to a temporary file. -/
  | write
  /-- Force a temporary file to the device. -/
  | sync
  /-- Put a temporary file in the place of a wallet file. -/
  | rename
  /-- Open the marker of a directory lock. -/
  | openMarker
  /-- Remove the marker of a directory lock. -/
  | unlinkMarker
  deriving DecidableEq, Repr

/-- A failure; a failing write leaves the first `written` bytes behind. -/
structure Fault where
  error : IoError
  written : Nat
  deriving DecidableEq, Repr

/-- Which steps fail, by their number and kind. -/
abbrev FaultPlan := Nat → IoStep → Option Fault

/-- The plan under which nothing fails but for a reason. -/
def FaultPlan.none : FaultPlan := fun _ _ => Option.none

/-! ## The world -/

/-- Where an object takes its time from: a clock that is set by hand, or the machine's. -/
inductive Clock
  | manual
  | machine
  deriving DecidableEq, Repr

/-- Everything outside of wallets and managers. -/
structure World where
  disk : Disk
  entropy : Entropy
  time : Clock → Instant
  faults : FaultPlan
  steps : Nat

namespace World

/-- One step on the file tree: it fails as planned, or as the operation itself does. -/
def attempt {α : Type} (step : IoStep) (operation : Disk → Except IoError (α × Disk)) :
    Act IoError World α :=
  ExceptT.mk fun world =>
    let world' := { world with steps := world.steps + 1 }
    match world.faults world.steps step with
    | some fault => (.error fault.error, world')
    | none =>
      match operation world.disk with
      | .ok (answer, disk) => (.ok answer, { world' with disk })
      | .error error => (.error error, world')

/-- A step that only looks. -/
def observe {α : Type} (step : IoStep) (operation : Disk → Except IoError α) :
    Act IoError World α :=
  attempt step fun disk => (operation disk).map fun answer => (answer, disk)

/-- A step without an answer. -/
def change (step : IoStep) (operation : Disk → Except IoError Disk) : Act IoError World Unit :=
  attempt step fun disk => (operation disk).map fun disk => ((), disk)

/-- Write the bytes of a file. A planned failure leaves a part of them behind. -/
def writeFile (path : Path) (content : Bytes) : Act IoError World Unit :=
  ExceptT.mk fun world =>
    let world' := { world with steps := world.steps + 1 }
    match world.faults world.steps .write with
    | some fault =>
      match world.disk.write path (content.take fault.written) with
      | .ok disk => (.error fault.error, { world' with disk })
      | .error _ => (.error fault.error, world')
    | none =>
      match world.disk.write path content with
      | .ok disk => (.ok (), { world' with disk })
      | .error error => (.error error, world')

/-- Whether there is anything at a path, as far as can be told. -/
def pathExists {ε : Type} (path : Path) : Act ε World Bool := do
  match ← (observe .inspect (·.inspect path)).settled with
  | .ok _ => return true
  | .error _ => return false

/-- Make a directory and those above it that are missing. An existing directory will do. -/
def makeDirectories (path : Path) : Act IoError World Unit :=
  go path (path.bytes.length + 1)
where
  /-- The way up is at most as long as the path. -/
  go (path : Path) : Nat → Act IoError World Unit
  | 0 => throw .noParent
  | depth + 1 => do
    if path.bytes = [] then return
    let attemptHere : Act IoError World (Except IoError Unit) :=
      (change .makeDirectory (·.makeDirectory path)).settled
    match ← attemptHere with
    | .ok _ => return
    | .error .notFound =>
      match path.parent? with
      | none => throw .noParent
      | some parent => go parent depth
      -- `a/..` is there as soon as `a` has been made, so failing is no fault yet
      match ← attemptHere with
      | .ok _ => return
      | .error error => if (← get).disk.isDirectory path then return else throw error
    | .error error => if (← get).disk.isDirectory path then return else throw error

/-- Take away a directory with everything below it. -/
def removeTree (path : Path) : Act IoError World Unit :=
  ExceptT.mk fun world =>
    let (result, disk) := world.disk.removeTree path
    (result, { world with disk })

/-- Draw from the random source. -/
def drawing {ε α : Type} (draw : StateM Entropy α) : Act ε World α :=
  ExceptT.mk fun world =>
    let (answer, entropy) := draw.run world.entropy
    (.ok answer, { world with entropy })

end World

end Custody
