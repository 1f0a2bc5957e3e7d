import Custody.Config
import Custody.DirectoryLock
import Custody.Timeout.Window
import Custody.Wallet.Backend
import Custody.Wallet.Name

set_option autoImplicit false

/-! # Managers

A manager keeps wallets by name in the order in which they were registered, the unlock timeout, the
wallet directory and perhaps the lock of it. Its operations act on a `Scene`: the manager, the world
around it, and the record of all requests that were made to wallets on the way. -/

namespace Custody

/-! ## Requests to wallets -/

/-- A request to a registered wallet. -/
inductive Request
  | isLocked (answer : Bool)
  | lock
  | unlock (password : String)
  | setPassword (password : String)
  | checkPassword (password : String)
  | listKeys
  | listPublicKeys
  | importKey (key : PrivateKey)
  | removeKey (key : PublicKey)
  | createKey (keyType : KeyType)
  | trySign (digest : Digest) (key : PublicKey)
  | load
  | save
  deriving DecidableEq

/-- The request without its arguments and its answer. -/
def Request.kind : Request → RequestKind
  | .isLocked _ => .isLocked
  | .lock => .lock
  | .unlock _ => .unlock
  | .setPassword _ => .setPassword
  | .checkPassword _ => .checkPassword
  | .listKeys => .listKeys
  | .listPublicKeys => .listPublicKeys
  | .importKey _ => .importKey
  | .removeKey _ => .removeKey
  | .createKey keyType => .createKey keyType
  | .trySign _ _ => .trySign
  | .load => .load
  | .save => .save

/-- A request that was made, to which wallet, and whether it was answered without an error. -/
structure Event where
  wallet : WalletName
  request : Request
  succeeded : Bool
  deriving DecidableEq

/-! ## State -/

/-- A manager of wallets of the kind `W`. -/
structure Manager (W : Type) where
  dir : Path
  cost : KdfCost
  /-- The wallets in registration order. -/
  wallets : List (WalletName × W)
  timeout : UnlockTimeout
  clock : Clock
  dirLock : Option DirectoryLock

/-- A manager in its world, with the requests made so far. -/
structure Scene (W : Type) where
  manager : Manager W
  world : World
  trace : List Event

namespace Manager

variable {W : Type}

/-- An operation of a manager. -/
abbrev Operation (W α : Type) := Act Error (Scene W) α

/-- Change the manager. -/
def update (f : Manager W → Manager W) : Operation W Unit :=
  modify fun scene => { scene with manager := f scene.manager }

/-- Act on the world. -/
def onWorld {α : Type} (act : Act Error World α) : Operation W α :=
  act.zoom Scene.world fun world scene => { scene with world }

/-- The time by the manager's clock. -/
def now : Operation W Instant := do
  let scene ← get
  return scene.world.time scene.manager.clock

/-! ## The registry -/

/-- The wallet that is registered under a name. -/
def find? (manager : Manager W) (name : String) : Option (WalletName × W) :=
  manager.wallets.find? fun entry => entry.1.text == name

/-- Whether a name is registered. -/
def isRegistered (manager : Manager W) (name : String) : Bool :=
  manager.wallets.any fun entry => entry.1.text == name

/-- Put a wallet in the place of the one with its name. -/
def replace (manager : Manager W) (name : WalletName) (wallet : W) : Manager W :=
  { manager with
    wallets := manager.wallets.map fun entry => if entry.1 = name then (name, wallet) else entry }

/-- Register a wallet as the last one, in place of any other of its name. -/
def register (name : WalletName) (wallet : W) : Operation W Unit :=
  update fun manager =>
    { manager with wallets := manager.wallets.filter (·.1 ≠ name) ++ [(name, wallet)] }

/-- The wallet under a name, which must be registered. -/
def wallet (name : String) : Operation W (WalletName × W) := do
  match (← get).manager.find? name with
  | some entry => return entry
  | none => throw (.walletNonexistent name)

/-! ## Making requests -/

/-- Note a request. -/
def note (name : WalletName) (request : Request) (succeeded : Bool) : Operation W Unit :=
  modify fun scene => { scene with trace := scene.trace ++ [⟨name, request, succeeded⟩] }

variable [Backend W]

/-- Ask a wallet whether it is locked. -/
def askLocked (entry : WalletName × W) : Operation W Bool := do
  let answer := Backend.isLocked entry.2
  note entry.1 (.isLocked answer) true
  return answer

/-- Note a request that only looks at the wallet, and pass its answer on. -/
def ask {α : Type} (entry : WalletName × W) (request : Request) (answer : Except Error α) :
    Operation W α := do
  note entry.1 request (answer matches .ok _)
  Act.ofExcept answer

/-- Ask a wallet for a signature. -/
def askSignature (entry : WalletName × W) (digest : Digest) (key : PublicKey) :
    Operation W (Option Signature) := do
  let answer ← onWorld (World.drawing (Backend.trySign entry.2 digest key))
  ask entry (.trySign digest key) answer

/-- Make a request that may change a registered wallet and the world. -/
def request {α : Type} (entry : WalletName × W) (request : Request)
    (act : Act Error (W × World) α) : Operation W α := do
  let scene ← get
  let (answer, wallet, world) := act.outcome (entry.2, scene.world)
  set { scene with manager := scene.manager.replace entry.1 wallet, world }
  ask entry request answer

/-- Lock a wallet unless it is locked. -/
def lockEntry (entry : WalletName × W) : Operation W Unit := do
  if ← askLocked entry then return
  update fun manager => manager.replace entry.1 (Backend.lock entry.2)
  note entry.1 .lock true

/-- Lock every wallet, in registration order. -/
def lockAll : Operation W Unit := do
  (← get).manager.wallets.forM lockEntry

/-- The wallet under a name, which must be registered and unlocked. -/
def unlockedWallet (name : String) : Operation W (WalletName × W) := do
  let entry ← wallet name
  if ← askLocked entry then throw (.walletLocked name)
  return entry

/-! ## The timeout -/

/-- Open a window of inactivity from now on. -/
def setTimeout (duration : Duration) : Operation W Unit := do
  match UnlockTimeout.set? duration (← now) with
  | some timeout => update fun manager => { manager with timeout }
  | none => throw (.timeoutOverflow duration.seconds)

/-- Remove the window. -/
def disableTimeout : Operation W Unit :=
  update fun manager => { manager with timeout := manager.timeout.disable }

/-- Open the window anew; if it had run out, lock every wallet first. -/
def checkTimeout : Operation W Unit := do
  let (expired, timeout) := (← get).manager.timeout.check (← now)
  update fun manager => { manager with timeout }
  if expired then lockAll

/-- How long the wallets stay unlocked if nothing is done. -/
def timeoutRemaining (scene : Scene W) : Option Duration :=
  scene.manager.timeout.remaining (scene.world.time scene.manager.clock)

end Manager

end Custody
