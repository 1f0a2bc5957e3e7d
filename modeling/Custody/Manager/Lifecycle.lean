import Custody.Manager.Basic

set_option autoImplicit false

/-! # Making, opening, locking and unlocking wallets

Managers come into being in a directory that is made if it is missing. A wallet enters the registry
when it is created, opened or handed over; it leaves only when another of its name takes its
place. -/

namespace Custody.Manager

variable [Suite] {W : Type}

/-! ## Managers -/

/-- The name of a hardware keystore in the registry. -/
def platformName : String := "SecureEnclave"

/-- The hardware keystore of this platform: there is none. -/
def probePlatform : Except Error W := .error (.platformWalletUnavailable "linux")

/-- Hand a wallet over under a name that is not registered yet. -/
def own (name : String) (wallet : W) : Operation W Unit := do
  if (← get).manager.isRegistered name then throw (.duplicateWalletRegistration name)
  let walletName ← Act.ofExcept (WalletName.parse name)
  update fun manager => { manager with wallets := manager.wallets ++ [(walletName, wallet)] }

/-- Register the hardware keystore that a probe finds; tells whether there is one now. -/
def registerPlatform (probe : Except Error W) : Operation W Bool := do
  match probe with
  | .error _ => return false
  | .ok wallet =>
    match ← (own platformName wallet).settled with
    | .ok _ => return true
    | .error _ => return false

/-- A manager without wallets, as configured. -/
def start [Backend W] (config : Config) (clock : Clock) : Act Error World (Manager W) := do
  (World.makeDirectories config.walletDir).mapError fun error => .io (.system error)
  let manager : Manager W := ⟨config.walletDir, config.cost, [], .disabled, clock, none⟩
  let setUp : Operation W Unit := do
    match config.unlockTimeout with
    | some duration => setTimeout duration
    | none => pure ()
    if config.probePlatform then
      let _ ← registerPlatform probePlatform
  ExceptT.mk fun world =>
    let (result, scene) := setUp.outcome ⟨manager, world, []⟩
    (result.map fun _ => scene.manager, scene.world)

/-- The end of a manager: its directory lock is released. -/
def drop (manager : Manager W) : Act Error World Unit := do
  match manager.dirLock with
  | some lock => lock.release
  | none => return

/-! ## The directory -/

/-- Use another directory for wallets to come. A manager that holds a lock keeps its directory. -/
def setDir (dir : Path) : Operation W Unit := do
  let manager := (← get).manager
  if manager.dirLock.isSome then
    throw (.directoryLockUnavailable (DirectoryLock.markerPath manager.dir) .heldHere)
  onWorld ((World.makeDirectories dir).mapError fun error => .io (.system error))
  update fun manager => { manager with dir }

/-- Lock the directory, unless this manager has locked it already. -/
def initializeLock : Operation W Unit := do
  let manager := (← get).manager
  if manager.dirLock.isSome then return
  let lock ← onWorld (DirectoryLock.acquire manager.dir)
  update fun manager => { manager with dirLock := some lock }

/-- Whether the manager holds the lock of its directory. -/
def holdsLock (manager : Manager W) : Bool := manager.dirLock.isSome

/-- Where the file of a wallet is. -/
def walletPath (manager : Manager W) (name : WalletName) : Path :=
  manager.dir.join (.ofString name.fileName)

/-! ## Wallets -/

/-- A password that nobody has chosen: a mark and the text of a fresh Ed25519 key. -/
def drawPassword : StateM Entropy String := do
  let seed ← Entropy.draw 32
  return "PW" ++ (PrivateKey.ofSeed seed).toText

/-- Run operations on a new soft wallet, and answer with the wallet. -/
def preparing (wallet : SoftWallet) (act : SoftWallet.Operation Unit) :
    Act Error World SoftWallet :=
  ExceptT.mk fun world =>
    let (result, wallet, world) := act.outcome (wallet, world)
    (result.map fun _ => wallet, world)

/-- What makes a new wallet: bind the password, prove that it opens the wallet, and save. -/
def prepareNew (password : String) : SoftWallet.Operation Unit := do
  SoftWallet.setPassword password
  SoftWallet.unlock password
  SoftWallet.update SoftWallet.lock
  SoftWallet.unlock password
  SoftWallet.save

variable [SoftBackend W]

/-- Create a wallet with a file of its own, unlocked, and answer with its password. -/
def create (name : String) : Operation W String := do
  checkTimeout
  let walletName ← Act.ofExcept (WalletName.parse name)
  let manager := (← get).manager
  let path := manager.walletPath walletName
  -- a path that cannot be looked at passes here and fails when the wallet is saved
  if ← onWorld (World.pathExists path) then throw (.walletAlreadyExists name path)
  let password ← onWorld (World.drawing drawPassword)
  let wallet ← onWorld (preparing (.new path manager.cost) (prepareNew password))
  register walletName (SoftBackend.ofSoft wallet)
  return password

/-- Register the wallet of a file, locked. -/
def openFile (name : String) : Operation W Unit := do
  let walletName ← Act.ofExcept (WalletName.parse name)
  let manager := (← get).manager
  let wallet := SoftWallet.new (manager.walletPath walletName) manager.cost
  match ← (onWorld (W := W) (preparing wallet SoftWallet.load)).settled with
  | .ok wallet => register walletName (SoftBackend.ofSoft wallet)
  -- whatever is wrong with the file, the answer does not tell
  | .error _ => throw (.walletNonexistent name)

/-- Open the wallet of a file. -/
def openWallet (name : String) : Operation W Unit := do
  checkTimeout
  openFile name

/-- The mark after the name of an unlocked wallet in a listing. -/
def unlockedMark : String := " *"

/-- List wallets from some entries on. -/
def listEntries : List (WalletName × W) → Operation W (List String)
  | [] => return []
  | entry :: rest => do
    let isLocked ← askLocked entry
    let others ← listEntries rest
    return (if isLocked then entry.1.text else entry.1.text ++ unlockedMark) :: others

/-- The names of all wallets, the unlocked ones marked. -/
def listWallets : Operation W (List String) := do
  checkTimeout
  listEntries (← get).manager.wallets

/-- Lock a wallet; a locked one stays as it is. -/
def lock (name : String) : Operation W Unit := do
  checkTimeout
  lockEntry (← wallet name)

/-- Unlock a wallet, which is opened first if it is not registered. -/
def unlock (name password : String) : Operation W Unit := do
  checkTimeout
  if !(← get).manager.isRegistered name then openFile name
  -- a wallet that was just opened stays registered even if the password is wrong
  let entry ← wallet name
  if !(← askLocked entry) then throw (.walletAlreadyUnlocked name)
  request entry (.unlock password) (Backend.unlock password)

end Custody.Manager
