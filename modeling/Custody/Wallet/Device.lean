import Custody.Wallet.Backend

set_option autoImplicit false

/-! # Keystores held in memory

A keystore that holds its keys and its password in the open, answers to the same requests as any
other wallet, and can be told to refuse some of them. It stands in for a hardware keystore. -/

namespace Custody

/-- A keystore in memory. -/
structure Device where
  password : String
  keys : KeyMap
  isLocked : Bool
  /-- The report for each request that is refused. -/
  refused : RequestKind → Option String
  /-- How many keys were created. -/
  created : Nat

namespace Device

variable [Suite]

/-- An operation on a device. -/
abbrev Operation (α : Type) := Act Error (Device × World) α

/-- Let a request pass unless it is refused. -/
def allow (device : Device) (request : RequestKind) : Except Error Unit :=
  match device.refused request with
  | some report => .error (.crypto (.device report))
  | none => .ok ()

/-- Whether a password is the device's. -/
def verifyPassword (device : Device) (password : String) : Except Error Unit :=
  if password = device.password then .ok () else .error .badPassword

/-- Change the device once a request has passed. -/
def change (request : RequestKind) (f : Device → Device) : Operation Unit := do
  let (device, world) ← get
  device.allow request
  set (f device, world)

/-- The key that is created as the `n`-th: an Ed25519 key, whatever was asked for, whose seed
    repeats the byte `n`. -/
def numberedKey (n : Nat) : PrivateKey :=
  .ofSeed ⟨List.replicate 32 n.toUInt8, List.length_replicate⟩

instance : Backend Device where
  isLocked := isLocked
  lock device := { device with isLocked := true }
  checkPassword device password := do
    device.allow .checkPassword
    device.verifyPassword password
  listKeys device := do
    device.allow .listKeys
    return device.keys
  listPublicKeys device := do
    device.allow .listPublicKeys
    return Std.ExtTreeSet.ofList device.keys.keys
  trySign device digest key := do
    match device.allow .trySign, device.keys[key]? with
    | .error error, _ => return .error error
    | .ok _, none => return .ok none
    | .ok _, some secret =>
      match ← secret.sign digest with
      | .ok signature => return .ok (some signature)
      | .error fault => return .error (.crypto (.signing fault))
  setPassword password := change .setPassword fun device => { device with password }
  unlock password := do
    let (device, world) ← get
    device.allow .unlock
    device.verifyPassword password
    set ({ device with isLocked := false }, world)
  importKey key := do
    change .importKey fun device => { device with keys := device.keys.insert key.publicKey key }
    return key.publicKey
  removeKey key := change .removeKey fun device => { device with keys := device.keys.erase key }
  createKey keyType := do
    let (device, _) ← get
    let key := numberedKey (device.created + 1)
    change (.createKey keyType) fun device =>
      { device with
        keys := device.keys.insert key.publicKey key
        created := device.created + 1 }
    return key.publicKey
  load := change .load id
  save := change .save id

end Device

end Custody
