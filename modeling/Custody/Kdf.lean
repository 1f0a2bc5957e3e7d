import Custody.Suite

set_option autoImplicit false

/-! # Keys from passwords

A wallet's key is derived from its password and a salt at a chosen cost. The cost and the salt are
stored beside what the key seals, so that the key can be derived again. -/

namespace Custody

/-- Why no key can be derived. -/
inductive KdfFault
  | memoryTooSmall
  | tooFewPasses
  | noLanes
  | tooManyLanes
  | passwordTooLong
  deriving DecidableEq, Repr

def KdfFault.message : KdfFault → String
  | .memoryTooSmall => "Argon2 params: memory cost is too small"
  | .tooFewPasses => "Argon2 params: time cost is too small"
  | .noLanes => "Argon2 params: not enough threads"
  | .tooManyLanes => "Argon2 params: too many threads"
  | .passwordTooLong => "Key derivation failed: password is too long"

namespace KdfCost

/-- The cost of new wallets, unless another is chosen. -/
def standard : KdfCost := ⟨65536, 3, 1⟩

/-- A cost that takes next to no time. -/
def light : KdfCost := ⟨64, 1, 1⟩

/-- The first reason why no key can be derived at a cost. The least memory for the lanes is taken
    modulo 2^32. -/
def fault? (cost : KdfCost) : Option KdfFault :=
  if cost.memory < 8 ∨ cost.memory < 8 * cost.lanes then some .memoryTooSmall
  else if cost.passes = 0 then some .tooFewPasses
  else if cost.lanes = 0 then some .noLanes
  else if 0xffffff < cost.lanes.toNat then some .tooManyLanes
  else none

end KdfCost

/-- What a key is derived from besides the password. -/
structure KdfHeader where
  cost : KdfCost
  salt : Block 32
  deriving DecidableEq

/-- The key for a password. -/
def KdfHeader.deriveKey [Suite] (header : KdfHeader) (password : String) :
    Except KdfFault (Block 32) :=
  match header.cost.fault? with
  | some fault => .error fault
  | none =>
    if UInt32.size ≤ password.utf8ByteSize then .error .passwordTooLong
    else .ok (Suite.deriveKey header.cost (Utf8.encode password) header.salt)

end Custody
