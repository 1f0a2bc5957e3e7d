import Custody.Bytes

set_option autoImplicit false

/-! # Poly1305

The one-time authenticator of RFC 8439: the message is read as the coefficients of a polynomial
modulo 2^130 - 5, which is evaluated at one half of the key and masked with the other. -/

namespace Custody.Poly1305

/-- The prime modulus. -/
def modulus : Nat := Nat.pow 2 130 - 5

/-- The point of evaluation: the first half of the key with some bits cleared. -/
def point (key : Block 32) : Nat :=
  (Bytes.toNat (key.val.take 16)) &&& 0x0ffffffc0ffffffc0ffffffc0fffffff

/-- Evaluate the polynomial, one coefficient for each 16 bytes, each closed by a set bit. -/
def evaluate (r : Nat) (message : Bytes) (acc : Nat) : Nat :=
  if message = [] then acc
  else
    let coefficient := message.take 16
    evaluate r (message.drop 16)
      ((acc + Bytes.toNat (coefficient ++ [1])) * r % modulus)
termination_by message.length
decreasing_by
  rename_i h
  have := List.length_pos_iff.2 h
  rw [List.length_drop]
  omega

/-- The tag of a message. -/
def tag (key : Block 32) (message : Bytes) : Block 16 :=
  let mask := Bytes.toNat (key.val.drop 16)
  ⟨Bytes.ofNat 16 (evaluate (point key) message 0 + mask), Bytes.length_ofNat _ _⟩

end Custody.Poly1305
