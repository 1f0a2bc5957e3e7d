import Custody.Bytes

set_option autoImplicit false

/-! # Random bytes

Salts, nonces, seeds and passwords are drawn from one endless source of bytes, of which the first
`drawn` are used up. Nothing is known about the source, so what holds for every `Entropy` holds
whatever is drawn. -/

namespace Custody

/-- A source of random bytes. -/
structure Entropy where
  source : Nat → UInt8
  drawn : Nat

/-- The next `n` bytes. -/
def Entropy.draw (n : Nat) : StateM Entropy (Block n) := fun entropy =>
  (⟨(List.range n).map fun i => entropy.source (entropy.drawn + i), by simp⟩,
    { entropy with drawn := entropy.drawn + n })

end Custody
