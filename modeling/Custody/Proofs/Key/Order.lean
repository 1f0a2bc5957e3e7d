import Custody.Key.Basic

set_option autoImplicit false

/-! # The order of public keys

A set of public keys is gone through in its order: by scheme, and within a scheme by the bytes from
the left (`PublicKey.Precedes`). A set is determined by that list, so two sets with the same members
are one. -/

namespace Custody

/-! ## Bytes -/

namespace Bytes

/-- Bytes are compared from the left, and what is used up first comes first. -/
theorem compare_eq_lt_iff {bytes bytes' : Bytes} : compare bytes bytes' = .lt ↔ bytes < bytes' := by
  show List.compareLex compare bytes bytes' = .lt ↔ bytes < bytes'
  induction bytes generalizing bytes' with
  | nil => cases bytes' <;> simp [List.compareLex_nil_nil, List.compareLex_nil_cons]
  | cons byte bytes ih =>
    cases bytes' with
    | nil => simp [List.compareLex_cons_nil]
    | cons byte' bytes' =>
      rw [List.compareLex_cons_cons, Ordering.then_eq_lt, Std.compare_eq_lt, ih,
        Std.LawfulEqOrd.compare_eq_iff_eq, List.cons_lt_cons_iff]

end Bytes

/-! ## Keys -/

namespace PublicKey

/-- A key comes before another: its scheme does, or the scheme is the same and its bytes do. -/
def Precedes (key key' : PublicKey) : Prop :=
  key.keyType.tag < key'.keyType.tag ∨ key.keyType = key'.keyType ∧ key.bytes < key'.bytes

theorem compare_eq_lt_iff {key key' : PublicKey} : compare key key' = .lt ↔ key.Precedes key' := by
  show compareLex (compareOn keyType) (compareOn bytes) key key' = .lt ↔ _
  unfold Precedes compareLex compareOn
  rw [Ordering.then_eq_lt, Std.LawfulEqOrd.compare_eq_iff_eq, Bytes.compare_eq_lt_iff]
  show compare key.keyType.tag key'.keyType.tag = .lt ∨ _ ↔ _
  rw [Std.compare_eq_lt]

end PublicKey

/-! ## Sets of keys -/

namespace KeySet

/-- The members of a set are listed in their order, each of them once. -/
theorem pairwise_precedes (keys : KeySet) : keys.toList.Pairwise PublicKey.Precedes :=
  keys.ordered_toList.imp PublicKey.compare_eq_lt_iff.1

end KeySet

end Custody
