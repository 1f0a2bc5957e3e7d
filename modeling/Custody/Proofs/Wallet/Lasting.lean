import Custody.Manager.Lifecycle
import Custody.Proofs.Wallet.Steps

set_option autoImplicit false

/-! # Sessions that last

Changing the keys of an open wallet leaves it open, whether it succeeds or not. This holds of every
wallet, also of one that could not have come about. -/

namespace Custody.SoftWallet

variable {α β : Type}

/-- An open wallet is still open after the operation. -/
def KeepsOpen (act : Operation α) : Prop :=
  ∀ wallet world, wallet.session?.isSome = true →
    (act.outcome (wallet, world)).2.1.session?.isSome = true

namespace KeepsOpen

theorem of_still {act : Operation α}
    (h : ∀ wallet world, (act.outcome (wallet, world)).2.1 = wallet) : KeepsOpen act := by
  intro wallet world hopen
  rw [h]
  exact hopen

theorem lift (result : Except Error α) : KeepsOpen (liftM result : Operation α) := by
  refine of_still fun wallet world => ?_
  rw [Act.outcome_liftM]

theorem bind {x : Operation α} {f : α → Operation β} (hx : KeepsOpen x)
    (hf : ∀ a, KeepsOpen (f a)) : KeepsOpen (x >>= f) := by
  intro wallet world hopen
  exact Act.holds_after_bind
    (P := fun state : SoftWallet × World => state.1.session?.isSome = true)
    (hx wallet world hopen) (fun _ => id) fun a state hstate => hf a state.1 state.2 hstate

theorem map {x : Operation α} (hx : KeepsOpen x) (f : α → β) : KeepsOpen (f <$> x) := by
  intro wallet world hopen
  rw [Act.outcome_map]
  exact hx wallet world hopen

variable [Suite]

theorem sealKeys (keys : KeyMap) (key : Block 32) (kdf : KdfHeader) :
    KeepsOpen (SoftWallet.sealKeys keys key kdf) := by
  refine of_still fun wallet world => ?_
  have hseal := sealKeys_spec keys key kdf wallet world
  generalize (SoftWallet.sealKeys keys key kdf).outcome (wallet, world) = done at hseal ⊢
  cases hseal <;> rfl

theorem commitKeys (keys : KeyMap) : KeepsOpen (SoftWallet.commitKeys keys) := by
  unfold SoftWallet.commitKeys
  refine bind (of_still fun _ _ => rfl) fun wallet => ?_
  refine bind (lift wallet.envelope) fun envelope => ?_
  refine bind (lift wallet.session) fun session => ?_
  refine bind (sealKeys keys session.key envelope.kdf) fun envelope' => ?_
  refine bind (of_still fun _ _ => rfl) fun _ => ?_
  exact fun _ _ _ => rfl

theorem importKey (key : PrivateKey) : KeepsOpen (SoftWallet.importKey key) := by
  unfold SoftWallet.importKey
  refine bind (of_still fun _ _ => rfl) fun wallet => ?_
  refine bind (lift wallet.session) fun session => ?_
  dsimp only
  split
  · exact of_still fun _ _ => rfl
  · exact bind (commitKeys _) fun _ => of_still fun _ _ => rfl

theorem removeKey (key : PublicKey) : KeepsOpen (SoftWallet.removeKey key) := by
  unfold SoftWallet.removeKey
  refine bind (of_still fun _ _ => rfl) fun wallet => ?_
  refine bind (lift wallet.session) fun session => ?_
  dsimp only
  split
  · exact of_still fun _ _ => rfl
  · exact commitKeys _

theorem createKey (keyType : KeyType) : KeepsOpen (SoftWallet.createKey keyType) := by
  unfold SoftWallet.createKey
  refine bind (of_still fun _ _ => rfl) fun key? => ?_
  cases key? with
  | none => exact of_still fun _ _ => rfl
  | some key => exact importKey key

theorem save : KeepsOpen SoftWallet.save := by
  have hcopy : KeepsOpen (do saveEnvelope (← (← current).envelope)) := by
    refine bind (of_still fun _ _ => rfl) fun wallet => ?_
    exact bind (lift wallet.envelope) fun _ => of_still fun _ _ => rfl
  unfold SoftWallet.save
  refine bind (of_still fun _ _ => rfl) fun wallet => ?_
  dsimp only
  split
  · refine bind (lift wallet.envelope) fun envelope => ?_
    refine bind (sealKeys _ _ envelope.kdf) fun envelope' => ?_
    exact bind (fun _ _ hopen => hopen) fun _ => hcopy
  · exact hcopy

end KeepsOpen

/-! ## New wallets -/

variable [Suite]

/-- A password that is accepted opens the wallet. -/
theorem isSome_of_unlock {password : String} {state state' : SoftWallet × World}
    (h : (unlock password).outcome state = (.ok (), state')) :
    state'.1.session?.isSome = true := by
  obtain ⟨wallet, world⟩ := state
  have hunlock := unlock_spec password wallet world
  rw [h] at hunlock
  cases hunlock
  rfl

/-- A wallet that has just been made is open. -/
theorem isSome_of_prepareNew {password : String} {state state' : SoftWallet × World}
    (h : (Manager.prepareNew password).outcome state = (.ok (), state')) :
    state'.1.session?.isSome = true := by
  unfold Manager.prepareNew at h
  -- what is done after the password has been tried out for the second time is saving
  obtain ⟨_, state₁, -, h⟩ := Act.exists_of_outcome_bind_eq_ok h
  obtain ⟨_, state₂, -, h⟩ := Act.exists_of_outcome_bind_eq_ok h
  obtain ⟨_, state₃, -, h⟩ := Act.exists_of_outcome_bind_eq_ok h
  obtain ⟨_, state₄, hunlock, hsave⟩ := Act.exists_of_outcome_bind_eq_ok h
  have hopen := KeepsOpen.save state₄.1 state₄.2 (isSome_of_unlock hunlock)
  rw [hsave] at hopen
  exact hopen

end Custody.SoftWallet
