import Custody.Proofs.Envelope.RoundTrip
import Custody.Proofs.Manager.Listing

set_option autoImplicit false

/-! # Keys that a program comes to hold

A private key is generated, read from a text or opened from a sealed copy. From there it is put into
maps, wallets and managers, and comes back out of them in listings. `Asset.Held` is whatever these
ways lead to, in any order, and `Asset.Held.sound` shows that none of them leads to a key with halves
of wrong lengths. A wallet therefore signs with every key that it has, and signing never fails:
`Asset.held_keys_sign`. -/

namespace Custody

/-! ## What is put in by the program -/

/-- Whether the operation takes a private key from outside. -/
def SoftWallet.Step.isImport [Suite] : Step → Bool
  | .importKey _ _ => true
  | _ => false

/-- The wallet that a command hands over to the manager. -/
def Command.handed? {W : Type} : Command W → Option W
  | .own _ wallet => some wallet
  | .registerPlatform (.ok wallet) => some wallet
  | _ => none

theorem Command.handsOver_of_handed? [Suite] {command : Command SoftWallet}
    (h : ∀ wallet, command.handed? = some wallet → wallet.Reachable) : command.HandsOver := by
  unfold HandsOver
  split
  · exact h _ rfl
  · exact h _ rfl
  · trivial

/-! ## Ways of holding keys -/

/-- What private keys come in. -/
inductive Asset
  | ofKey (key : PrivateKey)
  | ofKeys (keys : KeyMap)
  | ofWallet (wallet : SoftWallet)
  | ofManager (manager : Manager SoftWallet)

namespace Asset

variable [Suite]

/-- What a program can come to hold. A sealed copy may be any that opens, whoever made it, and a map
    may have keys under any public keys. Each operation is carried out in a world of its own, so that
    a wallet may be loaded from a file of any content. -/
inductive Held : Asset → Prop
  | obtained {key : PrivateKey} (h : key.Obtained) : Held (.ofKey key)
  | taken {keys : KeyMap} (h : Held (.ofKeys keys)) {pub : PublicKey} {key : PrivateKey}
    (hget : keys[pub]? = some key) : Held (.ofKey key)
  | noKeys : Held (.ofKeys ∅)
  | inserted {keys : KeyMap} {key : PrivateKey} (h : Held (.ofKeys keys)) (hkey : Held (.ofKey key))
    (pub : PublicKey) : Held (.ofKeys (keys.insert pub key))
  | erased {keys : KeyMap} (h : Held (.ofKeys keys)) (pub : PublicKey) :
    Held (.ofKeys (keys.erase pub))
  | listed {wallet : SoftWallet} {keys : KeyMap} (h : Held (.ofWallet wallet))
    (hkeys : wallet.listKeys = .ok keys) : Held (.ofKeys keys)
  | listedByManager {manager : Manager SoftWallet} {world : World} {name password : String}
    {keys : KeyMap} (h : Held (.ofManager manager))
    (hkeys : manager.answer world (Manager.listKeys name password) = .ok keys) :
    Held (.ofKeys keys)
  | newWallet (path : Path) (cost : KdfCost) : Held (.ofWallet (.new path cost))
  | imported {wallet : SoftWallet} {key : PrivateKey} (h : Held (.ofWallet wallet))
    (hkey : Held (.ofKey key)) (world : World) :
    Held (.ofWallet ((SoftWallet.importKey key).outcome (wallet, world)).2.1)
  | stepped {wallet : SoftWallet} (h : Held (.ofWallet wallet)) (step : SoftWallet.Step)
    (hstep : step.isImport = false) (world : World) :
    Held (.ofWallet (step.perform.outcome (wallet, world)).2.1)
  | registered {manager : Manager SoftWallet} (h : Held (.ofManager manager)) {name : WalletName}
    {wallet : SoftWallet} (hentry : (name, wallet) ∈ manager.wallets) : Held (.ofWallet wallet)
  | started {config : Config} {clock : Clock} {world world' : World} {manager : Manager SoftWallet}
    (hstart : (Manager.start config clock).outcome world = (.ok manager, world')) :
    Held (.ofManager manager)
  | commanded {manager : Manager SoftWallet} (h : Held (.ofManager manager))
    (command : Command SoftWallet)
    (hhanded : ∀ wallet, command.handed? = some wallet → Held (.ofWallet wallet)) (world : World) :
    Held (.ofManager (manager.after world command))

/-- What is kept on all ways: keys can be made, and wallets and managers have been through nothing
    but their operations. -/
def Sound : Asset → Prop
  | .ofKey key => key.WellFormed
  | .ofKeys keys => keys.Every fun _ key => key.WellFormed
  | .ofWallet wallet => wallet.Reachable
  | .ofManager manager => Manager.Reachable Command.HandsOver manager

variable {keys : KeyMap} {wallet : SoftWallet} {manager : Manager SoftWallet}

theorem sound_session {session : Session} (h : wallet.Reachable)
    (hsession : wallet.session? = some session) : Sound (.ofKeys session.keys) :=
  (h.orderly.filed session hsession).every_wellFormed

theorem Sound.listKeys (h : Sound (.ofWallet wallet)) (hkeys : wallet.listKeys = .ok keys) :
    Sound (.ofKeys keys) := by
  cases hsession : wallet.session? with
  | none =>
    rw [SoftWallet.listKeys, SoftWallet.session_eq_error hsession] at hkeys
    exact absurd hkeys (by simp [Except.map])
  | some session =>
    rw [SoftWallet.listKeys, SoftWallet.session_eq hsession] at hkeys
    cases hkeys
    exact sound_session h hsession

theorem Sound.listKeys_of_manager (h : Sound (.ofManager manager)) {world : World}
    {name password : String}
    (hkeys : manager.answer world (Manager.listKeys name password) = .ok keys) :
    Sound (.ofKeys keys) := by
  obtain ⟨entry, session, hfind, hsession, -, rfl⟩ := Manager.outcome_listKeys_eq_ok_iff.1 hkeys
  have hmade : (⟨manager, world, []⟩ : Scene SoftWallet).manager.Every
      fun _ wallet => wallet.Reachable := Manager.Reachable.every_reachable h
  have hentry := (Manager.mem_of_find?_eq_some hfind).1
  exact sound_session (Manager.every_reachable_checked hmade _ _ hentry) hsession

theorem Sound.importKey (h : Sound (.ofWallet wallet)) {key : PrivateKey} (hkey : key.WellFormed)
    (world : World) : Sound (.ofWallet ((SoftWallet.importKey key).outcome (wallet, world)).2.1) :=
  SoftWallet.Leads.of_step (.importKey key hkey) rfl wallet world h

/-- No way leads to anything else. -/
theorem Held.sound {asset : Asset} (h : asset.Held) : asset.Sound := by
  induction h with
  | obtained h => exact PrivateKey.obtained_iff_wellFormed.1 h
  | taken h hget ih => exact ih _ _ hget
  | noKeys => exact KeyMap.every_empty
  | inserted h hkey pub ih ihkey => exact KeyMap.Every.insert ih ihkey
  | erased h pub ih => exact KeyMap.Every.erase ih pub
  | listed h hkeys ih => exact ih.listKeys hkeys
  | listedByManager h hkeys ih => exact ih.listKeys_of_manager hkeys
  | newWallet path cost => exact SoftWallet.Reachable.new path cost
  | imported h hkey world ih ihkey => exact ih.importKey ihkey world
  | stepped h step hstep world ih => exact SoftWallet.Reachable.step ih step world
  | registered h hentry ih => exact Manager.Reachable.every_reachable ih _ _ hentry
  | started hstart => exact Manager.Reachable.start hstart
  | commanded h command hhanded world ih ihhanded =>
    exact Manager.Reachable.command ih command (Command.handsOver_of_handed? ihhanded) world

end Asset

/-! ## Signing with what is held -/

namespace SoftWallet

variable [Suite] {wallet : SoftWallet}

/-- A wallet with its keys in order never fails to sign: it gives a signature for each key that it
    keeps, and none for any other. -/
theorem Orderly.trySign_spec (h : wallet.Orderly) (digest : Digest) (key : PublicKey)
    (entropy : Entropy) : ∃ signature? entropy',
      (wallet.trySign digest key).run entropy = (.ok signature?, entropy') ∧
      (signature?.isSome = true ↔ (wallet.stored? key).isSome = true) ∧
      ∀ signature, signature? = some signature → signature.IsOf key.keyType := by
  cases hstored : wallet.stored? key with
  | none => exact ⟨none, entropy, trySign_of_stored?_eq_none hstored entropy, by simp⟩
  | some secret =>
    obtain ⟨rfl, hmade⟩ := h.stored? hstored
    obtain ⟨signature, entropy', hsign⟩ := hmade.exists_sign digest entropy
    refine ⟨some signature, entropy', ?_, by simp, ?_⟩
    · rw [trySign_of_stored? hstored, hsign]
      rfl
    · rintro _ ⟨⟩
      exact hmade.isOf_of_sign (congrArg Prod.fst hsign)

end SoftWallet

namespace Asset

variable [Suite]

/-- Every key that a program can come to hold has halves as its scheme asks for, so that it signs
    every digest without either fault of signing, and with a signature of its scheme. No wallet that
    a program can come to hold fails to sign: it gives a signature exactly if it is unlocked and has
    the key. -/
theorem held_keys_sign :
    (∀ key : PrivateKey, Held (.ofKey key) →
      (key.keyType = .ed25519 → ∃ seed : Block 32, key.secret = seed.val ∧
        key.publicKey.bytes = (Suite.ed25519Public seed).val) ∧
      (key.keyType = .falcon512 →
        key.secret.length = 1281 ∧ key.publicKey.bytes.length = 897) ∧
      ∀ digest entropy, ∃ signature entropy',
        (key.sign digest).run entropy = (.ok signature, entropy') ∧
        signature.IsOf key.keyType) ∧
    (∀ wallet : SoftWallet, Held (.ofWallet wallet) → ∀ digest key entropy,
      ∃ signature? entropy',
        (wallet.trySign digest key).run entropy = (.ok signature?, entropy') ∧
        (signature?.isSome = true ↔
          ∃ session, wallet.session? = some session ∧ key ∈ session.keys) ∧
        ∀ signature, signature? = some signature → signature.IsOf key.keyType) := by
  constructor
  · intro key hkey
    have hmade : key.WellFormed := hkey.sound
    obtain ⟨hseed, hlengths⟩ := hmade.halves
    refine ⟨hseed, hlengths, fun digest entropy => ?_⟩
    obtain ⟨signature, entropy', hsign⟩ := hmade.exists_sign digest entropy
    exact ⟨signature, entropy', hsign, hmade.isOf_of_sign (congrArg Prod.fst hsign)⟩
  · intro wallet hwallet digest key entropy
    have hreachable : wallet.Reachable := hwallet.sound
    rw [← SoftWallet.isSome_stored?_iff]
    exact hreachable.orderly.trySign_spec digest key entropy

end Asset

namespace Asset

local instance assetPrimitives : Suite := Suite.plain

/-- A manager comes to be held by its start, and by the creation of a wallet and of a key in it. -/
theorem held_withFreshKey : Held (.ofManager Manager.withFreshKey) := by
  have hstarted : Held (.ofManager Manager.freshManager) :=
    .started Manager.outcome_start_freshManager
  have hcreated : Held (.ofManager Manager.withEmptyWallet.manager) :=
    .commanded hstarted (.create "w") (fun _ hhanded => nomatch hhanded) Manager.freshWorld
  exact .commanded hcreated (.createKey "w" "falcon512") (fun _ hhanded => nomatch hhanded)
    Manager.withEmptyWallet.world

/-- The wallet in which a key has been created signs with it, and so does the key itself, once it
    has been listed. -/
theorem held_keys_sign_of_freshKey : ∃ wallet : SoftWallet, Held (.ofWallet wallet) ∧
    (∃ signature entropy', (wallet.trySign default Manager.freshKey.publicKey).run
      World.blank.entropy = (.ok (some signature), entropy') ∧ signature.keyType = .falcon512) ∧
    Held (.ofKey Manager.freshKey) ∧
    ∃ signature entropy', (Manager.freshKey.sign default).run World.blank.entropy =
      (.ok signature, entropy') := by
  obtain ⟨hkeys, hwallets⟩ := held_keys_sign
  obtain ⟨⟨name, wallet⟩, hentry, hstored⟩ :=
    List.exists_of_findSome?_eq_some Manager.signer?_withFreshKey
  obtain ⟨session, hsession, hget⟩ := Option.bind_eq_some_iff.1 hstored
  have hwallet : Held (.ofWallet wallet) := .registered held_withFreshKey hentry
  have hlisted : wallet.listKeys = .ok session.keys := by
    rw [SoftWallet.listKeys, SoftWallet.session_eq hsession]
    rfl
  have hkey : Held (.ofKey Manager.freshKey) := .taken (.listed hwallet hlisted) hget
  refine ⟨wallet, hwallet, ?_, hkey, ?_⟩
  · obtain ⟨signature?, entropy', hsign, hsome, hof⟩ :=
      hwallets wallet hwallet default Manager.freshKey.publicKey World.blank.entropy
    obtain ⟨signature, rfl⟩ := Option.isSome_iff_exists.1
      (hsome.2 ⟨session, hsession, Std.ExtTreeMap.mem_iff_isSome_getElem?.2 (by rw [hget]; rfl)⟩)
    exact ⟨signature, entropy', hsign, (hof signature rfl).1⟩
  · obtain ⟨-, -, hsign⟩ := hkeys Manager.freshKey hkey
    obtain ⟨signature, entropy', hsign, -⟩ := hsign default World.blank.entropy
    exact ⟨signature, entropy', hsign⟩

end Asset

end Custody
