import Custody.Proofs.DirectoryLock
import Custody.Proofs.Wallet.Files
import Custody.Wallet.Device

set_option autoImplicit false

/-! # Wallets that leave the markers alone

Wallets and locks share a disk. A wallet is harmless if nothing that a manager may ask of it moves
or replaces the marker of a directory lock (`Backend.Harmless`). Soft wallets are, unless their file
is such a marker itself (`SoftWallet.harmless`), and so are keystores that have nothing to do with
the disk. -/

namespace Custody

open DirectoryLock (markerName)

variable [Suite]

/-! ## Harmless wallets -/

namespace Backend

section Asked

variable {W : Type} [Backend W]

/-- A manager asks something of a wallet that may change it and the world. -/
inductive Asked : W × World → W × World → Prop
  | lock (wallet : W) (world : World) : Asked (wallet, world) (Backend.lock wallet, world)
  | unlock (password : String) (state : W × World) :
    Asked state ((Backend.unlock password).outcome state).2
  | importKey {key : PrivateKey} (hkey : key.WellFormed) (state : W × World) :
    Asked state ((Backend.importKey key).outcome state).2
  | removeKey (key : PublicKey) (state : W × World) :
    Asked state ((Backend.removeKey key).outcome state).2
  | createKey (keyType : KeyType) (state : W × World) :
    Asked state ((Backend.createKey keyType).outcome state).2

/-- Every marker stays the file that it is, whatever is asked of the wallet and then of what the
    wallet has become, each time in a world of its own. -/
def Harmless (wallet : W) : Prop :=
  ∃ P : W → Prop, P wallet ∧ ∀ state state', P state.1 → Asked state state' →
    P state'.1 ∧ Disk.Leaves markerName state.2.disk state'.2.disk

theorem Harmless.asked {state state' : W × World} (h : Harmless state.1)
    (hasked : Asked state state') :
    Harmless state'.1 ∧ Disk.Leaves markerName state.2.disk state'.2.disk := by
  obtain ⟨P, hwallet, hP⟩ := h
  obtain ⟨hwallet', hleaves⟩ := hP state state' hwallet hasked
  exact ⟨⟨P, hwallet', hP⟩, hleaves⟩

theorem Harmless.lock {wallet : W} (h : Harmless wallet) : Harmless (Backend.lock wallet) :=
  (Harmless.asked h (.lock wallet .blank)).1

/-- Changing the keys of a wallet is asking something of it. -/
theorem Asked.of_changes {W : Type} [SoftBackend W] {command : Command W} {name : String}
    {request : Request} {act : Act Error (W × World) Reply}
    (h : command.Changes name request act) (state : W × World) :
    Asked state (act.outcome state).2 := by
  cases h with
  | importKey hkey =>
    rw [Act.outcome_map]
    exact .importKey (PrivateKey.wellFormed_of_ofText hkey) state
  | removeKey hkey =>
    rw [Act.outcome_map]
    exact .removeKey _ state
  | createKey hkey =>
    rw [Act.outcome_map]
    exact .createKey _ state

end Asked

/-! ## Two kinds side by side -/

section Sum

variable {A B : Type} [Backend A] [Backend B]

/-- What is asked of a wallet of the one kind or the other is asked of that wallet. -/
theorem Asked.inl {a : A} {world : World} {state' : (A ⊕ B) × World}
    (h : Asked (.inl a, world) state') :
    ∃ a', state'.1 = .inl a' ∧ Asked (a, world) (a', state'.2) := by
  cases h with
  | lock => exact ⟨_, rfl, .lock a world⟩
  | unlock password => exact ⟨_, rfl, .unlock password (a, world)⟩
  | importKey hkey => exact ⟨_, rfl, .importKey hkey (a, world)⟩
  | removeKey key => exact ⟨_, rfl, .removeKey key (a, world)⟩
  | createKey keyType => exact ⟨_, rfl, .createKey keyType (a, world)⟩

theorem Asked.inr {b : B} {world : World} {state' : (A ⊕ B) × World}
    (h : Asked (.inr b, world) state') :
    ∃ b', state'.1 = .inr b' ∧ Asked (b, world) (b', state'.2) := by
  cases h with
  | lock => exact ⟨_, rfl, .lock b world⟩
  | unlock password => exact ⟨_, rfl, .unlock password (b, world)⟩
  | importKey hkey => exact ⟨_, rfl, .importKey hkey (b, world)⟩
  | removeKey key => exact ⟨_, rfl, .removeKey key (b, world)⟩
  | createKey keyType => exact ⟨_, rfl, .createKey keyType (b, world)⟩

theorem Harmless.inl {a : A} (h : Harmless a) : Harmless (.inl a : A ⊕ B) := by
  refine ⟨fun wallet => ∃ a, wallet = .inl a ∧ Harmless a, ⟨a, rfl, h⟩, ?_⟩
  rintro ⟨_, world⟩ ⟨wallet', world'⟩ ⟨a, rfl, h⟩ hasked
  obtain ⟨a', rfl, hasked⟩ := hasked.inl
  obtain ⟨h', hleaves⟩ := Harmless.asked h hasked
  exact ⟨⟨a', rfl, h'⟩, hleaves⟩

theorem Harmless.inr {b : B} (h : Harmless b) : Harmless (.inr b : A ⊕ B) := by
  refine ⟨fun wallet => ∃ b, wallet = .inr b ∧ Harmless b, ⟨b, rfl, h⟩, ?_⟩
  rintro ⟨_, world⟩ ⟨wallet', world'⟩ ⟨b, rfl, h⟩ hasked
  obtain ⟨b', rfl, hasked⟩ := hasked.inr
  obtain ⟨h', hleaves⟩ := Harmless.asked h hasked
  exact ⟨⟨b', rfl, h'⟩, hleaves⟩

end Sum

end Backend

/-! ## Soft wallets -/

omit [Suite] in
theorem Envelope.temporaryName_ne_marker (name : Bytes) : temporaryName name ≠ markerName := by
  intro heq
  have hlast := congrArg List.getLast? heq
  rw [temporaryName, List.getLast?_append,
    show (Utf8.encode ".tmp").getLast? = some 0x70 from rfl,
    show markerName.getLast? = some 0x6b from rfl] at hlast
  exact absurd hlast (by simp [Option.or])

omit [Suite] in
theorem WalletName.fileBytes_ne_marker (name : WalletName) : name.fileBytes ≠ markerName := by
  intro heq
  have hlast := congrArg List.getLast? heq
  rw [fileBytes_eq, List.getLast?_append,
    show (Utf8.encode ".wallet").getLast? = some 0x74 from rfl,
    show markerName.getLast? = some 0x6b from rfl] at hlast
  exact absurd hlast (by simp [Option.or])

namespace SoftWallet

/-- The file of the wallet is not the marker of a directory. -/
def Apart (wallet : SoftWallet) : Prop := ∀ dir, wallet.path ≠ DirectoryLock.markerPath dir

omit [Suite] in
theorem apart_of_join {wallet : SoftWallet} {dir : Path} {name : WalletName}
    (h : wallet.path = dir.join ⟨name.fileBytes⟩) : wallet.Apart := by
  intro dir' hmarker
  rw [h] at hmarker
  exact name.fileBytes_ne_marker
    (Path.join_inj name.isFileName DirectoryLock.isFileName_markerName hmarker).2

omit [Suite] in
theorem Confined.apart {start done : SoftWallet × World} (h : Confined start done)
    (hapart : start.1.Apart) :
    done.1.Apart ∧ Disk.Leaves markerName start.2.disk done.2.disk := by
  refine ⟨?_, h.leaves markerName hapart Envelope.temporaryName_ne_marker⟩
  unfold Apart
  rw [h.path_eq]
  exact hapart

/-- A soft wallet is harmless, unless its file is a marker. -/
theorem harmless {wallet : SoftWallet} (h : wallet.Reachable) (hapart : wallet.Apart) :
    Backend.Harmless wallet := by
  refine ⟨fun wallet => wallet.Reachable ∧ wallet.Apart, ⟨h, hapart⟩, ?_⟩
  rintro ⟨wallet, world⟩ state' ⟨h, hapart⟩ hasked
  have hbound := h.orderly.isBound
  have hdone : state'.1.Reachable → Confined (wallet, world) state' →
      (state'.1.Reachable ∧ state'.1.Apart) ∧ Disk.Leaves markerName world.disk state'.2.disk := by
    intro hreachable hconfined
    obtain ⟨hapart', hleaves⟩ := hconfined.apart hapart
    exact ⟨⟨hreachable, hapart'⟩, hleaves⟩
  cases hasked with
  | lock => exact hdone h.lock (.of_disk_eq rfl rfl)
  | unlock password =>
    exact hdone (leads_unlock password wallet world h)
      (onlySaves_unlock password wallet world h).confined
  | importKey hkey =>
    exact hdone (Leads.of_step (.importKey _ hkey) rfl wallet world h)
      (importKey_spec _ hbound world).saves.confined
  | removeKey key =>
    exact hdone (Leads.of_step (.removeKey key) rfl wallet world h)
      (removeKey_spec key hbound world).saves.confined
  | createKey keyType =>
    exact hdone (Leads.of_step (.createKey keyType) rfl wallet world h)
      (createKey_spec keyType hbound world).saves.confined

end SoftWallet

/-! ## Keystores held in memory -/

/-- A keystore that is held in memory has nothing to do with the disk. -/
theorem Device.harmless (device : Device) : Backend.Harmless device := by
  refine ⟨fun _ => True, trivial, ?_⟩
  rintro ⟨device, world⟩ state' - hasked
  refine ⟨trivial, .of_eq (congrArg World.disk ?_)⟩
  cases hasked with
  | lock => rfl
  | unlock password =>
    simp only [Backend.unlock, Act.outcome_bind, Act.outcome_get, Act.outcome_liftM]
    cases device.allow .unlock with
    | error error => rfl
    | ok _ => cases device.verifyPassword password <;> rfl
  | importKey hkey =>
    simp only [Backend.importKey, change, Act.outcome_bind, Act.outcome_get, Act.outcome_liftM]
    cases device.allow .importKey <;> rfl
  | removeKey key =>
    simp only [Backend.removeKey, change, Act.outcome_bind, Act.outcome_get, Act.outcome_liftM]
    cases device.allow .removeKey <;> rfl
  | createKey keyType =>
    simp only [Backend.createKey, change, Act.outcome_bind, Act.outcome_get, Act.outcome_liftM]
    cases device.allow (.createKey keyType) <;> rfl

end Custody
