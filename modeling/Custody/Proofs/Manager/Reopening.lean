import Custody.Proofs.Manager.Durable
import Custody.Proofs.Wallet.Turning

set_option autoImplicit false

/-! # A file is opened again

Where nothing fails, a manager that does not know of a wallet unlocks it from its file with the
wallet's password, and lists the keys of the file then: `Manager.exists_unlock`,
`Manager.outcome_listKeys`. -/

namespace Custody

variable [Suite] {header : KdfHeader} {key : Block 32} {keys : KeyMap} {password : String}

/-- Opening a wallet leaves it open with its keys. -/
theorem SoftWallet.Refines.with_session {wallet : SoftWallet} {isLocked : Bool}
    (h : wallet.Refines (.bound isLocked header key keys)) :
    SoftWallet.Refines { wallet with session? := some ⟨key, keys⟩ }
      (.bound false header key keys) :=
  ⟨h.1, rfl⟩

omit [Suite] in
theorem WalletName.parse_text (name : WalletName) : parse name.text = .ok name := by
  unfold parse
  rw [dif_pos name.accepted]

namespace Manager

variable {dir : Path} {name : WalletName} {scene : Scene SoftWallet}

/-- Among soft wallets a soft wallet is itself. -/
theorem ofSoft_eq (wallet : SoftWallet) : (SoftBackend.ofSoft wallet : SoftWallet) = wallet := rfl

omit [Suite] in
/-- The wallet of a file is registered, locked, with what is loaded from the file. -/
theorem outcome_openFile {W : Type} [SoftBackend W] (name : WalletName) (scene : Scene W) :
    (openFile name.text).outcome scene =
      match (Envelope.load (scene.manager.walletPath name)).outcome scene.world with
      | (.ok envelope, world) => (.ok (), { scene with
          manager := scene.manager.registered name (SoftBackend.ofSoft
            ⟨scene.manager.walletPath name, scene.manager.cost, some envelope, none⟩)
          world })
      | (.error _, world) => (.error (.walletNonexistent name.text), { scene with world }) := by
  unfold openFile
  rw [Act.outcome_bind, Act.outcome_ofExcept, name.parse_text]
  simp only [Act.outcome_bind, Act.outcome_get, Act.outcome_settled, outcome_onWorld,
    outcome_preparing]
  unfold SoftWallet.load
  simp only [Act.outcome_bind, SoftWallet.outcome_current, SoftWallet.outcome_onWorld,
    Act.outcome_mapError, SoftWallet.new]
  rcases (Envelope.load (scene.manager.walletPath name)).outcome scene.world with
    ⟨fault | envelope, world⟩ <;> rfl

/-- A wallet that is not registered is taken from its file, and then unlocked like any other. -/
theorem outcome_unlock_of_new (hdistinct : scene.checked.manager.Distinct)
    (hnew : scene.checked.manager.isRegistered name.text = false) {wallet : SoftWallet}
    {world : World} (hlocked : wallet.session? = none)
    (hopen : (openFile name.text).outcome scene.checked = (.ok (), { scene.checked with
      manager := scene.checked.manager.registered name wallet, world })) (password : String) :
    ((unlock name.text password).outcome scene).1 =
        ((SoftWallet.unlock password).outcome (wallet, world)).1 ∧
      ((unlock name.text password).outcome scene).2.manager =
        (scene.checked.manager.registered name wallet).replace name
          ((SoftWallet.unlock password).outcome (wallet, world)).2.1 := by
  have hlocked : Backend.isLocked wallet = true := Option.isNone_iff_eq_none.2 hlocked
  have hfind : (scene.checked.manager.registered name wallet).find? name.text =
      some (name, wallet) :=
    hdistinct.registered.find?_eq_some ((mem_registered name wallet).2 (.inl ⟨rfl, rfl⟩))
  rw [unlock_eq, outcome_checkTimeout_bind, Act.outcome_bind, Act.outcome_get]
  simp only [hnew, Bool.not_false, if_true]
  rw [Act.outcome_bind, hopen]
  simp only [outcome_unlockRegistered, hfind, hlocked, if_true, outcome_request]
  exact ⟨rfl, rfl⟩

/-- A wallet that is not registered is unlocked from its file, with its password. -/
theorem exists_unlock (hsettled : scene.manager.Settled dir) (hcalm : scene.world.faults = .none)
    (hnew : scene.checked.manager.isRegistered name.text = false)
    (hstores : scene.world.disk.Stores (dir.join ⟨name.fileBytes⟩) header key keys)
    (hfits : ∀ file, scene.world.disk.inspect (dir.join ⟨name.fileBytes⟩) = .ok (.file file) →
      file.content.length ≤ Envelope.maxFileSize)
    (hkey : header.deriveKey password = .ok key) :
    ∃ scene' wallet, (unlock name.text password).outcome scene = (.ok (), scene') ∧
      (name, wallet) ∈ scene'.manager.wallets ∧ scene'.manager.Distinct ∧
      wallet.Refines (.bound false header key keys) := by
  have hworld := (Scene.checked_eq hsettled.distinct).1
  rw [← hworld] at hcalm hstores hfits
  obtain ⟨file, envelope, hfile, hwhole, hholds⟩ := hstores
  have hopen := outcome_openFile name scene.checked
  rw [hsettled.checked.walletPath_eq, hwhole.outcome_load hcalm hfile (hfits file hfile)] at hopen
  obtain ⟨hanswer, hmanager⟩ :=
    outcome_unlock_of_new hsettled.checked.distinct hnew rfl hopen password
  have hrefines : SoftWallet.Refines
      ⟨dir.join ⟨name.fileBytes⟩, scene.checked.manager.cost, some envelope, none⟩
      (.bound true header key keys) := ⟨⟨envelope, rfl, hholds⟩, rfl⟩
  rw [ofSoft_eq, hrefines.outcome_unlock hkey] at hanswer hmanager
  refine ⟨((unlock name.text password).outcome scene).2, _, Prod.ext hanswer rfl, ?_, ?_,
    hrefines.with_session⟩
  · rw [hmanager]
    exact (mem_replace ((mem_registered name _).2 (.inl ⟨rfl, rfl⟩)) name _).2 (.inl ⟨rfl, rfl⟩)
  · rw [hmanager]
    exact hsettled.checked.distinct.registered.replace

/-- An open wallet lists its keys for its password, unless the window has run out. -/
theorem outcome_listKeys (hdistinct : scene.manager.Distinct) {wallet : SoftWallet}
    (hmem : (name, wallet) ∈ scene.manager.wallets)
    (hopen : wallet.Refines (.bound false header key keys))
    (hkey : header.deriveKey password = .ok key)
    (hwindow : (scene.manager.timeout.check (scene.world.time scene.manager.clock)).1 = false) :
    ((listKeys name.text password).outcome scene).1 = .ok keys := by
  have hwallets : scene.checked.manager.wallets = scene.manager.wallets := by
    rw [(Scene.checked_eq hdistinct).2, if_neg (by simp [hwindow])]
  have hfind : scene.checked.manager.find? name.text = some (name, wallet) :=
    (Scene.distinct_checked hdistinct).find?_eq_some (hwallets ▸ hmem)
  obtain ⟨⟨envelope, henvelope, rfl, -⟩, hsession⟩ := hopen
  have hlocked : Backend.isLocked wallet = false := by
    show wallet.session?.isNone = false
    rw [hsession]
    rfl
  have hcheck : Backend.checkPassword wallet password = .ok () :=
    SoftWallet.checkPassword_eq_ok_iff.2 ⟨_, hsession, envelope, henvelope, hkey⟩
  have hlist : Backend.listKeys wallet = .ok keys := by
    show wallet.session.map (·.keys) = .ok keys
    rw [SoftWallet.session_eq hsession]
    rfl
  unfold listKeys
  rw [outcome_checkTimeout_bind, Act.outcome_bind, outcome_unlockedWallet, hfind]
  simp only [hlocked, Bool.false_eq_true, if_false, Act.outcome_bind, outcome_ask, hcheck, hlist]

omit [Suite] in
/-- A manager starts where its directory can be made and its window opened. -/
theorem exists_start {W : Type} [Suite] [SoftBackend W] {config : Config} {clock : Clock}
    {world world' : World}
    (hmake : (World.makeDirectories config.walletDir).outcome world = (.ok (), world'))
    (hset : ∀ duration, config.unlockTimeout = some duration →
      (UnlockTimeout.set? duration (world'.time clock)).isSome = true) :
    ∃ manager : Manager W, (start config clock).outcome world = (.ok manager, world') := by
  unfold start
  rw [Act.outcome_bind, Act.outcome_mapError, hmake]
  obtain ⟨walletDir, timeout?, cost, probe⟩ := config
  cases timeout? with
  | none => cases probe <;> exact ⟨_, rfl⟩
  | some duration =>
    obtain ⟨timeout, htimeout⟩ := Option.isSome_iff_exists.1 (hset duration rfl)
    simp only [Except.mapError, Act.outcome_mk, Act.outcome_bind, Command.outcome_setTimeout,
      htimeout]
    cases probe <;> exact ⟨_, rfl⟩

end Manager

end Custody
