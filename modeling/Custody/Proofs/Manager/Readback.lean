import Custody.Proofs.Manager.Gate
import Custody.Proofs.Manager.Reopening
import Custody.Proofs.Wallet.Capacity

set_option autoImplicit false

/-! # What is written can be read, up to a size

An operation on a wallet that succeeds leaves its sealed copy in the wallet's file
(`SoftWallet.Orderly.written`), whatever the size of that, but a file of more than four MiB is not
read. A manager that does not know of the wallet takes it from such a file exactly if the file is
not too large, and then answers to passwords as the wallet itself does: `Manager.read_back`. The
file of a wallet with up to 1915 keys is never too large (`Envelope.Seals.fits_of_length_le`). -/

namespace Custody

section

variable [Suite]

/-! ## Operations that write -/

namespace SoftWallet

/-- The operations that write the wallet's file before they succeed. -/
def Step.writes : Step → Bool
  | .importKey _ _ | .removeKey _ | .createKey _ | .save => true
  | _ => false

/-- The sealed copy of the wallet has just been saved at the path. -/
def Written (path : Path) (wallet : SoftWallet) (world : World) : Prop :=
  ∃ envelope before, wallet.envelope? = some envelope ∧
    (envelope.save path).outcome before = (.ok (), world)

section Written

variable {wallet : SoftWallet} {world : World}

theorem Commit.written {keys : KeyMap} {envelope : Envelope} {session : Session} {done : End Unit}
    (h : Commit keys wallet envelope session world done) (hok : done.1 = .ok ()) :
    Written wallet.path done.2.1 done.2.2 := by
  cases h with
  | @saved envelope' world₁ _ hseals hdrew hsave => exact ⟨envelope', world₁, rfl, hsave⟩
  | _ => cases hok

theorem Import.written {key : PrivateKey} {done : End PublicKey} {pub : PublicKey}
    (h : Import key wallet world done) (hok : done.1 = .ok pub) :
    Written wallet.path done.2.1 done.2.2 := by
  cases h with
  | committed henvelope hsession hnew hcommit =>
    obtain ⟨_, hcommitted, -⟩ := Act.exists_of_map_eq_ok hok
    exact hcommit.written hcommitted
  | _ => cases hok

theorem Removal.written {key : PublicKey} {done : End Unit} (h : Removal key wallet world done)
    (hok : done.1 = .ok ()) : Written wallet.path done.2.1 done.2.2 := by
  cases h with
  | committed henvelope hsession hknown hcommit => exact hcommit.written hok
  | _ => cases hok

theorem Creation.written {keyType : KeyType} {done : End PublicKey} {pub : PublicKey}
    (h : Creation keyType wallet world done) (hok : done.1 = .ok pub) :
    Written wallet.path done.2.1 done.2.2 := by
  cases h with
  | noKeyPair hkey => cases hok
  | imported hkey himport => exact himport.written hok

theorem Saving.written {done : End Unit} (h : Saving wallet world done) (hok : done.1 = .ok ()) :
    Written wallet.path done.2.1 done.2.2 := by
  cases h with
  | @resealed _ envelope' _ world₁ _ _ henvelope hsession hseals hdrew hsave =>
    cases Act.eq_ok_of_mapError hok
    exact ⟨envelope', world₁, rfl, hsave⟩
  | @copied envelope _ _ henvelope hlocked hsave =>
    cases Act.eq_ok_of_mapError hok
    exact ⟨envelope, world, henvelope, hsave⟩
  | _ => cases hok

/-- An operation that is to write the wallet's file has done so if it succeeds. -/
theorem Orderly.written (h : wallet.Orderly) {step : Step} (hwrites : step.writes = true)
    {reply : Option PublicKey} (hok : (step.perform.outcome (wallet, world)).1 = .ok reply) :
    Written wallet.path (step.perform.outcome (wallet, world)).2.1
      (step.perform.outcome (wallet, world)).2.2 := by
  cases step with
  | importKey key made =>
    rw [Step.perform, Act.outcome_map] at hok ⊢
    obtain ⟨pub, himported, -⟩ := Act.exists_of_map_eq_ok hok
    exact (importKey_spec key h.isBound world).written himported
  | removeKey key =>
    rw [Step.perform, Act.outcome_map] at hok ⊢
    obtain ⟨_, hremoved, -⟩ := Act.exists_of_map_eq_ok hok
    exact (removeKey_spec key h.isBound world).written hremoved
  | createKey keyType =>
    rw [Step.perform, Act.outcome_map] at hok ⊢
    obtain ⟨pub, hcreated, -⟩ := Act.exists_of_map_eq_ok hok
    exact (createKey_spec keyType h.isBound world).written hcreated
  | save =>
    rw [Step.perform, Act.outcome_map] at hok ⊢
    obtain ⟨_, hsaved, -⟩ := Act.exists_of_map_eq_ok hok
    exact (save_spec h.isBound world).written hsaved
  | _ => exact absurd hwrites (by simp [Step.writes])

end Written

/-- Passwords are tried out on the sealed copy and nothing else of the wallet. -/
theorem unlock_congr {wallet wallet' : SoftWallet} {envelope : Envelope}
    (h : wallet.envelope? = some envelope) (h' : wallet'.envelope? = some envelope)
    (password : String) (world world' : World) :
    ((unlock password).outcome (wallet, world)).1 =
      ((unlock password).outcome (wallet', world')).1 := by
  unfold unlock
  simp only [Act.outcome_bind, outcome_current, Act.outcome_liftM, envelope_eq h, envelope_eq h']
  cases hkey : deriveKey envelope.kdf password with
  | error fault => rfl
  | ok key =>
    dsimp only
    cases envelope.openKeys key <;> rfl

end SoftWallet

/-! ## Managers that do not know of the wallet -/

namespace Manager

variable {manager : Manager SoftWallet} {name : WalletName} {world : World}

theorem walletPath_checked : (⟨manager, world, []⟩ : Scene SoftWallet).checked.manager.walletPath
    name = manager.walletPath name :=
  @walletPath_start SoftWallet _ manager world (.openWallet name.text) name

/-- Opening a wallet answers as its file can be loaded, without telling what is wrong. -/
theorem answer_openWallet (hdistinct : manager.Distinct) :
    manager.answer world (openWallet name.text) =
      match ((Envelope.load (manager.walletPath name)).outcome world).1 with
      | .ok _ => .ok ()
      | .error _ => .error (.walletNonexistent name.text) := by
  have hscene : (⟨manager, world, []⟩ : Scene SoftWallet).manager.Distinct := hdistinct
  unfold answer openWallet
  rw [outcome_checkTimeout_bind, outcome_openFile, (Scene.checked_eq hscene).1, walletPath_checked]
  cases (Envelope.load (manager.walletPath name)).outcome world with
  | mk result world' => cases result <;> rfl

/-- Unlocking a wallet that is not registered answers as the sealed copy in its file does. -/
theorem answer_unlock_of_new (hdistinct : manager.Distinct)
    (hnew : manager.isRegistered name.text = false) (password : String) :
    manager.answer world (unlock name.text password) =
      match ((Envelope.load (manager.walletPath name)).outcome world).1 with
      | .ok envelope => ((SoftWallet.unlock password).outcome
          (⟨manager.walletPath name, manager.cost, some envelope, none⟩, world)).1
      | .error _ => .error (.walletNonexistent name.text) := by
  have hscene : (⟨manager, world, []⟩ : Scene SoftWallet).manager.Distinct := hdistinct
  have hnew' : (⟨manager, world, []⟩ : Scene SoftWallet).checked.manager.isRegistered name.text =
      false := by
    rw [← hnew]
    exact @isRegistered_start SoftWallet _ manager world (.unlock name.text password) hdistinct
      name.text
  have hopen := outcome_openFile name (⟨manager, world, []⟩ : Scene SoftWallet).checked
  rw [(Scene.checked_eq hscene).1, walletPath_checked] at hopen
  rcases hload : (Envelope.load (manager.walletPath name)).outcome world with
    ⟨fault | envelope, world'⟩
  · rw [hload] at hopen
    unfold answer unlock
    rw [outcome_checkTimeout_bind, Act.outcome_bind, Act.outcome_get]
    simp only [hnew', Bool.not_false, if_true]
    rw [Act.outcome_bind, hopen]
  · rw [hload] at hopen
    exact ((outcome_unlock_of_new (Scene.distinct_checked hscene) hnew' rfl hopen password).1).trans
      (SoftWallet.unlock_congr rfl rfl password world' world)

/-- What is written can be read again exactly if the file is not too large, which nothing that
    writes makes sure of. A sealed copy of the version that can be read, saved at any path, is
    loaded as it was saved, or refused for its size; and once an operation that writes the file of a
    wallet has succeeded, every manager opens the wallet of that file, and one that does not know of
    it unlocks it as the wallet itself is unlocked, or both are refused for the size of the file. -/
theorem read_back :
    (∀ (envelope : Envelope) (path : Path) (world world' later : World),
      envelope.version = Envelope.currentVersion →
      (envelope.save path).outcome world = (.ok (), world') → world'.Undisturbed path later →
      ((Envelope.load path).outcome later).1 =
        if envelope.Fits then .ok envelope else .error (.tooLarge envelope.fileSize)) ∧
    ∀ (wallet wallet' : SoftWallet) (step : SoftWallet.Step) (world world' : World)
      (reply : Option PublicKey), wallet.Reachable → step.writes = true →
      step.perform.outcome (wallet, world) = (.ok reply, wallet', world') →
      ∃ envelope, wallet'.envelope? = some envelope ∧
        ∀ (manager : Manager SoftWallet) (name : WalletName) (later : World),
          manager.Reachable Command.HandsOver → manager.walletPath name = wallet.path →
          world'.Undisturbed wallet.path later →
          manager.answer later (openWallet name.text) =
            (if envelope.Fits then .ok () else .error (.walletNonexistent name.text)) ∧
          (manager.isRegistered name.text = false → ∀ password,
            manager.answer later (unlock name.text password) =
              if envelope.Fits then ((SoftWallet.unlock password).outcome (wallet', later)).1
              else .error (.walletNonexistent name.text)) := by
  refine ⟨fun _ _ _ _ _ hversion hsave hlater => Envelope.load_of_save hversion hsave hlater, ?_⟩
  intro wallet wallet' step world world' reply hreachable hwrites hdone
  have hwritten := hreachable.orderly.written hwrites (congrArg Prod.fst hdone)
  have hcurrent := (SoftWallet.Reachable.step hreachable step world).isCurrent
  rw [hdone] at hwritten hcurrent
  obtain ⟨envelope, before, henvelope, hsave⟩ := hwritten
  refine ⟨envelope, henvelope, fun manager name later hmanager hpath hlater => ?_⟩
  have hload := Envelope.load_of_save (hcurrent envelope henvelope) hsave hlater
  rw [← hpath] at hload
  refine ⟨?_, fun hnew password => ?_⟩
  · rw [answer_openWallet hmanager.distinct, hload]
    by_cases hfits : envelope.Fits
    · rw [if_pos hfits, if_pos hfits]
    · rw [if_neg hfits, if_neg hfits]
  · rw [answer_unlock_of_new hmanager.distinct hnew, hload]
    by_cases hfits : envelope.Fits
    · rw [if_pos hfits, if_pos hfits]
      exact SoftWallet.unlock_congr rfl henvelope password later later
    · rw [if_neg hfits, if_neg hfits]

end Manager

end

/-! ## How many keys fit -/

section

variable [Suite] {envelope : Envelope} {keys : KeyMap} {key : Block 32} {kdf : KdfHeader}

/-- The sealed copy of up to 1915 keys, of whatever types, can be read again. -/
theorem Envelope.Seals.fits_of_length_le {limit : Nat} [Suite.SizedCipher limit]
    (h : envelope.Seals keys key kdf) (hfiled : keys.Filed)
    (hcount : keys.values.length ≤ 1915) : envelope.Fits := by
  have hsum : ∀ secrets : List PrivateKey, (∀ secret ∈ secrets, secret.WellFormed) →
      (secrets.map fun secret => 12 + secret.secretBytes.length).sum ≤ 2190 * secrets.length := by
    intro secrets hmade
    induction secrets with
    | nil => simp
    | cons secret rest ih =>
      rw [List.forall_mem_cons] at hmade
      have hsecret := hmade.1.length_secretBytes_le
      have hrest := ih hmade.2
      rw [List.map_cons, List.sum_cons, List.length_cons]
      omega
  have hkeys := hsum keys.values fun _ hsecret => hfiled.wellFormed_of_mem_values hsecret
  unfold Fits maxFileSize
  rw [h.fileSize_eq]
  omega

end

/-! ## A file that fits, and one that does not -/

namespace Manager

local instance readbackPlain : Suite := Suite.plain

/-- A wallet with a password and without keys, beside the manager that was just started. -/
def keyless : SoftWallet :=
  ((SoftWallet.Step.setPassword "pw").perform.outcome
    (.new (.ofString "d/w.wallet") .light, freshWorld)).2.1

/-- What is left when it has been saved. -/
def savedKeyless : SoftWallet × World :=
  (SoftWallet.Step.save.perform.outcome (keyless, freshWorld)).2

/-- The file of the wallet fits, so it is opened, and unlocked with its password. -/
theorem read_back_of_keyless :
    freshManager.answer savedKeyless.2 (openWallet "w") = .ok () ∧
      freshManager.answer savedKeyless.2 (unlock "w" "pw") = .ok () := by
  have hreachable : keyless.Reachable := .step (.new _ _) (.setPassword "pw") freshWorld
  have hsaved : SoftWallet.Step.save.perform.outcome (keyless, freshWorld) =
      (.ok none, savedKeyless.1, savedKeyless.2) := by
    refine Prod.ext ?_ rfl
    decide +kernel
  obtain ⟨envelope, henvelope, hread⟩ := read_back.2 keyless savedKeyless.1 .save freshWorld
    savedKeyless.2 none hreachable rfl hsaved
  have hfits : envelope.Fits := by
    have hall : (savedKeyless.1.envelope?.all fun envelope => decide envelope.Fits) = true := by
      decide +kernel
    rw [henvelope] at hall
    exact of_decide_eq_true hall
  obtain ⟨hopen, hunlock⟩ := hread freshManager ⟨"w", by decide⟩ savedKeyless.2
    reachable_freshManager (by decide +kernel) ⟨rfl, rfl⟩
  have hanswer := hunlock rfl "pw"
  rw [if_pos hfits] at hopen hanswer
  exact ⟨hopen, hanswer.trans (by decide +kernel)⟩

/-- A sealed copy with a ciphertext of so many zeros. -/
def zeros (length : Nat) : Envelope :=
  ⟨Envelope.currentVersion, ⟨.light, default⟩, default, List.replicate length 0⟩

theorem fileSize_zeros (length : Nat) : (zeros length).fileSize = 80 + length := by
  simp [zeros, Envelope.fileSize]

theorem exists_save_blank (envelope : Envelope) : ∃ world, world.faults = .none ∧
    (envelope.save (.ofString "w.wallet")).outcome .blank = (.ok (), world) :=
  ⟨_, rfl, rfl⟩

theorem exists_refused_zeros {length : Nat} (hlarge : Envelope.maxFileSize < 80 + length) :
    (zeros length).version = Envelope.currentVersion ∧ ∃ world,
      ((zeros length).save (.ofString "w.wallet")).outcome .blank = (.ok (), world) ∧
        ((Envelope.load (.ofString "w.wallet")).outcome world).1 =
          .error (.tooLarge (80 + length)) := by
  obtain ⟨world, hcalm, hsave⟩ := exists_save_blank (zeros length)
  have hfits : ¬ (zeros length).Fits := by
    unfold Envelope.Fits
    rw [fileSize_zeros]
    exact Nat.not_le_of_lt hlarge
  have hload := Envelope.load_of_save rfl hsave ⟨rfl, hcalm⟩
  rw [if_neg hfits, fileSize_zeros] at hload
  exact ⟨rfl, world, hsave, hload⟩

/-- A sealed copy with four MiB of ciphertext is saved, and refused when it is to be loaded. -/
theorem saved_zeros_refused :
    (zeros Envelope.maxFileSize).version = Envelope.currentVersion ∧ ∃ world,
      ((zeros Envelope.maxFileSize).save (.ofString "w.wallet")).outcome .blank =
        (.ok (), world) ∧
      ((Envelope.load (.ofString "w.wallet")).outcome world).1 =
        .error (.tooLarge (80 + Envelope.maxFileSize)) :=
  exists_refused_zeros (Nat.lt_add_of_pos_left (by decide))

end Manager

end Custody
