import Custody.Proofs.Disk.Within
import Custody.Proofs.Envelope.Files
import Custody.Proofs.Manager.Soft

set_option autoImplicit false

/-! # Wallets and their files

A soft wallet stays at its path and writes no file but the one there, with a temporary one beside
it: `SoftWallet.Confined`. The files of different wallets of a directory are different files, so
what is done to one wallet is not seen by another. -/

namespace Custody

/-- A wallet's file is no temporary file. -/
theorem WalletName.temporaryName_ne_fileBytes (name : WalletName) (last : Bytes) :
    Envelope.temporaryName last ≠ name.fileBytes := by
  intro heq
  have hlast := congrArg List.getLast? heq
  rw [fileBytes_eq, Envelope.temporaryName, List.getLast?_append, List.getLast?_append,
    show (Utf8.encode ".wallet").getLast? = some 0x74 from rfl,
    show (Utf8.encode ".tmp").getLast? = some 0x70 from rfl] at hlast
  exact absurd hlast (by simp [Option.or])

theorem World.Drew.disk_eq {world world' : World} (h : world.Drew world') :
    world'.disk = world.disk := by
  obtain ⟨entropy, rfl⟩ := h
  rfl

namespace SoftWallet

/-! ## Confined to one file -/

/-- The wallet is still at its path, and every file of its directory is spared but its own and the
    temporary one. Files of a name that neither of the two can have stay the files that they are,
    wherever they lie. -/
structure Confined (start done : SoftWallet × World) : Prop where
  path_eq : done.1.path = start.1.path
  spares : ∀ (dir : Path) (name other : Bytes), Path.IsFileName name →
    start.1.path = dir.join ⟨name⟩ → Path.IsFileName other → other ≠ name →
    other ≠ Envelope.temporaryName name →
    Disk.Spares (dir.join ⟨other⟩) start.2.disk done.2.disk
  leaves : ∀ other, (∀ dir : Path, start.1.path ≠ dir.join ⟨other⟩) →
    (∀ name, Envelope.temporaryName name ≠ other) →
    Disk.Leaves other start.2.disk done.2.disk

namespace Confined

variable {start middle done : SoftWallet × World}

theorem of_disk_eq (hpath : done.1.path = start.1.path) (hdisk : done.2.disk = start.2.disk) :
    Confined start done :=
  ⟨hpath, fun _ _ _ _ _ _ _ _ => .of_eq hdisk, fun _ _ _ => .of_eq hdisk⟩

theorem trans (h : Confined start middle) (h' : Confined middle done) : Confined start done := by
  refine ⟨h'.path_eq.trans h.path_eq, ?_, ?_⟩
  · intro dir name other hname hpath hother hne htemporary
    exact (h.spares dir name other hname hpath hother hne htemporary).trans
      (h'.spares dir name other hname (h.path_eq.trans hpath) hother hne htemporary)
  · intro other hpath htemporary
    exact (h.leaves other hpath htemporary).trans
      (h'.leaves other (h.path_eq.symm ▸ hpath) htemporary)

/-- A wallet leaves the file of another one alone. -/
theorem spares_other (h : Confined start done) {dir : Path} {name other : WalletName}
    (hpath : start.1.path = dir.join ⟨other.fileBytes⟩) (hne : other ≠ name) :
    Disk.Spares (dir.join ⟨name.fileBytes⟩) start.2.disk done.2.disk :=
  h.spares dir other.fileBytes name.fileBytes other.isFileName hpath name.isFileName
    (WalletName.fileBytes_ne hne.symm) (name.temporaryName_ne_fileBytes other.fileBytes).symm

end Confined

variable {wallet : SoftWallet} {world : World}

/-- A sealed copy is saved at the wallet's path. -/
theorem confined_save {wallet' : SoftWallet} {envelope : Envelope} {world₁ world' : World}
    {result : Except EnvelopeFault Unit} (hpath : wallet'.path = wallet.path)
    (hdrew : world.Drew world₁)
    (hsave : (envelope.save wallet.path).outcome world₁ = (result, world')) :
    Confined (wallet, world) (wallet', world') := by
  refine ⟨hpath, ?_, ?_⟩
  · intro dir name other hname hdir hother hne htemporary
    dsimp only at hdir ⊢
    rw [hdir] at hsave
    have hsaved := Envelope.saved_save hname hsave
    have hspares := hsaved.others other hother hne htemporary
    rwa [hdrew.disk_eq] at hspares
  · intro other hother htemporary
    have hleaves := Envelope.leaves_save hother htemporary hsave
    rwa [hdrew.disk_eq] at hleaves

/-! ## Each operation -/

/-- The wallet has stayed at its path, and nothing has been done to the disk but that sealed copies
    have been saved there. -/
inductive Saves : SoftWallet × World → SoftWallet × World → Prop
  | quiet {start done : SoftWallet × World} (hpath : done.1.path = start.1.path)
    (hdisk : done.2.disk = start.2.disk) : Saves start done
  | save {wallet wallet' : SoftWallet} {envelope : Envelope} {world world₁ world' : World}
    {result : Except EnvelopeFault Unit} (hpath : wallet'.path = wallet.path)
    (hdrew : world.Drew world₁)
    (hsave : (envelope.save wallet.path).outcome world₁ = (result, world')) :
    Saves (wallet, world) (wallet', world')
  | trans {start middle done : SoftWallet × World} (hfirst : Saves start middle)
    (hrest : Saves middle done) : Saves start done

theorem Saves.confined {start done : SoftWallet × World} (h : Saves start done) :
    Confined start done := by
  induction h with
  | quiet hpath hdisk => exact .of_disk_eq hpath hdisk
  | save hpath hdrew hsave => exact confined_save hpath hdrew hsave
  | trans hfirst hrest ihfirst ihrest => exact ihfirst.trans ihrest

/-- At the path of a file in a directory, nothing is touched but that file and the temporary one
    beside it. -/
theorem Saves.within {start done : SoftWallet × World} (h : Saves start done) {dir : Path}
    {name : Bytes} (hname : Path.IsFileName name) (hpath : start.1.path = dir.join ⟨name⟩) :
    Disk.Within dir (Envelope.IsOwnName name) start.2.disk done.2.disk := by
  induction h with
  | quiet _ hdisk => exact .of_eq hdisk
  | save _ hdrew hsave =>
    dsimp only at hpath ⊢
    rw [hpath] at hsave
    rw [← hdrew.disk_eq]
    exact Envelope.within_save hname hsave
  | trans hfirst _ ihfirst ihrest =>
    exact (ihfirst hpath).trans (ihrest (hfirst.confined.path_eq.trans hpath))

section Saves

variable [Suite] {envelope : Envelope} {session : Session}

theorem Commit.saves {keys : KeyMap} {done : End Unit}
    (h : Commit keys wallet envelope session world done) : Saves (wallet, world) done.2 := by
  cases h with
  | unsealed hdrew hcipher => exact .quiet rfl hdrew.disk_eq
  | unsaved hseals hdrew hsave => exact .save rfl hdrew hsave
  | saved hseals hdrew hsave => exact .save rfl hdrew hsave

theorem Import.saves {key : PrivateKey} {done : End PublicKey}
    (h : Import key wallet world done) : Saves (wallet, world) done.2 := by
  cases h with
  | committed henvelope hsession hnew hcommit => exact hcommit.saves
  | _ => exact .quiet rfl rfl

theorem Removal.saves {key : PublicKey} {done : End Unit}
    (h : Removal key wallet world done) : Saves (wallet, world) done.2 := by
  cases h with
  | committed henvelope hsession hknown hcommit => exact hcommit.saves
  | _ => exact .quiet rfl rfl

theorem Creation.saves {keyType : KeyType} {done : End PublicKey}
    (h : Creation keyType wallet world done) : Saves (wallet, world) done.2 := by
  cases h with
  | noKeyPair hkey => exact .quiet rfl rfl
  | imported hkey himport =>
    refine Saves.trans ?_ himport.saves
    exact .quiet rfl rfl

theorem Rebinding.saves {password : String} {done : End Unit}
    (h : Rebinding password wallet world done) : Saves (wallet, world) done.2 := by
  cases h with
  | refused hsealed hlocked => exact .quiet rfl rfl
  | underived hallowed hdrew hkey => exact .quiet rfl hdrew.disk_eq
  | unsealed hallowed hdrew hkey hcipher => exact .quiet rfl hdrew.disk_eq
  | rebound hallowed hdrew hkey hseals => exact .quiet rfl hdrew.disk_eq

theorem Unlocking.saves {password : String} {done : End Unit}
    (h : Unlocking password wallet world done) : Saves (wallet, world) done.2 := by
  cases h <;> exact .quiet rfl rfl

omit [Suite] in
/-- Reading the wallet's file leaves the disk as it is. -/
theorem Loading.disk_eq {done : End Unit} (h : Loading wallet world done) :
    done.2.2.disk = world.disk := by
  cases h with
  | failed hload => exact (Envelope.load_spec hload).1
  | loaded hload => exact (Envelope.load_spec hload).1

theorem Saving.saves {done : End Unit} (h : Saving wallet world done) :
    Saves (wallet, world) done.2 := by
  cases h with
  | unset hnew => exact .quiet rfl rfl
  | unsealed hsession hdrew => exact .quiet rfl hdrew.disk_eq
  | resealed henvelope hsession hseals hdrew hsave => exact .save rfl hdrew hsave
  | copied henvelope hlocked hsave => exact .save rfl (World.Drew.refl _) hsave

end Saves

/-! ## Operations put together -/

variable [Suite]

/-- Whatever comes of the operation, a wallet that can come about does nothing to the disk but save
    sealed copies at its path. -/
def OnlySaves {α : Type} (act : Operation α) : Prop :=
  ∀ wallet world, Reachable wallet → Saves (wallet, world) (act.outcome (wallet, world)).2

namespace OnlySaves

variable {α β : Type}

theorem bind {x : Operation α} {f : α → Operation β} (hx : OnlySaves x) (hleads : Leads x)
    (hf : ∀ a, OnlySaves (f a)) : OnlySaves (x >>= f) := by
  intro wallet world h
  -- the first part has saved, and has left a wallet that can come about to the second
  refine Act.holds_after_bind
    (P := fun state : SoftWallet × World => Saves (wallet, world) state ∧ Reachable state.1)
    ⟨hx wallet world h, hleads wallet world h⟩ (fun _ => And.left) ?_
  rintro a ⟨wallet₁, world₁⟩ ⟨hfirst, hmiddle⟩
  exact hfirst.trans (hf a wallet₁ world₁ hmiddle)

theorem map {x : Operation α} (hx : OnlySaves x) (f : α → β) : OnlySaves (f <$> x) := by
  intro wallet world h
  rw [Act.outcome_map]
  exact hx wallet world h

end OnlySaves

theorem onlySaves_unlock (password : String) : OnlySaves (unlock password) :=
  fun wallet world _ => (unlock_spec password wallet world).saves

theorem onlySaves_prepareNew (password : String) : OnlySaves (Manager.prepareNew password) := by
  have hset : OnlySaves (setPassword password) :=
    fun wallet world _ => (setPassword_spec password wallet world).saves
  have hlock : OnlySaves (update lock) := fun _ _ _ => .quiet rfl rfl
  have hsave : OnlySaves save :=
    fun wallet world h => (save_spec h.orderly.isBound world).saves
  unfold Manager.prepareNew
  refine hset.bind (.of_step (.setPassword password) rfl) fun _ => ?_
  refine (onlySaves_unlock password).bind (leads_unlock password) fun _ => ?_
  refine hlock.bind (.of_step .lock rfl) fun _ => ?_
  exact (onlySaves_unlock password).bind (leads_unlock password) fun _ => hsave

/-- A command that changes the keys of a wallet only saves it. -/
theorem onlySaves_of_changes {command : Command SoftWallet} {name : String} {request : Request}
    {act : Operation Reply} (h : command.Changes name request act) : OnlySaves act := by
  cases h with
  | importKey hkey =>
    refine OnlySaves.map (fun wallet world hwallet => ?_) _
    exact (importKey_spec _ hwallet.orderly.isBound world).saves
  | removeKey hkey =>
    refine OnlySaves.map (fun wallet world hwallet => ?_) _
    exact (removeKey_spec _ hwallet.orderly.isBound world).saves
  | createKey hkey =>
    refine OnlySaves.map (fun wallet world hwallet => ?_) _
    exact (createKey_spec _ hwallet.orderly.isBound world).saves

end SoftWallet

/-! ## Wallets that are made and opened -/

section

variable [Suite]

omit [Suite] in
/-- Opening a wallet only reads its file. -/
theorem Manager.disk_eq_of_load {path : Path} {cost : KdfCost} {world world' : World}
    {result : Except Error SoftWallet}
    (hload : (preparing (.new path cost) SoftWallet.load).outcome world = (result, world')) :
    world'.disk = world.disk := by
  have hdisk := (SoftWallet.load_spec (.new path cost) world).disk_eq
  have hworld := congrArg Prod.snd hload
  rw [outcome_preparing] at hworld
  dsimp only at hworld
  rwa [hworld] at hdisk

/-- Preparing a wallet only saves it, however far it gets, and what comes of it can come about. -/
theorem Scene.Prepared.saves {W : Type} [SoftBackend W] {scene : Scene W} {name : WalletName}
    {password : String} {prepared : Except Error SoftWallet} {world : World}
    (hprepared : scene.Prepared name password prepared world) :
    ∃ wallet, SoftWallet.Saves (.new (scene.manager.walletPath name) scene.manager.cost,
        scene.world) (wallet, world) ∧
      ∀ wallet', prepared = .ok wallet' → wallet' = wallet ∧ wallet.Reachable := by
  obtain ⟨world₁, hdisk, -, hprepare⟩ := hprepared.prepare
  have hsaves := SoftWallet.onlySaves_prepareNew password _ world₁
    (.new (scene.manager.walletPath name) scene.manager.cost)
  have hworld := congrArg Prod.snd hprepare
  rw [Manager.outcome_preparing] at hworld
  dsimp only at hworld
  rcases hdone : (Manager.prepareNew password).outcome
      (.new (scene.manager.walletPath name) scene.manager.cost, world₁) with ⟨result, wallet, world'⟩
  rw [hdone] at hsaves hworld
  obtain rfl : world' = world := hworld
  have hstart : SoftWallet.Saves
      (.new (scene.manager.walletPath name) scene.manager.cost, scene.world)
      (.new (scene.manager.walletPath name) scene.manager.cost, world₁) := .quiet rfl hdisk
  refine ⟨wallet, hstart.trans hsaves, ?_⟩
  rintro wallet' rfl
  have hreachable := SoftWallet.Leads.preparing (SoftWallet.leads_prepareNew _) hprepare
  rw [Manager.outcome_of_preparing hprepare] at hdone
  cases hdone
  exact ⟨rfl, hreachable⟩

end

end Custody
