import Custody.Proofs.Disk.Intact
import Custody.Proofs.Wallet.Files

set_option autoImplicit false

/-! # Operations on a wallet that fail

Keys are adopted only after they have been saved, and a file is replaced only once its successor is
complete: an operation that fails leaves the wallet as it was and nothing on the disk but an
unfinished temporary file (`SoftWallet.Undone`). Only a failed saving leaves a wallet with another
sealed copy (`SoftWallet.Saving.unfinished`). No file of a wallet has been made, changed or taken
away. -/

namespace Custody

namespace SoftWallet

variable {α β : Type} {name : WalletName} {wallet : SoftWallet} {world : World}

/-- If the operation has failed, then the wallet is what it was, and so is the disk but for a
    temporary file. -/
def Undone (start : SoftWallet × World) (done : End α) : Prop :=
  ∀ error, done.1 = .error error → done.2.1 = start.1 ∧
    Envelope.Unfinished start.1.path start.2.disk done.2.2.disk

theorem Undone.of_ok {start state : SoftWallet × World} {a : α} :
    Undone start (.ok a, state) := fun _ herror => absurd herror (by simp)

theorem Undone.of_disk_eq {start : SoftWallet × World} {done : End α}
    (hwallet : done.2.1 = start.1) (hdisk : done.2.2.disk = start.2.disk) :
    Undone start done := fun _ _ => ⟨hwallet, .inl hdisk⟩

/-- Only a failure of the operation itself is a failure after its answer has been put in words. -/
theorem Undone.map {start state : SoftWallet × World} {result : Except Error α}
    (h : Undone start (result, state)) (f : α → β) : Undone start (result.map f, state) := by
  intro error herror
  cases result with
  | error error' => exact h error' rfl
  | ok a => exact absurd herror (by simp [Except.map])

/-- What is drawn before a saving fails is of no account. -/
theorem unfinished_of_drew {envelope : Envelope} {world₁ world' : World} {fault : EnvelopeFault}
    (hdrew : world.Drew world₁)
    (hsave : (envelope.save wallet.path).outcome world₁ = (.error fault, world')) :
    Envelope.Unfinished wallet.path world.disk world'.disk := by
  have hunfinished := Envelope.unfinished_save hsave
  rwa [hdrew.disk_eq] at hunfinished

variable [Suite]

/-! ## Changing the keys -/

section Changes

variable {envelope : Envelope} {session : Session}

theorem Commit.undone {keys : KeyMap} {done : End Unit}
    (h : Commit keys wallet envelope session world done) : Undone (wallet, world) done := by
  cases h with
  | unsealed hdrew hcipher => exact .of_disk_eq rfl hdrew.disk_eq
  | unsaved hseals hdrew hsave => exact fun _ _ => ⟨rfl, unfinished_of_drew hdrew hsave⟩
  | saved => exact .of_ok

theorem Import.undone {key : PrivateKey} {done : End PublicKey}
    (h : Import key wallet world done) : Undone (wallet, world) done := by
  cases h with
  | committed henvelope hsession hnew hcommit => exact hcommit.undone.map _
  | _ => exact .of_disk_eq rfl rfl

theorem Removal.undone {key : PublicKey} {done : End Unit}
    (h : Removal key wallet world done) : Undone (wallet, world) done := by
  cases h with
  | committed henvelope hsession hknown hcommit => exact hcommit.undone
  | _ => exact .of_disk_eq rfl rfl

theorem Creation.undone {keyType : KeyType} {done : End PublicKey}
    (h : Creation keyType wallet world done) : Undone (wallet, world) done := by
  cases h with
  | noKeyPair hkey => exact .of_disk_eq rfl rfl
  | imported hkey himport => exact himport.undone

theorem Unlocking.undone {password : String} {done : End Unit}
    (h : Unlocking password wallet world done) : Undone (wallet, world) done := by
  cases h with
  | opened => exact .of_ok
  | _ => exact .of_disk_eq rfl rfl

omit [Suite] in
theorem Loading.undone {done : End Unit} (h : Loading wallet world done) :
    Undone (wallet, world) done := by
  cases h with
  | failed hload => exact .of_disk_eq rfl (Envelope.load_spec hload).1
  | loaded hload => exact .of_ok

/-- A wallet that could not be saved is sealed anew at most. -/
theorem Saving.unfinished {done : End Unit} (h : Saving wallet world done) {error : Error}
    (herror : done.1 = .error error) :
    Envelope.Unfinished wallet.path world.disk done.2.2.disk := by
  cases h with
  | unset hnew => exact .inl rfl
  | unsealed hsession hdrew => exact .inl hdrew.disk_eq
  | @resealed _ _ _ _ _ result henvelope hsession hseals hdrew hsave =>
    cases result with
    | error fault => exact unfinished_of_drew hdrew hsave
    | ok _ => exact absurd herror (by simp [Except.mapError])
  | @copied _ _ result henvelope hlocked hsave =>
    cases result with
    | error fault => exact Envelope.unfinished_save hsave
    | ok _ => exact absurd herror (by simp [Except.mapError])

/-- A command that fails to change the keys of a wallet changes nothing. -/
theorem undone_of_changes {command : Command SoftWallet} {text : String} {request : Request}
    {act : Operation Reply} (h : command.Changes text request act) (hwallet : wallet.Reachable)
    (world : World) :
    Undone (wallet, world) (act.outcome (wallet, world)) := by
  have hbound := hwallet.orderly.isBound
  cases h with
  | importKey hkey =>
    rw [Act.outcome_map]
    exact (importKey_spec _ hbound world).undone.map _
  | removeKey hkey =>
    rw [Act.outcome_map]
    exact (removeKey_spec _ hbound world).undone.map _
  | createKey hkey =>
    rw [Act.outcome_map]
    exact (createKey_spec _ hbound world).undone.map _

end Changes

/-! ## Preparing a new wallet -/

/-- Whatever comes of the operation, the disk is what it was. -/
def LeavesDisk (act : Operation α) : Prop :=
  ∀ wallet world, (act.outcome (wallet, world)).2.2.disk = world.disk

/-- If the operation fails, the files of wallets of the name are what they were. -/
def FailsIntact (name : WalletName) (act : Operation α) : Prop :=
  ∀ wallet world, Reachable wallet → ∀ error, (act.outcome (wallet, world)).1 = .error error →
    Disk.Intact name.fileBytes world.disk (act.outcome (wallet, world)).2.2.disk

theorem FailsIntact.bind {x : Operation α} {f : α → Operation β} (hx : LeavesDisk x)
    (hleads : Leads x) (hf : ∀ a, FailsIntact name (f a)) : FailsIntact name (x >>= f) := by
  intro wallet world hwallet error
  have hfirst := hx wallet world
  have hmiddle := hleads wallet world hwallet
  rw [Act.outcome_bind]
  rcases hdone : x.outcome (wallet, world) with ⟨error' | a, wallet₁, world₁⟩
  · rw [hdone] at hfirst
    exact fun _ => .of_eq hfirst
  · rw [hdone] at hfirst hmiddle
    have hrest := hf a wallet₁ world₁ hmiddle error
    rwa [hfirst] at hrest

theorem leavesDisk_setPassword (password : String) : LeavesDisk (setPassword password) := by
  intro wallet world
  have hspec := setPassword_spec password wallet world
  generalize (setPassword password).outcome (wallet, world) = done at hspec ⊢
  cases hspec with
  | refused hsealed hlocked => rfl
  | underived hallowed hdrew hkey => exact hdrew.disk_eq
  | unsealed hallowed hdrew hkey hcipher => exact hdrew.disk_eq
  | rebound hallowed hdrew hkey hseals => exact hdrew.disk_eq

theorem leavesDisk_unlock (password : String) : LeavesDisk (unlock password) := by
  intro wallet world
  rw [(unlock_spec password wallet world).world_eq]

theorem failsIntact_save : FailsIntact name save := by
  intro wallet world hwallet error herror
  have hspec := save_spec hwallet.orderly.isBound world
  exact (hspec.unfinished herror).intact name.temporaryName_ne_fileBytes

/-- The file is the last thing that a new wallet is given. -/
theorem failsIntact_prepareNew (password : String) (name : WalletName) :
    FailsIntact name (Manager.prepareNew password) := by
  unfold Manager.prepareNew
  refine .bind (leavesDisk_setPassword password) (.of_step (.setPassword password) rfl) fun _ => ?_
  refine .bind (leavesDisk_unlock password) (leads_unlock password) fun _ => ?_
  refine .bind (fun _ _ => rfl) (.of_step .lock rfl) fun _ => ?_
  exact .bind (leavesDisk_unlock password) (leads_unlock password) fun _ => failsIntact_save

end SoftWallet

end Custody
