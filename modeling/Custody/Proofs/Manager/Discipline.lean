import Custody.Proofs.Manager.Asking
import Custody.Proofs.Manager.Expiry

set_option autoImplicit false

/-! # The discipline of requests

Every command keeps the rules of `Command.Permits`, once the wallets have been locked if the window
has run out: `Manager.call_discipline`. Some requests are never made of a registered wallet, so that
it makes no difference what wallets would do then (`Command.perform_revised`). -/

namespace Custody

variable [Suite] {W : Type} [SoftBackend W]

/-! ## Every command -/

theorem Manager.AsksOnceChecked.perform {α : Type} {command : Command W}
    {x : Manager.Operation W α} {reply : α → Reply} (h : Manager.AsksOnceChecked command x)
    (hperform : command.perform = x >>= fun a => pure (reply a)) :
    Manager.AsksOnceChecked command command.perform := by
  intro scene
  rw [hperform, Command.outcome_bind_return]
  exact h scene

/-- Every command that begins with the look at the timeout keeps the rules after that. -/
theorem Command.asksOnceChecked {command : Command W} (hchecked : command.isChecked = true) :
    Manager.AsksOnceChecked command command.perform := by
  cases command with
  | create name => exact (Manager.asks_create name).perform rfl
  | openWallet name =>
    have hopen : Manager.AsksOnceChecked (.openWallet name)
        (Manager.openWallet name : Manager.Operation W Unit) :=
      .of_asks ((Manager.asks_openFile name).mono (fun _ => id) fun _ _ => id)
    exact hopen.perform rfl
  | listWallets => exact Manager.asks_listWallets.perform rfl
  | lock name => exact (Manager.asks_lock name).perform rfl
  | unlock name password => exact (Manager.asks_unlock name password).perform rfl
  | listKeys name password => exact (Manager.asks_listKeys name password).perform rfl
  | publicKeys => exact Manager.asks_publicKeys.perform rfl
  | mySignatures chain => exact (Manager.asks_mySignatures chain).perform rfl
  | importKey name key => exact (Manager.asks_importKey name key).perform rfl
  | removeKey name password key => exact (Manager.asks_removeKey name password key).perform rfl
  | createKey name selector => exact (Manager.asks_createKey name selector).perform rfl
  | signTransaction tx keys chain => exact (Manager.asks_signTransaction tx keys chain).perform rfl
  | signDigest digest key => exact (Manager.asks_signDigest digest key).perform rfl
  | checkTimeout => exact .of_asks (.pure fun _ _ => trivial)
  | _ => exact absurd hchecked (by simp [isChecked])

omit [Suite] in
theorem Scene.trace_foldl_afterLocking (entries : List (WalletName × W)) (scene : Scene W) :
    (entries.foldl afterLocking scene).trace =
      scene.trace ++ entries.flatMap Manager.lockEvents := by
  induction entries generalizing scene with
  | nil => simp
  | cons entry rest ih =>
    rw [List.foldl_cons, ih, List.flatMap_cons, ← List.append_assoc]
    rfl

omit [Suite] in
/-- The look at the timeout asks nothing, unless the window has run out. -/
theorem Scene.trace_checked (scene : Scene W) : scene.checked.trace = scene.trace ++
    if (scene.manager.timeout.check (scene.world.time scene.manager.clock)).1 then
      scene.manager.wallets.flatMap Manager.lockEvents
    else [] := by
  unfold checked
  dsimp only
  split
  · exact Scene.trace_foldl_afterLocking _ _
  · simp

/-- What locking wallets asks is what the command to lock them all may ask. -/
theorem disciplined_lockEvents (entries : List (WalletName × W)) (before : List Event) :
    Disciplined (Command.lockAll : Command W).Permits before
      (entries.flatMap Manager.lockEvents) := by
  induction entries generalizing before with
  | nil => trivial
  | cons entry rest ih =>
    rw [List.flatMap_cons]
    refine Disciplined.append ?_ (ih _)
    have hconcerns : (Command.lockAll : Command W).Concerns entry.1 := Manager.concerns_of_none rfl
    unfold Manager.lockEvents
    by_cases hlocked : Backend.isLocked entry.2 = true
    · rw [if_pos hlocked]
      exact ⟨.isLocked hconcerns, trivial⟩
    · rw [if_neg hlocked, Bool.eq_false_iff.2 hlocked]
      exact ⟨.isLocked hconcerns, .lock hconcerns (by simp), trivial⟩

/-- Whatever a command asks, it asks by the rules, once the look at the timeout is over. -/
theorem Command.exists_asked (command : Command W) (scene : Scene W) : ∃ events,
    (command.perform.outcome scene).2.trace = (command.start scene).trace ++ events ∧
      Disciplined command.Permits [] events := by
  by_cases hchecked : command.isChecked = true
  · unfold Command.start
    rw [if_pos hchecked]
    exact asksOnceChecked hchecked scene
  · unfold Command.start
    rw [if_neg hchecked]
    by_cases hguard : command.isGuard = true
    · obtain rfl : command = .lockAll := by
        unfold isGuard at hguard
        cases command <;> simp_all [isChecked]
      rw [perform, outcome_bind_return, Manager.outcome_lockAll]
      exact ⟨_, Scene.trace_foldl_afterLocking _ _, disciplined_lockEvents _ _⟩
    · have heffect := command.effect scene
      have hstart : command.start scene = scene := if_neg hchecked
      rw [hstart] at heffect
      refine ⟨[], ?_, trivial⟩
      rw [(heffect.of_unguarded (Bool.eq_false_iff.2 hguard)).2.1, List.append_nil]

/-! ### Requests that are never made -/

section Revised

variable (setPassword : String → Act Error (W × World) Unit)
  (load save : Act Error (W × World) Unit)

/-- The same wallets, but for what they do when a password is set or a file asked for. -/
@[reducible] def SoftBackend.revised : SoftBackend W :=
  { ‹SoftBackend W› with setPassword, load, save }

namespace Manager

omit [Suite] in
theorem listEntries_revised (entries : List (WalletName × W)) :
    @listEntries W (SoftBackend.revised setPassword load save) entries = listEntries entries := by
  induction entries with
  | nil => rfl
  | cons entry rest ih =>
    unfold listEntries
    rw [ih]
    rfl

omit [Suite] in
theorem publicKeysOf_revised (entries : List (WalletName × W)) (found : Option KeySet) :
    @publicKeysOf W (SoftBackend.revised setPassword load save).toBackend entries found =
      publicKeysOf entries found := by
  induction entries generalizing found with
  | nil => rfl
  | cons entry rest ih =>
    unfold publicKeysOf
    simp only [ih]
    rfl

omit [Suite] in
theorem signaturesFor_revised (entry : WalletName × W) (digest : Digest) (keys : List PublicKey)
    (found : SignatureSet) :
    @signaturesFor W (SoftBackend.revised setPassword load save).toBackend entry digest keys found =
      signaturesFor entry digest keys found := by
  induction keys generalizing found with
  | nil => rfl
  | cons key rest ih =>
    unfold signaturesFor
    simp only [ih]
    rfl

omit [Suite] in
theorem signaturesOf_revised (digest : Digest) (entries : List (WalletName × W))
    (found : Option SignatureSet) :
    @signaturesOf W (SoftBackend.revised setPassword load save).toBackend digest entries found =
      signaturesOf digest entries found := by
  induction entries generalizing found with
  | nil => rfl
  | cons entry rest ih =>
    unfold signaturesOf
    simp only [ih, signaturesFor_revised]
    rfl

omit [Suite] in
theorem firstSignature_revised (digest : Digest) (key : PublicKey)
    (entries : List (WalletName × W)) :
    @firstSignature W (SoftBackend.revised setPassword load save).toBackend digest key entries =
      firstSignature digest key entries := by
  induction entries with
  | nil => rfl
  | cons entry rest ih =>
    unfold firstSignature
    simp only [ih]
    rfl

omit [Suite] in
theorem signatureOf_revised (digest : Digest) :
    @signatureOf W (SoftBackend.revised setPassword load save).toBackend digest =
      signatureOf digest := by
  funext key
  unfold signatureOf
  simp only [firstSignature_revised]

end Manager

/-- No command depends on what wallets do when a password is set or a file asked for. -/
theorem Command.perform_revised (command : Command W) :
    @Command.perform W _ (SoftBackend.revised setPassword load save) command = command.perform := by
  cases command with
  | listWallets =>
    simp only [Command.perform, Manager.listWallets, Manager.listEntries_revised]
    rfl
  | publicKeys =>
    simp only [Command.perform, Manager.publicKeys, Manager.publicKeysOf_revised]
    rfl
  | mySignatures chain =>
    simp only [Command.perform, Manager.mySignatures, Manager.signaturesOf_revised]
    rfl
  | signTransaction tx keys chain =>
    simp only [Command.perform, Manager.signTransaction, Manager.signatureOf_revised]
    rfl
  | signDigest digest key =>
    simp only [Command.perform, Manager.signDigest, Manager.signatureOf_revised]
    rfl
  | _ => rfl

end Revised

namespace Manager

/-- The requests by which every wallet is locked, if the call finds that the window has run out. -/
def expiryEvents (manager : Manager W) (call : Call W) : List Event :=
  if call.command.isChecked && (manager.timeout.check (call.world.time manager.clock)).1 then
    manager.wallets.flatMap lockEvents
  else []

/-- Whatever wallets a manager keeps, whatever they answer and whatever the manager was told to do
    before, every request that it makes of a wallet is made by the rules: the wallets are locked
    first if the window has run out, and then the command asks what it is permitted to, of no other
    wallet than the one that it names. It sets no password and asks for no file: it would come to
    the same if wallets answered those requests otherwise. -/
theorem call_discipline (manager : Manager W) (earlier : List (Call W)) (call : Call W) :
    (∃ work, ((manager.afterAll earlier).exchange call).trace =
        (manager.afterAll earlier).expiryEvents call ++ work ∧
      Disciplined (Command.lockAll : Command W).Permits []
        ((manager.afterAll earlier).expiryEvents call) ∧
      Disciplined call.command.Permits [] work ∧
      ∀ event ∈ work, call.command.Concerns event.wallet) ∧
    (∀ event ∈ ((manager.afterAll earlier).exchange call).trace,
      event.request.sparesFile = true) ∧
    ∀ (setPassword : String → Act Error (W × World) Unit) (load save : Act Error (W × World) Unit),
      @Command.perform W _ (SoftBackend.revised setPassword load save) call.command =
        call.command.perform := by
  generalize manager.afterAll earlier = state
  obtain ⟨work, htrace, hwork⟩ := call.command.exists_asked ⟨state, call.world, []⟩
  have hexpiry : (call.command.start ⟨state, call.world, []⟩).trace = state.expiryEvents call := by
    unfold Command.start expiryEvents
    cases call.command.isChecked with
    | true => simp [Scene.trace_checked]
    | false => rfl
  have hlocking :
      Disciplined (Command.lockAll : Command W).Permits [] (state.expiryEvents call) := by
    unfold expiryEvents
    split
    · exact disciplined_lockEvents _ _
    · trivial
  rw [hexpiry] at htrace
  refine ⟨⟨work, htrace, hlocking, hwork, hwork.forall_mem fun _ _ h => h.concerns⟩, ?_,
    fun setPassword load save => call.command.perform_revised setPassword load save⟩
  · show ∀ event ∈ (call.command.perform.outcome ⟨state, call.world, []⟩).2.trace, _
    rw [htrace]
    intro event hevent
    rcases List.mem_append.1 hevent with hmem | hmem
    · exact hlocking.forall_mem (fun _ _ h => h.sparesFile) event hmem
    · exact hwork.forall_mem (fun _ _ h => h.sparesFile) event hmem

end Manager

end Custody
