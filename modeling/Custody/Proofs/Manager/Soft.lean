import Custody.Proofs.Manager.Reachable
import Custody.Proofs.Wallet.Orderly

set_option autoImplicit false

/-! # Managers of soft wallets

A soft wallet in the registry of a manager has been through nothing but the operations of soft
wallets, whatever commands the manager was given, provided that the same holds of the wallets that
were handed over to it: `Manager.Reachable.every_reachable`. -/

namespace Custody

/-! ## Something that holds of every wallet -/

namespace Manager

variable {W : Type} {manager : Manager W} {P : WalletName → W → Prop}

/-- Every wallet of the registry is as stated. -/
def Every (P : WalletName → W → Prop) (manager : Manager W) : Prop :=
  ∀ name wallet, (name, wallet) ∈ manager.wallets → P name wallet

theorem Every.replace (h : manager.Every P) {name : WalletName} {wallet : W}
    (hwallet : P name wallet) : (manager.replace name wallet).Every P := by
  intro other x hmem
  obtain ⟨⟨name', y⟩, hentry, heq⟩ := List.mem_map.1 hmem
  split at heq
  · cases heq
    exact hwallet
  · cases heq
    exact h _ _ hentry

theorem Every.registered (h : manager.Every P) {name : WalletName} {wallet : W}
    (hwallet : P name wallet) : (manager.registered name wallet).Every P := by
  intro other x hmem
  rcases (mem_registered other x).1 hmem with ⟨rfl, rfl⟩ | ⟨-, hmem⟩
  · exact hwallet
  · exact h _ _ hmem

/-- A wallet has been added at the end. -/
theorem Every.append (h : manager.Every P) {name : WalletName} {wallet : W}
    (hwallet : P name wallet) :
    Manager.Every P { manager with wallets := manager.wallets ++ [(name, wallet)] } := by
  intro other x hmem
  rcases List.mem_append.1 hmem with hmem | hmem
  · exact h _ _ hmem
  · cases List.mem_singleton.1 hmem
    exact hwallet

variable [SoftBackend W] {scene : Scene W}

theorem Every.afterLocking (hlock : ∀ name wallet, P name wallet → P name (Backend.lock wallet))
    (h : scene.manager.Every P) {entry : WalletName × W} (hentry : P entry.1 entry.2) :
    (scene.afterLocking entry).manager.Every P := by
  rcases scene.afterLocking_manager entry with heq | heq
  · rw [heq]
    exact h
  · rw [heq]
    exact h.replace (hlock _ _ hentry)

theorem Every.lockedAll (hlock : ∀ name wallet, P name wallet → P name (Backend.lock wallet))
    (h : scene.manager.Every P) : scene.lockedAll.manager.Every P := by
  have hentries : ∀ entry ∈ scene.manager.wallets, P entry.1 entry.2 :=
    fun entry hentry => h _ _ hentry
  unfold Scene.lockedAll
  generalize scene.manager.wallets = entries at hentries
  induction entries generalizing scene with
  | nil => exact h
  | cons entry rest ih =>
    rw [List.forall_mem_cons] at hentries
    exact ih (h.afterLocking hlock hentries.1) hentries.2

theorem Every.checked (hlock : ∀ name wallet, P name wallet → P name (Backend.lock wallet))
    (h : scene.manager.Every P) : scene.checked.manager.Every P := by
  unfold Scene.checked
  dsimp only
  split
  · exact Every.lockedAll hlock h
  · exact h

theorem Every.start (hlock : ∀ name wallet, P name wallet → P name (Backend.lock wallet))
    (h : scene.manager.Every P) (command : Command W) :
    (command.start scene).manager.Every P := by
  unfold Command.start
  split
  · exact Every.checked hlock h
  · exact h

end Manager

/-! ## Soft wallets stay soft wallets -/

variable [Suite]

namespace SoftWallet

variable {α β : Type} {wallet : SoftWallet}

/-- The operation makes of a wallet that can come about another one. -/
def Leads (act : Operation α) : Prop :=
  ∀ wallet world, Reachable wallet → Reachable (act.outcome (wallet, world)).2.1

theorem Leads.bind {x : Operation α} {f : α → Operation β} (hx : Leads x)
    (hf : ∀ a, Leads (f a)) : Leads (x >>= f) := by
  intro wallet world h
  exact Act.holds_after_bind (P := fun state : SoftWallet × World => Reachable state.1)
    (hx wallet world h) (fun _ => id) fun a state hstate => hf a state.1 state.2 hstate

theorem Leads.of_outcome {act : Operation α} (h : Leads act) (hwallet : wallet.Reachable)
    {world world' : World} {result : Except Error α} {wallet' : SoftWallet}
    (hact : act.outcome (wallet, world) = (result, wallet', world')) : wallet'.Reachable := by
  have hreachable := h wallet world hwallet
  rw [hact] at hreachable
  exact hreachable

theorem Leads.map {x : Operation α} (hx : Leads x) (f : α → β) : Leads (f <$> x) := by
  intro wallet world h
  rw [Act.outcome_map]
  exact hx wallet world h

/-- What a step carries out leads on. -/
theorem Leads.of_step (step : Step) {act : Operation α} {f : α → Option PublicKey}
    (h : step.perform = f <$> act) : Leads act := by
  intro wallet world hwallet
  have hstep := hwallet.step step world
  rw [h, Act.outcome_map] at hstep
  exact hstep

theorem leads_unlock (password : String) : Leads (unlock password) :=
  .of_step (.unlock password) rfl

theorem leads_prepareNew (password : String) : Leads (Manager.prepareNew password) := by
  unfold Manager.prepareNew
  refine Leads.bind (.of_step (.setPassword password) rfl) fun _ => ?_
  refine Leads.bind (leads_unlock password) fun _ => ?_
  refine Leads.bind (.of_step .lock rfl) fun _ => ?_
  refine Leads.bind (leads_unlock password) fun _ => ?_
  exact .of_step .save rfl

theorem Reachable.lock (h : wallet.Reachable) : wallet.lock.Reachable :=
  h.step .lock .blank

/-- What was prepared from a new wallet can come about. -/
theorem Leads.preparing {act : Operation Unit} (h : Leads act) {path : Path} {cost : KdfCost}
    {world world' : World}
    (hprepare : (Manager.preparing (.new path cost) act).outcome world = (.ok wallet, world')) :
    wallet.Reachable :=
  h.of_outcome (.new path cost) (Manager.outcome_of_preparing hprepare)

/-- A command that changes the keys of a wallet leads on. -/
theorem leads_of_changes {command : Command SoftWallet} {name : String} {request : Request}
    {act : Operation Reply} (h : command.Changes name request act) : Leads act := by
  cases h with
  | importKey hkey =>
    refine (Leads.of_step (.importKey _ ?_) rfl).map _
    exact PrivateKey.wellFormed_of_ofText hkey
  | removeKey hkey => exact (Leads.of_step (.removeKey _) rfl).map _
  | createKey hkey => exact (Leads.of_step (.createKey _) rfl).map _

end SoftWallet

namespace Command

variable {command : Command SoftWallet} {scene scene' : Scene SoftWallet}
  {result : Except Error Reply}

/-- What is handed over has been through nothing but the operations of soft wallets. -/
def HandsOver : Command SoftWallet → Prop
  | .own _ wallet => wallet.Reachable
  | .registerPlatform (.ok wallet) => wallet.Reachable
  | _ => True

theorem every_reachable_opened {name : WalletName} {wallet : SoftWallet}
    (hopened : scene.Opened name wallet scene')
    (h : scene.manager.Every fun _ wallet => wallet.Reachable) :
    scene'.manager.Every fun _ wallet => wallet.Reachable := by
  rw [hopened.manager_eq]
  exact h.registered (SoftWallet.Leads.preparing (.of_step .load rfl) hopened.load)

/-- Every command keeps the registry to soft wallets that can come about. -/
theorem Effect.every_reachable (heffect : Effect command scene result scene')
    (hhands : command.HandsOver) (h : scene.manager.Every fun _ wallet => wallet.Reachable) :
    scene'.manager.Every fun _ wallet => wallet.Reachable := by
  have hlock : ∀ (_ : WalletName) (wallet : SoftWallet),
      wallet.Reachable → (Backend.lock wallet).Reachable := fun _ _ hwallet => hwallet.lock
  cases heffect with
  | looked hsaw => rw [hsaw.manager_eq]; exact h
  | locked hopen =>
    exact h.afterLocking hlock (h _ _ (Manager.mem_of_find?_eq_some hopen.1).1)
  | lockedAll => exact Manager.Every.lockedAll hlock h
  | changed hchanges hopen hsaw hworld hact =>
    show (Manager.replace _ _ _).Every _
    rw [hsaw.manager_eq]
    have hentry := h _ _ (Manager.mem_of_find?_eq_some hopen.1).1
    exact h.replace ((SoftWallet.leads_of_changes hchanges).of_outcome hentry hact)
  | opened hopened => exact every_reachable_opened hopened h
  | @unlocked _ scene₁ scene₂ _ password entry _ wallet world hopened hsaw hfind hlocked hact =>
    show (Manager.replace _ _ _).Every _
    rw [hsaw.manager_eq]
    have h₁ : scene₁.manager.Every fun _ wallet => wallet.Reachable := by
      rcases hopened with rfl | ⟨name', wallet', -, hopened⟩
      · exact h
      · exact every_reachable_opened hopened h
    have hentry := h₁ _ _ (Manager.mem_of_find?_eq_some hfind).1
    exact h₁.replace (((SoftWallet.leads_unlock password).map _).of_outcome hentry hact)
  | unlockRefused hopened hsaw =>
    rw [hsaw.manager_eq]
    exact every_reachable_opened hopened h
  | created hprepared =>
    obtain ⟨world₁, -, -, hprepare⟩ := hprepared.prepare
    exact h.registered (SoftWallet.Leads.preparing (SoftWallet.leads_prepareNew _) hprepare)
  | owned howns hnew =>
    refine h.append ?_
    rcases howns with rfl | ⟨-, rfl⟩ <;> exact hhands
  | _ => exact h

end Command

theorem Manager.Reachable.every_reachable {manager : Manager SoftWallet}
    (h : Manager.Reachable Command.HandsOver manager) :
    manager.Every fun _ wallet => wallet.Reachable := by
  induction h with
  | start hstart =>
    rw [(start_spec hstart).2.1]
    intro _ _ hmem
    exact absurd hmem List.not_mem_nil
  | command hreachable command hadmits world ih =>
    refine (command.effect ⟨_, world, []⟩).every_reachable hadmits (Every.start ?_ ih command)
    exact fun _ _ hwallet => hwallet.lock

end Custody
