import Custody.Manager.Command
import Custody.Proofs.Manager.Looking
import Custody.Proofs.Wallet.Steps

set_option autoImplicit false

/-! # What a command can do

`Command.Effect` says everything that a command can do to a scene, and what it answers then: it only
looks, or it makes one change, or it fails on the way with the world disturbed. Most commands look
at the timeout first, and the effect is on the scene that this leaves (`Command.start`);
`Command.effect` is the one place where the operations themselves are opened. -/

namespace Custody

variable [Suite] {W : Type} [SoftBackend W]

/-! ## Making and opening wallets -/

/-- The wallet of a file has been registered, locked, in place of any other of its name. -/
structure Scene.Opened (scene : Scene W) (name : WalletName) (wallet : SoftWallet)
    (scene' : Scene W) : Prop where
  load : (Manager.preparing (.new (scene.manager.walletPath name) scene.manager.cost)
    SoftWallet.load).outcome scene.world = (.ok wallet, scene'.world)
  manager_eq : scene'.manager = scene.manager.registered name (SoftBackend.ofSoft wallet)
  trace_eq : scene'.trace = scene.trace

/-- As nothing was found at the wallet's path, a new wallet has been prepared. -/
structure Scene.Prepared (scene : Scene W) (name : WalletName) (password : String)
    (result : Except Error SoftWallet) (world : World) : Prop where
  absent : ((World.observe .inspect (·.inspect (scene.manager.walletPath name))).outcome
    scene.world).1.isOk = false
  password_eq : password = (Manager.drawPassword.run scene.world.entropy).1
  prepare : ∃ world₁ : World, world₁.disk = scene.world.disk ∧ world₁.faults = scene.world.faults ∧
    (Manager.preparing (.new (scene.manager.walletPath name) scene.manager.cost)
      (Manager.prepareNew password)).outcome world₁ = (result, world)

omit [Suite] [SoftBackend W] in
theorem Manager.outcome_preparing (wallet : SoftWallet) (act : SoftWallet.Operation Unit)
    (world : World) : (Manager.preparing wallet act).outcome world =
      ((act.outcome (wallet, world)).1.map fun _ => (act.outcome (wallet, world)).2.1,
        (act.outcome (wallet, world)).2.2) := rfl

omit [Suite] [SoftBackend W] in
/-- A wallet that has been prepared is what the operations have made of the new one. -/
theorem Manager.outcome_of_preparing {wallet wallet' : SoftWallet}
    {act : SoftWallet.Operation Unit} {world world' : World}
    (h : (Manager.preparing wallet act).outcome world = (.ok wallet', world')) :
    act.outcome (wallet, world) = (.ok (), wallet', world') := by
  rw [Manager.outcome_preparing] at h
  rcases hdone : act.outcome (wallet, world) with ⟨error | _, wallet₁, world₁⟩
  · rw [hdone] at h
    exact absurd (congrArg Prod.fst h) (by simp [Except.map])
  · rw [hdone] at h
    cases h
    rfl

omit [Suite] in
/-- An opened wallet is locked and has the sealed copy of its file. -/
theorem Scene.Opened.loaded {scene scene' : Scene W} {name : WalletName} {wallet : SoftWallet}
    (h : scene.Opened name wallet scene') : ∃ envelope,
      (Envelope.load (scene.manager.walletPath name)).outcome scene.world =
        (.ok envelope, scene'.world) ∧
      wallet = ⟨scene.manager.walletPath name, scene.manager.cost, some envelope, none⟩ := by
  have hspec := SoftWallet.load_spec
    (.new (scene.manager.walletPath name) scene.manager.cost) scene.world
  rw [Manager.outcome_of_preparing h.load] at hspec
  cases hspec with
  | @loaded envelope world' hfile => exact ⟨envelope, hfile, rfl⟩

namespace Command

/-! ## Effects -/

/-- Commands that leave the wallets as they are whenever they succeed, or need not change them. -/
def onlyLooks : Command W → Bool
  | .listWallets | .lock _ | .listKeys .. | .publicKeys | .mySignatures _ | .signTransaction ..
  | .signDigest .. | .checkTimeout | .registerPlatform _ | .initializeLock => true
  | _ => false

/-- The commands that change the keys of an unlocked wallet, with the request that they make. -/
inductive Changes : Command W → String → Request → Act Error (W × World) Reply → Prop
  | importKey {name text : String} {key : PrivateKey} (hkey : PrivateKey.ofText text = .ok key) :
    Changes (.importKey name text) name (.importKey key) (.publicKey <$> Backend.importKey key)
  | removeKey {name password text : String} {key : PublicKey}
    (hkey : PublicKey.ofText text = .ok key) :
    Changes (.removeKey name password text) name (.removeKey key)
      ((fun _ => .done) <$> Backend.removeKey key)
  | createKey {name selector : String} {keyType : KeyType}
    (hkey : Manager.selectKeyType selector = .ok keyType) :
    Changes (.createKey name selector) name (.createKey keyType)
      (.publicKey <$> Backend.createKey keyType)

/-- What a command does to the scene that it starts from, and what it answers. -/
inductive Effect : Command W → Scene W → Except Error Reply → Scene W → Prop
  | looked {command : Command W} {scene scene' : Scene W} {result : Except Error Reply}
    (hsaw : scene.Saw scene') (hchecked : command.isChecked = true)
    (hquiet : ∀ reply, result = .ok reply → command.onlyLooks = true) :
    Effect command scene result scene'
  | idle {command : Command W} {scene : Scene W} {result : Except Error Reply}
    (hquiet : ∀ reply, result = .ok reply → command.onlyLooks = true) :
    Effect command scene result scene
  | locked {scene : Scene W} {name : String} {entry : WalletName × W}
    (hopen : scene.manager.IsOpen name entry) :
    Effect (.lock name) scene (.ok .done) (scene.afterLocking entry)
  | lockedAll {scene : Scene W} : Effect .lockAll scene (.ok .done) scene.lockedAll
  | timeoutSet {scene : Scene W} {duration : Duration} {timeout : UnlockTimeout}
    (hset : UnlockTimeout.set? duration (scene.world.time scene.manager.clock) = some timeout) :
    Effect (.setTimeout duration) scene (.ok .done)
      { scene with manager := { scene.manager with timeout } }
  | timeoutDisabled {scene : Scene W} :
    Effect .disableTimeout scene (.ok .done)
      { scene with
        manager := { scene.manager with timeout := scene.manager.timeout.disable } }
  | changed {command : Command W} {scene scene₁ : Scene W} {name : String} {request : Request}
    {act : Act Error (W × World) Reply} {entry : WalletName × W} {result : Except Error Reply}
    {wallet : W} {world : World} (hchanges : command.Changes name request act)
    (hopen : scene.manager.IsOpen name entry) (hsaw : scene.Saw scene₁)
    (hworld : scene₁.world = scene.world)
    (hact : act.outcome (entry.2, scene.world) = (result, wallet, world))
    (hpassword : ∀ password text, command = .removeKey name password text →
      Backend.checkPassword entry.2 password = .ok ()) :
    Effect command scene result
      (Scene.noted { scene₁ with manager := scene₁.manager.replace entry.1 wallet, world }
        entry.1 request result.isOk)
  | opened {scene scene' : Scene W} {name : WalletName} {wallet : SoftWallet}
    (hopened : scene.Opened name wallet scene') :
    Effect (.openWallet name.text) scene (.ok .done) scene'
  | openFailed {command : Command W} {scene : Scene W} {name : WalletName} {error error' : Error}
    {world : World} (hcommand : command = .openWallet name.text ∨
      ∃ password, command = .unlock name.text password)
    (hload : (Manager.preparing (.new (scene.manager.walletPath name) scene.manager.cost)
      SoftWallet.load).outcome scene.world = (.error error, world)) :
    Effect command scene (.error error') { scene with world }
  | unlocked {scene scene₁ scene₂ : Scene W} {name password : String} {entry : WalletName × W}
    {result : Except Error Reply} {wallet : W} {world : World}
    (hopened : scene₁ = scene ∨ ∃ name' wallet', name'.text = name ∧
      scene.Opened name' wallet' scene₁)
    (hsaw : scene₁.Saw scene₂) (hfind : scene₁.manager.find? name = some entry)
    (hlocked : Backend.isLocked entry.2 = true)
    (hact : ((fun _ => .done) <$> Backend.unlock password : Act Error (W × World) Reply).outcome
      (entry.2, scene₂.world) = (result, wallet, world))
    (hregistered : scene.manager.isRegistered name = true → scene₁ = scene) :
    Effect (.unlock name password) scene result
      (Scene.noted { scene₂ with manager := scene₂.manager.replace entry.1 wallet, world }
        entry.1 (.unlock password) result.isOk)
  | unlockRefused {scene scene₁ scene₂ : Scene W} {name : WalletName} {wallet : SoftWallet}
    {password : String} {error : Error} (hopened : scene.Opened name wallet scene₁)
    (hsaw : scene₁.Saw scene₂) (hnew : scene.manager.isRegistered name.text = false) :
    Effect (.unlock name.text password) scene (.error error) scene₂
  | created {scene : Scene W} {name : WalletName} {password : String} {wallet : SoftWallet}
    {world : World} (hprepared : scene.Prepared name password (.ok wallet) world) :
    Effect (.create name.text) scene (.ok (.password password))
      { scene with
        manager := scene.manager.registered name (SoftBackend.ofSoft wallet)
        world }
  | createFailed {scene : Scene W} {name : WalletName} {password : String} {error : Error}
    {world : World} (hprepared : scene.Prepared name password (.error error) world) :
    Effect (.create name.text) scene (.error error) { scene with world }
  | createRefused {scene : Scene W} {name : String} {error : Error} {world : World}
    (hdisk : world.disk = scene.world.disk) (hfaults : world.faults = scene.world.faults) :
    Effect (.create name) scene (.error error) { scene with world }
  | owned {command : Command W} {scene : Scene W} {name : WalletName} {wallet : W} {reply : Reply}
    (howns : command = .own name.text wallet ∨
      name.text = Manager.platformName ∧ command = .registerPlatform (.ok wallet))
    (hnew : scene.manager.isRegistered name.text = false) :
    Effect command scene (.ok reply)
      { scene with
        manager := { scene.manager with wallets := scene.manager.wallets ++ [(name, wallet)] } }
  | moved {scene : Scene W} {dir : Path} {world : World} :
    Effect (.setDir dir) scene (.ok .done)
      { scene with manager := { scene.manager with dir }, world }
  | directoryLocked {scene : Scene W} {lock : DirectoryLock} {world : World} :
    Effect .initializeLock scene (.ok .done)
      { scene with manager := { scene.manager with dirLock := some lock }, world }
  | directoryFailed {command : Command W} {scene : Scene W} {error : Error} {world : World}
    (hcommand : command = .initializeLock ∨ ∃ dir, command = .setDir dir) :
    Effect command scene (.error error) { scene with world }

/-- The scene in which a command gets to work: most look at the timeout before. -/
def start (command : Command W) (scene : Scene W) : Scene W :=
  if command.isChecked then scene.checked else scene

end Command

/-! ## Listing and locking -/

namespace Manager

/-- How a wallet stands in a listing. -/
def shown (entry : WalletName × W) : String :=
  if Backend.isLocked entry.2 then entry.1.text else entry.1.text ++ unlockedMark

/-- The wallets by name, and whether each is locked. -/
def standings (manager : Manager W) : List (WalletName × Bool) :=
  manager.wallets.map fun entry => (entry.1, Backend.isLocked entry.2)

omit [Suite] in
theorem outcome_listEntries (entries : List (WalletName × W)) (scene : Scene W) :
    (listEntries entries).outcome scene = (.ok (entries.map shown),
      { scene with
        trace := scene.trace ++ entries.map fun entry =>
          ⟨entry.1, .isLocked (Backend.isLocked entry.2), true⟩ }) := by
  induction entries generalizing scene with
  | nil => simp [listEntries]
  | cons entry rest ih =>
    unfold listEntries
    simp only [Act.outcome_bind, outcome_askLocked, ih, Act.outcome_pure]
    simp [Scene.noted, shown]

omit [Suite] in
/-- A listing tells of every wallet whether it is unlocked, and never fails. -/
theorem outcome_listWallets (scene : Scene W) :
    listWallets.outcome scene = (.ok (scene.checked.manager.wallets.map shown),
      { scene.checked with
        trace := scene.checked.trace ++ scene.checked.manager.wallets.map fun entry =>
          ⟨entry.1, .isLocked (Backend.isLocked entry.2), true⟩ }) := by
  unfold listWallets
  simp only [Act.outcome_bind, outcome_checkTimeout, Act.outcome_get, outcome_listEntries]

omit [Suite] in
/-- Locking a wallet asks for nothing but its name. -/
theorem outcome_lock (name : String) (scene : Scene W) :
    (lock name).outcome scene = match scene.checked.manager.find? name with
      | none => (.error (.walletNonexistent name), scene.checked)
      | some entry => (.ok (), scene.checked.afterLocking entry) := by
  unfold lock
  rw [outcome_checkTimeout_bind, Act.outcome_bind, outcome_wallet]
  cases scene.checked.manager.find? name with
  | none => rfl
  | some entry => exact outcome_lockEntry entry scene.checked

/-! ## Unlocking -/

/-- What unlocking does once the wallet is registered. -/
def unlockRegistered (name password : String) : Operation W Unit := do
  let entry ← wallet name
  if !(← askLocked entry) then throw (.walletAlreadyUnlocked name)
  request entry (.unlock password) (Backend.unlock password)

omit [Suite] in
theorem unlock_eq (name password : String) : (unlock name password : Operation W Unit) = (do
    checkTimeout
    if !(← get).manager.isRegistered name then openFile name
    unlockRegistered name password) := rfl

omit [Suite] in
theorem outcome_unlockRegistered (name password : String) (scene : Scene W) :
    (unlockRegistered name password).outcome scene = match scene.manager.find? name with
      | none => (.error (.walletNonexistent name), scene)
      | some entry =>
        if Backend.isLocked entry.2 then
          (request entry (.unlock password) (Backend.unlock password)).outcome
            (scene.noted entry.1 (.isLocked (Backend.isLocked entry.2)) true)
        else
          (.error (.walletAlreadyUnlocked name),
            scene.noted entry.1 (.isLocked (Backend.isLocked entry.2)) true) := by
  unfold unlockRegistered
  rw [Act.outcome_bind, outcome_wallet]
  cases hfind : scene.manager.find? name with
  | none => rfl
  | some entry =>
    simp only [Act.outcome_bind, outcome_askLocked]
    cases Backend.isLocked entry.2 <;> rfl

end Manager

/-! ## Every command has its effect -/

namespace Command

variable {α : Type} {command : Command W} {scene : Scene W}

omit [Suite] [SoftBackend W] in
theorem outcome_bind_return (x : Manager.Operation W α) (reply : α → Reply) (scene : Scene W) :
    (x >>= fun a => pure (reply a)).outcome scene =
      ((x.outcome scene).1.map reply, (x.outcome scene).2) := by
  rw [bind_pure_comp, Act.outcome_map]

omit [Suite] [SoftBackend W] in
/-- Only an answer of the operation itself is passed on. -/
theorem exists_of_bind_return {x : Manager.Operation W α} {reply : α → Reply} {answer : Reply}
    (h : ((x >>= fun a => pure (reply a)).outcome scene).1 = .ok answer) :
    ∃ a, (x.outcome scene).1 = .ok a ∧ reply a = answer := by
  rw [outcome_bind_return] at h
  exact Act.exists_of_map_eq_ok h

/-- What only looks at the wallets has no other effect. -/
theorem effect_of_looks {x : Manager.Operation W α} {answer : α → Prop} (reply : α → Reply)
    (hchecked : command.isChecked = true) (hlooks : command.onlyLooks = true)
    (h : Manager.Looks x scene answer) :
    Effect command scene.checked ((x >>= fun a => pure (reply a)).outcome scene).1
      ((x >>= fun a => pure (reply a)).outcome scene).2 := by
  rw [outcome_bind_return]
  exact .looked h.1 hchecked fun _ _ => hlooks

theorem effect_listWallets : Effect .listWallets scene.checked
    ((perform .listWallets).outcome scene).1 ((perform .listWallets).outcome scene).2 := by
  rw [perform, outcome_bind_return, Manager.outcome_listWallets]
  refine .looked ⟨rfl, World.Drew.refl _, _, rfl, ?_⟩ rfl fun _ _ => rfl
  intro event hevent
  obtain ⟨entry, hentry, rfl⟩ := List.mem_map.1 hevent
  exact ⟨entry.2, hentry, rfl⟩

theorem effect_lock (name : String) : Effect (.lock name) scene.checked
    ((perform (.lock name)).outcome scene).1 ((perform (.lock name)).outcome scene).2 := by
  rw [perform, outcome_bind_return, Manager.outcome_lock]
  cases hfind : scene.checked.manager.find? name with
  | none => exact .idle fun _ _ => rfl
  | some entry =>
    have hentry := (Manager.mem_of_find?_eq_some hfind).1
    simp only [Except.map]
    by_cases hlocked : Backend.isLocked entry.2 = true
    · refine .looked ?_ rfl fun _ _ => rfl
      unfold Scene.afterLocking Manager.lockEvents
      rw [if_pos hlocked, if_pos hlocked]
      exact Scene.Saw.noted ⟨entry.2, hentry, rfl⟩
    · exact .locked ⟨hfind, Bool.eq_false_iff.2 hlocked⟩

/-- A request that changes the keys of an unlocked wallet, once its arguments are read. -/
theorem effect_of_changes {name : String} {request : Request} {act : Act Error (W × World) α}
    {entry : WalletName × W} {scene' : Scene W} (reply : α → Reply)
    (hchanges : command.Changes name request (reply <$> act))
    (hopen : scene.manager.IsOpen name entry) (hsaw : scene.Saw scene')
    (hworld : scene'.world = scene.world)
    (hpassword : ∀ password text, command = .removeKey name password text →
      Backend.checkPassword entry.2 password = .ok ()) :
    Effect command scene (((Manager.request entry request act).outcome scene').1.map reply)
      ((Manager.request entry request act).outcome scene').2 := by
  have hact := Act.outcome_map reply act (entry.2, scene.world)
  rw [Manager.outcome_request, hworld]
  rcases hdone : act.outcome (entry.2, scene.world) with ⟨result, wallet, world⟩
  rw [hdone] at hact
  have heffect := Effect.changed hchanges hopen hsaw hworld hact hpassword
  cases result <;> exact heffect

/-- A command fails before it has done anything. -/
theorem effect_of_refused {error : Error} : Effect command scene (.error error) scene :=
  .idle fun _ h => absurd h (by simp)

/-- A command fails after nothing but looking. -/
theorem effect_of_error {scene' : Scene W} {error : Error} (hchecked : command.isChecked = true)
    (hsaw : scene.Saw scene') : Effect command scene (.error error) scene' :=
  .looked hsaw hchecked fun _ h => absurd h (by simp)

/-- A command that begins with an unlocked wallet has the effect of what it does with that. -/
theorem effect_unlockedWallet_bind {name : String} {f : WalletName × W → Manager.Operation W α}
    {reply : α → Reply} (hchecked : command.isChecked = true)
    (hf : ∀ entry scene', scene.manager.IsOpen name entry → scene.Saw scene' →
      scene'.world = scene.world →
      Effect command scene (((f entry).outcome scene').1.map reply) ((f entry).outcome scene').2) :
    Effect command scene (((Manager.unlockedWallet name >>= f).outcome scene).1.map reply)
      ((Manager.unlockedWallet name >>= f).outcome scene).2 := by
  rw [Act.outcome_bind, Manager.outcome_unlockedWallet]
  cases hfind : scene.manager.find? name with
  | none => exact effect_of_refused
  | some entry =>
    have hentry := (Manager.mem_of_find?_eq_some hfind).1
    have hsaw : scene.Saw (scene.noted entry.1 (.isLocked (Backend.isLocked entry.2)) true) :=
      Scene.Saw.noted ⟨entry.2, hentry, rfl⟩
    by_cases hlocked : Backend.isLocked entry.2 = true
    · simp only [if_pos hlocked]
      exact effect_of_error hchecked hsaw
    · simp only [if_neg hlocked]
      exact hf entry _ ⟨hfind, Bool.eq_false_iff.2 hlocked⟩ hsaw rfl

/-- An argument is read, or the command fails. -/
theorem effect_ofExcept_bind {β : Type} {scene' : Scene W} {result : Except Error β}
    {f : β → Manager.Operation W α} {reply : α → Reply} (hchecked : command.isChecked = true)
    (hsaw : scene.Saw scene')
    (hf : ∀ b, result = .ok b →
      Effect command scene (((f b).outcome scene').1.map reply) ((f b).outcome scene').2) :
    Effect command scene (((Act.ofExcept result >>= f).outcome scene').1.map reply)
      ((Act.ofExcept result >>= f).outcome scene').2 := by
  rw [Act.outcome_bind, Act.outcome_ofExcept]
  cases result with
  | error error => exact effect_of_error hchecked hsaw
  | ok b => exact hf b rfl

theorem effect_importKey (name text : String) : Effect (.importKey name text) scene.checked
    ((perform (.importKey name text)).outcome scene).1
    ((perform (.importKey name text)).outcome scene).2 := by
  rw [perform, outcome_bind_return, Manager.importKey, Manager.outcome_checkTimeout_bind]
  refine effect_unlockedWallet_bind rfl ?_
  intro entry scene' hopen hsaw hworld
  refine effect_ofExcept_bind rfl hsaw ?_
  intro key hkey
  exact effect_of_changes _ (.importKey (Act.eq_ok_of_mapError hkey)) hopen hsaw hworld
    fun _ _ h => absurd h (by simp)

theorem effect_removeKey (name password text : String) :
    Effect (.removeKey name password text) scene.checked
      ((perform (.removeKey name password text)).outcome scene).1
      ((perform (.removeKey name password text)).outcome scene).2 := by
  rw [perform, outcome_bind_return, Manager.removeKey, Manager.outcome_checkTimeout_bind]
  refine effect_unlockedWallet_bind rfl ?_
  intro entry scene' hopen hsaw hworld
  have hentry := (Manager.mem_of_find?_eq_some hopen.1).1
  have hfits : scene'.manager.Fits ⟨entry.1, .checkPassword password,
      (Backend.checkPassword entry.2 password).isOk⟩ :=
    ⟨entry.2, hsaw.manager_eq ▸ hentry, hopen.2⟩
  have hsaw' := hsaw.trans (Scene.Saw.noted hfits)
  -- the password is checked before the text of the key is read
  rw [Act.outcome_bind, Manager.outcome_ask]
  cases hcheck : Backend.checkPassword entry.2 password with
  | error error =>
    rw [hcheck] at hsaw'
    exact effect_of_error rfl hsaw'
  | ok _ =>
    rw [hcheck] at hsaw'
    refine effect_ofExcept_bind rfl hsaw' ?_
    intro key hkey
    refine effect_of_changes _ (.removeKey (Act.eq_ok_of_mapError hkey)) hopen hsaw' hworld ?_
    intro _ _ heq
    cases heq
    exact hcheck

theorem effect_createKey (name selector : String) : Effect (.createKey name selector) scene.checked
    ((perform (.createKey name selector)).outcome scene).1
    ((perform (.createKey name selector)).outcome scene).2 := by
  rw [perform, outcome_bind_return, Manager.createKey, Manager.outcome_checkTimeout_bind]
  refine effect_unlockedWallet_bind rfl ?_
  intro entry scene' hopen hsaw hworld
  refine effect_ofExcept_bind rfl hsaw ?_
  intro keyType hkey
  exact effect_of_changes _ (.createKey hkey) hopen hsaw hworld fun _ _ h => absurd h (by simp)

/-! ## Opening, unlocking and creating -/

omit [Suite] [SoftBackend W] in
theorem text_of_parse {name : String} {walletName : WalletName}
    (h : WalletName.parse name = .ok walletName) : walletName.text = name := by
  unfold WalletName.parse at h
  split at h
  · cases h
    rfl
  · exact absurd h (by simp)

/-- How opening the wallet of a file ends. -/
inductive Opening (scene : Scene W) (name : String) : Except Error Unit × Scene W → Prop
  | invalid {error : Error} : Opening scene name (.error error, scene)
  | failed {walletName : WalletName} {error error' : Error} {world : World}
    (hname : walletName.text = name)
    (hload : (Manager.preparing (.new (scene.manager.walletPath walletName) scene.manager.cost)
      SoftWallet.load).outcome scene.world = (.error error, world)) :
    Opening scene name (.error error', { scene with world })
  | opened {walletName : WalletName} {wallet : SoftWallet} {scene' : Scene W}
    (hname : walletName.text = name) (hopened : scene.Opened walletName wallet scene') :
    Opening scene name (.ok (), scene')

omit [Suite] in
theorem opening_openFile (name : String) (scene : Scene W) :
    Opening scene name ((Manager.openFile name).outcome scene) := by
  unfold Manager.openFile
  rw [Act.outcome_bind, Act.outcome_ofExcept]
  cases hparse : WalletName.parse name with
  | error error => exact .invalid
  | ok walletName =>
    simp only [Act.outcome_bind, Act.outcome_get, Act.outcome_settled, Manager.outcome_onWorld]
    rcases hload : (Manager.preparing (.new (scene.manager.walletPath walletName)
      scene.manager.cost) SoftWallet.load).outcome scene.world with ⟨error | wallet, world⟩
    · exact .failed (text_of_parse hparse) hload
    · exact .opened (text_of_parse hparse) ⟨hload, rfl, rfl⟩

theorem effect_openWallet (name : String) : Effect (.openWallet name) scene.checked
    ((perform (.openWallet name)).outcome scene).1
    ((perform (.openWallet name)).outcome scene).2 := by
  rw [perform, outcome_bind_return, Manager.openWallet, Manager.outcome_checkTimeout_bind]
  have hopening := opening_openFile name scene.checked
  generalize (Manager.openFile name).outcome scene.checked = done at hopening ⊢
  cases hopening with
  | invalid => exact effect_of_refused
  | failed hname hload =>
    subst hname
    exact .openFailed (.inl rfl) hload
  | opened hname hopened =>
    subst hname
    exact .opened hopened

/-- Unlocking a wallet that is registered by now. -/
theorem effect_unlockRegistered {scene₁ : Scene W} {name password : String}
    (hopened : scene₁ = scene ∨ scene.manager.isRegistered name = false ∧ ∃ name' wallet',
      name'.text = name ∧ scene.Opened name' wallet' scene₁) :
    Effect (.unlock name password) scene
      (((Manager.unlockRegistered name password).outcome scene₁).1.map fun _ => .done)
      ((Manager.unlockRegistered name password).outcome scene₁).2 := by
  have hrefused : ∀ {scene₂ : Scene W} {error : Error}, scene₁.Saw scene₂ →
      Effect (.unlock name password) scene
        ((Except.error error : Except Error Unit).map fun _ => .done) scene₂ := by
    intro scene₂ error hsaw
    rcases hopened with rfl | ⟨hnew, name', wallet', rfl, hopened⟩
    · exact effect_of_error rfl hsaw
    · exact .unlockRefused hopened hsaw hnew
  rw [Manager.outcome_unlockRegistered]
  -- the wallet is found by its name again, also if it has just been opened
  cases hfind : scene₁.manager.find? name with
  | none => exact hrefused (Scene.Saw.refl _)
  | some entry =>
    have hentry := (Manager.mem_of_find?_eq_some hfind).1
    have hsaw : scene₁.Saw (scene₁.noted entry.1 (.isLocked (Backend.isLocked entry.2)) true) :=
      Scene.Saw.noted ⟨entry.2, hentry, rfl⟩
    dsimp only
    generalize scene₁.noted entry.1 (.isLocked (Backend.isLocked entry.2)) true = scene₂ at hsaw ⊢
    by_cases hlocked : Backend.isLocked entry.2 = true
    · rw [if_pos hlocked, Manager.outcome_request]
      have hact := Act.outcome_map (fun _ => Reply.done) (Backend.unlock password)
        (entry.2, scene₂.world)
      rcases hdone : (Backend.unlock password).outcome (entry.2, scene₂.world)
        with ⟨result, wallet, world⟩
      rw [hdone] at hact
      have hregistered : scene.manager.isRegistered name = true → scene₁ = scene := by
        intro hold
        refine hopened.resolve_right fun ⟨hnew, _⟩ => ?_
        exact absurd hold (by simp [hnew])
      have heffect := Effect.unlocked (hopened.imp_right And.right) hsaw hfind hlocked hact
        hregistered
      cases result <;> exact heffect
    · rw [if_neg hlocked]
      exact hrefused hsaw

theorem effect_unlock (name password : String) : Effect (.unlock name password) scene.checked
    ((perform (.unlock name password)).outcome scene).1
    ((perform (.unlock name password)).outcome scene).2 := by
  rw [perform, outcome_bind_return, Manager.unlock_eq, Manager.outcome_checkTimeout_bind,
    Act.outcome_bind, Act.outcome_get]
  dsimp only
  split
  · rename_i hnew
    rw [Act.outcome_bind]
    have hopening := opening_openFile name scene.checked
    generalize (Manager.openFile name).outcome scene.checked = done at hopening ⊢
    cases hopening with
    | invalid => exact effect_of_refused
    | failed hname hload =>
      subst hname
      exact .openFailed (.inr ⟨password, rfl⟩) hload
    | opened hname hopened =>
      rw [Bool.not_eq_true'] at hnew
      exact effect_unlockRegistered (.inr ⟨hnew, _, _, hname, hopened⟩)
  · exact effect_unlockRegistered (.inl rfl)

theorem effect_create (name : String) : Effect (.create name) scene.checked
    ((perform (.create name)).outcome scene).1 ((perform (.create name)).outcome scene).2 := by
  rw [perform, outcome_bind_return, Manager.create, Manager.outcome_checkTimeout_bind]
  refine effect_ofExcept_bind rfl (Scene.Saw.refl _) ?_
  intro walletName hparse
  have hname := text_of_parse hparse
  subst hname
  simp only [Act.outcome_bind, Act.outcome_get, Manager.outcome_onWorld, World.outcome_pathExists]
  cases hfound : ((World.observe .inspect (·.inspect (scene.checked.manager.walletPath
    walletName))).outcome scene.checked.world).1.isOk with
  | true => exact .createRefused rfl rfl
  | false =>
    simp only [Bool.false_eq_true, if_false, Act.outcome_bind, Manager.outcome_onWorld,
      World.outcome_drawing]
    -- the path has been looked at, and the password drawn
    let world₁ : World := { scene.checked.world with
      steps := scene.checked.world.steps + 1
      entropy := (Manager.drawPassword.run scene.checked.world.entropy).2 }
    rcases hprepare : (Manager.preparing (.new (scene.checked.manager.walletPath walletName)
      scene.checked.manager.cost) (Manager.prepareNew
        (Manager.drawPassword.run scene.checked.world.entropy).1)).outcome world₁
      with ⟨error | wallet, world⟩
    · exact .createFailed ⟨hfound, rfl, world₁, rfl, rfl, hprepare⟩
    · exact .created ⟨hfound, rfl, world₁, rfl, rfl, hprepare⟩

/-! ## What is not about one wallet -/

omit [Suite] [SoftBackend W] in
/-- How handing a wallet over ends. -/
theorem outcome_own (name : String) (wallet : W) (scene : Scene W) :
    (∃ error, (Manager.own name wallet).outcome scene = (.error error, scene)) ∨
      ∃ walletName : WalletName, walletName.text = name ∧
        scene.manager.isRegistered name = false ∧
        (Manager.own name wallet).outcome scene = (.ok (), { scene with
          manager := { scene.manager with
            wallets := scene.manager.wallets ++ [(walletName, wallet)] } }) := by
  unfold Manager.own
  rw [Act.outcome_bind, Act.outcome_get]
  dsimp only
  by_cases hregistered : scene.manager.isRegistered name = true
  · rw [if_pos hregistered]
    exact .inl ⟨.duplicateWalletRegistration name, rfl⟩
  · rw [if_neg hregistered, Act.outcome_bind, Act.outcome_ofExcept]
    cases hparse : WalletName.parse name with
    | error error => exact .inl ⟨error, rfl⟩
    | ok walletName =>
      exact .inr ⟨walletName, text_of_parse hparse, Bool.eq_false_iff.2 hregistered, rfl⟩

theorem effect_own (name : String) (wallet : W) : Effect (.own name wallet) scene
    ((perform (.own name wallet)).outcome scene).1
    ((perform (.own name wallet)).outcome scene).2 := by
  rw [perform, outcome_bind_return]
  rcases outcome_own name wallet scene with ⟨error, hown⟩ | ⟨walletName, rfl, hnew, hown⟩
  · rw [hown]
    exact effect_of_refused
  · rw [hown]
    exact .owned (.inl rfl) hnew

omit [Suite] [SoftBackend W] in
/-- A hardware keystore is registered under its name, unless there is none or the name is taken. -/
theorem outcome_registerPlatform (probe : Except Error W) (scene : Scene W) :
    (Manager.registerPlatform probe).outcome scene = (.ok false, scene) ∨
      ∃ (name : WalletName) (wallet : W), name.text = Manager.platformName ∧ probe = .ok wallet ∧
        scene.manager.isRegistered name.text = false ∧
        (Manager.registerPlatform probe).outcome scene = (.ok true, { scene with
          manager := { scene.manager with
            wallets := scene.manager.wallets ++ [(name, wallet)] } }) := by
  unfold Manager.registerPlatform
  cases probe with
  | error error => exact .inl rfl
  | ok wallet =>
    simp only [Act.outcome_bind, Act.outcome_settled]
    rcases outcome_own Manager.platformName wallet scene with ⟨error, hown⟩ |
      ⟨name, hname, hnew, hown⟩
    · rw [hown]
      exact .inl rfl
    · rw [hown]
      rw [← hname] at hnew
      exact .inr ⟨name, wallet, hname, rfl, hnew, rfl⟩

theorem effect_registerPlatform (probe : Except Error W) : Effect (.registerPlatform probe) scene
    ((perform (.registerPlatform probe)).outcome scene).1
    ((perform (.registerPlatform probe)).outcome scene).2 := by
  rw [perform, outcome_bind_return]
  rcases outcome_registerPlatform probe scene with hsame | ⟨name, wallet, hname, rfl, hnew, hown⟩
  · rw [hsame]
    exact .idle fun _ _ => rfl
  · rw [hown]
    exact .owned (.inr ⟨hname, rfl⟩) hnew

omit [Suite] [SoftBackend W] in
theorem outcome_setTimeout (duration : Duration) (scene : Scene W) :
    (Manager.setTimeout duration).outcome scene =
      match UnlockTimeout.set? duration (scene.world.time scene.manager.clock) with
      | some timeout => (.ok (), { scene with manager := { scene.manager with timeout } })
      | none => (.error (.timeoutOverflow duration.seconds), scene) := by
  unfold Manager.setTimeout
  simp only [Act.outcome_bind, Manager.outcome_now]
  cases UnlockTimeout.set? duration (scene.world.time scene.manager.clock) <;> rfl

theorem effect_setTimeout (duration : Duration) : Effect (.setTimeout duration) scene
    ((perform (.setTimeout duration)).outcome scene).1
    ((perform (.setTimeout duration)).outcome scene).2 := by
  rw [perform, outcome_bind_return, outcome_setTimeout]
  cases hset : UnlockTimeout.set? duration (scene.world.time scene.manager.clock) with
  | none => exact effect_of_refused
  | some timeout => exact .timeoutSet hset

theorem effect_setDir (dir : Path) : Effect (.setDir dir) scene
    ((perform (.setDir dir)).outcome scene).1 ((perform (.setDir dir)).outcome scene).2 := by
  rw [perform, outcome_bind_return]
  unfold Manager.setDir
  simp only [Act.outcome_bind, Act.outcome_get, Manager.outcome_onWorld, Act.outcome_ite,
    Act.outcome_throw, Act.outcome_mapError]
  split
  · exact effect_of_refused
  · rcases (World.makeDirectories dir).outcome scene.world with ⟨error | _, world⟩
    · exact .directoryFailed (.inr ⟨dir, rfl⟩)
    · exact .moved

theorem effect_initializeLock : Effect .initializeLock scene
    ((perform .initializeLock).outcome scene).1 ((perform .initializeLock).outcome scene).2 := by
  rw [perform, outcome_bind_return]
  unfold Manager.initializeLock
  simp only [Act.outcome_bind, Act.outcome_get, Manager.outcome_onWorld, Act.outcome_ite,
    Act.outcome_pure]
  split
  · exact .idle fun _ _ => rfl
  · rcases (DirectoryLock.acquire scene.manager.dir).outcome scene.world with ⟨error | lock, world⟩
    · exact .directoryFailed (.inl rfl)
    · exact .directoryLocked

/-- Every command has one of the effects, on the scene that the look at the timeout leaves. -/
theorem effect (command : Command W) (scene : Scene W) :
    Effect command (command.start scene) (command.perform.outcome scene).1
      (command.perform.outcome scene).2 := by
  cases command with
  | create name => exact effect_create name
  | openWallet name => exact effect_openWallet name
  | listWallets => exact effect_listWallets
  | own name wallet => exact effect_own name wallet
  | registerPlatform probe => exact effect_registerPlatform probe
  | lockAll =>
    rw [perform, outcome_bind_return, Manager.outcome_lockAll]
    exact .lockedAll
  | lock name => exact effect_lock name
  | unlock name password => exact effect_unlock name password
  | listKeys name password =>
    exact effect_of_looks .keyMap rfl rfl (Manager.looks_listKeys scene name password)
  | publicKeys => exact effect_of_looks .keySet rfl rfl (Manager.looks_publicKeys scene)
  | mySignatures chain =>
    exact effect_of_looks .signatureSet rfl rfl (Manager.looks_mySignatures scene chain)
  | importKey name key => exact effect_importKey name key
  | removeKey name password key => exact effect_removeKey name password key
  | createKey name selector => exact effect_createKey name selector
  | signTransaction tx keys chain =>
    exact effect_of_looks .transaction rfl rfl
      (Manager.looks_signTransaction scene tx keys chain _ fun key _ _ =>
        Manager.sees_signatureOf _ key)
  | signDigest digest key =>
    exact effect_of_looks .signature rfl rfl (Manager.looks_signDigest scene digest key)
  | setTimeout duration => exact effect_setTimeout duration
  | disableTimeout => exact .timeoutDisabled
  | checkTimeout =>
    rw [perform, outcome_bind_return, Manager.outcome_checkTimeout]
    exact .idle fun _ _ => rfl
  | setDir dir => exact effect_setDir dir
  | initializeLock => exact effect_initializeLock

end Command

end Custody
