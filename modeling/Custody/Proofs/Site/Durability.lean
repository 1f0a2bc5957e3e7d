import Custody.Proofs.Manager.Reopening
import Custody.Proofs.Site.Steps
import Custody.Proofs.Suite.Plain

set_option autoImplicit false

/-! # Keys outlive their managers

Managers follow one another on a directory, and each of them may be given any commands that leave it
there, with failures at any step of a save. The keys of a wallet that was created on the way are, at
any later time, the ones that the answers tell of (`Site.ledger`): a manager that is started then
opens the wallet with its password and lists just these keys (`Site.keys_survive`). -/

namespace Custody

/-! ## Runs -/

/-- The step is one of a manager that stays in a directory, or it sets a clock. A manager that is
    started takes the place of the one before, which is dropped. -/
def SiteStep.InPlace {W : Type} (manager : String) (dir : Path) : SiteStep W → Prop
  | .start name config _ => name = manager ∧ config.walletDir = dir
  | .drop name => name = manager
  | .command name asked => name = manager ∧ asked.staysPut = true
  | .setTime _ _ => True
  | .acquire _ _ | .release _ => False

/-- Starting a manager leaves every file alone, whether it succeeds or not. -/
theorem Manager.sparing_start {W : Type} [Suite] [SoftBackend W] {dir : Path} {file : Bytes}
    (h : Path.IsFileName file) (config : Config) (clock : Clock) :
    World.Sparing (dir.join ⟨file⟩) (Manager.start (W := W) config clock) := by
  intro world
  rw [disk_start]
  exact World.sparing_makeDirectories h config.walletDir world

namespace Site

section Ledger

variable [Suite] {W : Type} [SoftBackend W]

/-- The keys of a wallet after one more step, by the answer to it. -/
def record (site : Site W) (name : WalletName) (keys : KeyMap) : SiteStep W → KeyMap
  | .command manager command =>
    match site.command manager command with
    | some ((answer, _), _) => command.record name site.world.entropy answer keys
    | none => keys
  | _ => keys

/-- The keys of a wallet after several steps, by the answers to them. -/
def ledger (name : WalletName) : Site W → List (SiteStep W) → KeyMap → KeyMap
  | _, [], keys => keys
  | site, step :: rest, keys => ledger name (site.step step) rest (site.record name keys step)

/-- What the code has no say in: before a wallet of the name is created, the look for its file does
    not fail, and a password that opens the wallet is one that derives the same wallet keys as the
    wallet's own password. -/
def Fair (site : Site W) (name : WalletName) (password : String) : SiteStep W → Prop
  | .command _ (.create other) =>
    other = name.text → site.world.faults site.world.steps .inspect = none
  | .command manager (.unlock other tried) =>
    other = name.text → ∀ reply events site',
      site.command manager (.unlock other tried) = some ((.ok reply, events), site') →
      ∀ header : KdfHeader, header.deriveKey tried = header.deriveKey password
  | _ => True

/-- Every step is fair. -/
def FairRun (name : WalletName) (password : String) : Site W → List (SiteStep W) → Prop
  | _, [] => True
  | site, step :: rest => site.Fair name password step ∧ FairRun name password (site.step step) rest

end Ledger

/-- The site when nothing fails any more but for a reason. -/
def calmed {W : Type} (site : Site W) : Site W :=
  { site with world := { site.world with faults := .none } }

/-! ## One step -/

variable {W : Type} {site : Site W} {manager : String}

section Command

variable [Suite] [SoftBackend W] {m : Manager W}

theorem record_command (h : site.manager? manager = some m) (asked : Command W) (name : WalletName)
    (keys : KeyMap) : site.record name keys (.command manager asked) = asked.record name
      site.world.entropy (asked.perform.outcome (atWork m site.world)).1 keys := by
  simp only [record, command_eq h]

theorem record_command_of_none (h : site.manager? manager = none) (asked : Command W)
    (name : WalletName) (keys : KeyMap) :
    site.record name keys (.command manager asked) = keys := by
  simp only [record, command_eq_none h]

end Command

section Soft

variable [Suite] {site : Site SoftWallet} {manager : String} {dir : Path} {name : WalletName}
  {header : KdfHeader} {key : Block 32} {keys : KeyMap} {password : String}

/-- A manager that has just been started has no wallets, and is settled in its directory. -/
theorem settled_of_start {config : Config} {clock : Clock} {world world' : World}
    {m : Manager SoftWallet} (h : (Manager.start config clock).outcome world = (.ok m, world')) :
    m.Settled config.walletDir ∧ m.wallets = [] := by
  have hspec := (Manager.start_spec h).2.1
  rw [hspec]
  refine ⟨⟨rfl, rfl, List.nodup_nil, ?_⟩, rfl⟩
  intro other wallet hmem
  exact absurd hmem List.not_mem_nil

/-- The manager of the name, if there is one, is settled in the directory. -/
def Settled (manager : String) (dir : Path) (site : Site SoftWallet) : Prop :=
  ∀ m, site.manager? manager = some m → m.Settled dir

theorem Settled.step (h : site.Settled manager dir) {step : SiteStep SoftWallet}
    (hstep : step.InPlace manager dir) : (site.step step).Settled manager dir := by
  cases step with
  | start other config clock =>
    obtain ⟨rfl, rfl⟩ := hstep
    show (site.start other config clock).2.Settled other config.walletDir
    unfold Site.start
    dsimp only
    rcases hstart : (Manager.start config clock).outcome (site.drop other).world
      with ⟨error | m, world⟩
    · intro m hm
      change (site.drop other).manager? other = some m at hm
      rw [manager?_drop] at hm
      exact absurd hm (by simp)
    · intro m' hm
      rw [manager?_putManager] at hm
      cases hm
      exact (settled_of_start hstart).1
  | drop other =>
    obtain rfl := hstep
    intro m hm
    change (site.drop other).manager? other = some m at hm
    rw [manager?_drop] at hm
    exact absurd hm (by simp)
  | command other asked =>
    obtain ⟨rfl, hput⟩ := hstep
    cases hmanager : site.manager? other with
    | none => rwa [step_command_of_none hmanager]
    | some m =>
      rw [step_command hmanager]
      intro m' hm
      rw [manager?_putManager] at hm
      cases hm
      have hm : (atWork m site.world).manager.Settled dir := h m hmanager
      exact (asked.effect (atWork m site.world)).settled hput (hm.start asked)
  | setTime clock time => exact h
  | acquire holder dir => exact absurd hstep id
  | release holder => exact absurd hstep id

theorem Settled.run (h : site.Settled manager dir) {steps : List (SiteStep SoftWallet)}
    (hsteps : ∀ step ∈ steps, step.InPlace manager dir) :
    (site.run steps).Settled manager dir := by
  induction steps generalizing site with
  | nil => exact h
  | cons step rest ih =>
    rw [List.forall_mem_cons] at hsteps
    exact ih (h.step hsteps.1) hsteps.2

/-- The manager of the name, if there is one, is settled in the directory and keeps the wallet
    durable, and the file of the wallet holds its keys in any case. -/
structure Durable (manager : String) (dir : Path) (name : WalletName) (header : KdfHeader)
    (key : Block 32) (keys : KeyMap) (site : Site SoftWallet) : Prop where
  managed : ∀ m, site.manager? manager = some m →
    m.Durable dir name header key keys site.world.disk
  stores : site.world.disk.Stores (dir.join ⟨name.fileBytes⟩) header key keys

theorem Durable.of_none (hnone : site.manager? manager = none)
    (h : site.world.disk.Stores (dir.join ⟨name.fileBytes⟩) header key keys) :
    site.Durable manager dir name header key keys :=
  ⟨fun m hm => absurd (hnone.symm.trans hm) (by simp), h⟩

theorem Durable.drop (h : site.Durable manager dir name header key keys) :
    (site.drop manager).Durable manager dir name header key keys := by
  refine .of_none (manager?_drop site manager) ?_
  rw [world_drop fun m hm => (h.managed m hm).settled.dirLock_eq]
  exact h.stores

/-- A step leaves the wallet with the keys on record. -/
theorem Durable.step [Suite.LawfulCipher] (h : site.Durable manager dir name header key keys)
    (hkey : header.deriveKey password = .ok key) {step : SiteStep SoftWallet}
    (hstep : step.InPlace manager dir) (hfair : site.Fair name password step) :
    (site.step step).Durable manager dir name header key (site.record name keys step) := by
  cases step with
  | start other config clock =>
    obtain ⟨rfl, rfl⟩ := hstep
    have hstores := h.drop.stores
    have hspares : Disk.Spares (config.walletDir.join ⟨name.fileBytes⟩) (site.drop other).world.disk
        ((Manager.start (W := SoftWallet) config clock).outcome (site.drop other).world).2.disk :=
      Manager.sparing_start name.isFileName config clock (site.drop other).world
    show (site.start other config clock).2.Durable other config.walletDir name header key keys
    unfold Site.start
    dsimp only
    rcases hstart : (Manager.start config clock).outcome (site.drop other).world
      with ⟨error | m, world⟩
    · rw [hstart] at hspares
      exact .of_none (manager?_drop site other) (hstores.of_spares hspares)
    · -- the new manager has no wallets: only the file holds the keys
      rw [hstart] at hspares
      obtain ⟨hsettled, hwallets⟩ := settled_of_start hstart
      refine ⟨?_, hstores.of_spares hspares⟩
      intro m' hm
      rw [manager?_putManager] at hm
      cases hm
      refine ⟨hsettled, ?_, hstores.of_spares hspares⟩
      intro other wallet hmem
      rw [hwallets] at hmem
      exact absurd hmem List.not_mem_nil
  | drop other =>
    obtain rfl := hstep
    exact h.drop
  | command other asked =>
    obtain ⟨rfl, hput⟩ := hstep
    cases hmanager : site.manager? other with
    | none =>
      -- no one hears the command, and nothing is recorded
      rw [step_command_of_none hmanager, record_command_of_none hmanager]
      exact h
    | some m =>
      have hm : (atWork m site.world).manager.Durable dir name header key keys
          (atWork m site.world).world.disk := h.managed m hmanager
      have hworld := Command.world_start hm.settled.distinct asked
      -- the command is at work from where the look at the timeout has left the manager
      have hdurable := (asked.effect (atWork m site.world)).durable hput (hm.start asked) ?_ ?_
      · rw [hworld] at hdurable
        rw [step_command hmanager, record_command hmanager]
        refine ⟨?_, hdurable.stores⟩
        intro m' hm'
        rw [manager?_putManager] at hm'
        cases hm'
        exact hdurable
      · rintro rfl
        rw [hworld]
        exact hfair rfl
      · rintro tried rfl hok other' hderive
        have hanswer := command_eq hmanager (.unlock name.text tried)
        rcases hresult : ((Command.unlock name.text tried).perform.outcome
          (atWork m site.world)).1 with error | reply
        · rw [hresult] at hok
          exact absurd hok (by simp)
        · rw [hresult] at hanswer
          have hsame := hfair rfl reply _ _ hanswer header
          rw [hderive, hkey] at hsame
          exact Except.ok.inj hsame
  | setTime clock time => exact ⟨h.managed, h.stores⟩
  | acquire holder dir => exact absurd hstep id
  | release holder => exact absurd hstep id

theorem Durable.run [Suite.LawfulCipher] (h : site.Durable manager dir name header key keys)
    (hkey : header.deriveKey password = .ok key) {steps : List (SiteStep SoftWallet)}
    (hsteps : ∀ step ∈ steps, step.InPlace manager dir)
    (hfair : site.FairRun name password steps) :
    (site.run steps).Durable manager dir name header key (site.ledger name steps keys) := by
  induction steps generalizing site keys with
  | nil => exact h
  | cons step rest ih =>
    rw [List.forall_mem_cons] at hsteps
    exact ih (h.step hkey hsteps.1 hfair.1) hsteps.2 hfair.2

/-- A wallet is durable from its creation on. -/
theorem exists_durable_of_create [Suite.LawfulCipher] (h : site.Settled manager dir)
    {events : List Event} {made : Site SoftWallet}
    (hcreate : site.command manager (.create name.text) =
      some ((.ok (.password password), events), made)) :
    ∃ header key, header.deriveKey password = .ok key ∧
      made.Durable manager dir name header key ∅ := by
  cases hmanager : site.manager? manager with
  | none =>
    rw [command_eq_none hmanager] at hcreate
    exact absurd hcreate (by simp)
  | some m =>
    rw [command_eq hmanager] at hcreate
    have hm : (atWork m site.world).manager.Settled dir := h m hmanager
    have heffect := Command.effect (.create name.text) (atWork m site.world)
    generalize (Command.create name.text).perform.outcome (atWork m site.world) = done
      at hcreate heffect
    obtain ⟨answer, scene⟩ := done
    cases hcreate
    obtain ⟨header, key, hkey, hdurable⟩ :=
      heffect.durable_of_create (hm.start (.create name.text))
    refine ⟨header, key, hkey, ?_, hdurable.stores⟩
    intro m' hm'
    rw [manager?_putManager] at hm'
    cases hm'
    exact hdurable

/-! ## Afterwards -/

/-- The manager of the name has just been started: it has no wallets yet. -/
structure Fresh (manager : String) (dir : Path) (clock : Clock) (site : Site SoftWallet) :
    Prop where
  faults_eq : site.world.faults = .none
  exists_manager : ∃ m, site.manager? manager = some m ∧ m.Settled dir ∧ m.wallets = [] ∧
    m.clock = clock

theorem exists_start (h : site.Durable manager dir name header key keys) {config : Config}
    {clock : Clock} (hdir : config.walletDir = dir)
    (hset : ∀ duration, config.unlockTimeout = some duration →
      (UnlockTimeout.set? duration (site.world.time clock)).isSome = true) :
    ∃ fresh, site.calmed.start manager config clock = (.ok (), fresh) ∧
      fresh.Fresh manager dir clock ∧ fresh.world.disk = site.world.disk := by
  subst hdir
  obtain ⟨file, envelope, hfile, -⟩ := h.stores
  have hworld : (site.calmed.drop manager).world = site.calmed.world :=
    world_drop fun m hm => (h.managed m hm).settled.dirLock_eq
  have hcalm : site.calmed.world.faults = .none := rfl
  obtain ⟨steps, hmake⟩ := World.outcome_makeDirectories name.isFileName hcalm hfile
  obtain ⟨m, hstart⟩ : ∃ m : Manager SoftWallet,
      (Manager.start config clock).outcome site.calmed.world =
        (.ok m, { site.calmed.world with steps }) := Manager.exists_start hmake hset
  obtain ⟨hsettled, hwallets⟩ := settled_of_start hstart
  have hspec := (Manager.start_spec hstart).2.1
  unfold Site.start
  dsimp only
  rw [hworld, hstart]
  refine ⟨_, rfl, ⟨rfl, m, manager?_putManager _ manager m, hsettled, hwallets, ?_⟩, rfl⟩
  rw [hspec]

/-- The manager of the name has a wallet open that holds the keys. -/
def Holding (manager : String) (name : WalletName) (header : KdfHeader) (key : Block 32)
    (keys : KeyMap) (clock : Clock) (site : Site SoftWallet) : Prop :=
  ∃ m wallet, site.manager? manager = some m ∧ m.Distinct ∧ (name, wallet) ∈ m.wallets ∧
    wallet.Refines (.bound false header key keys) ∧ m.clock = clock

theorem Fresh.exists_unlock {clock : Clock} (h : site.Fresh manager dir clock)
    (hstores : site.world.disk.Stores (dir.join ⟨name.fileBytes⟩) header key keys)
    (hfits : ∀ file, site.world.disk.inspect (dir.join ⟨name.fileBytes⟩) = .ok (.file file) →
      file.content.length ≤ Envelope.maxFileSize)
    (hkey : header.deriveKey password = .ok key) :
    ∃ events opened, site.command manager (.unlock name.text password) =
      some ((.ok .done, events), opened) ∧ opened.Holding manager name header key keys clock := by
  obtain ⟨m, hmanager, hsettled, hwallets, hclock⟩ := h.exists_manager
  change (atWork m site.world).manager.Settled dir at hsettled
  change (atWork m site.world).manager.wallets = [] at hwallets
  have hnew : (atWork m site.world).checked.manager.isRegistered name.text = false := by
    unfold Manager.isRegistered
    rw [(Scene.checked_eq hsettled.distinct).2]
    simp [hwallets]
  obtain ⟨scene, wallet, hunlock, hmem, hdistinct, hrefines⟩ :=
    Manager.exists_unlock hsettled h.faults_eq hnew hstores hfits hkey
  have hperform : (Command.unlock name.text password).perform.outcome (atWork m site.world) =
      (.ok .done, scene) := by
    rw [Command.perform, Command.outcome_bind_return, hunlock]
    rfl
  have heffect := Command.effect (.unlock name.text password) (atWork m site.world)
  have hcommand := command_eq hmanager (.unlock name.text password)
  rw [hperform] at heffect hcommand
  refine ⟨_, _, hcommand, scene.manager, wallet, manager?_putManager _ manager _, hdistinct, hmem,
    hrefines, ?_⟩
  exact (heffect.window_eq.1.trans Command.start_clock).trans hclock

theorem Holding.exists_listKeys {clock : Clock}
    (h : site.Holding manager name header key keys clock)
    (hkey : header.deriveKey password = .ok key) {m : Manager SoftWallet}
    (hmanager : site.manager? manager = some m) {time : Instant}
    (hwindow : (m.timeout.check time).1 = false) : ∃ events listed,
      (site.step (.setTime clock time)).command manager (.listKeys name.text password) =
        some ((.ok (.keyMap keys), events), listed) := by
  obtain ⟨m', wallet, hmanager', hdistinct, hmem, hrefines, rfl⟩ := h
  rw [hmanager] at hmanager'
  cases hmanager'
  have hthen : (site.step (.setTime m.clock time)).manager? manager = some m := hmanager
  have hnow : (site.step (.setTime m.clock time)).world.time m.clock = time := by
    show (if m.clock = m.clock then time else _) = time
    rw [if_pos rfl]
  change (atWork m (site.step (.setTime m.clock time)).world).manager.Distinct at hdistinct
  have hlist := Manager.outcome_listKeys hdistinct hmem hrefines hkey (by
    show (m.timeout.check ((site.step (.setTime m.clock time)).world.time m.clock)).1 = false
    rw [hnow]
    exact hwindow)
  have hperform : ((Command.listKeys name.text password).perform.outcome
      (atWork m (site.step (.setTime m.clock time)).world)).1 = .ok (.keyMap keys) := by
    rw [Command.perform, Command.outcome_bind_return, hlist]
    rfl
  have hcommand := command_eq hthen (.listKeys name.text password)
  rw [hperform] at hcommand
  exact ⟨_, _, hcommand⟩

/-- Whatever managers do one after the other in a directory, and wherever a save of theirs fails: a
    wallet that was created is unlocked by a new manager with its password, whatever the costs that
    the managers were set up with, and lists just the keys that were added and not taken away by
    commands that succeeded. -/
theorem keys_survive [Suite.LawfulCipher] {world : World}
    {before after : List (SiteStep SoftWallet)} {events : List Event} {made : Site SoftWallet}
    (hbefore : ∀ step ∈ before, step.InPlace manager dir)
    (hcreate : ((Site.empty world).run before).command manager (.create name.text) =
      some ((.ok (.password password), events), made))
    (hafter : ∀ step ∈ after, step.InPlace manager dir)
    (hfair : made.FairRun name password after)
    (hfits : ∀ file, (made.run after).world.disk.inspect (dir.join (.ofString name.fileName)) =
      .ok (.file file) → file.content.length ≤ Envelope.maxFileSize)
    {config : Config} {clock : Clock} (hdir : config.walletDir = dir)
    (hset : ∀ duration, config.unlockTimeout = some duration →
      (UnlockTimeout.set? duration ((made.run after).world.time clock)).isSome = true) :
    ∃ fresh, (made.run after).calmed.start manager config clock = (.ok (), fresh) ∧
      ∀ time, ∃ events₁ opened,
        (fresh.step (.setTime clock time)).command manager (.unlock name.text password) =
          some ((.ok .done, events₁), opened) ∧
        ∀ time' m, opened.manager? manager = some m → (m.timeout.check time').1 = false →
          ∃ events₂ listed,
            (opened.step (.setTime clock time')).command manager (.listKeys name.text password) =
              some ((.ok (.keyMap (made.ledger name after ∅)), events₂), listed) := by
  have hsettled : ((Site.empty world).run before).Settled manager dir :=
    Settled.run (fun m hm => absurd hm (by simp [Site.empty, manager?])) hbefore
  obtain ⟨header, key, hkey, hmade⟩ := exists_durable_of_create hsettled hcreate
  -- the header and the wallet key of the creation stay, whatever the managers' costs
  have hfinal := hmade.run hkey hafter hfair
  generalize made.run after = final at hfits hset hfinal ⊢
  generalize made.ledger name after ∅ = keys at hfinal ⊢
  obtain ⟨fresh, hstart, hfresh, hdisk⟩ := exists_start hfinal hdir hset
  refine ⟨fresh, hstart, ?_⟩
  intro time
  have hstores := hfinal.stores
  rw [← hdisk] at hstores hfits
  have hfresh' : (fresh.step (.setTime clock time)).Fresh manager dir clock :=
    ⟨hfresh.faults_eq, hfresh.exists_manager⟩
  obtain ⟨events₁, opened, hunlock, hholding⟩ :=
    hfresh'.exists_unlock hstores hfits hkey
  refine ⟨events₁, opened, hunlock, ?_⟩
  intro time' m hm hwindow
  exact hholding.exists_listKeys hkey hm hwindow

end Soft

/-! ## A key that outlives its manager -/

section Plain

local instance durablePrimitives : Suite := Suite.plain

/-- The settings of a manager with a cost of its own. -/
def configOf (cost : KdfCost) : Config := ⟨.ofString "d", none, cost, false⟩

theorem accepts_w : WalletName.accepts "w" = true := by decide

def walletName : WalletName := ⟨"w", accepts_w⟩

/-- A first manager creates a wallet. -/
def creation : Option ((Except Error Reply × List Event) × Site SoftWallet) :=
  ((Site.empty World.blank).run [.start "m" (configOf .light) .manual]).command "m" (.create "w")

/-- The password that it gives. -/
def password : String :=
  match creation with
  | some ((.ok (.password text), _), _) => text
  | _ => ""

/-- The site after that. -/
def withWallet : Site SoftWallet := (creation.map Prod.snd).getD (.empty .blank)

/-- Whether an answer is a password. -/
def isPassword : Except Error Reply → Bool
  | .ok (.password _) => true
  | _ => false

theorem exists_creation : ∃ events,
    creation = some ((.ok (.password password), events), withWallet) := by
  have hpassword : (creation.any fun answer => isPassword answer.1.1) = true := by decide +kernel
  unfold withWallet password
  generalize creation = answer at hpassword ⊢
  rcases answer with _ | ⟨⟨error | reply, events⟩, site⟩
  · exact absurd hpassword (by simp [isPassword])
  · exact absurd hpassword (by simp [isPassword])
  · cases reply with
    | password text => exact ⟨events, rfl⟩
    | _ => exact absurd hpassword (by simp [isPassword])

/-- A key is created, and another manager is started, of another cost. -/
def handover : List (SiteStep SoftWallet) :=
  [.command "m" (.createKey "w" "ed25519"), .start "m" (configOf .standard) .machine]

/-- The site after the wallet has been unlocked by one more manager. -/
def reopened : Option ((Except Error Reply × List Event) × Site SoftWallet) :=
  (((withWallet.run handover).calmed.start "m" (configOf .light) .machine).2.step
    (.setTime .machine default)).command "m" (.unlock "w" password)

/-- The file of the wallet is not too large to be read. -/
theorem fits_handover : ((withWallet.run handover).world.disk.inspect
    ((Path.ofString "d").join (.ofString walletName.fileName))).toOption.all (fun
      | .file file => decide (file.content.length ≤ Envelope.maxFileSize)
      | .directory => true) = true := by
  decide +kernel

/-- The last manager has no window that could run out. -/
theorem window_reopened : reopened.any (fun answer => (answer.2.manager? "m").any fun m =>
    !(m.timeout.check default).1) = true := by
  decide +kernel

/-- The last manager lists the key that the first one created. -/
theorem keys_survive_handover : ∃ events opened events' listed keys,
    reopened = some ((.ok .done, events), opened) ∧
      (opened.step (.setTime .machine default)).command "m" (.listKeys "w" password) =
        some ((.ok (.keyMap keys), events'), listed) ∧ keys.size = 1 := by
  obtain ⟨events, hcreation⟩ := exists_creation
  have hcreate : ((Site.empty World.blank).run [.start "m" (configOf .light) .manual]).command "m"
      (.create walletName.text) = some ((.ok (.password password), events), withWallet) := hcreation
  have hbefore : ∀ step ∈ ([.start "m" (configOf .light) .manual] : List (SiteStep SoftWallet)),
      step.InPlace "m" (.ofString "d") := by
    simp only [List.mem_singleton, forall_eq]
    exact ⟨rfl, rfl⟩
  have hafter : ∀ step ∈ handover, step.InPlace "m" (.ofString "d") := by
    unfold handover
    simp only [List.forall_mem_cons]
    exact ⟨⟨rfl, rfl⟩, ⟨rfl, rfl⟩, by simp⟩
  have hfits : ∀ file, (withWallet.run handover).world.disk.inspect
      ((Path.ofString "d").join (.ofString walletName.fileName)) = .ok (.file file) →
      file.content.length ≤ Envelope.maxFileSize := by
    intro file hfile
    have hall := fits_handover
    rw [hfile] at hall
    exact of_decide_eq_true hall
  have hdir : (configOf .light).walletDir = .ofString "d" := rfl
  have hset : ∀ duration, (configOf .light).unlockTimeout = some duration →
      (UnlockTimeout.set? duration ((withWallet.run handover).world.time .machine)).isSome = true :=
    fun duration hduration => absurd hduration (by simp [configOf])
  obtain ⟨fresh, hstart, hlater⟩ :=
    keys_survive hbefore hcreate hafter ⟨trivial, trivial, trivial⟩ hfits hdir hset
  obtain ⟨events₁, opened, hunlock, hlist⟩ := hlater default
  have hreopened : reopened = some ((.ok .done, events₁), opened) := by
    unfold reopened
    rw [hstart]
    exact hunlock
  have hwindow := window_reopened
  rw [hreopened] at hwindow
  obtain ⟨m, hm, hcheck⟩ := (Option.any_eq_true _ (opened.manager? "m")).1 hwindow
  obtain ⟨events₂, listed, hlisted⟩ := hlist default m hm (by simpa using hcheck)
  exact ⟨events₁, opened, events₂, listed, _, hreopened, hlisted, by decide +kernel⟩

end Plain

end Site

end Custody
