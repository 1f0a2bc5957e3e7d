import Custody.Proofs.Manager.Failure

set_option autoImplicit false

/-! # The order of registration

Whatever wallets a manager keeps and whatever it is told to do, no two of them have one name, and
they stay in the order in which they were registered. A wallet that is created or opened, be it to
be unlocked, becomes the last one, in place of any other of its name; one that is handed over
becomes the last one, under a name that is new; nothing else changes the sequence of names:
`Manager.Reachable.registration_order`. A listing has one text for each wallet, in this order, from
which the names and the locks can be read off. -/

namespace Custody

section

variable [Suite] {W : Type} [SoftBackend W]

/-! ## Who enters the registry -/

namespace Command

/-- With its answer, the command has brought a wallet into the registry under the name. -/
inductive Enters (manager : Manager W) (world : World) (name : WalletName) :
    Command W → Except Error Reply → Prop
  | created {result : Except Error Reply} (hok : result.isOk = true) :
    Enters manager world name (.create name.text) result
  | opened {result : Except Error Reply} (hok : result.isOk = true) :
    Enters manager world name (.openWallet name.text) result
  | unlocking {command : Command W} {result : Except Error Reply} {envelope : Envelope}
    (hopens : command.OpensFile manager world name envelope) :
    Enters manager world name command result
  | owned {wallet : W} {result : Except Error Reply} (hok : result.isOk = true) :
    Enters manager world name (.own name.text wallet) result
  | platform {probe : Except Error W} (hname : name.text = Manager.platformName) :
    Enters manager world name (.registerPlatform probe) (.ok (.flag true))

omit [Suite] [SoftBackend W] in
/-- Whether the command hands a wallet over. -/
def isHandover : Command W → Bool
  | .own .. | .registerPlatform _ => true
  | _ => false

variable {command : Command W} {scene scene' : Scene W} {result : Except Error Reply}

/-- An effect that brings no wallet into the registry leaves the names as they are. -/
theorem Effect.names_eq (heffect : Effect command scene result scene')
    (hdistinct : scene.manager.Distinct) (hprobe : ∀ probe, command ≠ .registerPlatform probe)
    (hnone : ∀ name, ¬ command.Enters scene.manager scene.world name result) :
    scene'.manager.names = scene.manager.names := by
  have hopens : ∀ name envelope,
      ¬ command.OpensFile scene.manager scene.world name envelope :=
    fun name envelope h => hnone name (.unlocking h)
  cases heffect with
  | looked hsaw => rw [hsaw.manager_eq]
  | @locked _ _ entry hopen =>
    rcases scene.afterLocking_manager entry with heq | heq
    · rw [heq]
    · rw [heq]
      exact Manager.names_replace
  | lockedAll =>
    rw [Scene.lockedAll_eq hdistinct]
    show List.map _ (List.map _ _) = _
    rw [List.map_map]
    rfl
  | changed hchanges hopen hsaw =>
    exact Manager.names_replace.trans (congrArg Manager.names hsaw.manager_eq)
  | @opened _ _ name wallet hopened => exact absurd (.opened rfl) (hnone name)
  | @unlocked _ scene₁ scene₂ text password entry _ wallet world hopened hsaw hfind hlocked hact
      hregistered =>
    obtain rfl := Manager.eq_of_not_opensFile hopened hregistered hopens
    exact Manager.names_replace.trans (congrArg Manager.names hsaw.manager_eq)
  | @unlockRefused _ _ _ name _ password _ hopened hsaw hnew =>
    obtain ⟨envelope, h⟩ := Manager.exists_opensFile hopened hnew password
    exact absurd h (hopens name envelope)
  | @created _ name => exact absurd (.created rfl) (hnone name)
  | @owned _ _ name wallet _ howns hnew =>
    rcases howns with rfl | ⟨-, rfl⟩
    · exact absurd (.owned rfl) (hnone name)
    · exact absurd rfl (hprobe _)
  | _ => rfl

/-- A command to create or to open a wallet, or to take it over, registers it if it succeeds. -/
theorem Effect.exists_name {text : String} {reply : Reply}
    (heffect : Effect command scene (.ok reply) scene')
    (hcommand : command = .create text ∨ command = .openWallet text) :
    ∃ name : WalletName, name.text = text ∧
      scene'.manager.names = scene.manager.names.filter (· ≠ name) ++ [name] := by
  have hquiet : command.onlyLooks = false := by
    rcases hcommand with rfl | rfl <;> rfl
  cases heffect with
  | looked hsaw hchecked hlooks => exact absurd (hlooks reply rfl) (by simp [hquiet])
  | idle hlooks => exact absurd (hlooks reply rfl) (by simp [hquiet])
  | @opened _ _ name wallet hopened =>
    refine ⟨name, by simpa using hcommand, ?_⟩
    rw [hopened.manager_eq, Manager.names_registered]
  | @created _ name => exact ⟨name, by simpa using hcommand, Manager.names_registered⟩
  | changed hchanges => cases hchanges <;> simp at hcommand
  | owned howns => rcases hcommand with rfl | rfl <;> simp at howns
  | _ => exact absurd hcommand (by simp)

end Command

namespace Manager

variable {manager : Manager W} {world : World} {command : Command W} {name : WalletName}

/-! ## One command -/

omit [Suite] [SoftBackend W] in
/-- Only what can be read as a name is ever registered. -/
theorem accepts_of_isRegistered {text : String} (h : manager.isRegistered text = true) :
    WalletName.accepts text = true := by
  rw [isRegistered_eq_any, List.any_eq_true] at h
  obtain ⟨name, -, htext⟩ := h
  rw [beq_iff_eq] at htext
  subst htext
  exact name.accepted

omit [Suite] [SoftBackend W] in
/-- A new name has no place to leave. -/
theorem filter_names_of_notMem (h : name ∉ manager.names) :
    manager.names.filter (· ≠ name) = manager.names :=
  List.filter_eq_self.2 fun _ hother => decide_eq_true fun heq => h (heq ▸ hother)

omit [Suite] in
theorem names_unlockRegistered (text password : String) (scene : Scene W) :
    ((unlockRegistered text password).outcome scene).2.manager.names = scene.manager.names := by
  rw [outcome_unlockRegistered]
  cases hfind : scene.manager.find? text with
  | none => rfl
  | some entry =>
    dsimp only
    split
    · rw [outcome_request]
      exact names_replace
    · rfl

/-- A file that is opened to be unlocked enters the registry, whether or not the password fits. -/
theorem names_after_of_opensFile {envelope : Envelope} (hdistinct : manager.Distinct)
    (hopens : command.OpensFile manager world name envelope) :
    (manager.after world command).names = manager.names.filter (· ≠ name) ++ [name] := by
  obtain ⟨hnew, world', hopen⟩ := exists_openFile_of_opensFile hdistinct hopens
  have hnames : (⟨manager, world, []⟩ : Scene W).checked.manager.names = manager.names :=
    @names_start W _ manager world .checkTimeout hdistinct
  obtain ⟨password, rfl⟩ := hopens.isUnlock
  unfold after
  rw [Command.perform, Command.outcome_bind_return, unlock_eq, outcome_checkTimeout_bind,
    Act.outcome_bind, Act.outcome_get]
  dsimp only
  rw [hnew, Bool.not_false, if_pos rfl, Act.outcome_bind, hopen]
  refine (names_unlockRegistered _ _ _).trans ?_
  dsimp only
  rw [names_registered, hnames]

theorem names_after_of_isOk (hdistinct : manager.Distinct)
    (hok : (manager.exchange ⟨world, command⟩).result.isOk = true)
    (hcommand : command = .create name.text ∨ command = .openWallet name.text) :
    (manager.after world command).names = manager.names.filter (· ≠ name) ++ [name] := by
  obtain ⟨reply, hreply⟩ := Act.exists_of_isOk hok
  have heffect := command.effect ⟨manager, world, []⟩
  change (command.perform.outcome ⟨manager, world, []⟩).1 = .ok reply at hreply
  rw [hreply] at heffect
  obtain ⟨name', hname, hnames⟩ := heffect.exists_name hcommand
  obtain rfl := WalletName.eq_of_text_eq hname
  exact hnames.trans (by rw [names_start hdistinct])

/-- A wallet that is handed over enters under a new name. -/
theorem names_after_of_isHandover (hhandover : command.isHandover = true)
    (henters : command.Enters manager world name (manager.exchange ⟨world, command⟩).result) :
    name ∉ manager.names ∧ (manager.after world command).names = manager.names ++ [name] := by
  generalize hresult : (manager.exchange ⟨world, command⟩).result = result at henters
  cases henters with
  | created | opened => exact absurd hhandover (by simp [Command.isHandover])
  | unlocking hopens =>
    obtain ⟨⟨password, rfl⟩, -, -⟩ := hopens
    exact absurd hhandover (by simp [Command.isHandover])
  | @owned wallet _ hok =>
    rw [← hresult] at hok
    unfold exchange at hok
    unfold after
    rw [Command.perform, Command.outcome_bind_return] at hok ⊢
    rcases Command.outcome_own name.text wallet ⟨manager, world, []⟩ with ⟨error, hown⟩ |
      ⟨name', hname, hnew, hown⟩
    · rw [hown] at hok
      exact absurd hok (by simp)
    · obtain rfl := WalletName.eq_of_text_eq hname
      rw [hown]
      exact ⟨isRegistered_eq_false_iff.1 hnew, List.map_append⟩
  | @platform probe hplatform =>
    unfold exchange at hresult
    unfold after
    rw [Command.perform, Command.outcome_bind_return] at hresult ⊢
    rcases Command.outcome_registerPlatform probe ⟨manager, world, []⟩ with hsame |
      ⟨name', wallet, hname, -, hnew, hown⟩
    · rw [hsame] at hresult
      exact absurd hresult (by simp [Except.map])
    · obtain rfl := WalletName.eq_of_text_eq (hname.trans hplatform.symm)
      rw [hown]
      exact ⟨isRegistered_eq_false_iff.1 hnew, List.map_append⟩

/-- A wallet that enters becomes the last one, in place of any other of its name. -/
theorem names_after_of_enters (hdistinct : manager.Distinct)
    (henters : command.Enters manager world name (manager.exchange ⟨world, command⟩).result) :
    (manager.after world command).names = manager.names.filter (· ≠ name) ++ [name] := by
  by_cases hhandover : command.isHandover = true
  · obtain ⟨hnew, hnames⟩ := names_after_of_isHandover hhandover henters
    rw [hnames, filter_names_of_notMem hnew]
  · generalize hresult : (manager.exchange ⟨world, command⟩).result = result at henters
    cases henters with
    | created hok => exact names_after_of_isOk hdistinct (hresult ▸ hok) (.inl rfl)
    | opened hok => exact names_after_of_isOk hdistinct (hresult ▸ hok) (.inr rfl)
    | unlocking hopens => exact names_after_of_opensFile hdistinct hopens
    | owned | platform => exact absurd rfl hhandover

/-- A command that brings no wallet into the registry leaves the names as they are. -/
theorem names_after_of_not_enters (hdistinct : manager.Distinct)
    (hnone : ∀ name, ¬ command.Enters manager world name
      (manager.exchange ⟨world, command⟩).result) :
    (manager.after world command).names = manager.names := by
  by_cases hprobe : ∃ probe, command = .registerPlatform probe
  · obtain ⟨probe, rfl⟩ := hprobe
    unfold exchange at hnone
    unfold after
    rw [Command.perform, Command.outcome_bind_return] at hnone ⊢
    rcases Command.outcome_registerPlatform probe ⟨manager, world, []⟩ with hsame |
      ⟨name, wallet, hname, -, hnew, hown⟩
    · rw [hsame]
    · rw [hown] at hnone
      exact absurd (.platform hname) (hnone name)
  · have heffect := command.effect ⟨manager, world, []⟩
    refine (heffect.names_eq (Command.distinct_start hdistinct)
      (fun probe heq => hprobe ⟨probe, heq⟩) fun name henters => ?_).trans (names_start hdistinct)
    generalize hresult : (command.perform.outcome ⟨manager, world, []⟩).1 = result at henters
    have hexchange : (manager.exchange ⟨world, command⟩).result = result := hresult
    rw [hexchange] at hnone
    refine hnone name ?_
    cases henters with
    | created hok => exact .created hok
    | opened hok => exact .opened hok
    | unlocking hopens => exact .unlocking (opensFile_of_start hdistinct hopens)
    | owned hok => exact .owned hok
    | platform hname => exact .platform hname

/-! ## Runs -/

/-- One call changes nothing about the order of the other names. -/
theorem filter_names_after (hdistinct : manager.Distinct) {keep : WalletName → Bool}
    (hkept : ∀ name, command.Enters manager world name (manager.exchange ⟨world, command⟩).result →
      keep name = false) :
    (manager.after world command).names.filter keep = manager.names.filter keep := by
  by_cases henters : ∃ name,
      command.Enters manager world name (manager.exchange ⟨world, command⟩).result
  · obtain ⟨name, henters⟩ := henters
    have hout := hkept name henters
    rw [names_after_of_enters hdistinct henters, List.filter_append, List.filter_filter,
      List.filter_singleton, hout, cond_false, List.append_nil]
    -- the name that goes and comes back is not among those that are kept
    refine List.filter_congr fun other _ => ?_
    by_cases hother : other = name
    · rw [hother, hout, Bool.false_and]
    · simp [hother]
  · rw [names_after_of_not_enters hdistinct (not_exists.1 henters)]

/-- The order of the names that no call of a run brings into the registry never changes. -/
theorem filter_names_afterAll (hdistinct : manager.Distinct) {keep : WalletName → Bool}
    {calls : List (Call W)}
    (hkept : ∀ before call after, calls = before ++ call :: after → ∀ name,
      call.command.Enters (manager.afterAll before) call.world name
        ((manager.afterAll before).exchange call).result → keep name = false) :
    (manager.afterAll calls).names.filter keep = manager.names.filter keep := by
  induction calls generalizing manager with
  | nil => rfl
  | cons call rest ih =>
    have hfirst : (manager.after call.world call.command).names.filter keep =
        manager.names.filter keep := filter_names_after hdistinct (hkept [] call rest rfl)
    refine (ih (distinct_after hdistinct call) ?_).trans hfirst
    rintro before other after rfl
    exact hkept (call :: before) other after rfl

/-! ## Listings -/

omit [Suite] in
theorem map_listed_standings : manager.standings.map listed = manager.wallets.map shown := by
  unfold standings
  rw [List.map_map]
  rfl

/-- A listing has one text for each wallet, in registration order. -/
theorem result_listWallets (manager : Manager W) (world : World) :
    (manager.exchange ⟨world, .listWallets⟩).result =
      .ok (.names ((manager.after world .listWallets).standings.map listed)) := by
  unfold exchange after
  simp only [Command.perform, Command.outcome_bind_return, outcome_listWallets]
  rw [map_listed_standings]
  rfl

/-- Whatever a manager has been told to do, its wallets have distinct names, and each command leaves
    them in the order of registration. A wallet that is created or opened, be it to be unlocked,
    becomes the last one, in place of any other of its name; one that is handed over becomes the
    last one, and its name is new; no other command changes the sequence of names, and no run
    changes the order of the names under which it registers nothing. A listing has one text for each
    wallet, in this order, and it can be read in one way only. -/
theorem Reachable.registration_order (h : Reachable (fun _ => True) manager) :
    manager.names.Nodup ∧
    (∀ text, manager.isRegistered text = true → WalletName.accepts text = true) ∧
    (∀ (world : World) (command : Command W),
      (∀ name, command.Enters manager world name (manager.exchange ⟨world, command⟩).result →
        (manager.after world command).names = manager.names.filter (· ≠ name) ++ [name] ∧
          (command.isHandover = true → name ∉ manager.names)) ∧
      ((∀ name, ¬ command.Enters manager world name
          (manager.exchange ⟨world, command⟩).result) →
        (manager.after world command).names = manager.names)) ∧
    (∀ (keep : WalletName → Bool) (calls : List (Call W)),
      (∀ before call after, calls = before ++ call :: after → ∀ name,
        call.command.Enters (manager.afterAll before) call.world name
          ((manager.afterAll before).exchange call).result → keep name = false) →
      (manager.afterAll calls).names.filter keep = manager.names.filter keep) ∧
    ∀ world : World, ∃ standings : List (WalletName × Bool),
      (manager.exchange ⟨world, .listWallets⟩).result = .ok (.names (standings.map listed)) ∧
      standings = (manager.after world .listWallets).standings ∧
      standings.map Prod.fst = manager.names ∧
      ∀ others, others.map listed = standings.map listed → others = standings := by
  have hdistinct := h.distinct
  refine ⟨hdistinct, fun _ => accepts_of_isRegistered, ?_, ?_, ?_⟩
  · intro world command
    refine ⟨fun name henters => ⟨names_after_of_enters hdistinct henters, ?_⟩,
      names_after_of_not_enters hdistinct⟩
    exact fun hhandover => (names_after_of_isHandover hhandover henters).1
  · intro keep calls hkept
    exact filter_names_afterAll hdistinct hkept
  · intro world
    refine ⟨_, result_listWallets manager world, rfl, ?_,
      fun others heq => List.map_injective_iff.2 listed_injective heq⟩
    have hnone : ∀ name, ¬ (Command.listWallets : Command W).Enters manager world name
        (manager.exchange ⟨world, .listWallets⟩).result := by
      intro name henters
      generalize (manager.exchange ⟨world, .listWallets⟩).result = result at henters
      cases henters with
      | unlocking hopens =>
        obtain ⟨password, heq⟩ := hopens.isUnlock
        exact absurd heq (by simp)
    rw [← names_after_of_not_enters hdistinct hnone]
    unfold standings names
    rw [List.map_map]
    rfl

end Manager

end

/-! ## A password that is wrong -/

namespace Manager

local instance orderPrimitives : Suite := Suite.plain

theorem exists_opensFile_guess : ∃ envelope,
    (Command.unlock "w" "guess" : Command (SoftWallet ⊕ Device)).OpensFile minuteManager walletWorld
      walletName envelope := by
  have hloads : ((Envelope.load (minuteManager.walletPath walletName)).outcome
      walletWorld).1.isOk = true := by decide +kernel
  obtain ⟨envelope, hload⟩ := Act.exists_of_isOk hloads
  exact ⟨envelope, ⟨"guess", rfl⟩, rfl, hload⟩

/-- A wallet whose file is opened to be unlocked is registered, and has no place to leave. -/
theorem registration_order_of_guess : Reachable (fun _ => True) minuteManager ∧
    (minuteManager.after walletWorld (.unlock "w" "guess")).names =
      minuteManager.names.filter (· ≠ walletName) ++ [walletName] := by
  obtain ⟨envelope, hopens⟩ := exists_opensFile_guess
  obtain ⟨-, -, hstep, -⟩ := reachable_minuteManager.registration_order
  refine ⟨reachable_minuteManager, ?_⟩
  exact ((hstep walletWorld (.unlock "w" "guess")).1 walletName (.unlocking hopens)).1

/-- To unlock a wallet can fail and register the wallet all the same. -/
theorem failed_unlock_registers : Reachable (fun _ => True) minuteManager ∧
    (∃ error, (minuteManager.exchange ⟨walletWorld, .unlock "w" "guess"⟩).result =
      .error error) ∧
    minuteManager.names = [] ∧
    (minuteManager.after walletWorld (.unlock "w" "guess")).names = [walletName] :=
  ⟨reachable_minuteManager, Act.exists_of_isOk_eq_false (by decide +kernel), rfl, by decide +kernel⟩

end Manager

end Custody
