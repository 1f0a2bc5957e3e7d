import Custody.Proofs.Manager.Expiry
import Custody.Proofs.Timeout
import Custody.Proofs.Wallet.Lasting

set_option autoImplicit false

/-! # The sliding window

Once a timeout has been set, each command that looks at the window opens it anew, and gets to work
with every wallet locked exactly if the window had run out by then: `Manager.Meets` says so of one
call, and `Manager.Reachable.sliding_window` of every call of a run. A wallet that is unlocked
therefore stays so up to the work of a later call exactly if no gap between two looks is as long as
the window, and nothing has closed it in between.

All this is so as long as the clock is read outside of leap seconds. In one of them the gap to
another look need not tell whether the window has run out (`Manager.not_listed_iff_of_leapSecond`). -/

namespace Custody

section

variable [Suite]

/-! ## The look comes first -/

namespace Command

variable {W : Type} [SoftBackend W] {command : Command W}

omit [Suite] [SoftBackend W] in
/-- What begins with a look at the timeout still does when its answer is reworded. -/
theorem exists_work_of_bind {α : Type} [Backend W] (f : Unit → Manager.Operation W α)
    (reply : α → Reply) : ∃ work : Manager.Operation W Reply,
      ((Manager.checkTimeout >>= f) >>= fun a => pure (reply a)) =
        Manager.checkTimeout >>= fun _ => work :=
  ⟨f () >>= fun a => pure (reply a), bind_assoc _ _ _⟩

/-- A checked command is a look at the timeout, and work after that. -/
theorem exists_work (hchecked : command.isChecked = true) : ∃ work : Manager.Operation W Reply,
    command.perform = Manager.checkTimeout >>= fun _ => work := by
  cases command with
  | create name => exact exists_work_of_bind _ _
  | openWallet name => exact exists_work_of_bind _ _
  | listWallets => exact exists_work_of_bind _ _
  | lock name => exact exists_work_of_bind _ _
  | unlock name password => exact exists_work_of_bind _ _
  | listKeys name password => exact exists_work_of_bind _ _
  | publicKeys => exact exists_work_of_bind _ _
  | mySignatures chain => exact exists_work_of_bind _ _
  | importKey name key => exact exists_work_of_bind _ _
  | removeKey name password key => exact exists_work_of_bind _ _
  | createKey name selector => exact exists_work_of_bind _ _
  | signTransaction tx keys chain => exact exists_work_of_bind _ _
  | signDigest digest key => exact exists_work_of_bind _ _
  | checkTimeout => exact ⟨pure .done, rfl⟩
  | _ => exact absurd hchecked (by simp [isChecked])

end Command

/-! ## One call -/

variable {B : Type} [Backend B]

/-- The last look at the window, once the call is over. -/
def Call.lastLook {W : Type} (clock : Clock) (look : Instant) (call : Call W) : Instant :=
  if call.command.isChecked then call.world.time clock else look

/-- If the call looks at the window, it does so outside of leap seconds, and a window can be opened
    then. -/
def Call.LooksTimely {W : Type} (clock : Clock) (duration : Duration) (call : Call W) : Prop :=
  call.command.isChecked = true → (call.world.time clock).isLeap = false ∧
    ((call.world.time clock).add? duration).isSome = true

namespace Manager

variable {manager : Manager (SoftWallet ⊕ B)} {call : Call (SoftWallet ⊕ B)} {look : Instant}
  {duration : Duration}

/-- How a call meets the window that was opened at the last look. If the command is one that looks,
    it does the rest of its work on a scene in which the window has been opened anew, and every
    wallet has been locked if the window had run out, and only then. Whether it succeeds or not, the
    window ends its duration after the last look, and not before it ended. -/
structure Meets (manager : Manager (SoftWallet ⊕ B)) (call : Call (SoftWallet ⊕ B))
    (look : Instant) (duration : Duration) : Prop where
  before : manager.timeout.Spans look duration
  looks : call.command.isChecked = true → ∃ (work : Operation (SoftWallet ⊕ B) Reply)
    (timeout : UnlockTimeout),
    call.command.perform = (checkTimeout >>= fun _ => work) ∧
    timeout.Spans (call.world.time manager.clock) duration ∧
    call.command.perform.outcome ⟨manager, call.world, []⟩ = work.outcome
      (if (duration.toNanos : Int) ≤ (call.world.time manager.clock).toNanos - look.toNanos then
        ⟨{ manager with
            timeout
            wallets := manager.wallets.map fun entry => (entry.1, locked entry.2) },
          call.world, manager.wallets.flatMap lockEvents⟩
      else ⟨{ manager with timeout }, call.world, []⟩)
  after : (manager.after call.world call.command).timeout.Spans
    (call.lastLook manager.clock look) duration
  unmoved : call.command.isChecked = false →
    (manager.after call.world call.command).timeout = manager.timeout
  grows : look.toNanos ≤ (call.lastLook manager.clock look).toNanos →
    ∀ expiry expiry', manager.timeout.expiresAt = some expiry →
      (manager.after call.world call.command).timeout.expiresAt = some expiry' →
      expiry.isAtMost expiry' = true

/-- What the look at the window does, in a scene in which the window was last opened at `look`. -/
theorem checked_of_spans (hdistinct : manager.Distinct) (world : World)
    (hspans : manager.timeout.Spans look duration)
    (hnow : (world.time manager.clock).isLeap = false) :
    (⟨manager, world, []⟩ : Scene (SoftWallet ⊕ B)).checked =
      if (duration.toNanos : Int) ≤ (world.time manager.clock).toNanos - look.toNanos then
        ⟨{ manager with
            timeout := (manager.timeout.check (world.time manager.clock)).2
            wallets := manager.wallets.map fun entry => (entry.1, locked entry.2) },
          world, manager.wallets.flatMap lockEvents⟩
      else
        ⟨{ manager with timeout := (manager.timeout.check (world.time manager.clock)).2 }, world,
          []⟩ := by
  have hscene : ({ manager with
      timeout := (manager.timeout.check (world.time manager.clock)).2 } :
      Manager (SoftWallet ⊕ B)).Distinct := hdistinct
  unfold Scene.checked
  simp only [hspans.check_iff hnow]
  split
  · exact Scene.lockedAll_eq hscene
  · rfl

theorem timeout_after (hquiet : call.command.setsTimeout = false) :
    (manager.after call.world call.command).timeout =
      (call.command.start ⟨manager, call.world, []⟩).manager.timeout :=
  (call.command.effect ⟨manager, call.world, []⟩).window_eq.2 hquiet

theorem timeout_start_of_checked (hchecked : call.command.isChecked = true) :
    (call.command.start ⟨manager, call.world, []⟩).manager.timeout =
      (manager.timeout.check (call.world.time manager.clock)).2 := by
  unfold Command.start
  rw [if_pos hchecked]
  obtain ⟨wallets, heq⟩ := Scene.checked_manager ⟨manager, call.world, []⟩
  rw [heq]

theorem start_of_unchecked (hchecked : call.command.isChecked = false) :
    call.command.start ⟨manager, call.world, []⟩ = ⟨manager, call.world, []⟩ := by
  unfold Command.start
  rw [if_neg (by simp [hchecked])]

/-- Every call meets the window, except those that are made to move it. -/
theorem meets (hdistinct : manager.Distinct) (hspans : manager.timeout.Spans look duration)
    (hquiet : call.command.setsTimeout = false)
    (htimely : call.LooksTimely manager.clock duration) : manager.Meets call look duration := by
  have hafter : (manager.after call.world call.command).timeout.Spans
      (call.lastLook manager.clock look) duration := by
    rw [timeout_after hquiet]
    unfold Call.lastLook
    split
    · rename_i hchecked
      rw [timeout_start_of_checked hchecked]
      exact hspans.check (htimely hchecked).1 (htimely hchecked).2
    · rename_i hchecked
      rw [start_of_unchecked (Bool.eq_false_iff.2 hchecked)]
      exact hspans
  refine ⟨hspans, ?_, hafter, ?_, ?_⟩
  · intro hchecked
    obtain ⟨work, hwork⟩ := call.command.exists_work hchecked
    obtain ⟨hnow, hadd⟩ := htimely hchecked
    refine ⟨work, _, hwork, hspans.check hnow hadd, ?_⟩
    rw [hwork, outcome_checkTimeout_bind, checked_of_spans hdistinct call.world hspans hnow]
  · intro hchecked
    rw [timeout_after hquiet, start_of_unchecked hchecked]
  · intro hlater expiry expiry' hexpiry hexpiry'
    obtain ⟨_, heq, hleap, hend⟩ := hspans
    obtain ⟨_, heq', hleap', hend'⟩ := hafter
    rw [heq] at hexpiry
    rw [heq'] at hexpiry'
    cases hexpiry
    cases hexpiry'
    rw [Instant.isAtMost_iff hleap hleap', hend, hend']
    omega

end Manager

/-! ## An unlocked wallet -/

variable {name : WalletName}

namespace Exchange

variable {W : Type}

/-- The wallet was locked, or another one took its place. -/
def Closes (name : WalletName) (exchange : Exchange W) : Prop :=
  exchange.result.isOk = true ∧
    (exchange.command = .lock name.text ∨ exchange.command = .lockAll ∨
      exchange.command = .openWallet name.text ∨ exchange.command = .create name.text)

/-- A new wallet took the place of the wallet. -/
def Recreates (name : WalletName) (exchange : Exchange W) : Prop :=
  exchange.result.isOk = true ∧ exchange.command = .create name.text

end Exchange

/-- A change of the keys of a soft wallet leaves it open. -/
theorem Command.exists_soft_of_changes {command : Command (SoftWallet ⊕ B)} {text : String}
    {request : Request} {act : Act Error ((SoftWallet ⊕ B) × World) Reply}
    (h : command.Changes text request act) : ∃ soft : SoftWallet.Operation Reply,
      SoftWallet.KeepsOpen soft ∧ ∀ wallet world, act.outcome (.inl wallet, world) =
        ((soft.outcome (wallet, world)).1, .inl (soft.outcome (wallet, world)).2.1,
          (soft.outcome (wallet, world)).2.2) := by
  cases h with
  | @importKey _ _ key hkey =>
    refine ⟨_, (SoftWallet.KeepsOpen.importKey key).map Reply.publicKey, fun wallet world => ?_⟩
    simp only [Act.outcome_map]
    rfl
  | @removeKey _ _ _ key hkey =>
    refine ⟨_, (SoftWallet.KeepsOpen.removeKey key).map fun _ => Reply.done, fun wallet world => ?_⟩
    simp only [Act.outcome_map]
    rfl
  | @createKey _ _ keyType hkey =>
    refine ⟨_, (SoftWallet.KeepsOpen.createKey keyType).map Reply.publicKey, fun wallet world => ?_⟩
    simp only [Act.outcome_map]
    rfl

namespace Manager

variable {manager : Manager (SoftWallet ⊕ B)} {scene scene' : Scene (SoftWallet ⊕ B)}
  {call : Call (SoftWallet ⊕ B)} {look : Instant} {duration : Duration}

/-- The wallet of the name is an unlocked soft wallet. -/
def HoldsOpen (manager : Manager (SoftWallet ⊕ B)) (name : WalletName) : Prop :=
  ∃ soft : SoftWallet, (name, .inl soft) ∈ manager.wallets ∧ soft.session?.isSome = true

namespace HoldsOpen

omit [Suite] [Backend B] in
theorem replace (h : manager.HoldsOpen name) {entry : WalletName × (SoftWallet ⊕ B)}
    (hentry : entry ∈ manager.wallets) (hne : entry.1 ≠ name) (wallet : SoftWallet ⊕ B) :
    (manager.replace entry.1 wallet).HoldsOpen name := by
  obtain ⟨soft, hsoft, hopen⟩ := h
  exact ⟨soft, (mem_replace hentry name _).2 (.inr ⟨Ne.symm hne, hsoft⟩), hopen⟩

omit [Suite] [Backend B] in
theorem registered (h : manager.HoldsOpen name) {other : WalletName} (hne : other ≠ name)
    (wallet : SoftWallet ⊕ B) : (manager.registered other wallet).HoldsOpen name := by
  obtain ⟨soft, hsoft, hopen⟩ := h
  exact ⟨soft, (mem_registered name _).2 (.inr ⟨Ne.symm hne, hsoft⟩), hopen⟩

omit [Suite] [Backend B] in
theorem isRegistered (h : manager.HoldsOpen name) : manager.isRegistered name.text = true := by
  obtain ⟨soft, hsoft, -⟩ := h
  exact isRegistered_of_mem hsoft

/-- A locked wallet is not the one that is open. -/
theorem ne_of_isLocked (h : manager.HoldsOpen name) (hdistinct : manager.Distinct)
    {entry : WalletName × (SoftWallet ⊕ B)} (hentry : entry ∈ manager.wallets)
    (hlocked : Backend.isLocked entry.2 = true) : entry.1 ≠ name := by
  rintro rfl
  obtain ⟨soft, hsoft, hopen⟩ := h
  have hmem : (entry.1, entry.2) ∈ manager.wallets := hentry
  rw [hdistinct.eq_of_mem hmem hsoft, HoldsLocked.isLocked_inl, Option.isNone_iff_eq_none]
    at hlocked
  rw [hlocked] at hopen
  exact absurd hopen (by simp)

/-- A soft wallet that has been locked is not open. -/
theorem session?_of_lock {wallet : SoftWallet ⊕ B} {soft : SoftWallet}
    (h : Backend.lock wallet = .inl soft) : soft.session? = none := by
  cases wallet with
  | inl soft' =>
    cases h
    rfl
  | inr other => cases h

theorem session?_of_locked {wallet : SoftWallet ⊕ B} {soft : SoftWallet}
    (h : locked wallet = .inl soft) : soft.session? = none := by
  unfold locked at h
  split at h
  · rename_i hlocked
    rwa [h, HoldsLocked.isLocked_inl, Option.isNone_iff_eq_none] at hlocked
  · exact session?_of_lock h

/-- No wallet is open once all of them have been locked. -/
theorem not_lockedAll (hdistinct : scene.manager.Distinct) :
    ¬ scene.lockedAll.manager.HoldsOpen name := by
  rintro ⟨soft, hsoft, hopen⟩
  rw [Scene.lockedAll_eq hdistinct] at hsoft
  obtain ⟨entry, -, heq⟩ := List.mem_map.1 hsoft
  rw [session?_of_locked (Prod.mk.inj heq).2] at hopen
  exact absurd hopen (by simp)

/-- An open wallet stays open, whatever the command, unless it closes the wallet. -/
theorem effect {command : Command (SoftWallet ⊕ B)} {result : Except Error Reply}
    (h : scene.manager.HoldsOpen name) (hdistinct : scene.manager.Distinct)
    (heffect : Command.Effect command scene result scene')
    (hkept : ¬ (Exchange.mk command result scene'.trace).Closes name) :
    scene'.manager.HoldsOpen name := by
  cases heffect with
  | looked hsaw => exact hsaw.manager_eq ▸ h
  | @locked _ text entry hopen =>
    obtain ⟨hentry, htext⟩ := mem_of_find?_eq_some hopen.1
    have hne : entry.1 ≠ name := by
      rintro rfl
      exact hkept ⟨rfl, .inl (congrArg Command.lock htext.symm)⟩
    rcases scene.afterLocking_manager entry with heq | heq
    · exact heq ▸ h
    · exact heq ▸ h.replace hentry hne _
  | lockedAll => exact absurd ⟨rfl, .inr (.inl rfl)⟩ hkept
  | @changed _ _ scene₁ _ _ act entry _ wallet world hchanges hopen hsaw hworld hact =>
    show (Manager.replace _ _ _).HoldsOpen name
    rw [hsaw.manager_eq]
    have hentry : (entry.1, entry.2) ∈ scene.manager.wallets :=
      (mem_of_find?_eq_some hopen.1).1
    by_cases hname : entry.1 = name
    · subst hname
      obtain ⟨soft, hsoft, hsession⟩ := h
      obtain ⟨act', hkeeps, houtcome⟩ := Command.exists_soft_of_changes hchanges
      rw [hdistinct.eq_of_mem hentry hsoft, houtcome] at hact
      obtain rfl : Sum.inl _ = wallet := congrArg (·.2.1) hact
      exact ⟨_, (mem_replace hentry _ _).2 (.inl ⟨rfl, rfl⟩), hkeeps soft _ hsession⟩
    · exact h.replace hentry hname _
  | @opened _ _ other wallet hopened =>
    rw [hopened.manager_eq]
    refine h.registered ?_ _
    rintro rfl
    exact hkept ⟨rfl, .inr (.inr (.inl rfl))⟩
  | @unlocked _ scene₁ scene₂ text password entry _ wallet world hopened hsaw hfind hlocked hact
      hregistered =>
    have h₁ : scene₁.manager.HoldsOpen name ∧ scene₁.manager.Distinct := by
      rcases hopened with rfl | ⟨other, wallet', rfl, hopened⟩
      · exact ⟨h, hdistinct⟩
      · -- only a name that is not registered is opened first
        refine ⟨?_, hopened.distinct hdistinct⟩
        by_cases hname : other = name
        · subst hname
          rw [hregistered h.isRegistered]
          exact h
        · rw [hopened.manager_eq]
          exact h.registered hname _
    obtain ⟨h₁, hdistinct₁⟩ := h₁
    have hentry := (mem_of_find?_eq_some hfind).1
    show (Manager.replace _ _ _).HoldsOpen name
    rw [hsaw.manager_eq]
    exact h₁.replace hentry (h₁.ne_of_isLocked hdistinct₁ hentry hlocked) _
  | @unlockRefused _ scene₁ scene₂ other _ _ _ hopened hsaw hnew =>
    rw [hsaw.manager_eq, hopened.manager_eq]
    refine h.registered ?_ _
    rintro rfl
    exact absurd h.isRegistered (by simp [hnew])
  | @created _ other password wallet world hprepared =>
    refine h.registered ?_ _
    rintro rfl
    exact hkept ⟨rfl, .inr (.inr (.inr rfl))⟩
  | owned howns hnew =>
    obtain ⟨soft, hsoft, hopen⟩ := h
    exact ⟨soft, List.mem_append_left _ hsoft, hopen⟩
  | _ => exact h

/-- A wallet that has been locked is not open. -/
theorem not_afterLocking (hdistinct : scene.manager.Distinct)
    {entry : WalletName × (SoftWallet ⊕ B)} (hentry : entry ∈ scene.manager.wallets) :
    ¬ (scene.afterLocking entry).manager.HoldsOpen entry.1 := by
  unfold Scene.afterLocking
  dsimp only
  split
  · rename_i hlocked
    exact fun h => h.ne_of_isLocked hdistinct hentry hlocked rfl
  · rintro ⟨soft, hsoft, hopen⟩
    rcases (mem_replace hentry entry.1 _).1 hsoft with ⟨-, heq⟩ | ⟨hne, -⟩
    · rw [session?_of_lock heq.symm] at hopen
      exact absurd hopen (by simp)
    · exact absurd rfl hne

/-- A wallet that has been opened is locked. -/
theorem not_opened {command : Command (SoftWallet ⊕ B)} {result : Except Error Reply}
    (heffect : Command.Effect command scene result scene')
    (hcommand : command = .openWallet name.text) (hok : result.isOk = true) :
    ¬ scene'.manager.HoldsOpen name := by
  cases result with
  | error error => exact absurd hok (by simp)
  | ok reply =>
    cases heffect with
    | looked hsaw hchecked hquiet =>
      exact absurd (hquiet reply rfl) (by simp [hcommand, Command.onlyLooks])
    | idle hquiet => exact absurd (hquiet reply rfl) (by simp [hcommand, Command.onlyLooks])
    | changed hchanges => cases hchanges <;> exact absurd hcommand (by simp)
    | owned howns => rcases howns with rfl | ⟨-, rfl⟩ <;> exact absurd hcommand (by simp)
    | opened hopened =>
      obtain rfl := WalletName.eq_of_text_eq (Command.openWallet.inj hcommand)
      rintro ⟨soft, hsoft, hopen⟩
      rw [hopened.manager_eq] at hsoft
      obtain ⟨envelope, -, rfl⟩ := hopened.loaded
      rcases (mem_registered _ _).1 hsoft with ⟨-, heq⟩ | ⟨hne, -⟩
      · cases heq
        cases hopen
      · exact absurd rfl hne
    | _ => exact absurd hcommand (by simp)

end HoldsOpen

/-- A call that closes the wallet leaves it closed, unless it makes a new one. -/
theorem not_holdsOpen_of_closes (hdistinct : manager.Distinct)
    (hcloses : (manager.exchange call).Closes name)
    (hkept : ¬ (manager.exchange call).Recreates name) :
    ¬ (manager.after call.world call.command).HoldsOpen name := by
  obtain ⟨hok, hcommand⟩ := hcloses
  obtain ⟨world, command⟩ := call
  have hscene : (⟨manager, world, []⟩ : Scene (SoftWallet ⊕ B)).manager.Distinct := hdistinct
  rcases hcommand with heq | heq | heq | heq
  · obtain rfl : command = .lock name.text := heq
    unfold exchange at hok
    unfold after
    simp only [Command.perform, Command.outcome_bind_return, outcome_lock] at hok ⊢
    cases hfind : (⟨manager, world, []⟩ : Scene (SoftWallet ⊕ B)).checked.manager.find?
        name.text with
    | none =>
      rw [hfind] at hok
      exact absurd hok (by simp)
    | some entry =>
      obtain ⟨hentry, htext⟩ := mem_of_find?_eq_some hfind
      obtain rfl := WalletName.eq_of_text_eq htext
      exact HoldsOpen.not_afterLocking (Scene.distinct_checked hscene) hentry
  · obtain rfl : command = .lockAll := heq
    unfold after
    simp only [Command.perform, Command.outcome_bind_return, outcome_lockAll]
    exact HoldsOpen.not_lockedAll hscene
  · -- what is opened is registered locked
    exact HoldsOpen.not_opened (command.effect (⟨manager, world, []⟩ : Scene (SoftWallet ⊕ B)))
      heq hok
  · exact absurd ⟨hok, heq⟩ hkept

/-! ## Runs -/

/-- Each look comes before the window that the last one has opened runs out. -/
def Prompt (clock : Clock) (duration : Duration) :
    Instant → List (Call (SoftWallet ⊕ B)) → Prop
  | _, [] => True
  | look, call :: rest =>
    (call.command.isChecked = true →
      (call.world.time clock).toNanos - look.toNanos < duration.toNanos) ∧
    Prompt clock duration (call.lastLook clock look) rest

/-- The wallet stays unlocked, and no other takes its place, until the last call gets to work. -/
def StaysOpen (name : WalletName) :
    Manager (SoftWallet ⊕ B) → List (Call (SoftWallet ⊕ B)) → Call (SoftWallet ⊕ B) → Prop
  | manager, [], last => (last.command.start ⟨manager, last.world, []⟩).manager.HoldsOpen name
  | manager, call :: rest, last =>
    (call.command.start ⟨manager, call.world, []⟩).manager.HoldsOpen name ∧
    (manager.after call.world call.command).HoldsOpen name ∧
    ¬ (manager.exchange call).Recreates name ∧
    StaysOpen name (manager.after call.world call.command) rest last

/-- A wallet is still unlocked when a command gets to work, unless the command has found that the
    window has run out. -/
theorem start_holdsOpen_iff (hdistinct : manager.Distinct)
    (hspans : manager.timeout.Spans look duration)
    (htimely : call.LooksTimely manager.clock duration) (h : manager.HoldsOpen name) :
    (call.command.start ⟨manager, call.world, []⟩).manager.HoldsOpen name ↔
      (call.command.isChecked = true →
        (call.world.time manager.clock).toNanos - look.toNanos < duration.toNanos) := by
  have hscene : ({ manager with
      timeout := (manager.timeout.check (call.world.time manager.clock)).2 } :
      Manager (SoftWallet ⊕ B)).Distinct := hdistinct
  cases hchecked : call.command.isChecked with
  | false =>
    rw [start_of_unchecked hchecked]
    exact iff_of_true h (by simp)
  | true =>
    unfold Command.start Scene.checked
    simp only [hchecked, hspans.check_iff (htimely hchecked).1, if_true, forall_const]
    split
    · rename_i hover
      exact iff_of_false (HoldsOpen.not_lockedAll hscene) (Int.not_lt.2 hover)
    · rename_i hover
      exact iff_of_true h (Int.not_le.1 hover)

/-- A wallet that is unlocked when a command gets to work is unlocked after it and the same, unless
    the command closes it. -/
theorem after_holdsOpen_iff (hdistinct : manager.Distinct)
    (h : (call.command.start ⟨manager, call.world, []⟩).manager.HoldsOpen name) :
    ((manager.after call.world call.command).HoldsOpen name ∧
      ¬ (manager.exchange call).Recreates name) ↔ ¬ (manager.exchange call).Closes name := by
  have hscene : (⟨manager, call.world, []⟩ : Scene (SoftWallet ⊕ B)).manager.Distinct := hdistinct
  constructor
  · rintro ⟨hafter, hkept⟩ hcloses
    exact not_holdsOpen_of_closes hdistinct hcloses hkept hafter
  · intro hkept
    refine ⟨h.effect (Command.distinct_start hscene) (call.command.effect _) hkept, ?_⟩
    rintro ⟨hok, hcommand⟩
    exact hkept ⟨hok, .inr (.inr (.inr hcommand))⟩

/-- A wallet stays unlocked exactly if each look comes in time and nothing closes the wallet. -/
theorem staysOpen_iff (hdistinct : manager.Distinct)
    (hspans : manager.timeout.Spans look duration) (h : manager.HoldsOpen name)
    {calls : List (Call (SoftWallet ⊕ B))} {last : Call (SoftWallet ⊕ B)}
    (hquiet : ∀ call ∈ calls, call.command.setsTimeout = false)
    (htimely : ∀ call ∈ calls, call.LooksTimely manager.clock duration)
    (hlast : last.LooksTimely manager.clock duration) :
    manager.StaysOpen name calls last ↔
      Prompt manager.clock duration look (calls ++ [last]) ∧
        ∀ exchange ∈ manager.exchanges calls, ¬ exchange.Closes name := by
  induction calls generalizing manager look with
  | nil =>
    simp only [StaysOpen, Prompt, exchanges, List.nil_append, List.not_mem_nil, and_true]
    rw [start_holdsOpen_iff hdistinct hspans hlast h]
    simp
  | cons call rest ih =>
    simp only [List.forall_mem_cons] at hquiet htimely
    have hmeets := meets hdistinct hspans hquiet.1 htimely.1
    have hstart : (call.command.start ⟨manager, call.world, []⟩).manager.HoldsOpen name ↔ _ :=
      start_holdsOpen_iff hdistinct hspans htimely.1 h
    simp only [StaysOpen, Prompt, exchanges, List.cons_append, List.forall_mem_cons]
    rw [← hstart]
    constructor
    · rintro ⟨hstart, hafter, hkept, hrest⟩
      have hcloses := (after_holdsOpen_iff hdistinct hstart).1 ⟨hafter, hkept⟩
      rw [ih (distinct_after hdistinct call) hmeets.after hafter hquiet.2
        (by rw [clock_after]; exact htimely.2) (by rwa [clock_after]), clock_after] at hrest
      exact ⟨⟨hstart, hrest.1⟩, hcloses, hrest.2⟩
    · rintro ⟨⟨hstart, hprompt⟩, hcloses, hrest⟩
      obtain ⟨hafter, hkept⟩ := (after_holdsOpen_iff hdistinct hstart).2 hcloses
      refine ⟨hstart, hafter, hkept, ?_⟩
      rw [ih (distinct_after hdistinct call) hmeets.after hafter hquiet.2
        (by rw [clock_after]; exact htimely.2) (by rwa [clock_after]), clock_after]
      exact ⟨hprompt, hrest⟩

/-- The window along a run ends its duration after the last look. -/
theorem spans_afterAll (hdistinct : manager.Distinct)
    (hspans : manager.timeout.Spans look duration) {calls : List (Call (SoftWallet ⊕ B))}
    (hquiet : ∀ call ∈ calls, call.command.setsTimeout = false)
    (htimely : ∀ call ∈ calls, call.LooksTimely manager.clock duration) :
    (manager.afterAll calls).Distinct ∧ (manager.afterAll calls).clock = manager.clock ∧
      (manager.afterAll calls).timeout.Spans (calls.foldl (Call.lastLook manager.clock) look)
        duration := by
  induction calls generalizing manager look with
  | nil => exact ⟨hdistinct, rfl, hspans⟩
  | cons call rest ih =>
    simp only [List.forall_mem_cons] at hquiet htimely
    have hmeets := meets hdistinct hspans hquiet.1 htimely.1
    have hrest := ih (distinct_after hdistinct call) hmeets.after hquiet.2
      (by rw [clock_after]; exact htimely.2)
    rw [clock_after] at hrest
    exact hrest

/-- Without a window there is nothing for a command to notice. -/
theorem start_of_disabled (h : manager.timeout.isEnabled = false) :
    call.command.start ⟨manager, call.world, []⟩ = ⟨manager, call.world, []⟩ := by
  unfold Command.start Scene.checked
  rw [UnlockTimeout.check_of_disabled h]
  simp

/-- Without a window there is none until a timeout is set. -/
theorem disabled_after (h : manager.timeout.isEnabled = false)
    (hquiet : ∀ duration, call.command ≠ .setTimeout duration) :
    (manager.after call.world call.command).timeout.isEnabled = false := by
  cases hsets : call.command.setsTimeout with
  | false =>
    rw [timeout_after hsets, start_of_disabled h]
    exact h
  | true =>
    obtain ⟨world, command⟩ := call
    cases command with
    | setTimeout duration => exact absurd rfl (hquiet duration)
    | disableTimeout => rfl
    | _ => exact absurd hsets (by simp [Command.setsTimeout])

theorem disabled_afterAll (hdistinct : manager.Distinct) (h : manager.timeout.isEnabled = false)
    {calls : List (Call (SoftWallet ⊕ B))}
    (hquiet : ∀ call ∈ calls, ∀ duration, call.command ≠ .setTimeout duration) :
    (manager.afterAll calls).Distinct ∧ (manager.afterAll calls).timeout.isEnabled = false := by
  induction calls generalizing manager with
  | nil => exact ⟨hdistinct, h⟩
  | cons call rest ih =>
    simp only [List.forall_mem_cons] at hquiet
    exact ih (distinct_after hdistinct call) (disabled_after h hquiet.1) hquiet.2

/-- How a call passes by a manager without a window. If the command is one that looks, it does the rest
    of its work on the scene as it was, whatever the time is; and a wallet that is unlocked stays so
    and the same, unless the call closes it. -/
structure PassesBy (manager : Manager (SoftWallet ⊕ B)) (call : Call (SoftWallet ⊕ B)) : Prop where
  disabled : manager.timeout.isEnabled = false
  looks : call.command.isChecked = true → ∃ work : Operation (SoftWallet ⊕ B) Reply,
    call.command.perform = (checkTimeout >>= fun _ => work) ∧
    call.command.perform.outcome ⟨manager, call.world, []⟩ =
      work.outcome ⟨manager, call.world, []⟩
  stays : ∀ name, manager.HoldsOpen name →
    (((manager.after call.world call.command).HoldsOpen name ∧
      ¬ (manager.exchange call).Recreates name) ↔ ¬ (manager.exchange call).Closes name)

theorem passesBy (hdistinct : manager.Distinct) (h : manager.timeout.isEnabled = false) :
    manager.PassesBy call where
  disabled := h
  looks hchecked := by
    obtain ⟨work, hwork⟩ := call.command.exists_work hchecked
    refine ⟨work, hwork, ?_⟩
    have hstart : call.command.start ⟨manager, call.world, []⟩ = _ := start_of_disabled h
    unfold Command.start at hstart
    rw [if_pos hchecked] at hstart
    rw [hwork, outcome_checkTimeout_bind, hstart]
  stays name hopen := by
    refine after_holdsOpen_iff hdistinct ?_
    rw [start_of_disabled h]
    exact hopen

/-- Setting a timeout opens the window. -/
theorem after_setTimeout {world : World} (hnow : (world.time manager.clock).isLeap = false)
    (hset : (manager.exchange ⟨world, .setTimeout duration⟩).result.isOk = true) :
    (manager.after world (.setTimeout duration)).timeout.Spans (world.time manager.clock)
      duration := by
  unfold exchange at hset
  unfold after
  simp only [Command.perform, Command.outcome_bind_return, Command.outcome_setTimeout] at hset ⊢
  cases htimeout : UnlockTimeout.set? duration (world.time manager.clock) with
  | none =>
    rw [htimeout] at hset
    exact absurd hset (by simp)
  | some timeout => exact UnlockTimeout.spans_of_set? hnow htimeout

/-- After a timeout has been set, and for as long as nobody moves or removes the window and the clock
    is read outside of leap seconds, every call meets the window that was opened at the last look
    before it; and a wallet that is unlocked stays unlocked up to the work of a later call exactly if
    each look came in time and nothing closed the wallet in between. Without a window every call
    passes by, at any time. -/
theorem Reachable.sliding_window (h : Reachable (fun _ => True) manager) :
    (∀ (world : World) (duration : Duration) (calls : List (Call (SoftWallet ⊕ B))),
      (world.time manager.clock).isLeap = false →
      (manager.exchange ⟨world, .setTimeout duration⟩).result.isOk = true →
      (∀ call ∈ calls, call.command.setsTimeout = false) →
      (∀ call ∈ calls, call.LooksTimely manager.clock duration) →
      (∀ before call after, calls = before ++ call :: after →
        ((manager.after world (.setTimeout duration)).afterAll before).Meets call
          (before.foldl (Call.lastLook manager.clock) (world.time manager.clock)) duration) ∧
      (∀ before between last after, calls = before ++ between ++ last :: after →
        ∀ name, ((manager.after world (.setTimeout duration)).afterAll before).HoldsOpen name →
        (((manager.after world (.setTimeout duration)).afterAll before).StaysOpen name between
            last ↔
          Prompt manager.clock duration
            (before.foldl (Call.lastLook manager.clock) (world.time manager.clock))
            (between ++ [last]) ∧
          ∀ exchange ∈ ((manager.after world (.setTimeout duration)).afterAll before).exchanges
            between, ¬ exchange.Closes name))) ∧
    (manager.timeout.isEnabled = false → ∀ calls : List (Call (SoftWallet ⊕ B)),
      (∀ call ∈ calls, ∀ duration, call.command ≠ .setTimeout duration) →
      ∀ before call after, calls = before ++ call :: after →
        (manager.afterAll before).PassesBy call) := by
  refine ⟨?_, ?_⟩
  · intro world duration calls hnow hset hquiet htimely
    have hdistinct := distinct_after h.distinct ⟨world, .setTimeout duration⟩
    have hclock : (manager.after world (.setTimeout duration)).clock = manager.clock :=
      clock_after ⟨world, .setTimeout duration⟩
    have hspans := after_setTimeout hnow hset
    refine ⟨?_, ?_⟩
    · rintro before call after rfl
      simp only [List.forall_mem_append, List.forall_mem_cons] at hquiet htimely
      obtain ⟨hdistinct', hclock', hspans'⟩ := spans_afterAll hdistinct hspans hquiet.1
        (by rw [hclock]; exact htimely.1)
      rw [hclock] at hclock' hspans'
      exact meets hdistinct' hspans' hquiet.2.1 (by rw [hclock']; exact htimely.2.1)
    · rintro before between last after rfl name hopen
      simp only [List.forall_mem_append, List.forall_mem_cons] at hquiet htimely
      obtain ⟨hdistinct', hclock', hspans'⟩ := spans_afterAll hdistinct hspans hquiet.1.1
        (by rw [hclock]; exact htimely.1.1)
      rw [hclock] at hclock' hspans'
      rw [staysOpen_iff hdistinct' hspans' hopen hquiet.1.2 (by rw [hclock']; exact htimely.1.2)
        (by rw [hclock']; exact htimely.2.1), hclock']
  · rintro hdisabled calls hquiet before call after rfl
    simp only [List.forall_mem_append] at hquiet
    obtain ⟨hdistinct, hdisabled'⟩ := disabled_afterAll h.distinct hdisabled hquiet.1
    exact passesBy hdistinct hdisabled'

end Manager

end

/-! ## A window of a minute -/

namespace Manager

local instance windowPrimitives : Suite := Suite.plain

/-- A listing at a number of seconds after the beginning of 1970. -/
def listing (seconds : Int) : Call (SoftWallet ⊕ Device) :=
  ⟨worldAt minuteWorld seconds, .listWallets⟩

theorem not_closes_listing {manager : Manager (SoftWallet ⊕ Device)} {seconds : Int}
    {name : WalletName} : ¬ (manager.exchange (listing seconds)).Closes name := by
  rintro ⟨-, hcommand⟩
  exact absurd hcommand (by simp [exchange, listing])

/-- The timeout is set to a minute at 2000, and wallets are listed at 2059. Less than a minute
    later the wallet is still unlocked, and a minute later it is not. -/
theorem sliding_window_of_minute :
    Reachable (fun _ => True) withWallet ∧
      (withWallet.exchange ⟨worldAt minuteWorld 2000, .setTimeout (.ofSeconds 60)⟩).result.isOk =
        true ∧
      (withWallet.after (worldAt minuteWorld 2000) (.setTimeout (.ofSeconds 60))).StaysOpen
        walletName [listing 2059] (listing 2118) ∧
      ¬ (withWallet.after (worldAt minuteWorld 2000) (.setTimeout (.ofSeconds 60))).StaysOpen
        walletName [listing 2059] (listing 2119) := by
  have hset : (withWallet.exchange
      ⟨worldAt minuteWorld 2000, .setTimeout (.ofSeconds 60)⟩).result.isOk = true := by
    decide +kernel
  obtain ⟨soft, hmem, hopen⟩ := exists_open_withWallet
  have hholds : (withWallet.after (worldAt minuteWorld 2000)
      (.setTimeout (.ofSeconds 60))).HoldsOpen walletName := by
    have hunguarded : (Call.mk (worldAt minuteWorld 2000) (.setTimeout (.ofSeconds 60) :
        Command (SoftWallet ⊕ Device))).command.isGuard = false := rfl
    exact ⟨soft, (call_of_unguarded withWallet hunguarded).1 _ hmem, hopen⟩
  obtain ⟨hrun, -⟩ := reachable_withWallet.sliding_window
  have hstays : ∀ seconds, ((Instant.ofSeconds seconds).add? (.ofSeconds 60)).isSome = true →
      ((withWallet.after (worldAt minuteWorld 2000) (.setTimeout (.ofSeconds 60))).StaysOpen
        walletName [listing 2059] (listing seconds) ↔
        Prompt withWallet.clock (.ofSeconds 60) (.ofSeconds 2000)
          [listing 2059, listing seconds]) := by
    intro seconds hadd
    obtain ⟨-, hopens⟩ := hrun (worldAt minuteWorld 2000) (.ofSeconds 60)
      [listing 2059, listing seconds] rfl hset (by simp [listing, Command.setsTimeout])
      (by
        simp only [List.forall_mem_cons]
        exact ⟨fun _ => by decide, fun _ => ⟨rfl, hadd⟩, by simp⟩)
    refine (hopens [] [listing 2059] (listing seconds) [] rfl walletName hholds).trans
      (and_iff_left ?_)
    intro exchange hexchange
    rw [List.mem_singleton.1 hexchange]
    exact not_closes_listing
  refine ⟨reachable_withWallet, hset, (hstays 2118 (by decide)).2 ?_, fun hlate => ?_⟩
  · exact ⟨fun _ => by decide, fun _ => by decide, trivial⟩
  · obtain ⟨-, hprompt, -⟩ := (hstays 2119 (by decide)).1 hlate
    exact absurd (hprompt rfl) (by decide)

/-- It is not so that a listing shows a wallet as unlocked exactly if it comes less than the timeout
    after the timeout was set: if the timeout is set to a second in the leap second that ended the
    year 2016, the window has run out when the year begins, although no time is counted until then. -/
theorem not_listed_iff_of_leapSecond :
    ¬ ∀ (manager : Manager (SoftWallet ⊕ Device)) (name : WalletName) (world world' : World)
      (duration : Duration), Reachable (fun _ => True) manager → manager.HoldsOpen name →
      (manager.exchange ⟨world, .setTimeout duration⟩).result.isOk = true →
      (world.time manager.clock).isAtMost (world'.time manager.clock) = true →
      ((world'.time manager.clock).add? duration).isSome = true →
      (((manager.after world (.setTimeout duration)).exchange ⟨world', .listWallets⟩).Discloses
          name ↔
        (world'.time manager.clock).since (world.time manager.clock) < duration.toNanos) := by
  intro hclaim
  obtain ⟨soft, hmem, hopen⟩ := exists_open_withWallet
  let world := { minuteWorld with time := fun _ => .leapSecond }
  have hreachable := reachable_withWallet.command (.setTimeout (.ofSeconds 1)) trivial world
  have hlisted := hclaim withWallet walletName world
    { minuteWorld with time := fun _ => .newYear } (.ofSeconds 1) reachable_withWallet
    ⟨soft, hmem, hopen⟩ (by decide +kernel) rfl rfl
  have hunguarded : (Call.mk world (.setTimeout (.ofSeconds 1) :
      Command (SoftWallet ⊕ Device))).command.isGuard = false := rfl
  have hsoft := (call_of_unguarded withWallet hunguarded).1 _ hmem
  rw [listing_discloses_iff hreachable.distinct hsoft hopen] at hlisted
  exact absurd (hlisted.2 (by decide)) (by decide +kernel)

end Manager

end Custody
