import Custody.Proofs.Manager.Locked
import Custody.Proofs.Suite.Plain
import Custody.Wallet.Device

set_option autoImplicit false

/-! # What happens after the timeout

The window of inactivity is looked at by the checked commands and by nothing else; a command that
moves the window without looking at it, such as `Command.setTimeout`, can keep a session that should
have ended. `Manager.Reachable.expired_session` says when it does: a session whose window has run
out gives nothing away, if none of the commands before the first one that looks has moved the
window; and as long as nobody looks, the session lives on exactly if the window that is in force by
then has not run out. -/

namespace Custody

/-! ## Exchanges -/

/-- A command, given in a world of its own. -/
structure Call (W : Type) where
  world : World
  command : Command W

/-- A command with its answer and the requests to wallets that it made. -/
structure Exchange (W : Type) where
  command : Command W
  result : Except Error Reply
  trace : List Event

/-- Whether a command notices that the window has run out, or locks everything in any case. -/
def Command.isGuard {W : Type} (command : Command W) : Bool :=
  command.isChecked || command matches .lockAll

namespace Exchange

variable {W : Type}

/-- The wallet was created or unlocked. -/
def Reopens (name : WalletName) (exchange : Exchange W) : Prop :=
  exchange.result.isOk = true ∧
    (exchange.command = .create name.text ∨
      ∃ password, exchange.command = .unlock name.text password)

/-- Something was got out of the wallet: it answered a request for keys, signatures or a change of
    its keys, or it was shown to be unlocked. -/
def Discloses (name : WalletName) (exchange : Exchange W) : Prop :=
  (∃ event ∈ exchange.trace, event.wallet = name ∧ event.request.discloses = true) ∨
    ∃ texts, exchange.result = .ok (.names texts) ∧ name.text ++ Manager.unlockedMark ∈ texts

/-- The window was moved or removed. -/
def MovesWindow (exchange : Exchange W) : Prop :=
  exchange.command = .disableTimeout ∨
    (∃ duration, exchange.command = .setTimeout duration) ∧ exchange.result.isOk = true

/-- The window is not moved before the first command that notices that it has run out. -/
def Vigilant : List (Exchange W) → Prop
  | [] => True
  | exchange :: rest =>
    exchange.command.isGuard = true ∨ (¬ exchange.MovesWindow ∧ Vigilant rest)

end Exchange

section

variable [Suite]

namespace Manager

variable {W : Type} [SoftBackend W]

/-- What a call gives. -/
def exchange (manager : Manager W) (call : Call W) : Exchange W :=
  let done := call.command.perform.outcome ⟨manager, call.world, []⟩
  ⟨call.command, done.1, done.2.trace⟩

/-- What several calls give, one after the other. -/
def exchanges (manager : Manager W) : List (Call W) → List (Exchange W)
  | [] => []
  | call :: rest =>
    manager.exchange call :: (manager.after call.world call.command).exchanges rest

/-- The first command that looks at the window finds that it has run out, or there is a command to
    lock everything before. -/
def Notices (manager : Manager W) : List (Call W) → Prop
  | [] => True
  | call :: rest =>
    (call.command.isChecked = true →
      (manager.timeout.check (call.world.time manager.clock)).1 = true) ∧
    (call.command.isGuard = false → (manager.after call.world call.command).Notices rest)

/-- The manager after several calls. -/
def afterAll (manager : Manager W) (calls : List (Call W)) : Manager W :=
  calls.foldl (fun manager call => manager.after call.world call.command) manager

end Manager

/-! ## One call -/

section Call

variable {W : Type} [SoftBackend W] {command : Command W} {scene scene' : Scene W}
  {result : Except Error Reply}

/-- Only one command answers with names. -/
theorem Command.eq_listWallets_of_names {texts : List String}
    (h : (command.perform.outcome scene).1 = .ok (.names texts)) : command = .listWallets := by
  cases command with
  | listWallets => rfl
  | _ =>
    obtain ⟨_, -, hreply⟩ := Command.exists_of_bind_return h
    exact absurd hreply (by simp)

/-- A command that does not look at the window asks no wallet anything, keeps every wallet, and
    moves the window only if it is made for that. -/
theorem Command.Effect.of_unguarded (heffect : Effect command scene result scene')
    (hunguarded : command.isGuard = false) :
    (∀ entry ∈ scene.manager.wallets, entry ∈ scene'.manager.wallets) ∧
      scene'.trace = scene.trace ∧
      (¬ (Exchange.mk command result scene'.trace).MovesWindow →
        scene'.manager.timeout = scene.manager.timeout) := by
  have hunchecked : command.isChecked = false := by
    cases hchecked : command.isChecked with
    | false => rfl
    | true => exact absurd hunguarded (by simp [Command.isGuard, hchecked])
  cases heffect with
  | looked hsaw hchecked => exact absurd hchecked (by simp [hunchecked])
  | lockedAll => exact absurd hunguarded (by simp [Command.isGuard])
  | changed hchanges => cases hchanges <;> exact absurd hunchecked (by simp [Command.isChecked])
  | openFailed hcommand =>
    rcases hcommand with rfl | ⟨password, rfl⟩ <;>
      exact absurd hunchecked (by simp [Command.isChecked])
  | timeoutSet hset =>
    refine ⟨fun _ hentry => hentry, rfl, ?_⟩
    intro hstill
    exact absurd (.inr ⟨⟨_, rfl⟩, rfl⟩) hstill
  | timeoutDisabled =>
    refine ⟨fun _ hentry => hentry, rfl, ?_⟩
    intro hstill
    exact absurd (.inl rfl) hstill
  | owned => exact ⟨fun _ hentry => List.mem_append_left _ hentry, rfl, fun _ => rfl⟩
  | idle => exact ⟨fun _ hentry => hentry, rfl, fun _ => rfl⟩
  | moved => exact ⟨fun _ hentry => hentry, rfl, fun _ => rfl⟩
  | directoryLocked => exact ⟨fun _ hentry => hentry, rfl, fun _ => rfl⟩
  | directoryFailed => exact ⟨fun _ hentry => hentry, rfl, fun _ => rfl⟩
  | _ => exact absurd hunchecked (by simp [Command.isChecked])

omit [Suite] in
theorem Command.start_of_unguarded (hunguarded : command.isGuard = false) :
    command.start scene = scene := by
  unfold Command.start
  split
  · rename_i hchecked
    exact absurd hunguarded (by simp [Command.isGuard, hchecked])
  · rfl

end Call

/-! ## Runs -/

section Soft

variable {B : Type} [Backend B] {name : WalletName}

namespace Manager

variable {manager : Manager (SoftWallet ⊕ B)} {call : Call (SoftWallet ⊕ B)}

/-- A call after which the wallet is locked, and which asked it for nothing, disclosed nothing. -/
theorem not_discloses_of_holdsLocked
    (hafter : (manager.after call.world call.command).HoldsLocked name)
    (hdiscreet : Discreet name (manager.exchange call).trace) :
    ¬ (manager.exchange call).Discloses name := by
  rintro (⟨event, hevent, hwallet, hdiscloses⟩ | ⟨texts, htexts, hmark⟩)
  · exact absurd hdiscloses (by simp [hdiscreet event hevent hwallet])
  · obtain ⟨world, command⟩ := call
    obtain rfl := Command.eq_listWallets_of_names htexts
    have hlist := outcome_listWallets (⟨manager, world, []⟩ : Scene (SoftWallet ⊕ B))
    unfold exchange at htexts
    unfold after at hafter
    simp only [Command.perform, Command.outcome_bind_return, hlist, Except.map, Except.ok.injEq,
      Reply.names.injEq] at htexts hafter
    subst htexts
    obtain ⟨hdistinct, soft, hsoft, hlocked⟩ := hafter
    have hsession := (mark_mem_iff hdistinct hsoft).1 hmark
    exact absurd hsession (by simp [hlocked])

/-- The effect of a call that does not reopen the wallet, from where the wallet is locked on. -/
theorem holdsLocked_call
    (hstart : (call.command.start ⟨manager, call.world, []⟩).manager.HoldsLocked name)
    (hdiscreet : Discreet name (call.command.start ⟨manager, call.world, []⟩).trace)
    (hclosed : ¬ (manager.exchange call).Reopens name) :
    (manager.after call.world call.command).HoldsLocked name ∧
      Discreet name (manager.exchange call).trace := by
  refine hstart.effect (call.command.effect ⟨manager, call.world, []⟩) ?_ hdiscreet
  intro hok
  exact ⟨fun heq => hclosed ⟨hok, .inl heq⟩,
    fun password heq => hclosed ⟨hok, .inr ⟨password, heq⟩⟩⟩

theorem HoldsLocked.start {scene : Scene (SoftWallet ⊕ B)} (h : scene.manager.HoldsLocked name)
    (hdiscreet : Discreet name scene.trace) (command : Command (SoftWallet ⊕ B)) :
    (command.start scene).manager.HoldsLocked name ∧
      Discreet name (command.start scene).trace := by
  unfold Command.start
  split
  · exact ⟨h.checked, HoldsLocked.discreet_checked h.1 hdiscreet⟩
  · exact ⟨h, hdiscreet⟩

/-- From a locked wallet nothing is got out in any run that does not reopen it. -/
theorem HoldsLocked.exchanges (h : manager.HoldsLocked name) {calls : List (Call (SoftWallet ⊕ B))}
    (hclosed : ∀ exchange ∈ manager.exchanges calls, ¬ exchange.Reopens name) :
    ∀ exchange ∈ manager.exchanges calls, ¬ exchange.Discloses name := by
  induction calls generalizing manager with
  | nil => simp [Manager.exchanges]
  | cons call rest ih =>
    simp only [Manager.exchanges, List.forall_mem_cons] at hclosed ⊢
    have hscene : (⟨manager, call.world, []⟩ : Scene (SoftWallet ⊕ B)).manager.HoldsLocked name := h
    obtain ⟨hstart, hdiscreet⟩ := hscene.start (Discreet.nil name) call.command
    obtain ⟨hafter, htrace⟩ := holdsLocked_call hstart hdiscreet hclosed.1
    exact ⟨not_discloses_of_holdsLocked hafter htrace, ih hafter hclosed.2⟩

/-- The first command that notices locks the wallet before it does anything else. -/
theorem holdsLocked_of_guard (hdistinct : manager.Distinct) {soft : SoftWallet}
    (hmem : (name, .inl soft) ∈ manager.wallets) (hguard : call.command.isGuard = true)
    (hnotices : call.command.isChecked = true →
      (manager.timeout.check (call.world.time manager.clock)).1 = true)
    (hclosed : ¬ (manager.exchange call).Reopens name) :
    (manager.after call.world call.command).HoldsLocked name ∧
      Discreet name (manager.exchange call).trace := by
  by_cases hchecked : call.command.isChecked = true
  · have hstart : call.command.start ⟨manager, call.world, []⟩ =
        Scene.lockedAll ⟨{ manager with
          timeout := (manager.timeout.check (call.world.time manager.clock)).2 },
          call.world, []⟩ := by
      unfold Command.start Scene.checked
      rw [if_pos hchecked]
      exact if_pos (hnotices hchecked)
    refine holdsLocked_call ?_ ?_ hclosed
    · rw [hstart]
      exact HoldsLocked.lockedAll hdistinct hmem
    · rw [hstart]
      exact HoldsLocked.discreet_lockedAll hdistinct (Discreet.nil name)
  · -- the only guard that does not look locks all wallets anyway
    obtain ⟨world, command⟩ := call
    have hlockAll : command = .lockAll := by
      cases command <;> simp_all [Command.isGuard, Command.isChecked]
    subst hlockAll
    unfold after exchange
    simp only [Command.perform, Command.outcome_bind_return, outcome_lockAll]
    exact ⟨HoldsLocked.lockedAll hdistinct hmem,
      HoldsLocked.discreet_lockedAll hdistinct (Discreet.nil name)⟩

/-- A call that does not look leaves everything as it is, and asks for nothing. -/
theorem call_of_unguarded (manager : Manager (SoftWallet ⊕ B))
    (hunguarded : call.command.isGuard = false) :
    (∀ entry ∈ manager.wallets, entry ∈ (manager.after call.world call.command).wallets) ∧
      (manager.exchange call).trace = [] ∧
      (¬ (manager.exchange call).MovesWindow →
        (manager.after call.world call.command).timeout = manager.timeout) := by
  have heffect := call.command.effect (⟨manager, call.world, []⟩ : Scene (SoftWallet ⊕ B))
  rw [Command.start_of_unguarded hunguarded] at heffect
  exact heffect.of_unguarded hunguarded

theorem distinct_after {W : Type} [SoftBackend W] {manager : Manager W} (h : manager.Distinct)
    (call : Call W) : (manager.after call.world call.command).Distinct :=
  (call.command.effect ⟨manager, call.world, []⟩).distinct (Command.distinct_start h)

theorem clock_after (call : Call (SoftWallet ⊕ B)) :
    (manager.after call.world call.command).clock = manager.clock :=
  (call.command.effect ⟨manager, call.world, []⟩).window_eq.1.trans Command.start_clock

/-- Once the first command that looks has noticed, nothing is got out of the wallet. -/
theorem exchanges_of_notices (hdistinct : manager.Distinct) {soft : SoftWallet}
    (hmem : (name, .inl soft) ∈ manager.wallets) {calls : List (Call (SoftWallet ⊕ B))}
    (hnotices : manager.Notices calls)
    (hclosed : ∀ exchange ∈ manager.exchanges calls, ¬ exchange.Reopens name) :
    ∀ exchange ∈ manager.exchanges calls, ¬ exchange.Discloses name := by
  induction calls generalizing manager with
  | nil => simp [Manager.exchanges]
  | cons call rest ih =>
    simp only [Manager.exchanges, List.forall_mem_cons] at hclosed ⊢
    by_cases hguard : call.command.isGuard = true
    · obtain ⟨hafter, htrace⟩ := holdsLocked_of_guard hdistinct hmem hguard hnotices.1 hclosed.1
      exact ⟨not_discloses_of_holdsLocked hafter htrace, hafter.exchanges hclosed.2⟩
    · -- the wallet is as it was, and was not even asked
      have hunguarded := Bool.eq_false_iff.2 hguard
      obtain ⟨hkept, htrace, -⟩ := call_of_unguarded manager hunguarded
      refine ⟨?_, ih (distinct_after hdistinct call) (hkept _ hmem) (hnotices.2 hunguarded)
        hclosed.2⟩
      rintro (⟨event, hevent, -⟩ | ⟨texts, htexts, -⟩)
      · exact absurd hevent (by simp [htrace])
      · have hlist := Command.eq_listWallets_of_names htexts
        exact absurd hunguarded (by simp [hlist, Command.isGuard, Command.isChecked])

/-- A window that has run out is noticed, if nobody moves it before. -/
theorem notices_of_vigilant {expiry : Instant} (hexpiry : manager.timeout.expiresAt = some expiry)
    {calls : List (Call (SoftWallet ⊕ B))}
    (hlate : ∀ call ∈ calls, expiry.isAtMost (call.world.time manager.clock) = true)
    (hvigilant : Exchange.Vigilant (manager.exchanges calls)) : manager.Notices calls := by
  induction calls generalizing manager with
  | nil => trivial
  | cons call rest ih =>
    simp only [List.forall_mem_cons] at hlate
    refine ⟨?_, ?_⟩
    · intro _
      unfold UnlockTimeout.check
      rw [hexpiry]
      exact hlate.1
    · -- what does not look leaves the expiry where it was
      intro hunguarded
      obtain ⟨hstill, hvigilant⟩ := hvigilant.resolve_left (Bool.eq_false_iff.1 hunguarded)
      obtain ⟨-, -, htimeout⟩ := call_of_unguarded manager hunguarded
      refine ih ?_ ?_ hvigilant
      · rw [htimeout hstill]
        exact hexpiry
      · rw [clock_after]
        exact hlate.2

/-- Commands that do not look leave every wallet as it is. -/
theorem afterAll_of_unguarded (hdistinct : manager.Distinct)
    {calls : List (Call (SoftWallet ⊕ B))}
    (hunguarded : ∀ call ∈ calls, call.command.isGuard = false) :
    (manager.afterAll calls).Distinct ∧
      ∀ entry ∈ manager.wallets, entry ∈ (manager.afterAll calls).wallets := by
  induction calls generalizing manager with
  | nil => exact ⟨hdistinct, fun _ hentry => hentry⟩
  | cons call rest ih =>
    simp only [List.forall_mem_cons] at hunguarded
    obtain ⟨hdistinct', hkept'⟩ := ih (distinct_after hdistinct call) hunguarded.2
    obtain ⟨hkept, -, -⟩ := call_of_unguarded manager hunguarded.1
    exact ⟨hdistinct', fun entry hentry => hkept' entry (hkept entry hentry)⟩

/-- A listing gives an open session away exactly if the window has not run out. -/
theorem listing_discloses_iff (hdistinct : manager.Distinct) {soft : SoftWallet}
    (hmem : (name, .inl soft) ∈ manager.wallets) (hopen : soft.session?.isSome = true)
    (world : World) : (manager.exchange ⟨world, .listWallets⟩).Discloses name ↔
      (manager.timeout.check (world.time manager.clock)).1 = false := by
  have hlist := outcome_listWallets (⟨manager, world, []⟩ : Scene (SoftWallet ⊕ B))
  have hresult : (manager.exchange ⟨world, .listWallets⟩).result = .ok (.names
      ((⟨manager, world, []⟩ : Scene (SoftWallet ⊕ B)).checked.manager.wallets.map shown)) := by
    unfold exchange
    simp only [Command.perform, Command.outcome_bind_return, hlist, Except.map]
  cases hcheck : (manager.timeout.check (world.time manager.clock)).1 with
  | false =>
    refine iff_of_true ?_ rfl
    refine .inr ⟨_, hresult, ?_⟩
    unfold Scene.checked
    dsimp only
    rw [hcheck]
    exact (mark_mem_iff hdistinct hmem).2 hopen
  | true =>
    refine iff_of_false ?_ (by simp)
    have hclosed : ¬ (manager.exchange ⟨world, .listWallets⟩).Reopens name := by
      rintro ⟨-, hcreate | ⟨password, hunlock⟩⟩
      · exact absurd hcreate (by simp [exchange])
      · exact absurd hunlock (by simp [exchange])
    have hcall := holdsLocked_of_guard hdistinct hmem rfl (fun _ => hcheck) hclosed
    exact not_discloses_of_holdsLocked hcall.1 hcall.2

/-- A session gives nothing away after its window has run out, as long as the first command that
    looks at the window notices; and it does notice if the window ran out at `expiry`, the calls
    come later, and none of those before has moved the window. This is exact: where nobody has
    looked yet, a listing shows the wallet unlocked whenever the window in force by then has not run
    out. -/
theorem Reachable.expired_session {manager : Manager (SoftWallet ⊕ B)}
    (h : Reachable (fun _ => True) manager) {name : WalletName} {soft : SoftWallet}
    {expiry : Instant} (hmem : (name, .inl soft) ∈ manager.wallets)
    (hopen : soft.session?.isSome = true)
    (hexpiry : manager.timeout.expiresAt = some expiry) :
    (∀ calls : List (Call (SoftWallet ⊕ B)), manager.Notices calls →
      (∀ exchange ∈ manager.exchanges calls, ¬ exchange.Reopens name) →
      ∀ exchange ∈ manager.exchanges calls, ¬ exchange.Discloses name) ∧
    (∀ calls : List (Call (SoftWallet ⊕ B)),
      (∀ call ∈ calls, expiry.isAtMost (call.world.time manager.clock) = true) →
      Exchange.Vigilant (manager.exchanges calls) → manager.Notices calls) ∧
    (∀ calls : List (Call (SoftWallet ⊕ B)),
      (∀ call ∈ calls, call.command.isGuard = false) → ∀ world : World,
      ((manager.afterAll calls).exchange ⟨world, .listWallets⟩).Discloses name ↔
        ((manager.afterAll calls).timeout.check
          (world.time (manager.afterAll calls).clock)).1 = false) := by
  refine ⟨?_, ?_, ?_⟩
  · intro calls hnotices hclosed
    exact exchanges_of_notices h.distinct hmem hnotices hclosed
  · intro calls hlate hvigilant
    exact notices_of_vigilant hexpiry hlate hvigilant
  · intro calls hunguarded world
    obtain ⟨hdistinct, hkept⟩ := afterAll_of_unguarded h.distinct hunguarded
    exact listing_discloses_iff hdistinct (hkept _ hmem) hopen world

end Manager

end Soft

end

/-! ## A session that lives on -/

namespace Manager

local instance primitives : Suite := Suite.plain

/-- The world at a number of seconds after the beginning of 1970. -/
def worldAt (world : World) (seconds : Int) : World :=
  { world with time := fun _ => .ofSeconds seconds }

/-- A manager that was just started at 2000 with a timeout of a minute. -/
def minuteManager : Manager (SoftWallet ⊕ Device) :=
  { dir := .ofString "d"
    cost := .light
    wallets := []
    timeout := ⟨.ofSeconds 60, some (.ofSeconds 2060)⟩
    clock := .manual
    dirLock := none }

/-- The world that its start leaves behind: its directory has been made. -/
def minuteWorld : World :=
  ((Manager.start ⟨.ofString "d", some (.ofSeconds 60), .light, false⟩ .manual :
    Act Error World (Manager (SoftWallet ⊕ Device))).outcome (worldAt World.blank 2000)).2

/-- The manager after it has created a wallet. -/
def withWallet : Manager (SoftWallet ⊕ Device) := minuteManager.after minuteWorld (.create "w")

/-- The world with the file of the wallet. -/
def walletWorld : World := ((Command.create "w" : Command (SoftWallet ⊕ Device)).perform.outcome
  ⟨minuteManager, minuteWorld, []⟩).2.world

def walletName : WalletName := ⟨"w", by decide⟩

theorem reachable_minuteManager : Reachable (fun _ => True) minuteManager := by
  have hstart : (Manager.start ⟨.ofString "d", some (.ofSeconds 60), .light, false⟩ .manual :
      Act Error World (Manager (SoftWallet ⊕ Device))).outcome (worldAt World.blank 2000) =
      (.ok minuteManager, minuteWorld) := Prod.ext rfl rfl
  exact .start hstart

theorem reachable_withWallet : Reachable (fun _ => True) withWallet :=
  .command reachable_minuteManager (.create "w") trivial minuteWorld

theorem expiresAt_withWallet : withWallet.timeout.expiresAt = some (.ofSeconds 2060) := by
  decide +kernel

/-- The wallet is a soft wallet with a session. -/
theorem exists_open_withWallet : ∃ soft : SoftWallet,
    (walletName, .inl soft) ∈ withWallet.wallets ∧ soft.session?.isSome = true := by
  have hwallets : (withWallet.wallets.map fun entry =>
      (entry.1.text, entry.2.elim (fun soft => soft.session?.isSome) fun _ => false)) =
      [("w", true)] := by decide +kernel
  obtain ⟨⟨name, wallet⟩, hmem, hentry⟩ :=
    List.mem_map.1 (hwallets ▸ List.mem_cons_self : ("w", true) ∈ withWallet.wallets.map _)
  obtain rfl : name = walletName := WalletName.eq_of_text_eq (congrArg Prod.fst hentry)
  cases wallet with
  | inl soft => exact ⟨soft, hmem, congrArg Prod.snd hentry⟩
  | inr device => exact absurd (congrArg Prod.snd hentry) (by simp)

/-- Neither a listing nor a new timeout reopens a wallet. -/
theorem not_reopens {manager : Manager (SoftWallet ⊕ Device)} {world : World} {name : WalletName}
    {command : Command (SoftWallet ⊕ Device)}
    (h : command = .listWallets ∨ ∃ duration, command = .setTimeout duration) :
    ¬ (manager.exchange ⟨world, command⟩).Reopens name := by
  rintro ⟨-, hcreate | ⟨password, hunlock⟩⟩ <;> rcases h with rfl | ⟨duration, rfl⟩
  · exact absurd hcreate (by simp [exchange])
  · exact absurd hcreate (by simp [exchange])
  · exact absurd hunlock (by simp [exchange])
  · exact absurd hunlock (by simp [exchange])

/-- A wallet that was created at 2000 is listed at 2061 without the mark. -/
theorem expired_session_listed : ∃ soft : SoftWallet,
    Reachable (fun _ => True) withWallet ∧ (walletName, .inl soft) ∈ withWallet.wallets ∧
      soft.session?.isSome = true ∧
      withWallet.timeout.expiresAt = some (.ofSeconds 2060) ∧
      ¬ (withWallet.exchange ⟨worldAt minuteWorld 2061, .listWallets⟩).Discloses walletName := by
  obtain ⟨soft, hmem, hopen⟩ := exists_open_withWallet
  refine ⟨soft, reachable_withWallet, hmem, hopen, expiresAt_withWallet, ?_⟩
  obtain ⟨hgone, hnotices, -⟩ :=
    reachable_withWallet.expired_session hmem hopen expiresAt_withWallet
  refine hgone [⟨worldAt minuteWorld 2061, .listWallets⟩] (hnotices _ ?_ (.inl rfl)) ?_ _
    List.mem_cons_self
  · simp only [List.mem_singleton, forall_eq]
    rfl
  · simp only [exchanges, List.mem_singleton, forall_eq]
    exact not_reopens (.inl rfl)

/-- It is not so that a session whose window has run out always gives nothing away: if the timeout
    is set to a minute again at 2061, the wallet is still listed as unlocked. -/
theorem expired_session_lives_on :
    ¬ ∀ (manager : Manager (SoftWallet ⊕ Device)) (name : WalletName) (soft : SoftWallet)
      (expiry : Instant), Reachable (fun _ => True) manager →
      (name, .inl soft) ∈ manager.wallets → soft.session?.isSome = true →
      manager.timeout.expiresAt = some expiry → ∀ calls : List (Call (SoftWallet ⊕ Device)),
      (∀ call ∈ calls, expiry.isAtMost (call.world.time manager.clock) = true) →
      (∀ exchange ∈ manager.exchanges calls, ¬ exchange.Reopens name) →
      ∀ exchange ∈ manager.exchanges calls, ¬ exchange.Discloses name := by
  intro hclaim
  obtain ⟨soft, hmem, hopen⟩ := exists_open_withWallet
  -- the manager once its window has been moved
  have hreachable := reachable_withWallet.command (.setTimeout (.ofSeconds 60)) trivial
    (worldAt minuteWorld 2061)
  have hlisted := hclaim withWallet walletName soft _ reachable_withWallet hmem hopen
    expiresAt_withWallet
    [⟨worldAt minuteWorld 2061, .setTimeout (.ofSeconds 60)⟩,
      ⟨worldAt minuteWorld 2061, .listWallets⟩] ?_ ?_ _ (List.mem_cons_of_mem _ List.mem_cons_self)
  · exact hlisted ((listing_discloses_iff hreachable.distinct hmem hopen _).2 (by decide +kernel))
  · simp only [List.forall_mem_cons]
    exact ⟨rfl, rfl, by simp⟩
  · simp only [exchanges, List.forall_mem_cons]
    exact ⟨not_reopens (.inr ⟨_, rfl⟩), not_reopens (.inl rfl), by simp⟩

end Manager

end Custody
