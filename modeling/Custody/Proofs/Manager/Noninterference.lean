import Custody.Proofs.Manager.Alike
import Custody.Proofs.Manager.Failure

set_option autoImplicit false

/-! # What is locked is not told

No command but the one to unlock it depends on what a locked wallet holds. Two runs with the same
commands, in the same world, from managers that are alike but for some secret wallets give the same
answers, ask the same requests, write the same files and find the same wallets locked at the same
times, as long as no secret wallet is unlocked: `Scene.Alike.sealed_unseen`. `Command.coupled` is
the step, for every command. -/

namespace Custody

section

variable [Suite] {B : Type} [Backend B] {secret secret' : WalletName → Prop}

/-! ## Every command -/

namespace Manager

/-! ### The keys of wallets -/

theorem couples_listKeys (text password : String) :
    Couples (B := B) secret secret Eq (listKeys text password) (listKeys text password) := by
  refine .bind_eq couples_checkTimeout fun _ => ?_
  refine .bind_eq (couples_unlockedWallet text) fun entry => ?_
  exact .bind_eq (.ask _ _ _) fun _ => .ask _ _ _

theorem couples_importKey (text key : String) :
    Couples (B := B) secret secret Eq (importKey text key) (importKey text key) := by
  refine .bind_eq couples_checkTimeout fun _ => ?_
  refine .bind_eq (couples_unlockedWallet text) fun entry => ?_
  exact .bind_ofExcept fun key _ => .request _ _ _

theorem couples_removeKey (text password key : String) :
    Couples (B := B) secret secret Eq (removeKey text password key)
      (removeKey text password key) := by
  refine .bind_eq couples_checkTimeout fun _ => ?_
  refine .bind_eq (couples_unlockedWallet text) fun entry => ?_
  refine .bind_eq (.ask _ _ _) fun _ => ?_
  exact .bind_ofExcept fun key _ => .request _ _ _

theorem couples_createKey (text selector : String) :
    Couples (B := B) secret secret Eq (createKey text selector) (createKey text selector) := by
  refine .bind_eq couples_checkTimeout fun _ => ?_
  refine .bind_eq (couples_unlockedWallet text) fun entry => ?_
  exact .bind_ofExcept fun keyType _ => .request _ _ _

theorem couples_publicKeys :
    Couples (B := B) secret secret Eq publicKeys publicKeys := by
  refine .bind_eq couples_checkTimeout fun _ => .bind .get fun scene scene' halike => ?_
  dsimp only
  rw [halike.manager.isEmpty_eq]
  split
  · exact .throw
  · refine .bind_eq (couples_publicKeysOf halike.manager.wallets none) fun found => ?_
    cases found with
    | some keys => exact .pure rfl
    | none => exact .throw

theorem couples_mySignatures (chain : ChainId) :
    Couples (B := B) secret secret Eq (mySignatures chain) (mySignatures chain) := by
  refine .bind_eq couples_checkTimeout fun _ => .bind .get fun scene scene' halike => ?_
  dsimp only
  rw [halike.manager.isEmpty_eq]
  split
  · exact .throw
  · refine .bind_eq (couples_signaturesOf chain.digest halike.manager.wallets none) fun found => ?_
    cases found with
    | some signatures => exact .pure rfl
    | none => exact .throw

theorem couples_signDigest (digest : Digest) (key : PublicKey) :
    Couples (B := B) secret secret Eq (signDigest digest key) (signDigest digest key) :=
  .bind_eq couples_checkTimeout fun _ => couples_signatureOf digest key

theorem couples_signTransaction (tx : SignedTransaction) (keys : KeySet) (chain : ChainId) :
    Couples (B := B) secret secret Eq (signTransaction tx keys chain)
      (signTransaction tx keys chain) := by
  refine .bind_eq couples_checkTimeout fun _ => ?_
  refine .bind_eq (.mapM (fun key => couples_signatureOf _ key) _) fun signatures => ?_
  exact .pure rfl

/-! ### The registry -/

section

variable {text : String}

omit [Suite] [Backend B] in
/-- A wallet that is registered under a name is not secret under that name. -/
theorem couples_register {name : WalletName} (hname : name.text = text)
    (wallet : SoftWallet ⊕ B) :
    Couples secret (fun other => secret other ∧ other.text ≠ text) Eq (register name wallet)
      (register name wallet) := by
  refine .update fun manager manager' halike => (halike.registered name wallet).mono ?_
  rintro other ⟨hsecret, hother⟩
  exact ⟨hsecret, fun htext => hother (WalletName.eq_of_text_eq (htext.trans hname.symm))⟩

theorem couples_create (text : String) :
    Couples (B := B) secret (fun name => secret name ∧ name.text ≠ text) Eq (create text)
      (create text) := by
  refine .bind_eq couples_checkTimeout fun _ => ?_
  refine .bind_ofExcept fun name hname => .bind .get fun scene scene' halike => ?_
  dsimp only
  rw [halike.manager.walletPath_eq, halike.manager.cost_eq]
  refine .bind_eq (.onWorld _) fun exists? => ?_
  split
  · exact .throw_bind
  · refine .bind_eq (.onWorld _) fun password => .bind_eq (.onWorld _) fun wallet => ?_
    refine .seq (fun _ => And.left) (couples_register (Command.text_of_parse hname) _) ?_
    exact fun _ _ _ => .pure rfl

theorem couples_openFile (text : String) :
    Couples (B := B) secret (fun name => secret name ∧ name.text ≠ text) Eq (openFile text)
      (openFile text) := by
  refine .bind_ofExcept fun name hname => .bind .get fun scene scene' halike => ?_
  dsimp only
  rw [halike.manager.walletPath_eq, halike.manager.cost_eq]
  refine .bind_eq (.settled (.onWorld _)) fun opened => ?_
  cases opened with
  | ok wallet => exact couples_register (Command.text_of_parse hname) _
  | error error => exact .throw

theorem couples_openWallet (text : String) :
    Couples (B := B) secret (fun name => secret name ∧ name.text ≠ text) Eq (openWallet text)
      (openWallet text) :=
  .bind_eq couples_checkTimeout fun _ => couples_openFile text

theorem couples_listWallets :
    Couples (B := B) secret secret Eq listWallets listWallets :=
  .bind_eq couples_checkTimeout fun _ => .bind .get fun _ _ halike =>
    couples_listEntries halike.manager.wallets

theorem couples_lock (text : String) :
    Couples (B := B) secret secret Eq (lock text) (lock text) := by
  refine .bind_eq couples_checkTimeout fun _ => .bind (.wallet text) ?_
  rintro entry entry' ⟨hentry, -⟩
  exact couples_lockEntry hentry

/-- A wallet that is not secret may be unlocked: it is the same in both. -/
theorem couples_unlock (hspares : ∀ name, secret name → name.text ≠ text) (password : String) :
    Couples (B := B) secret secret Eq (unlock text password) (unlock text password) := by
  have hfound : Couples (B := B) secret secret Eq (unlockRegistered text password)
      (unlockRegistered text password) := by
    refine .bind (.wallet text) ?_
    rintro entry entry' ⟨hentry, htext⟩
    obtain rfl := hentry.eq_of_not_secret fun hsecret => hspares _ hsecret htext
    refine .bind (.askLocked hentry) ?_
    rintro answer _ ⟨rfl, -⟩
    cases answer with
    | true =>
      rw [Bool.not_true, if_neg Bool.false_ne_true]
      exact .request _ _ _
    | false =>
      rw [Bool.not_false, if_pos rfl]
      exact .throw_bind
  refine .bind_eq couples_checkTimeout fun _ => .bind .get fun scene scene' halike => ?_
  dsimp only
  rw [halike.manager.isRegistered_eq]
  split
  · exact .bind_eq ((couples_openFile text).mono fun _ => And.left) fun _ => hfound
  · exact hfound

omit [Suite] [Backend B] in
theorem couples_own (text : String) (wallet : SoftWallet ⊕ B) :
    Couples secret secret Eq (own text wallet) (own text wallet) := by
  refine .bind .get fun scene scene' halike => ?_
  dsimp only
  rw [halike.manager.isRegistered_eq]
  split
  · exact .throw_bind
  · refine .bind_ofExcept fun name _ => ?_
    exact .update fun _ _ halike => halike.append _

omit [Suite] [Backend B] in
theorem couples_registerPlatform (probe : Except Error (SoftWallet ⊕ B)) :
    Couples secret secret Eq (registerPlatform probe) (registerPlatform probe) := by
  cases probe with
  | error error => exact .pure rfl
  | ok wallet =>
    refine .bind_eq (.settled (couples_own platformName wallet)) fun owned => ?_
    cases owned <;> exact .pure rfl

end

/-! ### The timeout and the directory -/

omit [Suite] [Backend B] in
theorem couples_setTimeout (duration : Duration) :
    Couples (B := B) secret secret Eq (setTimeout duration) (setTimeout duration) := by
  refine .bind_eq .now fun instant => ?_
  cases UnlockTimeout.set? duration instant with
  | some timeout => exact .update fun _ _ halike => { halike with timeout_eq := rfl }
  | none => exact .throw

omit [Suite] [Backend B] in
theorem couples_disableTimeout :
    Couples (B := B) secret secret Eq disableTimeout disableTimeout :=
  .update fun _ _ halike =>
    { halike with timeout_eq := congrArg UnlockTimeout.disable halike.timeout_eq }

omit [Suite] [Backend B] in
theorem couples_setDir (dir : Path) :
    Couples (B := B) secret secret Eq (setDir dir) (setDir dir) := by
  refine .bind .get fun scene scene' halike => ?_
  dsimp only
  rw [halike.manager.dirLock_eq, halike.manager.dir_eq]
  split
  · exact .throw_bind
  · refine .bind_eq (.onWorld _) fun _ => ?_
    exact .update fun _ _ halike => { halike with dir_eq := rfl }

omit [Suite] [Backend B] in
theorem couples_initializeLock :
    Couples (B := B) secret secret Eq initializeLock initializeLock := by
  refine .bind .get fun scene scene' halike => ?_
  dsimp only
  rw [halike.manager.dirLock_eq, halike.manager.dir_eq]
  split
  · exact .pure rfl
  · refine .bind_eq (.onWorld _) fun lock => ?_
    exact .update fun _ _ halike => { halike with dirLock_eq := rfl }

end Manager

namespace Command

/-- The command is not the one to unlock a secret wallet. -/
def Spares (secret : WalletName → Prop) (command : Command (SoftWallet ⊕ B)) : Prop :=
  ∀ name password, secret name → command ≠ .unlock name.text password

/-- The wallets that are still secret once the command has succeeded: a wallet that is created or
    opened takes the place of a secret one. -/
def leavesSecret (secret : WalletName → Prop) : Command (SoftWallet ⊕ B) → WalletName → Prop
  | .create text | .openWallet text => fun name => secret name ∧ name.text ≠ text
  | _ => secret

omit [Suite] [Backend B] in
theorem leavesSecret_le (command : Command (SoftWallet ⊕ B)) (name : WalletName)
    (h : command.leavesSecret secret name) : secret name := by
  cases command with
  | create text => exact h.1
  | openWallet text => exact h.1
  | _ => exact h

end Command

omit [Suite] [Backend B] in
theorem Manager.Couples.reply {α : Type} {x : Manager.Operation (SoftWallet ⊕ B) α}
    {command : Command (SoftWallet ⊕ B)}
    (h : Manager.Couples secret (command.leavesSecret secret) Eq x x) (reply : α → Reply) :
    Manager.Couples secret (command.leavesSecret secret) Eq (x >>= fun a => Pure.pure (reply a))
      (x >>= fun a => Pure.pure (reply a)) :=
  .seq command.leavesSecret_le h fun _ _ heq => .pure (congrArg reply heq)

/-- No command that spares the secret wallets tells alike managers apart. -/
theorem Command.couples (command : Command (SoftWallet ⊕ B)) (hspares : command.Spares secret) :
    Manager.Couples secret (command.leavesSecret secret) Eq command.perform command.perform := by
  cases command with
  | create text => exact .reply (Manager.couples_create text) _
  | openWallet text => exact .reply (Manager.couples_openWallet text) _
  | listWallets => exact .reply Manager.couples_listWallets _
  | own text wallet => exact .reply (Manager.couples_own text wallet) _
  | registerPlatform probe => exact .reply (Manager.couples_registerPlatform probe) _
  | lockAll => exact .reply Manager.couples_lockAll _
  | lock text => exact .reply (Manager.couples_lock text) _
  | unlock text password =>
    refine .reply (Manager.couples_unlock ?_ password) _
    rintro name hsecret rfl
    exact hspares name password hsecret rfl
  | listKeys text password => exact .reply (Manager.couples_listKeys text password) _
  | publicKeys => exact .reply Manager.couples_publicKeys _
  | mySignatures chain => exact .reply (Manager.couples_mySignatures chain) _
  | importKey text key => exact .reply (Manager.couples_importKey text key) _
  | removeKey text password key => exact .reply (Manager.couples_removeKey text password key) _
  | createKey text selector => exact .reply (Manager.couples_createKey text selector) _
  | signTransaction tx keys chain =>
    exact .reply (Manager.couples_signTransaction tx keys chain) _
  | signDigest digest key => exact .reply (Manager.couples_signDigest digest key) _
  | setTimeout duration => exact .reply (Manager.couples_setTimeout duration) _
  | disableTimeout => exact .reply Manager.couples_disableTimeout _
  | checkTimeout => exact .reply Manager.couples_checkTimeout _
  | setDir dir => exact .reply (Manager.couples_setDir dir) _
  | initializeLock => exact .reply Manager.couples_initializeLock _

/-! ## Runs -/

/-- A command, and what happens to the world before it is given. -/
structure Move (W : Type) where
  meanwhile : World → World
  command : Command W

/-- What there is to be seen after a command: its answer, the world, the requests that have been
    made of wallets, which wallets are locked, and the timeout. -/
structure View where
  result : Except Error Reply
  world : World
  trace : List Event
  standings : List (WalletName × Bool)
  timeout : UnlockTimeout

namespace Scene

/-- What a move comes to. -/
def moved (scene : Scene (SoftWallet ⊕ B)) (move : Move (SoftWallet ⊕ B)) :
    Except Error Reply × Scene (SoftWallet ⊕ B) :=
  move.command.perform.outcome { scene with world := move.meanwhile scene.world }

/-- The wallets that are still secret after a move. -/
def stillSecret (scene : Scene (SoftWallet ⊕ B)) (secret : WalletName → Prop)
    (move : Move (SoftWallet ⊕ B)) : WalletName → Prop :=
  match (scene.moved move).1 with
  | .ok _ => move.command.leavesSecret secret
  | .error _ => secret

theorem stillSecret_of_isOk {scene : Scene (SoftWallet ⊕ B)} {secret : WalletName → Prop}
    {move : Move (SoftWallet ⊕ B)} (h : (scene.moved move).1.isOk = true) :
    scene.stillSecret secret move = move.command.leavesSecret secret := by
  obtain ⟨reply, hreply⟩ := Act.exists_of_isOk h
  unfold stillSecret
  rw [hreply]

/-- The scene after several moves. -/
def after (scene : Scene (SoftWallet ⊕ B)) : List (Move (SoftWallet ⊕ B)) → Scene (SoftWallet ⊕ B)
  | [] => scene
  | move :: rest => (scene.moved move).2.after rest

/-- What there is to be seen after each of several moves. -/
def views (scene : Scene (SoftWallet ⊕ B)) : List (Move (SoftWallet ⊕ B)) → List View
  | [] => []
  | move :: rest =>
    let (result, scene) := scene.moved move
    ⟨result, scene.world, scene.trace, scene.manager.standings, scene.manager.timeout⟩ ::
      scene.views rest

/-- The wallets that are still secret after several moves. -/
def secretAfter (scene : Scene (SoftWallet ⊕ B)) (secret : WalletName → Prop) :
    List (Move (SoftWallet ⊕ B)) → WalletName → Prop
  | [] => secret
  | move :: rest => (scene.moved move).2.secretAfter (scene.stillSecret secret move) rest

/-- None of the moves is to unlock a wallet that is still secret by then. -/
def Spares (scene : Scene (SoftWallet ⊕ B)) (secret : WalletName → Prop) :
    List (Move (SoftWallet ⊕ B)) → Prop
  | [] => True
  | move :: rest => move.command.Spares secret ∧
    (scene.moved move).2.Spares (scene.stillSecret secret move) rest

end Scene

variable {scene scene' : Scene (SoftWallet ⊕ B)} {move : Move (SoftWallet ⊕ B)}

theorem Manager.Alike.standings_eq {manager manager' : Manager (SoftWallet ⊕ B)}
    (h : manager.Alike secret manager') : manager'.standings = manager.standings := by
  have hwallets := h.wallets
  unfold standings
  generalize manager.wallets = entries at hwallets ⊢
  generalize manager'.wallets = entries' at hwallets ⊢
  induction hwallets with
  | nil => rfl
  | cons hentry hrest ih =>
    rw [List.map_cons, List.map_cons, ih, hentry.fst_eq, hentry.isLocked_eq.1]

/-- One move: the answer is the same, and the scenes stay alike. -/
theorem Scene.Alike.moved (h : scene.Alike secret scene') (hspares : move.command.Spares secret) :
    (scene'.moved move).1 = (scene.moved move).1 ∧
      (scene.moved move).2.Alike (scene.stillSecret secret move) (scene'.moved move).2 := by
  have hstart : Scene.Alike secret { scene with world := move.meanwhile scene.world }
      { scene' with world := move.meanwhile scene'.world } :=
    { h with world_eq := congrArg move.meanwhile h.world_eq }
  have hdone := move.command.couples hspares _ _ hstart
  change Coupled secret _ Eq (scene.moved move) (scene'.moved move) at hdone
  unfold Scene.stillSecret
  generalize scene.moved move = done at hdone ⊢
  generalize scene'.moved move = done' at hdone ⊢
  cases hdone with
  | answered hanswers halike => exact ⟨congrArg Except.ok hanswers.symm, halike⟩
  | failed error halike => exact ⟨rfl, halike⟩

/-- Two runs with the same commands in the same world, from managers that differ in nothing but the
    sealed copies of locked wallets, cannot be told apart as long as none of these wallets is
    unlocked before it has been replaced: each command gives the same answer and leaves the same
    world, the same wallets locked and the same timeout, and at the end the managers still differ in
    nothing else. -/
theorem Scene.Alike.sealed_unseen (h : scene.Alike secret scene')
    (moves : List (Move (SoftWallet ⊕ B))) (hspares : scene.Spares secret moves) :
    scene'.views moves = scene.views moves ∧
      (scene.after moves).Alike (scene.secretAfter secret moves) (scene'.after moves) := by
  induction moves generalizing scene scene' secret with
  | nil => exact ⟨rfl, h⟩
  | cons move rest ih =>
    obtain ⟨hresult, hmoved⟩ := h.moved hspares.1
    obtain ⟨hviews, halike⟩ := ih hmoved hspares.2
    refine ⟨?_, halike⟩
    unfold Scene.views
    dsimp only
    rw [hresult, hviews, hmoved.world_eq, hmoved.trace_eq, hmoved.manager.standings_eq,
      hmoved.manager.timeout_eq]

end

/-! ## A wallet that is opened anew -/

namespace Manager

local instance alikePrimitives : Suite := Suite.plain

/-- A manager with one wallet, which is locked. -/
def withSealed (envelope : Envelope) : Manager (SoftWallet ⊕ Device) :=
  { minuteManager with
    wallets := [(walletName, .inl
      ⟨minuteManager.walletPath walletName, .light, some envelope, none⟩)] }

/-- Some bytes are sealed in the wallet, in a world in which it has a file with other ones. -/
def withSealedBytes (ciphertext : Bytes) : Scene (SoftWallet ⊕ Device) :=
  ⟨withSealed ⟨Envelope.currentVersion, ⟨.light, default⟩, default, ciphertext⟩, walletWorld, []⟩

/-- The wallet is opened anew, and then somebody guesses its password. -/
def guessing : List (Move (SoftWallet ⊕ Device)) :=
  [⟨id, .openWallet "w"⟩, ⟨id, .unlock "w" "guess"⟩]

theorem alike_withSealedBytes (ciphertext ciphertext' : Bytes) :
    (withSealedBytes ciphertext).Alike (· = walletName) (withSealedBytes ciphertext') where
  manager := ⟨rfl, rfl, .cons (.differing rfl ⟨rfl, rfl, rfl, rfl⟩) .nil, rfl, rfl, rfl⟩
  world_eq := rfl
  trace_eq := rfl

theorem spares_guessing : (withSealedBytes []).Spares (· = walletName) guessing := by
  have hopened : ((withSealedBytes []).moved ⟨id, .openWallet "w"⟩).1.isOk = true := by
    decide +kernel
  simp only [guessing, Scene.Spares, Scene.stillSecret_of_isOk hopened, and_true]
  refine ⟨by simp [Command.Spares], ?_⟩
  rintro name password ⟨-, hname⟩ heq
  exact hname (Command.unlock.inj heq).1.symm

/-- What is sealed in the wallet that is replaced makes no difference. -/
theorem sealed_unseen_of_guessing :
    (withSealedBytes []).Alike (· = walletName) (withSealedBytes [1]) ∧
      (withSealedBytes []).Spares (· = walletName) guessing ∧
      (withSealedBytes [1]).views guessing = (withSealedBytes []).views guessing :=
  ⟨alike_withSealedBytes [] [1], spares_guessing,
    ((alike_withSealedBytes [] [1]).sealed_unseen guessing spares_guessing).1⟩

end Manager

end Custody
