import Mathlib.Data.List.Forall2
import Custody.Manager.Command
import Custody.Proofs.Manager.Registry

set_option autoImplicit false

/-! # Managers that differ in what is sealed

Two managers are alike but for some secret wallets if they differ in nothing but the sealed copies
that those wallets hold, all of them locked soft wallets (`Manager.Alike`). `Manager.Couples` says
of two operations that they give the same answers on managers that are alike and leave them alike,
and is built up along the operations: `Manager.Couples.bind` puts two parts together. -/

namespace Custody

variable {B : Type}

/-! ## Being alike -/

/-- Both wallets are locked, and they differ in nothing but their sealed copies. -/
structure SoftWallet.AlikeButSealed (wallet wallet' : SoftWallet) : Prop where
  path_eq : wallet'.path = wallet.path
  cost_eq : wallet'.cost = wallet.cost
  locked : wallet.session? = none
  locked' : wallet'.session? = none

/-- Two entries are the same, or those of a secret wallet with different sealed copies. -/
inductive EntryAlike (secret : WalletName → Prop) :
    WalletName × (SoftWallet ⊕ B) → WalletName × (SoftWallet ⊕ B) → Prop
  | same (entry : WalletName × (SoftWallet ⊕ B)) : EntryAlike secret entry entry
  | differing {name : WalletName} {wallet wallet' : SoftWallet} (hsecret : secret name)
    (halike : wallet.AlikeButSealed wallet') :
    EntryAlike secret (name, .inl wallet) (name, .inl wallet')

/-- The managers differ in nothing but the sealed copies of secret wallets. -/
structure Manager.Alike (secret : WalletName → Prop) (manager manager' : Manager (SoftWallet ⊕ B)) :
    Prop where
  dir_eq : manager'.dir = manager.dir
  cost_eq : manager'.cost = manager.cost
  wallets : List.Forall₂ (EntryAlike secret) manager.wallets manager'.wallets
  timeout_eq : manager'.timeout = manager.timeout
  clock_eq : manager'.clock = manager.clock
  dirLock_eq : manager'.dirLock = manager.dirLock

/-- So do the scenes: the world is the same, and so is what has been asked so far. -/
structure Scene.Alike (secret : WalletName → Prop) (scene scene' : Scene (SoftWallet ⊕ B)) :
    Prop where
  manager : scene.manager.Alike secret scene'.manager
  world_eq : scene'.world = scene.world
  trace_eq : scene'.trace = scene.trace

variable {secret secret' : WalletName → Prop} {entry entry' : WalletName × (SoftWallet ⊕ B)}
  {manager manager' : Manager (SoftWallet ⊕ B)} {scene scene' : Scene (SoftWallet ⊕ B)}

namespace EntryAlike

theorem fst_eq (h : EntryAlike secret entry entry') : entry'.1 = entry.1 := by
  cases h <;> rfl

theorem mono (h : EntryAlike secret entry entry') (hle : secret entry.1 → secret' entry.1) :
    EntryAlike secret' entry entry' := by
  cases h with
  | same => exact .same entry
  | differing hsecret halike => exact .differing (hle hsecret) halike

/-- A wallet that is not secret is the same. -/
theorem eq_of_not_secret (h : EntryAlike secret entry entry') (hsecret : ¬ secret entry.1) :
    entry' = entry := by
  cases h with
  | same => rfl
  | differing hsecret' => exact absurd hsecret' hsecret

variable [Suite] [Backend B]

/-- Both wallets are locked, or both are unlocked, and then they are the same. -/
theorem isLocked_eq (h : EntryAlike secret entry entry') :
    Backend.isLocked entry'.2 = Backend.isLocked entry.2 ∧
      (Backend.isLocked entry.2 = false → entry' = entry) := by
  cases h with
  | same => exact ⟨rfl, fun _ => rfl⟩
  | @differing name wallet wallet' hsecret halike =>
    have hlocked : Backend.isLocked (.inl wallet : SoftWallet ⊕ B) = true := by
      show wallet.session?.isNone = true
      rw [halike.locked]
      rfl
    have hlocked' : Backend.isLocked (.inl wallet' : SoftWallet ⊕ B) = true := by
      show wallet'.session?.isNone = true
      rw [halike.locked']
      rfl
    refine ⟨hlocked'.trans hlocked.symm, fun hopen => ?_⟩
    rw [hlocked] at hopen
    exact absurd hopen (by simp)

end EntryAlike

namespace Manager.Alike

theorem mono (h : manager.Alike secret manager') (hle : ∀ name, secret name → secret' name) :
    manager.Alike secret' manager' :=
  { h with wallets := h.wallets.imp fun _ _ halike => halike.mono (hle _) }

theorem isRegistered_eq (h : manager.Alike secret manager') (text : String) :
    manager'.isRegistered text = manager.isRegistered text := by
  have hwallets := h.wallets
  unfold isRegistered
  generalize manager.wallets = entries at hwallets ⊢
  generalize manager'.wallets = entries' at hwallets ⊢
  induction hwallets with
  | nil => rfl
  | cons hentry hrest ih => rw [List.any_cons, List.any_cons, ih, hentry.fst_eq]

theorem find?_rel (h : manager.Alike secret manager') (text : String) :
    Option.Rel (EntryAlike secret) (manager.find? text) (manager'.find? text) := by
  have hwallets := h.wallets
  unfold find?
  generalize manager.wallets = entries at hwallets ⊢
  generalize manager'.wallets = entries' at hwallets ⊢
  induction hwallets with
  | nil => exact .none
  | cons hentry hrest ih =>
    rw [List.find?_cons, List.find?_cons, hentry.fst_eq]
    split
    · exact .some hentry
    · exact ih

theorem isEmpty_eq (h : manager.Alike secret manager') :
    manager'.wallets.isEmpty = manager.wallets.isEmpty := by
  have hwallets := h.wallets
  generalize manager.wallets = entries at hwallets ⊢
  generalize manager'.wallets = entries' at hwallets ⊢
  cases hwallets <;> rfl

theorem replace (h : manager.Alike secret manager') (name : WalletName)
    (wallet : SoftWallet ⊕ B) :
    (manager.replace name wallet).Alike secret (manager'.replace name wallet) := by
  refine { h with wallets := List.rel_map ?_ h.wallets }
  intro entry entry' hentry
  dsimp only
  rw [hentry.fst_eq]
  split
  · exact .same _
  · exact hentry

/-- A wallet that is registered anew is the same in both, so that it is secret no more. -/
theorem registered (h : manager.Alike secret manager') (name : WalletName)
    (wallet : SoftWallet ⊕ B) :
    (manager.registered name wallet).Alike (fun other => secret other ∧ other ≠ name)
      (manager'.registered name wallet) := by
  have hwallets := h.wallets
  refine { h with wallets := List.rel_append ?_ (.cons (.same _) .nil) }
  generalize manager.wallets = entries at hwallets ⊢
  generalize manager'.wallets = entries' at hwallets ⊢
  induction hwallets with
  | nil => exact .nil
  | @cons entry entry' rest rest' hentry hrest ih =>
    -- an entry of the name goes from both registries, any other one stays in both
    by_cases hname : entry.1 = name
    · rw [List.filter_cons_of_neg (by simpa using hname),
        List.filter_cons_of_neg (by simpa [hentry.fst_eq] using hname)]
      exact ih
    · rw [List.filter_cons_of_pos (by simpa using hname),
        List.filter_cons_of_pos (by simpa [hentry.fst_eq] using hname)]
      exact .cons (hentry.mono fun hsecret => ⟨hsecret, hname⟩) ih

/-- A wallet that is registered besides is the same in both. -/
theorem append (h : manager.Alike secret manager') (entry : WalletName × (SoftWallet ⊕ B)) :
    Manager.Alike secret { manager with wallets := manager.wallets ++ [entry] }
      { manager' with wallets := manager'.wallets ++ [entry] } :=
  { h with wallets := List.rel_append h.wallets (.cons (.same entry) .nil) }

theorem walletPath_eq (h : manager.Alike secret manager') (name : WalletName) :
    manager'.walletPath name = manager.walletPath name := by
  unfold walletPath
  rw [h.dir_eq]

end Manager.Alike

namespace Scene.Alike

theorem mono (h : scene.Alike secret scene') (hle : ∀ name, secret name → secret' name) :
    scene.Alike secret' scene' :=
  { h with manager := h.manager.mono hle }

theorem noted (h : scene.Alike secret scene') (name : WalletName) (request : Request)
    (succeeded : Bool) :
    (scene.noted name request succeeded).Alike secret (scene'.noted name request succeeded) where
  manager := h.manager
  world_eq := h.world_eq
  trace_eq := congrArg (· ++ _) h.trace_eq

end Scene.Alike

/-! ## Operations that do not tell alike managers apart -/

/-- Two operations have come to answers that belong together, with the scenes alike but for fewer
    wallets perhaps, or to the same error. -/
inductive Coupled {α : Type} (secret secret' : WalletName → Prop) (answers : α → α → Prop) :
    Except Error α × Scene (SoftWallet ⊕ B) → Except Error α × Scene (SoftWallet ⊕ B) → Prop
  | answered {a a' : α} {scene scene' : Scene (SoftWallet ⊕ B)} (hanswers : answers a a')
    (halike : scene.Alike secret' scene') :
    Coupled secret secret' answers (.ok a, scene) (.ok a', scene')
  | failed {scene scene' : Scene (SoftWallet ⊕ B)} (error : Error)
    (halike : scene.Alike secret scene') :
    Coupled secret secret' answers (.error error, scene) (.error error, scene')

theorem Coupled.of_alike {α : Type} (halike : scene.Alike secret scene')
    (result : Except Error α) : Coupled secret secret Eq (result, scene) (result, scene') := by
  cases result with
  | ok a => exact .answered rfl halike
  | error error => exact .failed error halike

namespace Manager

variable {α β : Type} {answers : α → α → Prop} {answers' : β → β → Prop}

/-- On scenes that are alike, the operations come to answers that belong together. -/
def Couples (secret secret' : WalletName → Prop) (answers : α → α → Prop)
    (x x' : Operation (SoftWallet ⊕ B) α) : Prop :=
  ∀ scene scene', scene.Alike secret scene' →
    Coupled secret secret' answers (x.outcome scene) (x'.outcome scene')

namespace Couples

theorem pure {a a' : α} (hanswers : answers a a') :
    Couples (B := B) secret secret answers (Pure.pure a) (Pure.pure a') :=
  fun _ _ halike => .answered hanswers halike

theorem throw {error : Error} :
    Couples (B := B) secret secret' answers (MonadExcept.throw error)
      (MonadExcept.throw error) :=
  fun _ _ halike => .failed error halike

theorem throw_bind {error : Error} {f f' : α → Operation (SoftWallet ⊕ B) β} :
    Couples (B := B) secret secret' answers' (MonadExcept.throw error >>= f)
      (MonadExcept.throw error >>= f') :=
  fun _ _ halike => .failed error halike

/-- One part after the other. The first may leave fewer wallets secret. -/
theorem seq {secret₁ : WalletName → Prop} {x x' : Operation (SoftWallet ⊕ B) α}
    {f f' : α → Operation (SoftWallet ⊕ B) β} (hle : ∀ name, secret₁ name → secret name)
    (hx : Couples secret secret₁ answers x x')
    (hf : ∀ a a', answers a a' → Couples secret₁ secret' answers' (f a) (f' a')) :
    Couples secret secret' answers' (x >>= f) (x' >>= f') := by
  intro scene scene' halike
  have hdone := hx scene scene' halike
  rw [Act.outcome_bind, Act.outcome_bind]
  generalize x.outcome scene = done at hdone ⊢
  generalize x'.outcome scene' = done' at hdone ⊢
  cases hdone with
  | failed error halike => exact .failed error halike
  | @answered a a' scene₁ scene₁' hanswers halike =>
    have hlast := hf a a' hanswers scene₁ scene₁' halike
    dsimp only
    generalize (f a).outcome scene₁ = last at hlast ⊢
    generalize (f' a').outcome scene₁' = last' at hlast ⊢
    cases hlast with
    | answered hanswers halike => exact .answered hanswers halike
    | failed error halike => exact .failed error (halike.mono hle)

theorem bind {x x' : Operation (SoftWallet ⊕ B) α} {f f' : α → Operation (SoftWallet ⊕ B) β}
    (hx : Couples secret secret answers x x')
    (hf : ∀ a a', answers a a' → Couples secret secret' answers' (f a) (f' a')) :
    Couples secret secret' answers' (x >>= f) (x' >>= f') :=
  seq (fun _ => id) hx hf

theorem bind_eq {x x' : Operation (SoftWallet ⊕ B) α} {f f' : α → Operation (SoftWallet ⊕ B) β}
    (hx : Couples secret secret Eq x x')
    (hf : ∀ a, Couples secret secret' answers' (f a) (f' a)) :
    Couples secret secret' answers' (x >>= f) (x' >>= f') := by
  refine bind hx ?_
  rintro a _ rfl
  exact hf a

theorem mono {secret₁ : WalletName → Prop} {x x' : Operation (SoftWallet ⊕ B) α}
    (h : Couples secret secret₁ answers x x') (hle : ∀ name, secret₁ name → secret' name) :
    Couples secret secret' answers x x' := by
  intro scene scene' halike
  have hdone := h scene scene' halike
  generalize x.outcome scene = done at hdone ⊢
  generalize x'.outcome scene' = done' at hdone ⊢
  cases hdone with
  | answered hanswers halike => exact .answered hanswers (halike.mono hle)
  | failed error halike => exact .failed error halike

theorem get : Couples (B := B) secret secret (Scene.Alike secret) MonadState.get
    MonadState.get :=
  fun _ _ halike => .answered halike halike

theorem update {f f' : Manager (SoftWallet ⊕ B) → Manager (SoftWallet ⊕ B)}
    (hf : ∀ manager manager', manager.Alike secret manager' →
      (f manager).Alike secret' (f' manager')) :
    Couples secret secret' Eq (Manager.update f) (Manager.update f') :=
  fun _ _ halike => .answered rfl { halike with manager := hf _ _ halike.manager }

theorem onWorld (act : Act Error World α) :
    Couples (B := B) secret secret Eq (Manager.onWorld act) (Manager.onWorld act) := by
  intro scene scene' halike
  rw [outcome_onWorld, outcome_onWorld, halike.world_eq]
  refine .of_alike ?_ _
  exact ⟨halike.manager, rfl, halike.trace_eq⟩

theorem settled {x x' : Operation (SoftWallet ⊕ B) α}
    (h : Couples secret secret Eq x x') :
    Couples secret secret Eq (x.settled : Operation (SoftWallet ⊕ B) (Except Error α))
      x'.settled := by
  intro scene scene' halike
  have hdone := h scene scene' halike
  rw [Act.outcome_settled, Act.outcome_settled]
  generalize x.outcome scene = done at hdone ⊢
  generalize x'.outcome scene' = done' at hdone ⊢
  cases hdone with
  | answered hanswers halike => exact .answered (congrArg Except.ok hanswers) halike
  | failed error halike => exact .answered rfl halike

/-- To go on with a result is to go on with the same answer, if it is one. -/
theorem bind_ofExcept {result : Except Error α} {f f' : α → Operation (SoftWallet ⊕ B) β}
    (hf : ∀ a, result = .ok a → Couples secret secret' answers' (f a) (f' a)) :
    Couples secret secret' answers' (Act.ofExcept result >>= f)
      (Act.ofExcept result >>= f') := by
  intro scene scene' halike
  rw [Act.outcome_bind, Act.outcome_bind, Act.outcome_ofExcept, Act.outcome_ofExcept]
  cases result with
  | ok a => exact hf a rfl _ _ halike
  | error error => exact .failed error halike

theorem now : Couples (B := B) secret secret Eq Manager.now Manager.now := by
  intro scene scene' halike
  rw [outcome_now, outcome_now, halike.world_eq, halike.manager.clock_eq]
  exact .answered rfl halike

theorem ask (entry : WalletName × (SoftWallet ⊕ B)) (request : Request)
    (answer : Except Error α) :
    Couples secret secret Eq (Manager.ask entry request answer)
      (Manager.ask entry request answer) := by
  intro scene scene' halike
  rw [outcome_ask, outcome_ask]
  exact .of_alike (halike.noted _ _ _) answer

theorem request (entry : WalletName × (SoftWallet ⊕ B)) (request : Request)
    (act : Act Error ((SoftWallet ⊕ B) × World) α) :
    Couples secret secret Eq (Manager.request entry request act)
      (Manager.request entry request act) := by
  intro scene scene' halike
  rw [outcome_request, outcome_request, halike.world_eq]
  refine .of_alike (Scene.Alike.noted ?_ _ _ _) _
  exact ⟨halike.manager.replace _ _, rfl, halike.trace_eq⟩

/-- What is registered under a name is alike, and of that name. -/
theorem wallet (text : String) :
    Couples (B := B) secret secret (fun entry entry' => EntryAlike secret entry entry' ∧
      entry.1.text = text) (Manager.wallet text) (Manager.wallet text) := by
  intro scene scene' halike
  have hfind := halike.manager.find?_rel text
  have htext : ∀ entry, scene.manager.find? text = some entry → entry.1.text = text :=
    fun entry hentry => (mem_of_find?_eq_some hentry).2
  rw [outcome_wallet, outcome_wallet]
  generalize scene.manager.find? text = found at hfind htext ⊢
  generalize scene'.manager.find? text = found' at hfind ⊢
  cases hfind with
  | none => exact .failed _ halike
  | some hentry => exact .answered ⟨hentry, htext _ rfl⟩ halike

/-- An operation for each member of a list. -/
theorem mapM {f : α → Operation (SoftWallet ⊕ B) β}
    (hf : ∀ a, Couples secret secret Eq (f a) (f a)) (as : List α) :
    Couples secret secret Eq (as.mapM f) (as.mapM f) := by
  induction as with
  | nil => exact .pure rfl
  | cons a rest ih =>
    rw [List.mapM_cons]
    exact .bind_eq (hf a) fun _ => .bind_eq ih fun _ => .pure rfl

variable [Suite] [Backend B]

/-- Alike wallets are locked or unlocked alike, and unlocked ones are the same. -/
theorem askLocked (hentry : EntryAlike secret entry entry') :
    Couples secret secret
      (fun answer answer' => answer = answer' ∧ (answer = false → entry' = entry))
      (Manager.askLocked entry) (Manager.askLocked entry') := by
  intro scene scene' halike
  rw [outcome_askLocked, outcome_askLocked, hentry.fst_eq, hentry.isLocked_eq.1]
  exact .answered ⟨rfl, hentry.isLocked_eq.2⟩ (halike.noted _ _ _)

/-- To go on with the wallet only if it is unlocked is to go on with the same wallet. -/
theorem askLocked_bind {f f' : Bool → Operation (SoftWallet ⊕ B) β}
    (hentry : EntryAlike secret entry entry')
    (hlocked : Couples secret secret' answers' (f true) (f' true))
    (hopen : entry' = entry → Couples secret secret' answers' (f false) (f' false)) :
    Couples secret secret' answers' (Manager.askLocked entry >>= f)
      (Manager.askLocked entry' >>= f') := by
  refine bind (askLocked hentry) ?_
  rintro answer _ ⟨rfl, hsame⟩
  cases answer with
  | true => exact hlocked
  | false => exact hopen (hsame rfl)

end Couples

/-! ### The wallets of a registry -/

variable [Suite] [Backend B] {entries entries' : List (WalletName × (SoftWallet ⊕ B))}

theorem couples_lockEntry (hentry : EntryAlike secret entry entry') :
    Couples secret secret Eq (lockEntry entry) (lockEntry entry') := by
  refine .askLocked_bind hentry (.pure rfl) ?_
  rintro rfl
  refine .bind_eq (.update fun _ _ halike => halike.replace _ _) fun _ => ?_
  exact fun _ _ halike => .answered rfl (halike.noted _ _ _)

theorem couples_lockAll : Couples (B := B) secret secret Eq lockAll lockAll := by
  refine .bind .get fun scene scene' halike => ?_
  have hwallets := halike.manager.wallets
  generalize scene.manager.wallets = entries at hwallets ⊢
  generalize scene'.manager.wallets = entries' at hwallets ⊢
  induction hwallets with
  | nil => exact .pure rfl
  | cons hentry hrest ih => exact .bind_eq (couples_lockEntry hentry) fun _ => ih

theorem couples_checkTimeout : Couples (B := B) secret secret Eq checkTimeout checkTimeout := by
  refine .bind .get fun scene scene' halike => .bind_eq .now fun instant => ?_
  rw [halike.manager.timeout_eq]
  obtain ⟨expired, timeout⟩ := scene.manager.timeout.check instant
  refine .bind_eq (.update fun _ _ halike => { halike with timeout_eq := rfl }) fun _ => ?_
  cases expired with
  | true => exact couples_lockAll
  | false => exact .pure rfl

theorem couples_unlockedWallet (text : String) :
    Couples (B := B) secret secret Eq (unlockedWallet text) (unlockedWallet text) := by
  refine .bind (.wallet text) ?_
  rintro entry entry' ⟨hentry, -⟩
  exact .askLocked_bind hentry .throw fun heq => .pure heq.symm

theorem couples_listEntries (h : List.Forall₂ (EntryAlike secret) entries entries') :
    Couples secret secret Eq (listEntries entries) (listEntries entries') := by
  induction h with
  | nil => exact .pure rfl
  | cons hentry hrest ih =>
    refine .bind (.askLocked hentry) ?_
    rintro answer _ ⟨rfl, -⟩
    refine .bind_eq ih fun others => ?_
    rw [hentry.fst_eq]
    exact .pure rfl

theorem couples_askSignature (entry : WalletName × (SoftWallet ⊕ B)) (digest : Digest)
    (key : PublicKey) :
    Couples secret secret Eq (askSignature entry digest key) (askSignature entry digest key) :=
  .bind_eq (.onWorld _) fun answer => .ask entry _ answer

theorem couples_publicKeysOf (h : List.Forall₂ (EntryAlike secret) entries entries')
    (found : Option KeySet) :
    Couples secret secret Eq (publicKeysOf entries found) (publicKeysOf entries' found) := by
  induction h generalizing found with
  | nil => exact .pure rfl
  | cons hentry hrest ih =>
    refine .askLocked_bind hentry (ih found) ?_
    rintro rfl
    exact .bind_eq (.ask _ _ _) fun keys => ih _

theorem couples_signaturesFor (entry : WalletName × (SoftWallet ⊕ B)) (digest : Digest)
    (keys : List PublicKey) (found : SignatureSet) :
    Couples secret secret Eq (signaturesFor entry digest keys found)
      (signaturesFor entry digest keys found) := by
  induction keys generalizing found with
  | nil => exact .pure rfl
  | cons key rest ih =>
    refine .bind_eq (couples_askSignature entry digest key) fun answer => ?_
    cases answer with
    | some signature => exact ih _
    | none => exact ih _

theorem couples_signaturesOf (digest : Digest)
    (h : List.Forall₂ (EntryAlike secret) entries entries') (found : Option SignatureSet) :
    Couples secret secret Eq (signaturesOf digest entries found)
      (signaturesOf digest entries' found) := by
  induction h generalizing found with
  | nil => exact .pure rfl
  | cons hentry hrest ih =>
    refine .askLocked_bind hentry (ih found) ?_
    rintro rfl
    refine .bind_eq (.ask _ _ _) fun keys => ?_
    exact .bind_eq (couples_signaturesFor _ _ _ _) fun signatures => ih _

theorem couples_firstSignature (digest : Digest) (key : PublicKey)
    (h : List.Forall₂ (EntryAlike secret) entries entries') :
    Couples secret secret Eq (firstSignature digest key entries)
      (firstSignature digest key entries') := by
  induction h with
  | nil => exact .pure rfl
  | cons hentry hrest ih =>
    refine .askLocked_bind hentry ih ?_
    rintro rfl
    refine .bind_eq (couples_askSignature _ digest key) fun answer => ?_
    cases answer with
    | some signature => exact .pure rfl
    | none => exact ih

theorem couples_signatureOf (digest : Digest) (key : PublicKey) :
    Couples (B := B) secret secret Eq (signatureOf digest key) (signatureOf digest key) := by
  refine .bind .get fun scene scene' halike => ?_
  refine .bind_eq (couples_firstSignature digest key halike.manager.wallets) fun answer => ?_
  cases answer with
  | some signature => exact .pure rfl
  | none => exact .throw

end Manager

end Custody
