import Custody.Manager.Keys
import Custody.Manager.Lifecycle
import Custody.Proofs.Manager.Registry

set_option autoImplicit false

/-! # Operations that only look

Most operations of a manager leave its wallets as they are: they ask wallets whether they are
locked, and ask unlocked ones for keys and signatures. `Manager.Sees` says so of an operation,
together with what is known of its answer, and is built up along the operation: `Manager.Sees.bind`
puts two parts together. -/

namespace Custody

variable {W : Type} [Backend W]

/-! ## What looking leaves behind -/

namespace Manager

/-- The request is one that looking makes: a wallet was asked whether it is locked, or an unlocked
    one was asked for more. -/
def Fits (manager : Manager W) (event : Event) : Prop :=
  ∃ wallet, (event.wallet, wallet) ∈ manager.wallets ∧
    match event.request with
    | .isLocked answer => answer = Backend.isLocked wallet
    | .checkPassword _ | .listKeys | .listPublicKeys | .trySign _ _ =>
      Backend.isLocked wallet = false
    | _ => False

end Manager

/-- The second scene comes from the first by looking: random bytes may have been drawn, and requests
    that fit the registry are on record. -/
structure Scene.Saw (scene scene' : Scene W) : Prop where
  manager_eq : scene'.manager = scene.manager
  drew : scene.world.Drew scene'.world
  events : ∃ events, scene'.trace = scene.trace ++ events ∧
    ∀ event ∈ events, scene.manager.Fits event

namespace Scene

variable {scene scene₁ scene₂ : Scene W}

theorem Saw.refl (scene : Scene W) : scene.Saw scene :=
  ⟨rfl, World.Drew.refl _, [], by simp, by simp⟩

theorem Saw.trans (h : scene.Saw scene₁) (h' : scene₁.Saw scene₂) : scene.Saw scene₂ := by
  obtain ⟨events, htrace, hfits⟩ := h.events
  obtain ⟨events', htrace', hfits'⟩ := h'.events
  refine ⟨h'.manager_eq.trans h.manager_eq, h.drew.trans h'.drew, events ++ events', ?_, ?_⟩
  · rw [htrace', htrace, List.append_assoc]
  · intro event hevent
    rcases List.mem_append.1 hevent with hmem | hmem
    · exact hfits event hmem
    · rw [← h.manager_eq]
      exact hfits' event hmem

/-- What is registered and comes later in a list is registered still. -/
theorem Saw.mem_of_mem_tail (h : scene.Saw scene₁) {entry : WalletName × W}
    {rest : List (WalletName × W)}
    (hentries : ∀ other ∈ entry :: rest, other ∈ scene.manager.wallets) :
    ∀ other ∈ rest, other ∈ scene₁.manager.wallets := by
  intro other hother
  rw [h.manager_eq]
  exact hentries other (List.mem_cons_of_mem entry hother)

theorem Saw.noted {name : WalletName} {request : Request} {succeeded : Bool}
    (h : scene.manager.Fits ⟨name, request, succeeded⟩) :
    scene.Saw (scene.noted name request succeeded) :=
  ⟨rfl, World.Drew.refl _, _, rfl, by simpa using h⟩

theorem Saw.drawn {world : World} (h : scene.world.Drew world) :
    scene.Saw { scene with world } :=
  ⟨rfl, h, [], by simp, by simp⟩

end Scene

namespace Manager

variable {α β : Type} {scene : Scene W}

/-- From a scene, the operation only looks, and its answer is as stated. -/
def Sees (x : Operation W α) (scene : Scene W) (answer : α → Prop) : Prop :=
  scene.Saw (x.outcome scene).2 ∧ ∀ a, (x.outcome scene).1 = .ok a → answer a

namespace Sees

theorem pure {a : α} {answer : α → Prop} (h : answer a) :
    Sees (Pure.pure a : Operation W α) scene answer := by
  refine ⟨Scene.Saw.refl scene, ?_⟩
  intro b hb
  cases hb
  exact h

theorem throw {error : Error} {answer : α → Prop} :
    Sees (MonadExcept.throw error : Operation W α) scene answer := by
  refine ⟨Scene.Saw.refl scene, ?_⟩
  intro b hb
  exact absurd hb (by simp)

theorem get {answer : Scene W → Prop} (h : answer scene) :
    Sees (MonadState.get : Operation W (Scene W)) scene answer := by
  refine ⟨Scene.Saw.refl scene, ?_⟩
  intro b hb
  cases hb
  exact h

theorem bind {x : Operation W α} {f : α → Operation W β} {middle : α → Prop} {answer : β → Prop}
    (hx : Sees x scene middle)
    (hf : ∀ a scene', middle a → scene.Saw scene' → Sees (f a) scene' answer) :
    Sees (x >>= f) scene answer := by
  unfold Sees
  rw [Act.outcome_bind]
  obtain ⟨hsaw, hmiddle⟩ := hx
  rcases hdone : x.outcome scene with ⟨error | a, scene'⟩
  · rw [hdone] at hsaw
    exact ⟨hsaw, by simp⟩
  · rw [hdone] at hsaw hmiddle
    obtain ⟨hsaw', hanswer⟩ := hf a scene' (hmiddle a rfl) hsaw
    exact ⟨hsaw.trans hsaw', hanswer⟩

theorem mono {x : Operation W α} {answer answer' : α → Prop} (h : Sees x scene answer)
    (hmono : ∀ a, answer a → answer' a) : Sees x scene answer' :=
  ⟨h.1, fun a ha => hmono a (h.2 a ha)⟩

theorem askLocked {entry : WalletName × W} (hentry : entry ∈ scene.manager.wallets) :
    Sees (Manager.askLocked entry) scene (· = Backend.isLocked entry.2) := by
  refine ⟨Scene.Saw.noted ⟨entry.2, hentry, rfl⟩, ?_⟩
  intro answer hanswer
  cases hanswer
  rfl

theorem ask {entry : WalletName × W} {request : Request} {result : Except Error α}
    (hfits : ∀ succeeded, scene.manager.Fits ⟨entry.1, request, succeeded⟩) :
    Sees (Manager.ask entry request result) scene (result = .ok ·) :=
  ⟨Scene.Saw.noted (hfits _), fun _ hanswer => hanswer⟩

end Sees

/-- An unlocked wallet of the registry gives the signature for its key. -/
def Signs (manager : Manager W) (digest : Digest) (key : PublicKey) (signature : Signature) :
    Prop :=
  ∃ name wallet entropy entropy', (name, wallet) ∈ manager.wallets ∧
    Backend.isLocked wallet = false ∧
    (Backend.trySign wallet digest key).run entropy = (.ok (some signature), entropy')

theorem Sees.askSignature {entry : WalletName × W} {digest : Digest} {key : PublicKey}
    (hentry : entry ∈ scene.manager.wallets) (hopen : Backend.isLocked entry.2 = false) :
    Sees (Manager.askSignature entry digest key) scene fun answer =>
      ∀ signature, answer = some signature → scene.manager.Signs digest key signature := by
  refine ⟨?_, ?_⟩
  · have hdrew : scene.world.Drew { scene.world with
        entropy := ((Backend.trySign entry.2 digest key).run scene.world.entropy).2 } := ⟨_, rfl⟩
    exact (Scene.Saw.drawn hdrew).trans (Scene.Saw.noted ⟨entry.2, hentry, hopen⟩)
  · intro answer hanswer signature hsome
    subst hsome
    exact ⟨entry.1, entry.2, scene.world.entropy, _, hentry, hopen, Prod.ext hanswer rfl⟩

/-! ## The operations -/

/-- The wallet is registered under the name and unlocked. -/
def IsOpen (manager : Manager W) (name : String) (entry : WalletName × W) : Prop :=
  manager.find? name = some entry ∧ Backend.isLocked entry.2 = false

theorem outcome_unlockedWallet (name : String) (scene : Scene W) :
    (unlockedWallet name).outcome scene = match scene.manager.find? name with
      | none => (.error (.walletNonexistent name), scene)
      | some entry =>
        (if Backend.isLocked entry.2 then .error (.walletLocked name) else .ok entry,
          scene.noted entry.1 (.isLocked (Backend.isLocked entry.2)) true) := by
  unfold unlockedWallet
  rw [Act.outcome_bind, outcome_wallet]
  cases scene.manager.find? name with
  | none => rfl
  | some entry =>
    simp only [Act.outcome_bind, outcome_askLocked, Act.outcome_ite, Act.outcome_throw,
      Act.outcome_pure]
    split <;> rfl

theorem sees_wallet (name : String) :
    Sees (wallet name) scene (scene.manager.find? name = some ·) := by
  refine Sees.bind (Sees.get rfl) ?_
  rintro _ scene' rfl hsaw
  cases scene.manager.find? name with
  | none => exact Sees.throw
  | some entry => exact Sees.pure rfl

theorem sees_unlockedWallet (name : String) :
    Sees (unlockedWallet name) scene (scene.manager.IsOpen name) := by
  refine Sees.bind (sees_wallet name) ?_
  intro entry scene' hfind hsaw
  have hentry := (mem_of_find?_eq_some hfind).1
  rw [← hsaw.manager_eq] at hentry
  refine Sees.bind (Sees.askLocked hentry) ?_
  rintro _ scene'' rfl hsaw'
  split
  · exact Sees.throw
  · rename_i hopen
    exact Sees.pure ⟨hfind, Bool.eq_false_iff.2 hopen⟩

theorem sees_publicKeysOf {entries : List (WalletName × W)} (found : Option KeySet)
    (hentries : ∀ entry ∈ entries, entry ∈ scene.manager.wallets) :
    Sees (publicKeysOf entries found) scene fun _ => True := by
  induction entries generalizing scene found with
  | nil => exact Sees.pure trivial
  | cons entry rest ih =>
    have hentry := hentries entry List.mem_cons_self
    refine Sees.bind (Sees.askLocked hentry) ?_
    rintro _ scene' rfl hsaw
    split
    · exact ih found (hsaw.mem_of_mem_tail hentries)
    · rename_i hopen
      have hopen := Bool.eq_false_iff.2 hopen
      refine Sees.bind (Sees.ask fun _ => ⟨entry.2, hsaw.manager_eq ▸ hentry, hopen⟩) ?_
      intro keys scene'' hkeys hsaw'
      exact ih _ ((hsaw.trans hsaw').mem_of_mem_tail hentries)

/-- An unlocked wallet of the registry gives the signature for one of its keys. -/
theorem sees_signaturesFor {entry : WalletName × W} {digest : Digest} {keys : List PublicKey}
    {found : SignatureSet} (hentry : entry ∈ scene.manager.wallets)
    (hopen : Backend.isLocked entry.2 = false) {Known : Signature → Prop}
    (hsigns : ∀ key signature, scene.manager.Signs digest key signature → Known signature)
    (hfound : ∀ signature ∈ found, Known signature) :
    Sees (signaturesFor entry digest keys found) scene
      fun answer => ∀ signature ∈ answer, Known signature := by
  induction keys generalizing scene found with
  | nil => exact Sees.pure hfound
  | cons key keys ih =>
    refine Sees.bind (Sees.askSignature hentry hopen) ?_
    intro answer scene' hanswer hsaw
    rw [← hsaw.manager_eq] at hentry hsigns
    cases answer with
    | none => exact ih hentry hsigns hfound
    | some signature =>
      refine ih hentry hsigns ?_
      intro other hother
      rcases Std.ExtTreeSet.mem_insert.1 hother with heq | hmem
      · rw [Std.LawfulEqOrd.compare_eq_iff_eq] at heq
        subst heq
        rw [hsaw.manager_eq] at hsigns
        exact hsigns key signature (hanswer signature rfl)
      · exact hfound other hmem

theorem sees_signaturesOf {digest : Digest} {entries : List (WalletName × W)}
    {found : Option SignatureSet} (hentries : ∀ entry ∈ entries, entry ∈ scene.manager.wallets)
    {Known : Signature → Prop}
    (hsigns : ∀ key signature, scene.manager.Signs digest key signature → Known signature)
    (hfound : ∀ signature ∈ found.getD ∅, Known signature) :
    Sees (signaturesOf digest entries found) scene
      fun answer => ∀ signature ∈ answer.getD ∅, Known signature := by
  induction entries generalizing scene found with
  | nil => exact Sees.pure hfound
  | cons entry rest ih =>
    have hentry := hentries entry List.mem_cons_self
    refine Sees.bind (Sees.askLocked hentry) ?_
    rintro _ scene₁ rfl hsaw₁
    split
    · exact ih (hsaw₁.mem_of_mem_tail hentries) (hsaw₁.manager_eq ▸ hsigns) hfound
    · rename_i hopen
      have hopen := Bool.eq_false_iff.2 hopen
      refine Sees.bind (Sees.ask fun _ => ⟨entry.2, hsaw₁.manager_eq ▸ hentry, hopen⟩) ?_
      intro keys scene₂ hkeys hsaw₂
      have hsaw₂ := hsaw₁.trans hsaw₂
      refine Sees.bind (sees_signaturesFor (hsaw₂.manager_eq ▸ hentry) hopen
        (hsaw₂.manager_eq ▸ hsigns) hfound) ?_
      intro signatures scene₃ hsignatures hsaw₃
      have hsaw₃ := hsaw₂.trans hsaw₃
      exact ih (hsaw₃.mem_of_mem_tail hentries) (hsaw₃.manager_eq ▸ hsigns) hsignatures

theorem sees_firstSignature {digest : Digest} {key : PublicKey} {entries : List (WalletName × W)}
    (hentries : ∀ entry ∈ entries, entry ∈ scene.manager.wallets) :
    Sees (firstSignature digest key entries) scene fun _ => True := by
  induction entries generalizing scene with
  | nil => exact Sees.pure trivial
  | cons entry rest ih =>
    have hentry := hentries entry List.mem_cons_self
    refine Sees.bind (Sees.askLocked hentry) ?_
    rintro _ scene₁ rfl hsaw₁
    split
    · exact ih (hsaw₁.mem_of_mem_tail hentries)
    · rename_i hopen
      refine Sees.bind (Sees.askSignature (hsaw₁.manager_eq ▸ hentry)
        (Bool.eq_false_iff.2 hopen)) ?_
      intro answer scene₂ _ hsaw₂
      cases answer with
      | none => exact ih ((hsaw₁.trans hsaw₂).mem_of_mem_tail hentries)
      | some signature => exact Sees.pure trivial

theorem sees_signatureOf (digest : Digest) (key : PublicKey) :
    Sees (signatureOf digest key) scene fun _ => True := by
  refine Sees.bind (Sees.get rfl) ?_
  rintro _ scene' rfl hsaw
  refine Sees.bind (sees_firstSignature (hsaw.manager_eq ▸ fun _ hentry => hentry)) ?_
  intro answer scene'' _ hsaw'
  cases answer with
  | none => exact Sees.throw
  | some signature => exact Sees.pure trivial

/-- An operation for each member of a list. -/
theorem Sees.mapM {f : α → Operation W β} {answer : α → β → Prop} (as : List α)
    (hf : ∀ a scene', scene.Saw scene' → Sees (f a) scene' (answer a)) :
    Sees (as.mapM f) scene (List.Forall₂ answer as) := by
  induction as generalizing scene with
  | nil => exact Sees.pure .nil
  | cons a as ih =>
    rw [List.mapM_cons]
    refine Sees.bind (hf a scene (Scene.Saw.refl scene)) ?_
    intro b scene' hb hsaw
    refine Sees.bind (ih fun a scene'' hsaw' => hf a scene'' (hsaw.trans hsaw')) ?_
    intro bs scene'' hbs _
    exact Sees.pure (.cons hb hbs)

/-! ## Whole commands that only look -/

/-- After the look at the timeout, the operation only looks, and its answer is as stated. -/
def Looks (x : Operation W α) (scene : Scene W) (answer : α → Prop) : Prop :=
  scene.checked.Saw (x.outcome scene).2 ∧ ∀ a, (x.outcome scene).1 = .ok a → answer a

theorem Sees.looks {f : Unit → Operation W α} {answer : α → Prop}
    (h : Sees (f ()) scene.checked answer) : Looks (checkTimeout >>= f) scene answer := by
  unfold Looks
  rw [Act.outcome_bind, outcome_checkTimeout]
  exact h

section Looks

variable (scene)

theorem looks_listKeys (name password : String) :
    Looks (listKeys name password) scene fun _ => True := by
  refine Sees.looks (Sees.bind (sees_unlockedWallet name) ?_)
  intro entry scene₁ hopen hsaw₁
  have hentry := (mem_of_find?_eq_some hopen.1).1
  refine Sees.bind (Sees.ask fun _ => ⟨entry.2, hsaw₁.manager_eq ▸ hentry, hopen.2⟩) ?_
  intro _ scene₂ _ hsaw₂
  refine (Sees.ask fun _ => ⟨entry.2, ?_, hopen.2⟩).mono fun _ _ => trivial
  exact (hsaw₁.trans hsaw₂).manager_eq ▸ hentry

theorem looks_publicKeys : Looks publicKeys scene fun _ => True := by
  refine Sees.looks (Sees.bind (Sees.get rfl) ?_)
  rintro _ scene₁ rfl hsaw₁
  dsimp only
  split
  · exact Sees.throw
  · refine Sees.bind (sees_publicKeysOf none (hsaw₁.manager_eq ▸ fun _ hentry => hentry)) ?_
    intro answer scene₂ _ hsaw₂
    cases answer with
    | none => exact Sees.throw
    | some keys => exact Sees.pure trivial

theorem looks_mySignatures (chain : ChainId) : Looks (mySignatures chain) scene fun signatures =>
    ∀ signature ∈ signatures, ∃ key, scene.checked.manager.Signs chain.digest key signature := by
  refine Sees.looks (Sees.bind (Sees.get rfl) ?_)
  rintro _ scene₁ rfl hsaw₁
  dsimp only
  split
  · exact Sees.throw
  · have hsigns : ∀ key signature, scene₁.manager.Signs chain.digest key signature →
        ∃ key, scene.checked.manager.Signs chain.digest key signature := by
      intro key signature hsigned
      exact ⟨key, hsaw₁.manager_eq ▸ hsigned⟩
    refine Sees.bind (sees_signaturesOf (hsaw₁.manager_eq ▸ fun _ hentry => hentry) hsigns
      (by simp)) ?_
    intro answer scene₂ hanswer hsaw₂
    cases answer with
    | none => exact Sees.throw
    | some signatures => exact Sees.pure hanswer

theorem looks_signDigest (digest : Digest) (key : PublicKey) :
    Looks (signDigest digest key) scene fun _ => True :=
  Sees.looks (sees_signatureOf digest key)

/-- A signed transaction has a signature added for each key, of which holds what holds of any
    signature that is asked for. -/
theorem looks_signTransaction [Suite] (tx : SignedTransaction) (keys : KeySet) (chain : ChainId)
    (answer : PublicKey → Signature → Prop) (hanswer : ∀ key scene', scene.checked.Saw scene' →
      Sees (signatureOf (tx.signingDigest chain) key) scene' (answer key)) :
    Looks (signTransaction tx keys chain) scene fun signed => ∃ signatures,
      signed = { tx with signatures := tx.signatures ++ signatures } ∧
      List.Forall₂ answer keys.toList signatures := by
  refine Sees.looks (Sees.bind (Sees.mapM keys.toList hanswer) ?_)
  intro signatures scene₁ hsignatures hsaw₁
  exact Sees.pure ⟨signatures, rfl, hsignatures⟩

end Looks

end Manager

end Custody
