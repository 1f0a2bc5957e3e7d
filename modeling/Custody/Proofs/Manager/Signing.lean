import Custody.Proofs.Key.Signing
import Custody.Proofs.Key.Text
import Custody.Proofs.Manager.Soft

set_option autoImplicit false

/-! # Signatures that are handed out

A manager of soft wallets signs with what the first unlocked wallet keeps under the requested key
(`Manager.signer?`). That private key is filed under its own public half, so the signature is valid
if its halves belong together, and `Manager.Reachable.signatures_valid` shows that this is exactly
what it takes. The halves of a Falcon-512 key that was imported are whatever its text said; with
such a key, `Manager.invalid_signature` has a manager hand out a signature that is not valid. -/

namespace Custody

section

variable [Suite]

/-! ## What a wallet signs with -/

omit [Suite] in
/-- There is always a time at which the window has not run out. -/
theorem UnlockTimeout.exists_check_eq_false (timeout : UnlockTimeout) :
    ∃ now, (timeout.check now).1 = false := by
  cases hexpiry : timeout.expiresAt with
  | none => exact ⟨default, by simp [check, hexpiry]⟩
  | some expiry =>
    refine ⟨.ofSeconds (expiry.seconds - 1), ?_⟩
    have hearlier : (Instant.ofSeconds (expiry.seconds - 1)).seconds = expiry.seconds - 1 := rfl
    simp only [check, hexpiry, Instant.isAtMost, Bool.or_eq_false_iff, Bool.and_eq_false_iff,
      decide_eq_false_iff_not, beq_eq_false_iff_ne]
    omega

namespace SoftWallet

variable {wallet : SoftWallet} {digest : Digest} {key : PublicKey} {secret : PrivateKey}

/-- What an unlocked wallet keeps under a public key. -/
def stored? (wallet : SoftWallet) (key : PublicKey) : Option PrivateKey :=
  wallet.session?.bind fun session => session.keys[key]?

omit [Suite] in
theorem stored?_of_locked (h : wallet.isLocked = true) (key : PublicKey) :
    wallet.stored? key = none := by
  unfold isLocked at h
  unfold stored?
  rw [Option.isNone_iff_eq_none.1 h]
  rfl

omit [Suite] in
theorem isSome_stored?_iff : (wallet.stored? key).isSome = true ↔
    ∃ session, wallet.session? = some session ∧ key ∈ session.keys := by
  unfold stored?
  cases wallet.session? with
  | none => simp
  | some session =>
    rw [Option.bind_some, ← Std.ExtTreeMap.mem_iff_isSome_getElem?]
    simp

theorem isLocked_locked (wallet : SoftWallet) : (Manager.locked wallet).isLocked = true := by
  unfold Manager.locked
  split
  · assumption
  · rfl

theorem Orderly.stored? (h : wallet.Orderly) (hstored : wallet.stored? key = some secret) :
    secret.publicKey = key ∧ secret.WellFormed := by
  unfold SoftWallet.stored? at hstored
  obtain ⟨session, hsession, hget⟩ := Option.bind_eq_some_iff.1 hstored
  exact h.filed session hsession key secret hget

/-- A key that has been imported is kept. -/
theorem Orderly.stored?_of_importKey (h : wallet.Orderly) {β : Type} {reply : PublicKey → β}
    {b : β} {world world' : World} {wallet' : SoftWallet}
    (hdone : (reply <$> SoftWallet.importKey secret).outcome (wallet, world) =
      (.ok b, wallet', world')) : wallet'.stored? secret.publicKey = some secret := by
  have himport := importKey_spec secret h.isBound world
  obtain ⟨answer, hend, hanswer⟩ := Act.exists_of_outcome_map hdone
  rw [hend] at himport
  cases himport with
  | locked hlocked => exact absurd hanswer (by simp [Except.map])
  | known hsession hknown => exact absurd hanswer (by simp [Except.map])
  | committed henvelope hsession hnew hcommit =>
    cases hcommit with
    | unsealed hdrew hcipher => exact absurd hanswer (by simp [Except.map])
    | unsaved hseals hdrew hsave => exact absurd hanswer (by simp [Except.map])
    | saved hseals hdrew hsave => exact Std.ExtTreeMap.getElem?_insert_self

theorem trySign_of_stored? (hstored : wallet.stored? key = some secret) (entropy : Entropy) :
    (wallet.trySign digest key).run entropy =
      (((secret.sign digest).run entropy).1.map some
          |>.mapError fun fault => .crypto (.signing fault),
        ((secret.sign digest).run entropy).2) := by
  unfold SoftWallet.stored? at hstored
  unfold trySign
  rw [hstored]
  simp only [StateT.run_bind]
  rcases (secret.sign digest).run entropy with ⟨fault | signature, entropy'⟩ <;> rfl

theorem trySign_of_stored?_eq_none (hstored : wallet.stored? key = none) (entropy : Entropy) :
    (wallet.trySign digest key).run entropy = (.ok none, entropy) := by
  unfold SoftWallet.stored? at hstored
  unfold trySign
  rw [hstored]
  rfl

end SoftWallet

/-! ## What a manager signs with -/

omit [Suite] in
theorem exists_mem_of_forall₂ {α β : Type} {R : α → β → Prop} {as : List α} {bs : List β}
    (h : List.Forall₂ R as bs) {a : α} (ha : a ∈ as) : ∃ b ∈ bs, R a b := by
  induction h with
  | nil => exact absurd ha List.not_mem_nil
  | cons hab _ ih =>
    rcases List.mem_cons.1 ha with rfl | hrest
    · exact ⟨_, List.mem_cons_self, hab⟩
    · obtain ⟨b, hb, hr⟩ := ih hrest
      exact ⟨b, List.mem_cons_of_mem _ hb, hr⟩

namespace Manager

variable {manager : Manager SoftWallet} {scene : Scene SoftWallet} {digest : Digest}
  {key : PublicKey} {secret : PrivateKey} {signature : Signature} {entropy entropy' : Entropy}

/-- What the first unlocked wallet that has a public key keeps under it. -/
def signer? (manager : Manager SoftWallet) (key : PublicKey) : Option PrivateKey :=
  manager.wallets.findSome? fun entry => entry.2.stored? key

omit [Suite] in
/-- A manager of one wallet signs with what that keeps. -/
theorem signer?_of_length (hlength : manager.wallets.length = 1) {entry : WalletName × SoftWallet}
    (hentry : entry ∈ manager.wallets) (hstored : entry.2.stored? key = some secret) :
    manager.signer? key = some secret := by
  obtain ⟨other, hwallets⟩ := List.length_eq_one_iff.1 hlength
  rw [hwallets, List.mem_singleton] at hentry
  subst hentry
  rw [signer?, hwallets, List.findSome?_singleton, hstored]

theorem outcome_askSignature (entry : WalletName × SoftWallet) (scene : Scene SoftWallet) :
    (askSignature entry digest key).outcome scene =
      (((entry.2.trySign digest key).run scene.world.entropy).1,
        Scene.noted { scene with world := { scene.world with
            entropy := ((entry.2.trySign digest key).run scene.world.entropy).2 } }
          entry.1 (.trySign digest key)
          ((entry.2.trySign digest key).run scene.world.entropy).1.isOk) := by
  unfold askSignature
  simp only [Act.outcome_bind, outcome_onWorld, World.outcome_drawing, outcome_ask]
  rfl

/-- The first wallet that has the key signs, with the bytes that are drawn next. -/
theorem outcome_firstSignature_fst (entries : List (WalletName × SoftWallet)) :
    ((firstSignature digest key entries).outcome scene).1 =
      match entries.findSome? fun entry => entry.2.stored? key with
      | none => .ok none
      | some secret => (((secret.sign digest).run scene.world.entropy).1.map some).mapError
          fun fault => .crypto (.signing fault) := by
  induction entries generalizing scene with
  | nil => rfl
  | cons entry rest ih =>
    unfold firstSignature
    simp only [Act.outcome_bind, outcome_askLocked, Act.outcome_ite, List.findSome?_cons]
    by_cases hlocked : Backend.isLocked entry.2 = true
    · rw [if_pos hlocked, ih, SoftWallet.stored?_of_locked hlocked]
      rfl
    · rw [if_neg hlocked, outcome_askSignature]
      cases hstored : entry.2.stored? key with
      | none =>
        rw [SoftWallet.trySign_of_stored?_eq_none hstored]
        exact ih
      | some secret =>
        rw [SoftWallet.trySign_of_stored? hstored]
        simp only [Scene.noted]
        rcases (secret.sign digest).run scene.world.entropy with ⟨fault | signature, entropy'⟩
          <;> rfl

theorem outcome_signatureOf_fst (scene : Scene SoftWallet) :
    ((signatureOf digest key).outcome scene).1 = match scene.manager.signer? key with
      | none => .error (.missingPublicKey key)
      | some secret => ((secret.sign digest).run scene.world.entropy).1.mapError
          fun fault => .crypto (.signing fault) := by
  unfold signatureOf signer?
  rw [Act.outcome_bind, Act.outcome_get]
  dsimp only
  -- what is answered in the end depends on nothing but what was found
  let answer (found : Option Signature) : Except Error Signature :=
    found.elim (.error (.missingPublicKey key)) .ok
  refine (Act.outcome_bind_fst (show ∀ found _, _ = answer found from ?_)
    (firstSignature digest key _) scene).trans ?_
  · intro found scene'
    cases found <;> rfl
  rw [outcome_firstSignature_fst]
  cases scene.manager.wallets.findSome? fun entry => entry.2.stored? key with
  | none => rfl
  | some secret =>
    cases hsign : ((secret.sign digest).run scene.world.entropy).1 <;> simp only [hsign] <;> rfl

/-- The signature is made with what the manager signs with under the key. -/
def Made (manager : Manager SoftWallet) (digest : Digest) (key : PublicKey)
    (signature : Signature) : Prop :=
  ∃ secret entropy, manager.signer? key = some secret ∧
    ((secret.sign digest).run entropy).1 = .ok signature

theorem sees_signature (digest : Digest) (key : PublicKey) :
    Sees (signatureOf digest key) scene (scene.manager.Made digest key) := by
  refine ⟨(sees_signatureOf digest key).1, ?_⟩
  intro signature hsignature
  rw [outcome_signatureOf_fst] at hsignature
  cases hsigner : scene.manager.signer? key with
  | none =>
    rw [hsigner] at hsignature
    exact absurd hsignature (by simp)
  | some secret =>
    rw [hsigner] at hsignature
    exact ⟨secret, _, hsigner, Act.eq_ok_of_mapError hsignature⟩

/-- What a manager signs with under a key has that key as its public half. -/
theorem filed_signer? (h : manager.Every fun _ wallet => wallet.Reachable)
    (hsigner : manager.signer? key = some secret) :
    secret.publicKey = key ∧ secret.WellFormed := by
  obtain ⟨entry, hentry, hstored⟩ := List.exists_of_findSome?_eq_some hsigner
  exact (h _ _ hentry).orderly.stored? hstored

/-- The look at the timeout gives a manager nothing to sign with. -/
theorem signer?_checked (h : scene.manager.Distinct)
    (hsigner : scene.checked.manager.signer? key = some secret) :
    scene.manager.signer? key = some secret := by
  unfold signer? at hsigner ⊢
  rw [(Scene.checked_eq h).2] at hsigner
  split at hsigner
  · obtain ⟨entry, hentry, hstored⟩ := List.exists_of_findSome?_eq_some hsigner
    obtain ⟨entry', -, rfl⟩ := List.mem_map.1 hentry
    rw [SoftWallet.stored?_of_locked (SoftWallet.isLocked_locked entry'.2)] at hstored
    exact absurd hstored (by simp)
  · exact hsigner

/-- The public keys are those that were found before and those that an unlocked wallet keeps. -/
theorem publicKeysOf_spec (entries : List (WalletName × SoftWallet)) (found : Option KeySet)
    (scene : Scene SoftWallet) :
    ∃ answer, ((publicKeysOf entries found).outcome scene).1 = .ok answer ∧
      ∀ key, key ∈ answer.getD ∅ ↔
        key ∈ found.getD ∅ ∨ ∃ entry ∈ entries, (entry.2.stored? key).isSome = true := by
  induction entries generalizing scene found with
  | nil => exact ⟨found, rfl, by simp⟩
  | cons entry rest ih =>
    unfold publicKeysOf
    simp only [Act.outcome_bind, outcome_askLocked, Act.outcome_ite, List.exists_mem_cons_iff]
    by_cases hlocked : Backend.isLocked entry.2 = true
    · rw [if_pos hlocked]
      simp only [SoftWallet.stored?_of_locked hlocked, Option.isSome_none, Bool.false_eq_true,
        false_or]
      exact ih found _
    · -- an unlocked wallet answers with its public keys, which join those found before
      rw [if_neg hlocked]
      obtain ⟨session, hsession⟩ : ∃ session, entry.2.session? = some session :=
        Option.ne_none_iff_exists'.1 fun hnone => hlocked (Option.isNone_iff_eq_none.2 hnone)
      have hkeys : Backend.listPublicKeys entry.2 =
          .ok (Std.ExtTreeSet.ofList session.keys.keys) := by
        show entry.2.session.map _ = _
        rw [SoftWallet.session_eq hsession]
        rfl
      rw [outcome_ask, hkeys]
      obtain ⟨answer, hanswer, hmem⟩ := ih (some ((found.getD ∅).insertMany
        (Std.ExtTreeSet.ofList session.keys.keys).toList)) _
      refine ⟨answer, hanswer, fun key => (hmem key).trans ?_⟩
      rw [Option.getD_some, Std.ExtTreeSet.mem_insertMany_list, Std.ExtTreeSet.contains_toList,
        Std.ExtTreeSet.contains_ofList, Std.ExtTreeMap.contains_keys,
        Std.ExtTreeMap.contains_eq_isSome_getElem?, or_assoc]
      unfold SoftWallet.stored?
      rw [hsession, Option.bind_some]

omit [Suite] in
/-- What is kept by an unlocked wallet is what there is to sign with. -/
theorem isSome_signer?_iff {manager : Manager SoftWallet} {key : PublicKey} :
    (manager.signer? key).isSome = true ↔
      ∃ entry ∈ manager.wallets, (entry.2.stored? key).isSome = true :=
  List.findSome?_isSome_iff

/-- The public keys that are listed are those that there is something to sign with. -/
theorem publicKeys_spec (scene : Scene SoftWallet) (key : PublicKey) :
    (∃ keys, ((publicKeys (W := SoftWallet)).outcome scene).1 = .ok keys ∧ key ∈ keys) ↔
      (scene.checked.manager.signer? key).isSome = true := by
  unfold publicKeys
  rw [outcome_checkTimeout_bind, Act.outcome_bind, Act.outcome_get, isSome_signer?_iff]
  dsimp only
  cases hwallets : scene.checked.manager.wallets with
  | nil => simp
  | cons entry rest =>
    rw [← hwallets, if_neg (by simp [hwallets]), Act.outcome_bind]
    obtain ⟨answer, hanswer, hmem⟩ := publicKeysOf_spec scene.checked.manager.wallets none
      scene.checked
    rcases hdone : (publicKeysOf scene.checked.manager.wallets none).outcome scene.checked
      with ⟨result, scene'⟩
    rw [hdone] at hanswer
    cases hanswer
    have hmem := hmem key
    cases answer <;> simpa using hmem

/-! ## Valid signatures -/

/-- A signature that an unlocked wallet of the registry gave is made with what it keeps under the
    key. -/
theorem Signs.exists_stored? (h : manager.Signs digest key signature) :
    ∃ entry ∈ manager.wallets, ∃ secret entropy, entry.2.stored? key = some secret ∧
      ((secret.sign digest).run entropy).1 = .ok signature := by
  obtain ⟨name, wallet, entropy, entropy', hentry, -, hsign⟩ := h
  change (wallet.trySign digest key).run entropy = _ at hsign
  cases hstored : wallet.stored? key with
  | none =>
    rw [SoftWallet.trySign_of_stored?_eq_none hstored] at hsign
    exact absurd (congrArg Prod.fst hsign) (by simp)
  | some secret =>
    rw [SoftWallet.trySign_of_stored? hstored] at hsign
    refine ⟨_, hentry, secret, entropy, hstored, ?_⟩
    have hanswer := Act.eq_ok_of_mapError (congrArg Prod.fst hsign)
    cases hdone : ((secret.sign digest).run entropy).1 with
    | error fault => exact absurd hanswer (by simp [hdone, Except.map])
    | ok other =>
      rw [hdone] at hanswer
      cases hanswer
      rfl

/-- The halves of every key that an unlocked wallet keeps belong together. -/
def AllPaired (manager : Manager SoftWallet) : Prop :=
  manager.Every fun _ wallet => ∀ key secret, wallet.stored? key = some secret → secret.Paired

theorem AllPaired.checked (h : scene.manager.AllPaired) : scene.checked.manager.AllPaired := by
  refine Every.checked ?_ h
  intro _ wallet _ key secret hstored
  have hlocked : (Backend.lock wallet).isLocked = true := rfl
  rw [SoftWallet.stored?_of_locked hlocked] at hstored
  exact absurd hstored (by simp)

theorem every_reachable_checked (h : scene.manager.Every fun _ wallet => wallet.Reachable) :
    scene.checked.manager.Every fun _ wallet => wallet.Reachable :=
  Every.checked (fun _ _ hwallet => hwallet.lock) h

/-- What is signed with under a key gives signatures that are valid under it. -/
theorem Made.verify [Suite.LawfulSigning] (h : scene.checked.manager.Made digest key signature)
    (hdistinct : scene.manager.Distinct)
    (hmade : scene.manager.Every fun _ wallet => wallet.Reachable)
    (hpaired : ∀ secret, scene.manager.signer? key = some secret → secret.Paired) :
    key.verify digest signature = true := by
  obtain ⟨secret, entropy, hsigner, hsign⟩ := h
  have hsigner' := signer?_checked hdistinct hsigner
  obtain ⟨rfl, hwellFormed⟩ := filed_signer? hmade hsigner'
  exact hwellFormed.verify_of_paired (hpaired secret hsigner') hsign

theorem made_of_signDigest (h : ((signDigest digest key).outcome scene).1 = .ok signature) :
    scene.checked.manager.Made digest key signature := by
  have hlooks : Looks (signDigest digest key) scene (scene.checked.manager.Made digest key) :=
    Sees.looks (sees_signature digest key)
  exact hlooks.2 signature h

/-- Each key has a signature among those that are added to a transaction. -/
theorem made_of_signTransaction {tx signed : SignedTransaction} {keys : KeySet} {chain : ChainId}
    (h : ((signTransaction tx keys chain).outcome scene).1 = .ok signed) :
    signed.body = tx.body ∧ ∀ key ∈ keys, ∃ signature ∈ signed.signatures,
      scene.checked.manager.Made (tx.signingDigest chain) key signature := by
  have hlooks := looks_signTransaction scene tx keys chain
    (scene.checked.manager.Made (tx.signingDigest chain))
    fun key scene' hsaw => hsaw.manager_eq ▸ sees_signature _ key
  obtain ⟨signatures, rfl, hsignatures⟩ := hlooks.2 signed h
  refine ⟨rfl, fun key hkey => ?_⟩
  obtain ⟨signature, hmem, hmade⟩ :=
    exists_mem_of_forall₂ hsignatures (Std.ExtTreeSet.mem_toList.2 hkey)
  exact ⟨signature, List.mem_append_right _ hmem, hmade⟩

theorem verify_of_mySignatures [Suite.LawfulSigning] {chain : ChainId} {signatures : SignatureSet}
    (hmade : scene.manager.Every fun _ wallet => wallet.Reachable)
    (hpaired : scene.manager.AllPaired)
    (h : ((mySignatures (W := SoftWallet) chain).outcome scene).1 = .ok signatures) :
    ∀ signature ∈ signatures, ∃ keys,
      ((publicKeys (W := SoftWallet)).outcome scene).1 = .ok keys ∧
        ∃ key ∈ keys, key.verify chain.digest signature = true := by
  intro signature hmem
  obtain ⟨key, hsigns⟩ := (looks_mySignatures scene chain).2 signatures h signature hmem
  obtain ⟨entry, hentry, secret, entropy, hstored, hsign⟩ := hsigns.exists_stored?
  obtain ⟨keys, hkeys, hkey⟩ := (publicKeys_spec scene key).2
    (isSome_signer?_iff.2 ⟨entry, hentry, by rw [hstored]; rfl⟩)
  refine ⟨keys, hkeys, key, hkey, ?_⟩
  obtain ⟨rfl, hwellFormed⟩ := (every_reachable_checked hmade _ _ hentry).orderly.stored? hstored
  exact hwellFormed.verify_of_paired (hpaired.checked _ _ hentry _ _ hstored) hsign

/-- Whatever the manager's key for a public key can sign with some random bytes, is handed out when
    they are drawn before the window runs out. -/
theorem exists_signDigest (hdistinct : manager.Distinct)
    (hsigner : manager.signer? key = some secret)
    (hsign : ((secret.sign digest).run entropy).1 = .ok signature) : ∃ world,
      ((signDigest digest key).outcome ⟨manager, world, []⟩).1 = .ok signature := by
  obtain ⟨now, hnow⟩ := manager.timeout.exists_check_eq_false
  -- the random bytes come first in this world, at a time when the window is open
  let scene : Scene SoftWallet :=
    ⟨manager, { World.blank with entropy, time := fun _ => now }, []⟩
  have hscene : scene.manager.Distinct := hdistinct
  have hfresh : (scene.manager.timeout.check (scene.world.time scene.manager.clock)).1 = false :=
    hnow
  have hsign' : ((secret.sign digest).run scene.world.entropy).1 = .ok signature := hsign
  obtain ⟨hworld, hwallets⟩ := Scene.checked_eq hscene
  rw [if_neg (by simp [hfresh])] at hwallets
  refine ⟨scene.world, ?_⟩
  show ((checkTimeout >>= fun _ => signatureOf digest key).outcome scene).1 = _
  rw [outcome_checkTimeout_bind, outcome_signatureOf_fst]
  unfold signer? at hsigner ⊢
  rw [hwallets, hsigner, hworld]
  simp only [hsign']
  rfl

/-- A manager of soft wallets hands out valid signatures exactly where the halves of what it signs
    with belong together: a transaction is then signed by every key, a digest has a valid signature,
    and the signatures of a chain's id are valid under public keys of unlocked wallets. Where they
    do not, some digest gets a signature that is not valid. They do for Ed25519 keys and for keys
    that were created. -/
theorem Reachable.signatures_valid [Suite.LawfulSigning]
    (h : Reachable Command.HandsOver manager) :
    (∀ world (tx signed : SignedTransaction) (keys : KeySet) (chain : ChainId),
      ((signTransaction tx keys chain).outcome ⟨manager, world, []⟩).1 = .ok signed →
      (∀ key ∈ keys, ∀ secret, manager.signer? key = some secret → secret.Paired) →
      ∀ key ∈ keys, signed.isSignedBy chain key = true) ∧
    (∀ world digest key signature,
      ((signDigest digest key).outcome ⟨manager, world, []⟩).1 = .ok signature →
      (∀ secret, manager.signer? key = some secret → secret.Paired) →
      key.verify digest signature = true) ∧
    (∀ world chain signatures,
      ((mySignatures chain).outcome ⟨manager, world, []⟩).1 = .ok signatures →
      manager.AllPaired → ∀ signature ∈ signatures, ∃ keys,
        (publicKeys.outcome ⟨manager, world, []⟩).1 = .ok keys ∧
          ∃ key ∈ keys, key.verify chain.digest signature = true) ∧
    (∀ key secret, manager.signer? key = some secret →
      (secret.Paired ↔ ∀ world digest signature,
        ((signDigest digest key).outcome ⟨manager, world, []⟩).1 = .ok signature →
        key.verify digest signature = true)) ∧
    (∀ secret : PrivateKey, secret.keyType = .ed25519 → secret.Paired) ∧
    (∀ keyType entropy (secret : PrivateKey) entropy',
      (PrivateKey.generate keyType).run entropy = (some secret, entropy') → secret.Paired) := by
  have hdistinct := h.distinct
  have hmade := h.every_reachable
  refine ⟨?_, ?_, ?_, ?_, fun _ htype => PrivateKey.paired_of_ed25519 htype,
    fun _ _ _ _ hkey => PrivateKey.paired_of_generate hkey⟩
  · intro world tx signed keys chain hsigned hpaired key hkey
    obtain ⟨hbody, hmember⟩ := made_of_signTransaction hsigned
    obtain ⟨signature, hmem, hsignature⟩ := hmember key hkey
    refine List.any_eq_true.2 ⟨signature, hmem, ?_⟩
    unfold SignedTransaction.signingDigest
    rw [hbody]
    exact hsignature.verify hdistinct hmade (hpaired key hkey)
  · intro world digest key signature hsignature hpaired
    exact (made_of_signDigest hsignature).verify hdistinct hmade hpaired
  · intro world chain signatures hsignatures hpaired
    exact verify_of_mySignatures hmade hpaired hsignatures
  · -- both ways, as every digest can be asked for and the random bytes may be any
    intro key secret hsigner
    obtain ⟨rfl, hwellFormed⟩ := filed_signer? hmade hsigner
    constructor
    · intro hpaired world digest signature hsignature
      refine (made_of_signDigest hsignature).verify hdistinct hmade ?_
      intro secret' hsigner'
      rw [hsigner] at hsigner'
      cases hsigner'
      exact hpaired
    · intro hvalid
      refine hwellFormed.paired_iff.2 fun digest entropy signature hsign => ?_
      obtain ⟨world, hsignature⟩ := exists_signDigest hdistinct hsigner hsign
      exact hvalid world digest signature hsignature

/-- A key that can be made is imported from its text. -/
theorem importKey_toText (h : secret.WellFormed) (name : String) :
    (importKey name secret.toText : Operation SoftWallet PublicKey) =
      (checkTimeout >>= fun _ => unlockedWallet name >>= fun entry =>
        Manager.request entry (.importKey secret) (Backend.importKey secret)) := by
  unfold importKey
  rw [h.ofText_toText]
  rfl

/-- A key that has been imported is kept by the wallet. -/
theorem exists_stored?_of_importKey {name text : String} {result : Except Error Reply}
    {scene' : Scene SoftWallet} (hmade : scene.manager.Every fun _ wallet => wallet.Reachable)
    (heffect : Command.Effect (.importKey name text) scene result scene')
    (hok : result.isOk = true) (hsecret : PrivateKey.ofText text = .ok secret) :
    ∃ entry ∈ scene'.manager.wallets, entry.2.stored? secret.publicKey = some secret := by
  cases result with
  | error error => exact absurd hok (by simp)
  | ok reply =>
    cases heffect with
    | looked hsaw hchecked hquiet =>
      exact absurd (hquiet reply rfl) (by simp [Command.onlyLooks])
    | idle hquiet => exact absurd (hquiet reply rfl) (by simp [Command.onlyLooks])
    | owned howns hnew => exact absurd howns (by simp)
    | @changed _ _ scene₁ _ _ _ entry _ wallet world hchanges hopen hsaw hworld hact =>
      cases hchanges with
      | importKey hkey =>
        rw [hsecret] at hkey
        cases hkey
        have hentry := (mem_of_find?_eq_some hopen.1).1
        have hstored := (hmade _ _ hentry).orderly.stored?_of_importKey hact
        refine ⟨(entry.1, wallet), ?_, hstored⟩
        rw [← hsaw.manager_eq] at hentry
        exact (mem_replace hentry _ _).2 (.inl ⟨rfl, rfl⟩)

end Manager

end

/-! ## A valid signature, and one that is not -/

namespace Manager

local instance signingPrimitives : Suite := Suite.plain

/-- A manager that was just started, without a timeout. -/
def freshManager : Manager SoftWallet := ⟨.ofString "d", .light, [], .disabled, .manual, none⟩

/-- The world that its start leaves behind. -/
def freshWorld : World :=
  ((Manager.start ⟨.ofString "d", none, .light, false⟩ .manual :
    Act Error World (Manager SoftWallet)).outcome .blank).2

/-- The scene after a wallet has been created. -/
def withEmptyWallet : Scene SoftWallet :=
  ((Command.create "w" : Command SoftWallet).perform.outcome ⟨freshManager, freshWorld, []⟩).2

theorem outcome_start_freshManager :
    (Manager.start ⟨.ofString "d", none, .light, false⟩ .manual :
      Act Error World (Manager SoftWallet)).outcome .blank = (.ok freshManager, freshWorld) :=
  Prod.ext rfl rfl

theorem reachable_freshManager : Reachable Command.HandsOver freshManager :=
  .start outcome_start_freshManager

theorem reachable_withEmptyWallet : Reachable Command.HandsOver withEmptyWallet.manager :=
  reachable_freshManager.command (.create "w") trivial freshWorld

/-- A Falcon-512 key that is created in the wallet. -/
def freshKey : PrivateKey :=
  ((PrivateKey.generate .falcon512).run withEmptyWallet.world.entropy).1.getD default

/-- The manager after the key has been created. -/
def withFreshKey : Manager SoftWallet :=
  withEmptyWallet.manager.after withEmptyWallet.world (.createKey "w" "falcon512")

theorem signer?_withFreshKey : withFreshKey.signer? freshKey.publicKey = some freshKey := by
  decide +kernel

/-- With a key that was created in a wallet, a valid signature is handed out. -/
theorem signatures_valid_of_freshKey :
    Reachable Command.HandsOver withFreshKey ∧
      withFreshKey.signer? freshKey.publicKey = some freshKey ∧
      ∃ world signature, ((signDigest default freshKey.publicKey).outcome
        ⟨withFreshKey, world, []⟩).1 = .ok signature ∧
        freshKey.publicKey.verify default signature = true := by
  have hreachable : Reachable Command.HandsOver withFreshKey :=
    reachable_withEmptyWallet.command (.createKey "w" "falcon512") trivial withEmptyWallet.world
  have hsigner := signer?_withFreshKey
  obtain ⟨signature, entropy, hsign⟩ :=
    (filed_signer? hreachable.every_reachable hsigner).2.exists_sign default World.blank.entropy
  obtain ⟨world, hsignature⟩ :=
    exists_signDigest hreachable.distinct hsigner (congrArg Prod.fst hsign)
  obtain ⟨-, hdigest, -, -, -, hgenerated⟩ := hreachable.signatures_valid
  refine ⟨hreachable, hsigner, world, signature, hsignature, hdigest _ _ _ _ hsignature ?_⟩
  intro secret hsecret
  rw [hsigner] at hsecret
  cases hsecret
  exact hgenerated .falcon512 withEmptyWallet.world.entropy freshKey _ rfl

/-- A Falcon-512 key with halves that do not belong together. -/
def mismatchedKey : PrivateKey :=
  ⟨List.replicate 1281 0, ⟨.falcon512, List.replicate 897 1⟩⟩

theorem wellFormed_mismatchedKey : mismatchedKey.WellFormed :=
  ⟨List.length_replicate, List.length_replicate⟩

/-- The command that imports the key from its text. -/
def importMismatched : Command SoftWallet := .importKey "w" mismatchedKey.toText

/-- The manager after the key has been imported. -/
def withMismatchedKey : Manager SoftWallet :=
  withEmptyWallet.manager.after withEmptyWallet.world importMismatched

theorem reachable_withMismatchedKey : Reachable Command.HandsOver withMismatchedKey :=
  reachable_withEmptyWallet.command importMismatched trivial withEmptyWallet.world

theorem isOk_importMismatched : (importMismatched.perform.outcome
    ⟨withEmptyWallet.manager, withEmptyWallet.world, []⟩).1.isOk = true := by
  -- nothing of the text is left to be read
  rw [importMismatched, Command.perform, Command.outcome_bind_return,
    importKey_toText wellFormed_mismatchedKey]
  decide +kernel

theorem length_withMismatchedKey : withMismatchedKey.wallets.length = 1 := by
  rw [withMismatchedKey, after, importMismatched, Command.perform, Command.outcome_bind_return,
    importKey_toText wellFormed_mismatchedKey]
  decide +kernel

/-- The manager signs with the key. -/
theorem signer?_withMismatchedKey :
    withMismatchedKey.signer? mismatchedKey.publicKey = some mismatchedKey := by
  have hmade := Every.start (fun _ _ hwallet => hwallet.lock)
    reachable_withEmptyWallet.every_reachable importMismatched
  have hstored : ∃ entry ∈ withMismatchedKey.wallets,
      entry.2.stored? mismatchedKey.publicKey = some mismatchedKey := by
    rw [withMismatchedKey, after]
    exact exists_stored?_of_importKey hmade (importMismatched.effect _) isOk_importMismatched
      wellFormed_mismatchedKey.ofText_toText
  obtain ⟨entry, hentry, hstored⟩ := hstored
  exact signer?_of_length length_withMismatchedKey hentry hstored

/-- It is not so that every signature that is handed out is valid: the text of a Falcon-512 key may
    join halves that do not belong together, and the key is imported and signs. -/
theorem invalid_signature :
    ¬ ∀ [Suite] [Suite.LawfulSigning] (manager : Manager SoftWallet),
      Reachable Command.HandsOver manager → ∀ world digest key signature,
      ((signDigest digest key).outcome ⟨manager, world, []⟩).1 = .ok signature →
      key.verify digest signature = true := by
  intro hclaim
  have hsign := PrivateKey.sign_falcon ⟨List.replicate 1281 0, List.length_replicate⟩
    (List.replicate 897 1) default World.blank.entropy
  obtain ⟨world, hsignature⟩ := exists_signDigest reachable_withMismatchedKey.distinct
    signer?_withMismatchedKey (congrArg Prod.fst hsign)
  have hverify := hclaim withMismatchedKey reachable_withMismatchedKey world _ _ _ hsignature
  exact absurd hverify (by decide +kernel)

end Manager

end Custody
