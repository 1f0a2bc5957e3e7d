import Custody.Proofs.Manager.Locked
import Custody.Proofs.Manager.Signing
import Custody.Proofs.Wallet.Turning

set_option autoImplicit false

/-! # What is listed is what is signed with

A manager of soft wallets lists the public keys of its unlocked wallets, lists the keys of one of
them for its password, and signs with the first wallet that has a key. Each of these goes through
the registry on its own. `Manager.Reachable.listing_agrees` shows that they agree: a key can be
signed with exactly if it is listed, and what is listed is what the unlocked wallets list for their
passwords. -/

namespace Custody.Manager

section

variable [Suite] {manager : Manager SoftWallet} {scene : Scene SoftWallet} {key : PublicKey}
  {name password : String}

/-! ## Signing -/

/-- A signature is made exactly if there is something to sign with. -/
theorem signatureOf_spec (h : scene.manager.Every fun _ wallet => wallet.Reachable)
    (digest : Digest) (key : PublicKey) :
    ((scene.manager.signer? key).isSome = true →
      ∃ signature, ((signatureOf digest key).outcome scene).1 = .ok signature) ∧
    ((scene.manager.signer? key).isSome = false →
      ((signatureOf digest key).outcome scene).1 = .error (.missingPublicKey key)) := by
  rw [outcome_signatureOf_fst]
  cases hsigner : scene.manager.signer? key with
  | none => exact ⟨fun hsome => absurd hsome (by simp), fun _ => rfl⟩
  | some secret =>
    -- a key that can be made never fails to sign
    obtain ⟨signature, entropy, hsign⟩ :=
      (filed_signer? h hsigner).2.exists_sign digest scene.world.entropy
    refine ⟨fun _ => ⟨signature, ?_⟩, fun hnone => absurd hnone (by simp)⟩
    simp only [hsign]
    rfl

/-- Signing with several keys fails at the first one that there is nothing to sign with. -/
theorem mapM_signatureOf_spec (h : scene.manager.Every fun _ wallet => wallet.Reachable)
    (digest : Digest) (keys : List PublicKey) :
    match keys.find? fun key => (scene.manager.signer? key).isNone with
    | none => ∃ signatures, ((keys.mapM (signatureOf digest)).outcome scene).1 = .ok signatures
    | some key =>
      ((keys.mapM (signatureOf digest)).outcome scene).1 = .error (.missingPublicKey key) := by
  induction keys generalizing scene with
  | nil => exact ⟨[], rfl⟩
  | cons key keys ih =>
    obtain ⟨hsome, hnone⟩ := signatureOf_spec h digest key
    have hsees : Sees (signatureOf digest key) scene _ := sees_signatureOf digest key
    have hmanager := hsees.1.manager_eq
    rw [List.mapM_cons, Act.outcome_bind, List.find?_cons]
    rcases hdone : (signatureOf digest key).outcome scene with ⟨result, scene'⟩
    rw [hdone] at hsome hnone hmanager
    cases hsigner : scene.manager.signer? key with
    | none =>
      obtain rfl := hnone (by rw [hsigner]; rfl)
      rfl
    | some secret =>
      obtain ⟨signature, rfl⟩ := hsome (by rw [hsigner]; rfl)
      -- the others are asked for in a scene with the same manager
      have hreachable : scene'.manager.Every fun _ wallet => wallet.Reachable := hmanager ▸ h
      have hrest := ih hreachable
      rw [hmanager] at hrest
      simp only [Option.isNone_some, Act.outcome_bind]
      rcases hkeys : (keys.mapM (signatureOf digest)).outcome scene' with ⟨error | rest, scene''⟩
      · rw [hkeys] at hrest
        exact hrest
      · rw [hkeys] at hrest
        generalize keys.find? (fun key => (scene.manager.signer? key).isNone) = missing at hrest ⊢
        cases missing with
        | none => exact ⟨signature :: rest, rfl⟩
        | some key => exact absurd hrest (by simp)

omit [Suite] in
/-- The first key of a set with a property is the least one. -/
theorem isLE_of_find?_toList {keys : KeySet} {p : PublicKey → Bool}
    (h : keys.toList.find? p = some key) {other : PublicKey} (hother : other ∈ keys)
    (hp : p other = true) : (compare key other).isLE = true := by
  obtain ⟨-, before, after, hlist, hbefore⟩ := List.find?_eq_some_iff_append.1 h
  have hordered := Std.ExtTreeSet.ordered_toList (t := keys)
  have hmem := Std.ExtTreeSet.mem_toList.2 hother
  rw [hlist] at hmem hordered
  rcases List.mem_append.1 hmem with hmem | hmem
  · exact absurd hp (by simpa using hbefore other hmem)
  · rcases List.mem_cons.1 hmem with rfl | hmem
    · rw [Std.ReflOrd.compare_self]
      rfl
    · have hlt := (List.pairwise_cons.1 (List.pairwise_append.1 hordered).2.1).1 other hmem
      rw [hlt]
      rfl

/-- A transaction is signed by all keys, or the first key that there is nothing to sign with is
    named. -/
theorem signTransaction_spec (h : scene.manager.Every fun _ wallet => wallet.Reachable)
    (tx : SignedTransaction) (keys : KeySet) (chain : ChainId) :
    match keys.toList.find? fun key => (scene.checked.manager.signer? key).isNone with
    | none => ∃ signed, ((signTransaction tx keys chain).outcome scene).1 = .ok signed
    | some key =>
      ((signTransaction tx keys chain).outcome scene).1 = .error (.missingPublicKey key) := by
  have hkeys := mapM_signatureOf_spec (every_reachable_checked h) (tx.signingDigest chain)
    keys.toList
  unfold signTransaction
  rw [outcome_checkTimeout_bind, bind_pure_comp, Act.outcome_map]
  generalize keys.toList.find? (fun key => (scene.checked.manager.signer? key).isNone) = missing
    at hkeys ⊢
  cases missing with
  | none =>
    obtain ⟨signatures, hsignatures⟩ := hkeys
    exact ⟨_, congrArg (Except.map _) hsignatures⟩
  | some key => exact congrArg (Except.map _) hkeys

/-! ## The keys of one wallet -/

/-- The keys of a wallet are listed exactly if it is unlocked and the password is its own. -/
theorem outcome_listKeys_eq_ok_iff {keys : KeyMap} :
    ((listKeys name password).outcome scene).1 = .ok keys ↔
      ∃ entry session, scene.checked.manager.find? name = some entry ∧
        entry.2.session? = some session ∧ entry.2.checkPassword password = .ok () ∧
        keys = session.keys := by
  unfold listKeys
  rw [outcome_checkTimeout_bind, Act.outcome_bind, outcome_unlockedWallet]
  cases hfind : scene.checked.manager.find? name with
  | none => simp
  | some entry =>
    cases hsession : entry.2.session? with
    | none =>
      have hlocked : Backend.isLocked entry.2 = true := by
        show entry.2.session?.isNone = true
        rw [hsession]
        rfl
      simp [hlocked, hsession]
    | some session =>
      have hopen : Backend.isLocked entry.2 = false := by
        show entry.2.session?.isNone = false
        rw [hsession]
        rfl
      have hcheck : Backend.checkPassword entry.2 password = entry.2.checkPassword password := rfl
      have hlist : Backend.listKeys entry.2 = .ok session.keys := by
        show entry.2.session.map (·.keys) = .ok session.keys
        rw [SoftWallet.session_eq hsession]
        rfl
      simp only [hopen, Bool.false_eq_true, if_false, Act.outcome_bind, outcome_ask, hcheck, hlist]
      cases hpassword : entry.2.checkPassword password with
      | error error => simp [hpassword]
      | ok _ => simp [hpassword, hsession, eq_comm]

/-- There is a password for every unlocked wallet. -/
theorem exists_outcome_listKeys (h : scene.manager.Every fun _ wallet => wallet.Reachable)
    {entry : WalletName × SoftWallet} (hfind : scene.checked.manager.find? name = some entry)
    {session : Session} (hsession : entry.2.session? = some session) :
    ∃ password, ((listKeys name password).outcome scene).1 = .ok session.keys := by
  have hentry := (mem_of_find?_eq_some hfind).1
  obtain ⟨envelope, password, henvelope, hkey⟩ :=
    (every_reachable_checked h _ _ hentry).isKeyed session hsession
  refine ⟨password, outcome_listKeys_eq_ok_iff.2 ⟨entry, session, hfind, hsession, ?_, rfl⟩⟩
  exact SoftWallet.checkPassword_eq_ok_iff.2 ⟨session, hsession, envelope, henvelope, hkey⟩

/-- What there is to sign with is what the unlocked wallets list for their passwords. -/
theorem isSome_signer?_iff_listKeys (hdistinct : scene.manager.Distinct)
    (h : scene.manager.Every fun _ wallet => wallet.Reachable) :
    (scene.checked.manager.signer? key).isSome = true ↔ ∃ name password keys,
      ((listKeys name password).outcome scene).1 = .ok keys ∧ key ∈ keys := by
  rw [isSome_signer?_iff]
  constructor
  · rintro ⟨entry, hentry, hstored⟩
    obtain ⟨session, hsession, hkey⟩ := SoftWallet.isSome_stored?_iff.1 hstored
    have hfind := (Scene.distinct_checked hdistinct).find?_eq_some hentry
    obtain ⟨password, hkeys⟩ := exists_outcome_listKeys h hfind hsession
    exact ⟨_, password, _, hkeys, hkey⟩
  · rintro ⟨name, password, keys, hkeys, hkey⟩
    obtain ⟨entry, session, hfind, hsession, -, rfl⟩ := outcome_listKeys_eq_ok_iff.1 hkeys
    exact ⟨entry, (mem_of_find?_eq_some hfind).1,
      SoftWallet.isSome_stored?_iff.2 ⟨session, hsession, hkey⟩⟩

/-- A wallet is listed as unlocked exactly if there is a password for which its keys are listed. -/
theorem mark_mem_listWallets_iff (hdistinct : scene.manager.Distinct)
    (h : scene.manager.Every fun _ wallet => wallet.Reachable) (name : WalletName) :
    (∃ texts, ((listWallets (W := SoftWallet)).outcome scene).1 = .ok texts ∧
      name.text ++ unlockedMark ∈ texts) ↔
      ∃ password keys, ((listKeys name.text password).outcome scene).1 = .ok keys := by
  rw [outcome_listWallets]
  constructor
  · rintro ⟨_, ⟨⟩, hmark⟩
    obtain ⟨entry, hentry, hshown⟩ := List.mem_map.1 hmark
    obtain ⟨rfl, hopen⟩ := eq_of_shown_eq hshown
    have hfind := (Scene.distinct_checked hdistinct).find?_eq_some hentry
    cases hsession : entry.2.session? with
    | none => exact absurd hopen (by simp [Backend.isLocked, SoftWallet.isLocked, hsession])
    | some session =>
      obtain ⟨password, hkeys⟩ := exists_outcome_listKeys h hfind hsession
      exact ⟨password, _, hkeys⟩
  · rintro ⟨password, keys, hkeys⟩
    obtain ⟨entry, session, hfind, hsession, -⟩ := outcome_listKeys_eq_ok_iff.1 hkeys
    obtain ⟨hentry, htext⟩ := mem_of_find?_eq_some hfind
    refine ⟨_, rfl, List.mem_map.2 ⟨entry, hentry, ?_⟩⟩
    unfold shown
    rw [if_neg (by simp [Backend.isLocked, SoftWallet.isLocked, hsession]), htext]

/-! ## Agreement -/

/-- What an operation of the manager answers in a world. -/
def answer {α : Type} (manager : Manager SoftWallet) (world : World)
    (operation : Operation SoftWallet α) : Except Error α :=
  (operation.outcome ⟨manager, world, []⟩).1

/-- In a world, the key is among the public keys that the manager lists. -/
def Lists (manager : Manager SoftWallet) (world : World) (key : PublicKey) : Prop :=
  ∃ listed, manager.answer world publicKeys = .ok listed ∧ key ∈ listed

/-- There is a listing of all keys of a set exactly if each of them is listed. -/
theorem forall_lists_iff {world : World} {keys : KeySet} :
    (∀ key ∈ keys, manager.Lists world key) ↔
      keys = ∅ ∨ ∃ listed, manager.answer world publicKeys = .ok listed ∧
        ∀ key ∈ keys, key ∈ listed := by
  constructor
  · intro h
    by_cases hempty : ∀ key, key ∉ keys
    · exact .inl (Std.ExtTreeSet.eq_empty_iff_forall_not_mem.2 hempty)
    · obtain ⟨key, hkey⟩ := not_forall_not.1 hempty
      obtain ⟨listed, hlisted, -⟩ := h key hkey
      refine .inr ⟨listed, hlisted, fun other hother => ?_⟩
      -- there is only one listing
      obtain ⟨listed', hlisted', hmem⟩ := h other hother
      rw [hlisted] at hlisted'
      cases hlisted'
      exact hmem
  · rintro (rfl | ⟨listed, hlisted, hkeys⟩) key hkey
    · exact absurd hkey Std.ExtTreeSet.not_mem_empty
    · exact ⟨listed, hlisted, hkeys key hkey⟩

theorem lists_iff {world : World} : manager.Lists world key ↔
    ((⟨manager, world, []⟩ : Scene SoftWallet).checked.manager.signer? key).isSome = true :=
  publicKeys_spec _ key

/-- A digest is signed under a key that is listed, and any other key is said to be missing. -/
theorem signDigest_spec (h : manager.Every fun _ wallet => wallet.Reachable) (world : World)
    (digest : Digest) (key : PublicKey) :
    (manager.Lists world key →
      ∃ signature, manager.answer world (signDigest digest key) = .ok signature) ∧
    (¬ manager.Lists world key →
      manager.answer world (signDigest digest key) = .error (.missingPublicKey key)) := by
  have hscene : (⟨manager, world, []⟩ : Scene SoftWallet).manager.Every
      fun _ wallet => wallet.Reachable := h
  unfold answer signDigest
  rw [outcome_checkTimeout_bind, lists_iff, Bool.not_eq_true]
  exact signatureOf_spec (every_reachable_checked hscene) digest key

/-- A transaction is signed under keys that are listed; otherwise the least key that is not listed
    is said to be missing. -/
theorem signTransaction_lists (h : manager.Every fun _ wallet => wallet.Reachable) (world : World)
    (tx : SignedTransaction) (keys : KeySet) (chain : ChainId) :
    ((∀ key ∈ keys, manager.Lists world key) ∧
      ∃ signed, manager.answer world (signTransaction tx keys chain) = .ok signed) ∨
    ∃ key ∈ keys, ¬ manager.Lists world key ∧
      (∀ other ∈ keys, ¬ manager.Lists world other → (compare key other).isLE = true) ∧
      manager.answer world (signTransaction tx keys chain) = .error (.missingPublicKey key) := by
  have hscene : (⟨manager, world, []⟩ : Scene SoftWallet).manager.Every
      fun _ wallet => wallet.Reachable := h
  have hsign := signTransaction_spec hscene tx keys chain
  have hnone : ∀ key, ¬ manager.Lists world key ↔ ((⟨manager, world, []⟩ :
      Scene SoftWallet).checked.manager.signer? key).isNone = true := by
    intro key
    rw [lists_iff, Bool.not_eq_true, Option.isSome_eq_false_iff]
  cases hmissing : keys.toList.find? fun key =>
      ((⟨manager, world, []⟩ : Scene SoftWallet).checked.manager.signer? key).isNone with
  | none =>
    rw [hmissing] at hsign
    refine .inl ⟨fun key hkey => ?_, hsign⟩
    have hsome := List.find?_eq_none.1 hmissing key (Std.ExtTreeSet.mem_toList.2 hkey)
    exact not_not.1 fun hnot => hsome ((hnone key).1 hnot)
  | some key =>
    rw [hmissing] at hsign
    have hmem := Std.ExtTreeSet.mem_toList.1 (List.mem_of_find?_eq_some hmissing)
    have hkey := List.find?_some hmissing
    refine .inr ⟨key, hmem, (hnone key).2 hkey, fun other hother hnot => ?_, hsign⟩
    exact isLE_of_find?_toList hmissing hother ((hnone other).1 hnot)

/-- What a manager of soft wallets lists is what it signs with. A digest is signed under a key
    exactly if the key is listed, and otherwise the key is said to be missing. A transaction is
    signed under a set of keys exactly if all of them are listed, and otherwise the least one that
    is not listed is said to be missing. What is listed are the keys that the unlocked wallets list
    for their passwords, and there is a password for each wallet that is shown to be unlocked. -/
theorem Reachable.listing_agrees (h : Reachable Command.HandsOver manager) (world : World) :
    (∀ digest key,
      ((∃ signature, manager.answer world (signDigest digest key) = .ok signature) ↔
        ∃ listed, manager.answer world publicKeys = .ok listed ∧ key ∈ listed) ∧
      ((∀ signature, manager.answer world (signDigest digest key) ≠ .ok signature) →
        manager.answer world (signDigest digest key) = .error (.missingPublicKey key))) ∧
    (∀ tx keys chain,
      ((∃ signed, manager.answer world (signTransaction tx keys chain) = .ok signed) ↔
        keys = ∅ ∨ ∃ listed, manager.answer world publicKeys = .ok listed ∧
          ∀ key ∈ keys, key ∈ listed) ∧
      ((∀ signed, manager.answer world (signTransaction tx keys chain) ≠ .ok signed) →
        ∃ key ∈ keys, ¬ manager.Lists world key ∧
          (∀ other ∈ keys, ¬ manager.Lists world other → (compare key other).isLE = true) ∧
          manager.answer world (signTransaction tx keys chain) =
            .error (.missingPublicKey key))) ∧
    (∀ listed, manager.answer world publicKeys = .ok listed → ∀ key, key ∈ listed ↔
      ∃ name password keys, manager.answer world (listKeys name password) = .ok keys ∧
        key ∈ keys) ∧
    (∀ name : WalletName, (∃ texts, manager.answer world listWallets = .ok texts ∧
        name.text ++ unlockedMark ∈ texts) ↔
      ∃ password keys, manager.answer world (listKeys name.text password) = .ok keys) := by
  have hmade := h.every_reachable
  refine ⟨fun digest key => ?_, fun tx keys chain => ?_, fun listed hlisted key => ?_,
    mark_mem_listWallets_iff h.distinct hmade⟩
  · obtain ⟨hlists, hmissing⟩ := signDigest_spec hmade world digest key
    refine ⟨⟨?_, hlists⟩, ?_⟩
    · rintro ⟨signature, hsignature⟩
      by_contra hnot
      exact absurd (hsignature.symm.trans (hmissing hnot)) (by simp)
    · intro hfails
      refine hmissing fun hkey => ?_
      obtain ⟨signature, hsignature⟩ := hlists hkey
      exact hfails signature hsignature
  · rw [← forall_lists_iff]
    rcases signTransaction_lists hmade world tx keys chain with ⟨hall, signed, hsigned⟩ |
      ⟨key, hkey, hnot, hleast, hmissing⟩
    · exact ⟨⟨fun _ => hall, fun _ => ⟨signed, hsigned⟩⟩,
        fun hfails => absurd hsigned (hfails signed)⟩
    · refine ⟨⟨?_, fun hall => absurd (hall key hkey) hnot⟩,
        fun _ => ⟨key, hkey, hnot, hleast, hmissing⟩⟩
      rintro ⟨signed, hsigned⟩
      exact absurd (hsigned.symm.trans hmissing) (by simp)
  · have hlists : key ∈ listed ↔ manager.Lists world key := by
      constructor
      · exact fun hkey => ⟨listed, hlisted, hkey⟩
      · rintro ⟨listed', hlisted', hkey⟩
        rw [hlisted] at hlisted'
        cases hlisted'
        exact hkey
    rw [hlists, lists_iff]
    exact isSome_signer?_iff_listKeys h.distinct hmade

end

/-! ## A listed key, and one that is missing -/

local instance listingPrimitives : Suite := Suite.plain

/-- The key that was created in the only wallet is signed with, and no other. -/
theorem listing_agrees_on_freshKey :
    Reachable Command.HandsOver withFreshKey ∧
      (∃ signature, withFreshKey.answer freshWorld (signDigest default freshKey.publicKey) =
        .ok signature) ∧
      withFreshKey.answer freshWorld (signDigest default mismatchedKey.publicKey) =
        .error (.missingPublicKey mismatchedKey.publicKey) := by
  have hreachable : Reachable Command.HandsOver withFreshKey :=
    reachable_withEmptyWallet.command (.createKey "w" "falcon512") trivial withEmptyWallet.world
  have hlisted : withFreshKey.Lists freshWorld freshKey.publicKey :=
    lists_iff.2 (by decide +kernel)
  have hmissing : ¬ withFreshKey.Lists freshWorld mismatchedKey.publicKey :=
    mt lists_iff.1 (by decide +kernel)
  obtain ⟨hdigest, -⟩ := hreachable.listing_agrees freshWorld
  refine ⟨hreachable, (hdigest _ _).1.2 hlisted, (hdigest _ _).2 fun signature hsignature => ?_⟩
  exact hmissing ((hdigest _ _).1.1 ⟨signature, hsignature⟩)

end Custody.Manager
