import Custody.Proofs.Key.Grammar
import Custody.Proofs.Manager.Listing

set_option autoImplicit false

/-! # Keys that are named by their texts

A key is removed from a wallet by naming it as it is printed. Since what is printed is read as the
same key, a key that a wallet lists can always be named: the removal fails only if the wallet cannot
be sealed or saved, and takes this key away and nothing else. `Manager.texts_are_exact` has this
together with the grammar of all texts. -/

namespace Custody

/-- What is left of an open wallet by a removal that fails only if the keys that are left cannot be
    encrypted, or the copy that they are sealed in cannot be saved. -/
inductive SoftWallet.Removed [Suite] (wallet : SoftWallet) (session : Session) (key : PublicKey)
    (world : World) : Except Error Unit → SoftWallet → World → Prop
  | unsealed {fault : EnvelopeFault} {world' : World} (hdrew : world.Drew world')
    (hcipher : ∃ nonce,
      Suite.encrypt session.key nonce (Envelope.plaintext (session.keys.erase key).values) = none) :
    Removed wallet session key world (.error (.crypto (.envelope fault))) wallet world'
  | unsaved {envelope : Envelope} {world₁ : World} {fault : EnvelopeFault} {world' : World}
    (hsealed : envelope.openKeys session.key = .ok (session.keys.erase key).values)
    (hdrew : world.Drew world₁)
    (hsave : (envelope.save wallet.path).outcome world₁ = (.error fault, world')) :
    Removed wallet session key world (.error (.io (.save fault))) wallet world'
  | removed {envelope : Envelope} {world₁ world' : World}
    (hsealed : envelope.openKeys session.key = .ok (session.keys.erase key).values)
    (hdrew : world.Drew world₁)
    (hsave : (envelope.save wallet.path).outcome world₁ = (.ok (), world')) :
    Removed wallet session key world (.ok ()) { wallet with
      envelope? := some envelope, session? := some { session with keys := session.keys.erase key } }
      world'

namespace Manager

variable [Suite]

/-- A removal of a key that an unlocked wallet keeps. -/
theorem removed_of_removeKey [Suite.LawfulCipher] {wallet wallet' : SoftWallet} {session : Session}
    {key : PublicKey} {world world' : World} {result : Except Error Unit}
    (h : wallet.Orderly) (hsession : wallet.session? = some session) (hkey : key ∈ session.keys)
    (hdone : (SoftWallet.removeKey key).outcome (wallet, world) = (result, wallet', world')) :
    wallet.Removed session key world result wallet' world' := by
  have hspec := SoftWallet.removeKey_spec key h.isBound world
  rw [hdone] at hspec
  cases hspec with
  | locked hlocked =>
    rw [hsession] at hlocked
    exact absurd hlocked (by simp)
  | unknown hopen hunknown =>
    rw [hsession] at hopen
    cases hopen
    rw [Std.ExtTreeMap.mem_iff_contains.1 hkey] at hunknown
    exact absurd hunknown (by simp)
  | committed henvelope hopen hknown hcommit =>
    rw [hsession] at hopen
    cases hopen
    have hfiled := (h.filed session hsession).erase key
    cases hcommit with
    | unsealed hdrew hcipher => exact .unsealed hdrew hcipher
    | unsaved hseals hdrew hsave => exact .unsaved (hseals.openKeys_eq hfiled) hdrew hsave
    | saved hseals hdrew hsave => exact .removed (hseals.openKeys_eq hfiled) hdrew hsave

/-- The request for a removal is made of an unlocked wallet for its password and the text of a
    key. -/
theorem outcome_removeKey_of_ofText {scene : Scene SoftWallet} {name password text : String}
    {entry : WalletName × SoftWallet} {key : PublicKey}
    (hfind : scene.checked.manager.find? name = some entry)
    (hopen : Backend.isLocked entry.2 = false) (hpassword : entry.2.checkPassword password = .ok ())
    (htext : PublicKey.ofText text = .ok key) :
    ∃ scene' : Scene SoftWallet, scene'.manager = scene.checked.manager ∧
      scene'.world = scene.checked.world ∧
      (removeKey name password text).outcome scene =
        (Manager.request entry (.removeKey key) (Backend.removeKey key)).outcome scene' := by
  have hcheck : Backend.checkPassword entry.2 password = .ok () := hpassword
  refine ⟨(scene.checked.noted entry.1 (.isLocked false) true).noted entry.1
    (.checkPassword password) true, rfl, rfl, ?_⟩
  unfold removeKey
  rw [outcome_checkTimeout_bind, Act.outcome_bind, outcome_unlockedWallet, hfind]
  simp only [hopen, Bool.false_eq_true, if_false]
  rw [Act.outcome_bind, outcome_ask, hcheck]
  dsimp only
  rw [Act.outcome_bind, htext]
  rfl

/-- A key that is listed for a password is removed by its text and the password. -/
theorem exists_removed_of_listed [Suite.LawfulCipher] [Suite.LawfulPoints]
    {scene : Scene SoftWallet} (hmade : scene.manager.Every fun _ wallet => wallet.Reachable)
    {name password : String} {keys : KeyMap}
    (hlisted : ((listKeys name password).outcome scene).1 = .ok keys)
    {key : PublicKey} (hkey : key ∈ keys) :
    ∃ (entry : WalletName × SoftWallet) (session : Session) (result : Except Error Unit)
      (wallet : SoftWallet) (scene' : Scene SoftWallet),
      scene.checked.manager.find? name = some entry ∧ entry.2.session? = some session ∧
      session.keys = keys ∧
      (removeKey name password key.toText).outcome scene = (result, scene') ∧
      scene'.manager = scene.checked.manager.replace entry.1 wallet ∧
      entry.2.Removed session key scene.checked.world result wallet scene'.world := by
  obtain ⟨entry, session, hfind, hsession, hpassword, rfl⟩ := outcome_listKeys_eq_ok_iff.1 hlisted
  have horderly := (every_reachable_checked hmade _ _ (mem_of_find?_eq_some hfind).1).orderly
  -- what is listed is the public half of a key that can be made, so its text is read
  obtain ⟨secret, hsecret⟩ :=
    Option.isSome_iff_exists.1 (Std.ExtTreeMap.mem_iff_isSome_getElem?.1 hkey)
  obtain ⟨rfl, hwellFormed⟩ := horderly.filed session hsession key secret hsecret
  have hread : PublicKey.ofText secret.publicKey.toText = .ok secret.publicKey :=
    PublicKey.reads_ofText.ofText_print_iff.2 (PublicKey.isReadable_of_wellFormed hwellFormed)
  have hopen : Backend.isLocked entry.2 = false := by
    show entry.2.session?.isNone = false
    rw [hsession]
    rfl
  obtain ⟨scene₁, hmanager, hworld, hrequest⟩ :=
    outcome_removeKey_of_ofText hfind hopen hpassword hread
  rw [hrequest, outcome_request, hmanager, hworld]
  rcases hdone : (Backend.removeKey secret.publicKey).outcome (entry.2, scene.checked.world)
    with ⟨result, wallet, world⟩
  exact ⟨entry, session, result, wallet, _, hfind, hsession, rfl, rfl, rfl,
    removed_of_removeKey horderly hsession hkey hdone⟩

/-! ## Texts -/

/-- The texts of keys and signatures. Exactly the texts of one form are read: the word of the kind,
    the name of a scheme and as many hexadecimal digits, of either case, as the scheme asks for; the
    digits of an Ed25519 public key must be those of a point. What was read is printed as the same
    text with its digits in lower case, and what a program has of keys and signatures is printed to
    texts that are read as the same. So a key that an unlocked wallet of a manager lists for its
    password is removed by its text and the password, unless the wallet cannot be sealed or saved,
    and no other key and no other wallet is touched. -/
theorem texts_are_exact [Suite.LawfulCipher] [Suite.LawfulPoints] :
    (∀ text, (∃ key, PrivateKey.ofText text = .ok key) ↔
      (∃ digits, KeyText.HasForm .privateKey .ed25519 digits text ∧ digits.length = 64) ∨
      (∃ digits, KeyText.HasForm .privateKey .falcon512 digits text ∧ digits.length = 4356)) ∧
    (∀ text, (∃ key, PublicKey.ofText text = .ok key) ↔
      (∃ digits point, KeyText.HasForm .publicKey .ed25519 digits text ∧ digits.length = 64 ∧
        Hex.decode (String.ofList digits) = .ok point.val ∧ Suite.ed25519IsPoint point = true) ∨
      (∃ digits, KeyText.HasForm .publicKey .falcon512 digits text ∧ digits.length = 1794)) ∧
    (∀ text, (∃ signature, Signature.ofText text = .ok signature) ↔
      (∃ digits, KeyText.HasForm .signature .ed25519 digits text ∧ digits.length = 128) ∨
      (∃ digits, KeyText.HasForm .signature .falcon512 digits text ∧ digits.length % 2 = 0)) ∧
    (∀ text key, PrivateKey.ofText text = .ok key →
      KeyText.LowerCased .privateKey text key.toText) ∧
    (∀ text key, PublicKey.ofText text = .ok key →
      KeyText.LowerCased .publicKey text key.toText) ∧
    (∀ text signature, Signature.ofText text = .ok signature →
      KeyText.LowerCased .signature text signature.toText) ∧
    (∀ key : PrivateKey, key.Obtained → PrivateKey.ofText key.toText = .ok key) ∧
    (∀ key : PublicKey, key.Obtained → PublicKey.ofText key.toText = .ok key) ∧
    (∀ signature : Signature, signature.Obtained →
      Signature.ofText signature.toText = .ok signature) ∧
    (∀ manager : Manager SoftWallet, Reachable Command.HandsOver manager →
      ∀ world name password keys, manager.answer world (listKeys name password) = .ok keys →
      ∀ key ∈ keys, ∃ (entry : WalletName × SoftWallet) (session : Session)
        (result : Except Error Unit) (wallet : SoftWallet) (scene' : Scene SoftWallet),
        (⟨manager, world, []⟩ : Scene SoftWallet).checked.manager.find? name = some entry ∧
        entry.2.session? = some session ∧ session.keys = keys ∧
        (removeKey name password key.toText).outcome ⟨manager, world, []⟩ = (result, scene') ∧
        scene'.manager =
          (⟨manager, world, []⟩ : Scene SoftWallet).checked.manager.replace entry.1 wallet ∧
        entry.2.Removed session key world result wallet scene'.world) := by
  refine ⟨fun _ => PrivateKey.exists_ofText_iff, fun _ => PublicKey.exists_ofText_iff,
    fun _ => Signature.exists_ofText_iff, fun _ _ => PrivateKey.reads_ofText.lowerCased,
    fun _ _ => PublicKey.reads_ofText.lowerCased, fun _ _ => Signature.reads_ofText.lowerCased,
    ?_, ?_, ?_, ?_⟩
  · intro key hkey
    exact (PrivateKey.obtained_iff_wellFormed.1 hkey).ofText_toText
  · intro key hkey
    exact PublicKey.reads_ofText.ofText_print_iff.2 hkey.isReadable
  · intro signature hsignature
    exact Signature.reads_ofText.ofText_print_iff.2 hsignature.isReadable
  · intro manager hreachable world name password keys hlisted key hkey
    have hmade : (⟨manager, world, []⟩ : Scene SoftWallet).manager.Every
        fun _ wallet => wallet.Reachable := hreachable.every_reachable
    have hscene : (⟨manager, world, []⟩ : Scene SoftWallet).manager.Distinct := hreachable.distinct
    have hremoved := exists_removed_of_listed hmade hlisted hkey
    rwa [(Scene.checked_eq hscene).1] at hremoved

end Manager

namespace Manager

local instance namingPrimitives : Suite := Suite.plain

/-- The password that the wallet was created with. -/
def createdPassword : String :=
  match ((Command.create "w" : Command SoftWallet).perform.outcome
    ⟨freshManager, freshWorld, []⟩).1 with
  | .ok (.password password) => password
  | _ => ""

/-- An Ed25519 key that is created in the wallet, and the manager after that. -/
def freshPoint : PublicKey :=
  (((PrivateKey.generate .ed25519).run withEmptyWallet.world.entropy).1.getD default).publicKey

def withFreshPoint : Manager SoftWallet :=
  withEmptyWallet.manager.after withEmptyWallet.world (.createKey "w" "ed25519")

/-- The key is listed for the password. -/
theorem exists_listed_freshPoint : ∃ keys,
    withFreshPoint.answer freshWorld (listKeys "w" createdPassword) = .ok keys ∧
      freshPoint ∈ keys := by
  have hkeys : (withFreshPoint.answer freshWorld (listKeys "w" createdPassword)).toOption.map
      (·.contains freshPoint) = some true := by decide +kernel
  obtain ⟨keys, hlisted, hkey⟩ := Option.map_eq_some_iff.1 hkeys
  refine ⟨keys, ?_, hkey⟩
  cases hanswer : withFreshPoint.answer freshWorld (listKeys "w" createdPassword) with
  | error error => exact absurd (hanswer ▸ hlisted) (by simp [Except.toOption])
  | ok keys' =>
    rw [hanswer] at hlisted
    exact congrArg Except.ok (Option.some.inj hlisted)

theorem isOk_removeKey_freshPoint : (withFreshPoint.answer freshWorld
    (removeKey "w" createdPassword freshPoint.toText)).isOk = true := by
  decide +kernel

/-- A text without the name of a scheme has the form of no signature. -/
theorem untyped_ne (keyType : KeyType) (digits : List Char) :
    "SIG__" ≠ KeyText.Kind.word .signature ++ "_" ++ keyType.text ++ "_" ++
      String.ofList digits := by
  intro htext
  have hfifth := congrArg (fun text => text.toList[4]?) htext
  cases keyType <;> exact absurd hfifth (by simp [KeyText.Kind.word, KeyType.text])

/-- Digits of either case are read, and none at all of a Falcon-512 signature; the scheme must be
    named. A key that has been created can be named by its text, and is removed by it and the
    password. -/
theorem texts_are_exact_of_freshKey :
    (∃ key, PrivateKey.ofText
      ("PVT_ED25519_" ++ String.ofList (List.replicate 32 ['a', 'F']).flatten) = .ok key) ∧
    (∃ signature, Signature.ofText "SIG_FALCON512_" = .ok signature) ∧
    (¬ ∃ signature, Signature.ofText "SIG__" = .ok signature) ∧
    PublicKey.ofText freshKey.publicKey.toText = .ok freshKey.publicKey ∧
    Reachable Command.HandsOver withFreshPoint ∧
    ∃ keys, withFreshPoint.answer freshWorld (listKeys "w" createdPassword) = .ok keys ∧
      freshPoint ∈ keys ∧
      ∃ (entry : WalletName × SoftWallet) (session : Session) (wallet : SoftWallet)
        (scene' : Scene SoftWallet), session.keys = keys ∧
        (removeKey "w" createdPassword freshPoint.toText).outcome
          ⟨withFreshPoint, freshWorld, []⟩ = (.ok (), scene') ∧
        entry.2.Removed session freshPoint freshWorld (.ok ()) wallet scene'.world := by
  obtain ⟨hprivate, -, hsignature, -, -, -, -, hpublic, -, hremoves⟩ := texts_are_exact
  have hgenerated : (PrivateKey.generate .falcon512).run withEmptyWallet.world.entropy =
      (some freshKey, ((PrivateKey.generate .falcon512).run withEmptyWallet.world.entropy).2) := rfl
  have hmade : freshKey.WellFormed := PrivateKey.wellFormed_of_generate hgenerated
  have hdigits : ∀ digit ∈ (List.replicate 32 ['a', 'F']).flatten, Hex.isDigit digit = true := by
    intro digit hdigit
    obtain ⟨pair, hpair, hmem⟩ := List.mem_flatten.1 hdigit
    rw [List.eq_of_mem_replicate hpair] at hmem
    obtain rfl | rfl : digit = 'a' ∨ digit = 'F' := by simpa using hmem
    · decide
    · decide
  refine ⟨(hprivate _).2 (.inl ⟨_, ⟨rfl, hdigits⟩, by simp⟩),
    (hsignature _).2 (.inr ⟨[], ⟨rfl, by simp⟩, rfl⟩), ?_,
    hpublic _ (.half (PrivateKey.obtained_iff_wellFormed.2 hmade)), ?_⟩
  · rw [hsignature]
    rintro (⟨digits, ⟨htext, -⟩, -⟩ | ⟨digits, ⟨htext, -⟩, -⟩)
    · exact untyped_ne _ _ htext
    · exact untyped_ne _ _ htext
  · have hreachable : Reachable Command.HandsOver withFreshPoint :=
      reachable_withEmptyWallet.command (.createKey "w" "ed25519") trivial withEmptyWallet.world
    obtain ⟨keys, hlisted, hkey⟩ := exists_listed_freshPoint
    obtain ⟨entry, session, result, wallet, scene', -, -, hkeys, hdone, -, hremoved⟩ :=
      hremoves withFreshPoint hreachable freshWorld "w" createdPassword keys hlisted _ hkey
    have hresult := isOk_removeKey_freshPoint
    rw [answer, hdone] at hresult
    cases result with
    | error error => exact absurd hresult (by simp)
    | ok _ =>
      exact ⟨hreachable, keys, hlisted, hkey, entry, session, wallet, scene', hkeys, hdone,
        hremoved⟩

end Manager

end Custody
