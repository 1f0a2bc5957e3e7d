import Custody.Proofs.Wallet.Agreeing
import Custody.Proofs.Wallet.Capacity
import Custody.Proofs.Wallet.Failing

set_option autoImplicit false

/-! # Operations that fail leave no trace

Whichever operation on a wallet fails, and at whichever step, the session, the header and the keys
that the sealed copy holds are as before, the file at the wallet's path is what it was, and whatever
is done to the wallet later comes to the same as if the operation had not been tried:
`SoftWallet.Reachable.asBefore_of_error`.

A failed saving may leave an open wallet with a sealed copy that was made anew. It holds the same
keys, but not always as the same list: a copy that comes from elsewhere may have listed a key twice
(`SoftWallet.listed_once_of_failed_save`). Two sealed copies could also be told apart by a key that
opens one of them by chance; that nobody comes by such a key is an assumption on what follows
(`SoftWallet.Unmistakable`). -/

namespace Custody

namespace SoftWallet

section Suite

variable [Suite]

variable {wallet wallet' : SoftWallet} {world : World}

/-! ## What a failure leaves -/

/-- An open wallet has got a sealed copy that was made anew of its keys, with the header and the key
    of the old one. -/
inductive Refreshed (wallet : SoftWallet) : SoftWallet → Prop
  | sealed {envelope envelope' : Envelope} {session : Session}
    (henvelope : wallet.envelope? = some envelope) (hsession : wallet.session? = some session)
    (hseals : envelope'.Seals session.keys session.key envelope.kdf) :
    Refreshed wallet { wallet with envelope? := some envelope' }

theorem Saving.kept_or_refreshed {done : End Unit} (h : Saving wallet world done) :
    done.2.1 = wallet ∨ wallet.Refreshed done.2.1 := by
  cases h with
  | resealed henvelope hsession hseals hdrew hsave => exact .inr (.sealed henvelope hsession hseals)
  | _ => exact .inl rfl

theorem Rebinding.undone {limit : Nat} [Suite.BoundedCipher limit] {password : String}
    {done : End Unit} (h : Rebinding password wallet world done)
    (hwallet : wallet.IsSealable limit) : Undone (wallet, world) done := by
  refine fun error herror => ⟨h.eq_of_error hwallet herror, .inl ?_⟩
  cases h with
  | refused hsealed hlocked => rfl
  | underived hallowed hdrew hkey => exact hdrew.disk_eq
  | unsealed hallowed hdrew hkey hcipher => exact hdrew.disk_eq
  | rebound hallowed hdrew hkey hseals => exact hdrew.disk_eq

/-- Any other operation than saving leaves the wallet as it is if it fails. -/
theorem Reachable.undone {limit : Nat} [Suite.BoundedCipher limit] (h : wallet.Reachable)
    {step : Step} (hstep : step ≠ .save) (world : World) :
    Undone (wallet, world) (step.perform.outcome (wallet, world)) := by
  have hbound := h.orderly.isBound
  cases step with
  | setPassword password =>
    rw [Step.perform, Act.outcome_map]
    exact ((setPassword_spec password wallet world).undone h.isSealable).map _
  | checkPassword password =>
    rw [Step.perform]
    simp only [Act.outcome_bind, outcome_current, Act.outcome_liftM]
    cases wallet.checkPassword password <;> exact .of_disk_eq rfl rfl
  | unlock password =>
    rw [Step.perform, Act.outcome_map]
    exact (unlock_spec password wallet world).undone.map _
  | lock => exact .of_ok
  | importKey key made =>
    rw [Step.perform, Act.outcome_map]
    exact (importKey_spec key hbound world).undone.map _
  | removeKey key =>
    rw [Step.perform, Act.outcome_map]
    exact (removeKey_spec key hbound world).undone.map _
  | createKey keyType =>
    rw [Step.perform, Act.outcome_map]
    exact (createKey_spec keyType hbound world).undone.map _
  | load =>
    rw [Step.perform, Act.outcome_map]
    exact (load_spec wallet world).undone.map _
  | save => exact absurd rfl hstep

/-- An operation that fails leaves the wallet as it is, or refreshed if it was to be saved, and
    nothing on the disk but a temporary file. -/
theorem Reachable.kept_or_refreshed {limit : Nat} [Suite.BoundedCipher limit] (h : wallet.Reachable)
    {step : Step} {error : Error} {world' : World}
    (hfails : step.perform.outcome (wallet, world) = (.error error, wallet', world')) :
    (wallet' = wallet ∨ step = .save ∧ wallet.Refreshed wallet') ∧
      Envelope.Unfinished wallet.path world.disk world'.disk := by
  by_cases hstep : step = .save
  · subst hstep
    rw [Step.perform, Act.outcome_map] at hfails
    have hspec := save_spec h.orderly.isBound world
    have herror := Act.eq_error_of_map (congrArg Prod.fst hfails)
    have hkept := hspec.kept_or_refreshed
    have hunfinished := hspec.unfinished herror
    rw [show (save.outcome (wallet, world)).2 = (wallet', world') from
      congrArg Prod.snd hfails] at hkept hunfinished
    exact ⟨hkept.imp_right fun hrefreshed => ⟨rfl, hrefreshed⟩, hunfinished⟩
  · have hundone := h.undone hstep world error (congrArg Prod.fst hfails)
    rw [hfails] at hundone
    exact ⟨.inl hundone.1, hundone.2⟩

/-! ## What cannot be told apart -/

/-- A password is tried if the wallet is to be unlocked with it. -/
def Tried (laters : List Later) (password : String) : Prop :=
  ∃ later ∈ laters, later.step = .unlock password

/-- A key comes up if a password that is tried gives it. The key that the sealed copy was made with
    comes up as well, if a file of the copy would be too large to be loaded. -/
def ComesUp (laters : List Later) (envelope : Envelope) (key : Block 32) : Prop :=
  (∃ password, Tried laters password ∧ envelope.kdf.deriveKey password = .ok key) ∨
    ¬ envelope.Fits ∧ ∃ keys, envelope.Seals keys key envelope.kdf

/-- No key that comes up opens the sealed copy of either wallet, but that of the session. -/
def Unmistakable (laters : List Later) (wallet wallet' : SoftWallet) : Prop :=
  ∀ session envelope envelope' key, wallet.session? = some session →
    wallet.envelope? = some envelope → wallet'.envelope? = some envelope' →
    ComesUp laters envelope key → key ≠ session.key →
    ∀ keys, envelope.openKeys key ≠ .ok keys ∧ envelope'.openKeys key ≠ .ok keys

omit [Suite] in
theorem toOption_eq_none {ε α : Type} {result : Except ε α} (h : ∀ a, result ≠ .ok a) :
    result.toOption = none := by
  cases result with
  | error error => rfl
  | ok a => exact absurd rfl (h a)

section Refreshed

variable {envelope envelope' : Envelope} {session : Session}

/-- The sealed copy of an open wallet holds the keys of the session. -/
theorem Reachable.holds [Suite.LawfulCipher] (h : wallet.Reachable)
    (henvelope : wallet.envelope? = some envelope) (hsession : wallet.session? = some session) :
    envelope.Holds envelope.kdf session.key session.keys := by
  obtain ⟨vault, hrefines⟩ := h.refines
  exact (hrefines.eq_bound_of_open henvelope hsession).2

/-- Files of the old and of the new sealed copy are loaded alike. -/
theorem Reachable.readAlike {limit : Nat} [Suite.BoundedCipher limit] (h : wallet.Reachable)
    (henvelope : wallet.envelope? = some envelope) (hsession : wallet.session? = some session)
    (hseals : envelope'.Seals session.keys session.key envelope.kdf)
    (hown : ¬ envelope.Fits → ∀ keys key, envelope.Seals keys key envelope.kdf →
      key ≠ session.key → ∀ opened, envelope.openKeys key ≠ .ok opened) :
    envelope.ReadAlike envelope' := by
  refine ⟨hseals.version_eq.trans (h.isCurrent _ henvelope).symm, ?_⟩
  obtain ⟨-, opened, hopen, hkeys⟩ := h.holds henvelope hsession
  by_cases hfits : envelope.Fits
  · exact .inr ⟨hfits, (Envelope.Seals.fileSize_le hopen (hkeys ▸ hseals)).trans hfits⟩
  · obtain ⟨keys, key, hfiled, hsealed⟩ := (h.isMeasured _ henvelope).resolve_left hfits
    have hopen' := hsealed.openKeys_eq hfiled
    obtain rfl : key = session.key := by
      by_contra hne
      exact hown hfits keys key hsealed hne _ hopen'
    -- the session has been opened from the copy, and so holds the keys that the copy was made of
    rw [hopen] at hopen'
    cases hopen'
    rw [hfiled.ofKeys_values] at hkeys
    exact .inl ((hkeys ▸ hseals).fileSize_eq.trans hsealed.fileSize_eq.symm)

/-- The old and the new sealed copy are interchangeable. -/
theorem Reachable.interchangeable {limit : Nat} [Suite.BoundedCipher limit] (h : wallet.Reachable)
    {laters : List Later} (henvelope : wallet.envelope? = some envelope)
    (hsession : wallet.session? = some session)
    (hseals : envelope'.Seals session.keys session.key envelope.kdf)
    (hclear : ∀ key, ComesUp laters envelope key → key ≠ session.key →
      ∀ keys, envelope.openKeys key ≠ .ok keys ∧ envelope'.openKeys key ≠ .ok keys) :
    envelope.Interchangeable (Tried laters) envelope' := by
  have hholds := h.holds henvelope hsession
  refine ⟨h.readAlike henvelope hsession hseals fun hlarge keys key hsealed hne opened =>
    (hclear key (.inr ⟨hlarge, keys, hsealed⟩) hne opened).1, hseals.kdf_eq, ?_⟩
  intro password key htried hkey
  by_cases hown : key = session.key
  · obtain ⟨-, opened', hopen', hkeys'⟩ := hseals.holds hholds.filed
    obtain ⟨-, opened, hopen, hkeys⟩ := hholds
    rw [hown, hopen, hopen']
    simp only [Except.toOption, Option.map_some, hkeys, hkeys']
  · have hneither := hclear key (.inl ⟨password, htried, hkey⟩) hown
    rw [toOption_eq_none fun keys => (hneither keys).1,
      toOption_eq_none fun keys => (hneither keys).2]

/-- A wallet that has been left as it was, or refreshed, agrees with what it was. -/
theorem Reachable.agrees {limit : Nat} [Suite.BoundedCipher limit] (h : wallet.Reachable)
    {laters : List Later} (hkept : wallet' = wallet ∨ wallet.Refreshed wallet')
    (hclear : wallet' ≠ wallet → wallet.Unmistakable laters wallet') :
    wallet.Agrees (Tried laters) wallet' := by
  by_cases hsame : wallet' = wallet
  · rw [hsame]
    exact .refl wallet
  · cases hkept.resolve_left hsame with
    | sealed henvelope hsession hseals =>
      have hcopies := h.interchangeable henvelope hsession hseals fun key =>
        hclear hsame _ _ _ key hsession henvelope rfl
      exact ⟨rfl, rfl, rfl, by rw [henvelope]; exact .some hcopies⟩

end Refreshed

/-! ## Atomicity -/

/-- What is left by an operation that has failed is as before the operation. -/
structure AsBefore (step : Step) (start done : SoftWallet × World) : Prop where
  isLocked_eq : done.1.isLocked = start.1.isLocked
  /-- The session has its key and its keys. -/
  session_eq : done.1.session? = start.1.session?
  header_eq : done.1.envelope?.map (·.kdf) = start.1.envelope?.map (·.kdf)
  path_eq : done.1.path = start.1.path
  cost_eq : done.1.cost = start.1.cost
  /-- The sealed copy is the same, unless an open wallet was to be saved. -/
  kept : done.1 = start.1 ∨ step = .save ∧ start.1.Refreshed done.1
  /-- The sealed copy holds what it held under the key of the session. -/
  holds : ∀ session envelope, start.1.session? = some session →
    start.1.envelope? = some envelope → ∃ envelope', done.1.envelope? = some envelope' ∧
      envelope.Holds envelope.kdf session.key session.keys ∧
      envelope'.Holds envelope.kdf session.key session.keys
  /-- At the path there is the file that there was, or none. -/
  inspect_eq : done.2.disk.inspect start.1.path = start.2.disk.inspect start.1.path
  /-- On the whole disk nothing has changed but for a temporary file. -/
  unfinished : Envelope.Unfinished start.1.path start.2.disk done.2.disk
  /-- Whatever is done later answers as if the operation had not been tried. -/
  later : ∀ laters : List Later, (∀ later ∈ laters, later.Respects start.1.path) →
    (done.1 ≠ start.1 → start.1.Unmistakable laters done.1) →
    (done.1.run done.2.disk laters).1 = (start.1.run start.2.disk laters).1 ∧
    (done.1.run done.2.disk laters).2.1.session? = (start.1.run start.2.disk laters).2.1.session?

/-- An operation that fails, wherever it does, leaves everything as before. -/
theorem Reachable.asBefore_of_error {limit : Nat} [Suite.BoundedCipher limit] (h : wallet.Reachable)
    {step : Step} {error : Error} {world' : World}
    (hfails : step.perform.outcome (wallet, world) = (.error error, wallet', world')) :
    AsBefore step (wallet, world) (wallet', world') := by
  obtain ⟨hkept, hunfinished⟩ := h.kept_or_refreshed hfails
  have hlater : ∀ laters : List Later, (∀ later ∈ laters, later.Respects wallet.path) →
      (wallet' ≠ wallet → wallet.Unmistakable laters wallet') →
      (wallet'.run world'.disk laters).1 = (wallet.run world.disk laters).1 ∧
      (wallet'.run world'.disk laters).2.1.session? =
        (wallet.run world.disk laters).2.1.session? := by
    intro laters hrespects hclear
    obtain ⟨hanswers, hend⟩ := (h.agrees (hkept.imp_right And.right) hclear).run
      hunfinished.matching hrespects fun later hlater password hstep => ⟨later, hlater, hstep⟩
    exact ⟨hanswers, hend.session_eq⟩
  rcases id hkept with rfl | ⟨-, hrefreshed⟩
  · refine ⟨rfl, rfl, rfl, rfl, rfl, hkept, fun session envelope hsession henvelope => ?_,
      hunfinished.inspect_eq, hunfinished, hlater⟩
    have hholds := h.holds henvelope hsession
    exact ⟨envelope, henvelope, hholds, hholds⟩
  · cases hrefreshed with
    | @sealed envelope envelope' session henvelope hsession hseals =>
      have hholds := h.holds henvelope hsession
      refine ⟨rfl, rfl, ?_, rfl, rfl, hkept, fun session₁ envelope₁ hsession₁ henvelope₁ => ?_,
        hunfinished.inspect_eq, hunfinished, hlater⟩
      · simp only [henvelope, Option.map_some, hseals.kdf_eq]
      · cases hsession.symm.trans hsession₁
        cases henvelope.symm.trans henvelope₁
        exact ⟨envelope', rfl, hholds, hseals.holds hholds.filed⟩

end Suite

/-! ## A key that is listed twice -/

section Doubled

local instance atomicityPrimitives : Suite := Suite.standard

/-- A list with one key in it twice. -/
def doubled : List PrivateKey := [.ofSeed default, .ofSeed default]

/-- The key that a password gives for a sealed copy of the list. -/
def doubledKey : Block 32 := Suite.deriveKey .light (Utf8.encode "pw") default

/-- A sealed copy of the list. -/
def doubledCopy : Envelope :=
  ⟨Envelope.currentVersion, ⟨.light, default⟩, default,
    (Suite.encrypt doubledKey default (Envelope.plaintext doubled)).getD []⟩

/-- A world in which the sealed copy lies in a file. -/
def doubledWorld (faults : FaultPlan) : World :=
  { World.blank with
    disk := (Disk.empty []).put [Utf8.encode "w.wallet"] (.file ⟨0, 0o600, doubledCopy.encode⟩)
    faults }

/-- The wallet that has been loaded from the file and unlocked. -/
def doubledWallet : SoftWallet :=
  ⟨.ofString "w.wallet", .light, some doubledCopy, some ⟨doubledKey, KeyMap.ofKeys doubled⟩⟩

/-- Every step fails. -/
def nothingWorks : FaultPlan := fun _ _ => some ⟨.noSpace, 0⟩

theorem wellFormed_of_mem_doubled : ∀ key ∈ doubled, key.WellFormed := by
  have hfresh : (PrivateKey.ofSeed default).WellFormed := ⟨default, rfl⟩
  simp only [doubled, List.forall_mem_cons, List.not_mem_nil, false_implies, implies_true]
  exact ⟨hfresh, hfresh, trivial⟩

theorem encrypt_doubled : Suite.encrypt doubledKey default (Envelope.plaintext doubled) =
    some doubledCopy.ciphertext := by
  have hlength : (Envelope.plaintext doubled).length ≤ XChaCha20Poly1305.maxLength := by
    rw [Envelope.length_plaintext_of_wellFormed wellFormed_of_mem_doubled]
    decide
  obtain ⟨ciphertext, hcipher⟩ := Option.isSome_iff_exists.1
    ((Suite.SizedCipher.isSome_encrypt_iff doubledKey default _).2 hlength)
  rw [hcipher, doubledCopy, hcipher]
  rfl

theorem openKeys_doubledCopy : doubledCopy.openKeys doubledKey = .ok doubled :=
  Envelope.openKeys_of_encrypt wellFormed_of_mem_doubled encrypt_doubled _

theorem fileSize_doubledCopy : doubledCopy.fileSize = 192 := by
  rw [Envelope.fileSize, Suite.SizedCipher.length_of_encrypt encrypt_doubled,
    Envelope.length_plaintext_of_wellFormed wellFormed_of_mem_doubled]
  rfl

theorem deriveKey_doubledCopy : doubledCopy.kdf.deriveKey "pw" = .ok doubledKey := by
  rfl

theorem inspect_doubledWorld (faults : FaultPlan) :
    (doubledWorld faults).disk.inspect (.ofString "w.wallet") =
      .ok (.file ⟨0, 0o600, doubledCopy.encode⟩) := by
  rfl

theorem outcome_load_doubled : (Step.load.perform.outcome
    (.new (.ofString "w.wallet") .light, doubledWorld .none)).2.1 = doubledWallet.lock := by
  have hfile : doubledCopy.IsFile ⟨0, 0o600, doubledCopy.encode⟩ := ⟨rfl, rfl⟩
  have hfits : doubledCopy.encode.length ≤ Envelope.maxFileSize := by
    rw [Envelope.length_encode, fileSize_doubledCopy]
    decide
  have hcalm : (doubledWorld .none).faults = .none := rfl
  have hload := hfile.outcome_load hcalm (inspect_doubledWorld .none) hfits
  have hspec := load_spec (.new (.ofString "w.wallet") .light) (doubledWorld .none)
  rw [Step.perform, Act.outcome_map]
  generalize load.outcome (.new (.ofString "w.wallet") .light, doubledWorld .none) = done
    at hspec ⊢
  cases hspec with
  | failed hfailed => exact absurd (congrArg Prod.fst (hload.symm.trans hfailed)) (by simp)
  | loaded hloaded =>
    cases congrArg Prod.fst (hload.symm.trans hloaded)
    rfl

theorem outcome_unlock_doubled : ((Step.unlock "pw").perform.outcome
    (doubledWallet.lock, doubledWorld .none)).2.1 = doubledWallet := by
  have hlocked : doubledWallet.lock.Refines
      (.bound true doubledCopy.kdf doubledKey (KeyMap.ofKeys doubled)) :=
    ⟨⟨doubledCopy, rfl, rfl, doubled, openKeys_doubledCopy, rfl⟩, rfl⟩
  rw [Step.perform, Act.outcome_map, hlocked.outcome_unlock deriveKey_doubledCopy]
  rfl

theorem reachable_doubledWallet : doubledWallet.Reachable := by
  have hloaded := (Reachable.new (.ofString "w.wallet") .light).step .load (doubledWorld .none)
  rw [outcome_load_doubled] at hloaded
  have hopened := hloaded.step (.unlock "pw") (doubledWorld .none)
  rwa [outcome_unlock_doubled] at hopened

/-- Where nothing works, the wallet cannot be saved, but has been sealed anew by then. -/
theorem exists_save_doubledWallet : ∃ error envelope world,
    Step.save.perform.outcome (doubledWallet, doubledWorld nothingWorks) =
      (.error error, { doubledWallet with envelope? := some envelope }, world) ∧
    envelope.Seals (KeyMap.ofKeys doubled) doubledKey doubledCopy.kdf := by
  have hspec := save_spec reachable_doubledWallet.orderly.isBound (doubledWorld nothingWorks)
  have hsealable := reachable_doubledWallet.isSealable _ rfl
  rw [Step.perform, Act.outcome_map]
  generalize save.outcome (doubledWallet, doubledWorld nothingWorks) = done at hspec ⊢
  cases hspec with
  | unset hnew => exact absurd hnew (by simp [doubledWallet])
  | unsealed hsession hdrew hcipher =>
    obtain ⟨nonce, hcipher⟩ := hcipher
    cases hsession
    have hsome := (Suite.SizedCipher.isSome_encrypt_iff doubledKey nonce _).2 hsealable
    rw [hcipher] at hsome
    exact absurd hsome (by simp)
  | copied henvelope hlocked hsave => exact absurd hlocked (by simp [doubledWallet])
  | resealed henvelope hsession hseals hdrew hsave =>
    cases henvelope
    cases hsession
    obtain ⟨entropy, rfl⟩ := hdrew
    rw [Envelope.outcome_save_of_fault rfl] at hsave
    cases hsave
    exact ⟨_, _, _, rfl, hseals⟩

/-- The wallet is closed, saved, loaded and opened. -/
def doubledLaters : List Later :=
  [.lock, .save, .load, .unlock "pw"].map fun step => ⟨step, id, .blank⟩

/-- The only password that is tried gives the key of the session. -/
theorem unmistakable_doubled (wallet : SoftWallet) :
    doubledWallet.Unmistakable doubledLaters wallet := by
  rintro session envelope envelope' key ⟨⟩ ⟨⟩ - hkey hne
  rcases hkey with ⟨password, ⟨later, hlater, hstep⟩, hkey⟩ | ⟨hlarge, -⟩
  · simp only [doubledLaters, List.map_cons, List.map_nil, List.mem_cons, List.not_mem_nil,
      or_false] at hlater
    rcases hlater with rfl | rfl | rfl | rfl <;> cases hstep
    rw [deriveKey_doubledCopy] at hkey
    cases hkey
    exact absurd rfl hne
  · refine absurd ?_ hlarge
    rw [Envelope.Fits, fileSize_doubledCopy]
    decide

/-- The wallet that cannot be saved goes on as if nothing had happened. -/
theorem asBefore_of_doubled : ∃ error wallet world,
    Step.save.perform.outcome (doubledWallet, doubledWorld nothingWorks) =
      (.error error, wallet, world) ∧
    wallet.session? = some ⟨doubledKey, KeyMap.ofKeys doubled⟩ ∧
    world.disk.inspect (.ofString "w.wallet") = .ok (.file ⟨0, 0o600, doubledCopy.encode⟩) ∧
    (wallet.run world.disk doubledLaters).1 =
      (doubledWallet.run (doubledWorld nothingWorks).disk doubledLaters).1 := by
  obtain ⟨error, envelope, world, hsave, -⟩ := exists_save_doubledWallet
  have hbefore := reachable_doubledWallet.asBefore_of_error hsave
  have hrespects : ∀ later ∈ doubledLaters, later.Respects doubledWallet.path := by
    intro later hlater
    obtain ⟨step, -, rfl⟩ := List.mem_map.1 hlater
    exact fun _ _ _ hmatch => hmatch
  exact ⟨error, _, world, hsave, hbefore.session_eq,
    hbefore.inspect_eq.trans (inspect_doubledWorld nothingWorks),
    (hbefore.later doubledLaters hrespects fun _ => unmistakable_doubled _).1⟩

/-- A saving that fails may leave a sealed copy that opens to another list than before: a key that
    was listed twice is listed once. -/
theorem listed_once_of_failed_save : doubledWallet.Reachable ∧
    doubledCopy.openKeys doubledKey = .ok doubled ∧ ∃ error wallet world,
    Step.save.perform.outcome (doubledWallet, doubledWorld nothingWorks) =
      (.error error, wallet, world) ∧
    ∃ envelope keys, wallet.envelope? = some envelope ∧ envelope.openKeys doubledKey = .ok keys ∧
      keys ≠ doubled := by
  obtain ⟨error, envelope, world, hsave, hseals⟩ := exists_save_doubledWallet
  have hfiled := KeyMap.filed_ofKeys wellFormed_of_mem_doubled
  refine ⟨reachable_doubledWallet, openKeys_doubledCopy, error, _, world, hsave, envelope, _, rfl,
    hseals.openKeys_eq hfiled, fun heq => ?_⟩
  have hnodup := hfiled.nodup_values
  rw [heq] at hnodup
  exact absurd hnodup (by simp [doubled])

end Doubled

end SoftWallet

end Custody
