import Mathlib.Data.Option.Basic
import Custody.Proofs.Envelope.Leftover
import Custody.Proofs.Wallet.Vault

set_option autoImplicit false

/-! # Wallets that answer alike

Two wallets agree if they differ at most in their sealed copies, and these open to the same keys
with the passwords that are ever tried on them (`SoftWallet.Agrees`). Whatever is done to both, on
disks that match, they give the same answers, and what is left of them agrees again on disks that
match: `SoftWallet.couples_step` for an operation, `SoftWallet.Agrees.run` for any number. -/

namespace Custody

variable [Suite]

/-! ## Agreeing -/

/-- The sealed copies have one header, an admitted password opens both of them to the same keys or
    neither, and files of them are read alike. -/
structure Envelope.Interchangeable (admitted : String → Prop) (envelope envelope' : Envelope) :
    Prop extends envelope.ReadAlike envelope' where
  kdf_eq : envelope'.kdf = envelope.kdf
  opens : ∀ password key, admitted password → envelope.kdf.deriveKey password = .ok key →
    (envelope'.openKeys key).toOption.map KeyMap.ofKeys =
      (envelope.openKeys key).toOption.map KeyMap.ofKeys

theorem Envelope.Interchangeable.refl (admitted : String → Prop) (envelope : Envelope) :
    envelope.Interchangeable admitted envelope :=
  ⟨⟨rfl, .inl rfl⟩, rfl, fun _ _ _ _ => rfl⟩

namespace SoftWallet

/-- The wallets are the same but for sealed copies that are interchangeable. -/
structure Agrees (admitted : String → Prop) (wallet wallet' : SoftWallet) : Prop where
  path_eq : wallet'.path = wallet.path
  cost_eq : wallet'.cost = wallet.cost
  session_eq : wallet'.session? = wallet.session?
  copies : Option.Rel (Envelope.Interchangeable admitted) wallet.envelope? wallet'.envelope?

variable {α β : Type} {path : Path} {admitted : String → Prop} {wallet wallet' : SoftWallet}

namespace Agrees

theorem refl (wallet : SoftWallet) : wallet.Agrees admitted wallet := by
  refine ⟨rfl, rfl, rfl, ?_⟩
  cases wallet.envelope? with
  | none => exact .none
  | some envelope => exact .some (.refl admitted envelope)

/-- Wallets that are given interchangeable sealed copies and the same session agree. -/
theorem rewritten (h : wallet.Agrees admitted wallet') {envelope envelope' : Envelope}
    (hcopies : envelope.Interchangeable admitted envelope') (session? : Option Session) :
    Agrees admitted { wallet with envelope? := some envelope, session? }
      { wallet' with envelope? := some envelope', session? } :=
  ⟨h.path_eq, h.cost_eq, rfl, .some hcopies⟩

/-- Wallets that are given the same session go on agreeing. -/
theorem reopened (h : wallet.Agrees admitted wallet') (session? : Option Session) :
    Agrees admitted { wallet with session? } { wallet' with session? } :=
  ⟨h.path_eq, h.cost_eq, rfl, h.copies⟩

/-- Wallets that are given the same sealed copy go on agreeing. -/
theorem resealed (h : wallet.Agrees admitted wallet') (envelope : Envelope) :
    Agrees admitted { wallet with envelope? := some envelope }
      { wallet' with envelope? := some envelope } := by
  rw [h.session_eq]
  exact h.rewritten (.refl admitted envelope) wallet.session?

theorem isNew_eq (h : wallet.Agrees admitted wallet') : wallet'.isNew = wallet.isNew := by
  have hcopies := h.copies
  unfold isNew
  generalize wallet.envelope? = envelope? at hcopies
  generalize wallet'.envelope? = envelope?' at hcopies
  cases hcopies <;> rfl

theorem isLocked_eq (h : wallet.Agrees admitted wallet') : wallet'.isLocked = wallet.isLocked := by
  unfold isLocked
  rw [h.session_eq]

theorem sessionOf_eq (h : wallet.Agrees admitted wallet') : wallet'.session = wallet.session := by
  unfold session
  rw [h.session_eq, h.path_eq]

/-- Both sealed copies are there, or the same is said to be missing. -/
theorem envelope_cases (h : wallet.Agrees admitted wallet') :
    (∃ envelope envelope', wallet.envelope = .ok envelope ∧ wallet'.envelope = .ok envelope' ∧
      envelope.Interchangeable admitted envelope') ∨
    ∃ error, wallet.envelope = .error error ∧ wallet'.envelope = .error error := by
  have hcopies := h.copies
  unfold envelope
  rw [h.path_eq]
  generalize wallet.envelope? = envelope? at hcopies
  generalize wallet'.envelope? = envelope?' at hcopies
  cases hcopies with
  | none => exact .inr ⟨_, rfl, rfl⟩
  | some hcopy => exact .inl ⟨_, _, rfl, rfl, hcopy⟩

theorem checkPassword_eq (h : wallet.Agrees admitted wallet') (password : String) :
    wallet'.checkPassword password = wallet.checkPassword password := by
  unfold checkPassword
  rw [h.sessionOf_eq]
  cases wallet.session with
  | error error => rfl
  | ok session =>
    rcases h.envelope_cases with
      ⟨envelope, envelope', hcopy, hcopy', hsame⟩ | ⟨error, hcopy, hcopy'⟩
    · simp only [hcopy, hcopy', bind, Except.bind, hsame.kdf_eq]
    · rw [hcopy, hcopy']

end Agrees

/-! ## Operations on wallets that agree -/

/-- The wallets agree and lie at the path, and their worlds differ at most in disks that match. -/
structure Alike (path : Path) (admitted : String → Prop) (state state' : SoftWallet × World) :
    Prop where
  path_eq : state.1.path = path
  agrees : state.1.Agrees admitted state'.1
  worlds : World.Differ (Envelope.Matching (Envelope.Interchangeable admitted) path) state.2
    state'.2

/-- The operations answer alike on wallets that agree, and leave them agreeing. -/
abbrev Couples (path : Path) (admitted : String → Prop) (answers : α → α → Prop)
    (x x' : Operation α) : Prop :=
  Act.Couples (Alike path admitted) answers (Alike path admitted) (Alike path admitted) x x'

theorem couples_throw {answers : α → α → Prop} (error : Error) :
    Couples path admitted answers (throw error : Operation α) (throw error) :=
  .throw (fun _ _ => id) error

theorem couples_current : Couples path admitted
    (fun wallet wallet' => wallet.path = path ∧ wallet.Agrees admitted wallet') current current :=
  fun _ _ h => .answered ⟨h.path_eq, h.agrees⟩ h

theorem couples_lift (result : Except Error α) :
    Couples path admitted Eq (liftM result : Operation α) (liftM result) := by
  intro state state' h
  rw [Act.outcome_liftM, Act.outcome_liftM]
  cases result with
  | ok a => exact .answered rfl h
  | error error => exact .failed error h

/-- The sealed copies are interchangeable if they are there. -/
theorem Agrees.couples_envelope (hagrees : wallet.Agrees admitted wallet') :
    Couples path admitted (Envelope.Interchangeable admitted)
      (liftM wallet.envelope : Operation Envelope) (liftM wallet'.envelope) := by
  intro state state' h
  rw [Act.outcome_liftM, Act.outcome_liftM]
  rcases hagrees.envelope_cases with ⟨envelope, envelope', hcopy, hcopy', hsame⟩ |
    ⟨error, hcopy, hcopy'⟩
  · rw [hcopy, hcopy']
    exact .answered hsame h
  · rw [hcopy, hcopy']
    exact .failed error h

theorem couples_update {f f' : SoftWallet → SoftWallet}
    (hf : ∀ wallet wallet', wallet.Agrees admitted wallet' →
      (f wallet).path = wallet.path ∧ (f wallet).Agrees admitted (f' wallet')) :
    Couples path admitted Eq (update f) (update f') := by
  intro state state' h
  obtain ⟨hpath, hagrees⟩ := hf _ _ h.agrees
  exact .answered rfl ⟨hpath.trans h.path_eq, hagrees, h.worlds⟩

/-- What is drawn is the same in both worlds. -/
theorem couples_drawing (draw : StateM Entropy α) :
    Couples path admitted Eq (onWorld (World.drawing draw)) (onWorld (World.drawing draw)) := by
  rintro state ⟨wallet', _⟩ ⟨hpath, hagrees, disk, hdisk, hworld⟩
  cases hworld
  exact .answered rfl ⟨hpath, hagrees, disk, hdisk, rfl⟩

/-- What is done on the disks leaves the wallets as they are. -/
theorem couples_onWorld {answers : α → α → Prop} {act act' : Act Error World α}
    (h : Act.Couples (World.Differ (Envelope.Matching (Envelope.Interchangeable admitted) path))
      answers (World.Differ (Envelope.Matching (Envelope.Interchangeable admitted) path))
      (World.Differ (Envelope.Matching (Envelope.Interchangeable admitted) path)) act act') :
    Couples path admitted answers (onWorld act) (onWorld act') := by
  intro state state' hstates
  have hend := h _ _ hstates.worlds
  rw [outcome_onWorld, outcome_onWorld]
  generalize act.outcome state.2 = end₁ at hend ⊢
  generalize act'.outcome state'.2 = end₂ at hend ⊢
  cases hend with
  | answered ha hworlds => exact .answered ha ⟨hstates.path_eq, hstates.agrees, hworlds⟩
  | failed error hworlds => exact .failed error ⟨hstates.path_eq, hstates.agrees, hworlds⟩

theorem couples_sealKeys (keys : KeyMap) (key : Block 32) (kdf : KdfHeader) :
    Couples path admitted Eq (sealKeys keys key kdf) (sealKeys keys key kdf) := by
  unfold sealKeys
  refine .bind_eq (couples_drawing _) fun result => ?_
  cases result with
  | ok envelope => exact .pure rfl
  | error fault => exact couples_throw _

theorem couples_saveEnvelope {envelope envelope' : Envelope}
    (hcopies : envelope.Interchangeable admitted envelope') :
    Couples path admitted Eq (saveEnvelope envelope) (saveEnvelope envelope') := by
  unfold saveEnvelope
  refine .bind couples_current ?_
  rintro wallet wallet' ⟨rfl, hagrees⟩
  rw [hagrees.path_eq]
  exact couples_onWorld ((Envelope.couples_save hcopies _).mapError _)

/-! ## Each operation -/

theorem couples_commitKeys (keys : KeyMap) :
    Couples path admitted Eq (commitKeys keys) (commitKeys keys) := by
  unfold commitKeys
  refine .bind couples_current ?_
  rintro wallet wallet' ⟨-, hagrees⟩
  refine .bind hagrees.couples_envelope fun envelope envelope' hcopies => ?_
  rw [hagrees.sessionOf_eq, hcopies.kdf_eq]
  refine .bind_eq (couples_lift _) fun session => ?_
  refine .bind_eq (couples_sealKeys _ _ _) fun sealed => ?_
  refine .bind_eq (couples_saveEnvelope (.refl admitted sealed)) fun _ => ?_
  exact couples_update fun wallet wallet' hagrees =>
    ⟨rfl, hagrees.rewritten (.refl admitted sealed) _⟩

theorem couples_importKey (key : PrivateKey) :
    Couples path admitted Eq (importKey key) (importKey key) := by
  unfold importKey
  refine .bind couples_current ?_
  rintro wallet wallet' ⟨-, hagrees⟩
  rw [hagrees.sessionOf_eq]
  refine .bind_eq (couples_lift _) fun session => ?_
  dsimp only
  split
  · exact .throw_bind (fun _ _ => id) _
  · exact .bind_eq (couples_commitKeys _) fun _ => .pure rfl

theorem couples_removeKey (key : PublicKey) :
    Couples path admitted Eq (removeKey key) (removeKey key) := by
  unfold removeKey
  refine .bind couples_current ?_
  rintro wallet wallet' ⟨-, hagrees⟩
  rw [hagrees.sessionOf_eq]
  refine .bind_eq (couples_lift _) fun session => ?_
  dsimp only
  split
  · exact .throw_bind (fun _ _ => id) _
  · exact couples_commitKeys _

theorem couples_createKey (keyType : KeyType) :
    Couples path admitted Eq (createKey keyType) (createKey keyType) := by
  unfold createKey
  refine .bind_eq (couples_drawing _) fun key? => ?_
  cases key? with
  | some key => exact couples_importKey key
  | none => exact couples_throw _

theorem couples_setPassword (password : String) :
    Couples path admitted Eq (setPassword password) (setPassword password) := by
  unfold setPassword
  refine .bind couples_current ?_
  rintro wallet wallet' ⟨-, hagrees⟩
  rw [hagrees.isNew_eq, hagrees.isLocked_eq, hagrees.path_eq, hagrees.cost_eq, hagrees.session_eq]
  dsimp only
  split
  · exact .throw_bind (fun _ _ => id) _
  · refine .bind_eq (couples_drawing _) fun salt => ?_
    refine .bind_eq (couples_lift _) fun key => ?_
    refine .bind_eq (couples_update fun wallet wallet' hagrees => ⟨rfl, hagrees.reopened _⟩)
      fun _ => ?_
    refine .bind_eq (couples_sealKeys _ _ _) fun envelope => ?_
    exact couples_update fun wallet wallet' hagrees => ⟨rfl, hagrees.resealed _⟩

theorem couples_unlock {password : String} (hadmitted : admitted password) :
    Couples path admitted Eq (unlock password) (unlock password) := by
  unfold unlock
  refine .bind couples_current ?_
  rintro wallet wallet' ⟨-, hagrees⟩
  refine .bind hagrees.couples_envelope fun envelope envelope' hcopies => ?_
  rw [hcopies.kdf_eq]
  have hderive : Couples path admitted
      (fun key key' => envelope.kdf.deriveKey password = .ok key ∧ key' = key)
      (liftM (deriveKey envelope.kdf password) : Operation (Block 32))
      (liftM (deriveKey envelope.kdf password)) := by
    intro state state' h
    rw [Act.outcome_liftM, Act.outcome_liftM, deriveKey]
    cases hkey : envelope.kdf.deriveKey password with
    | ok key => exact .answered ⟨rfl, rfl⟩ h
    | error fault => exact .failed _ h
  refine .bind hderive ?_
  rintro _ key ⟨hkey, rfl⟩
  have hopens := hcopies.opens password key hadmitted hkey
  -- the key opens both copies, to the same keys, or neither
  cases hopen : envelope.openKeys key with
  | error fault =>
    cases hopen' : envelope'.openKeys key with
    | error fault' => exact couples_throw _
    | ok keys' => simp [hopen, hopen', Except.toOption] at hopens
  | ok keys =>
    cases hopen' : envelope'.openKeys key with
    | error fault' => simp [hopen, hopen', Except.toOption] at hopens
    | ok keys' =>
      have hkeys : KeyMap.ofKeys keys' = KeyMap.ofKeys keys := by
        simpa [hopen, hopen', Except.toOption] using hopens
      show Couples path admitted Eq
        (update fun wallet => { wallet with session? := some ⟨key, KeyMap.ofKeys keys⟩ })
        (update fun wallet => { wallet with session? := some ⟨key, KeyMap.ofKeys keys'⟩ })
      rw [hkeys]
      exact couples_update fun wallet wallet' hagrees => ⟨rfl, hagrees.reopened _⟩

theorem couples_load : Couples path admitted Eq load load := by
  unfold load
  refine .bind couples_current ?_
  rintro wallet wallet' ⟨rfl, hagrees⟩
  rw [hagrees.path_eq]
  refine .bind (couples_onWorld ((Envelope.couples_load
    (Envelope.Interchangeable.refl admitted) (fun _ _ h => h.toReadAlike) _).mapError _)) ?_
  exact fun envelope envelope' hcopies =>
    couples_update fun wallet wallet' hagrees => ⟨rfl, hagrees.rewritten hcopies _⟩

theorem couples_save : Couples path admitted Eq save save := by
  have hcopy : Couples path admitted Eq (do saveEnvelope (← (← current).envelope))
      (do saveEnvelope (← (← current).envelope)) := by
    refine .bind couples_current ?_
    rintro wallet wallet' ⟨-, hagrees⟩
    exact .bind hagrees.couples_envelope fun envelope envelope' => couples_saveEnvelope
  unfold save
  refine .bind couples_current ?_
  rintro wallet wallet' ⟨-, hagrees⟩
  rw [hagrees.session_eq]
  dsimp only
  split
  · rename_i session _
    refine .bind hagrees.couples_envelope fun envelope envelope' hcopies => ?_
    rw [hcopies.kdf_eq]
    refine .bind_eq (couples_sealKeys _ _ _) fun sealed => ?_
    exact .bind_eq (couples_update fun wallet wallet' hagrees => ⟨rfl, hagrees.resealed _⟩)
      fun _ => hcopy
  · exact hcopy

/-- Every operation answers alike on wallets that agree, and leaves them agreeing, as long as no
    other than an admitted password is tried. -/
theorem couples_step (step : Step)
    (hadmitted : ∀ password, step = .unlock password → admitted password) :
    Couples path admitted Eq step.perform step.perform := by
  cases step with
  | setPassword password => exact .map (couples_setPassword password) fun _ _ _ => rfl
  | checkPassword password =>
    refine .bind couples_current ?_
    rintro wallet wallet' ⟨-, hagrees⟩
    rw [hagrees.checkPassword_eq]
    exact .bind_eq (couples_lift _) fun _ => .pure rfl
  | unlock password =>
    exact .map (couples_unlock (hadmitted password rfl)) fun _ _ _ => rfl
  | lock =>
    have hlock : Couples path admitted Eq (update SoftWallet.lock) (update SoftWallet.lock) :=
      couples_update fun wallet wallet' hagrees => ⟨rfl, hagrees.reopened none⟩
    exact .map hlock fun _ _ _ => rfl
  | importKey key made => exact .map (couples_importKey key) fun _ _ => congrArg some
  | removeKey key => exact .map (couples_removeKey key) fun _ _ _ => rfl
  | createKey keyType => exact .map (couples_createKey keyType) fun _ _ => congrArg some
  | load => exact .map couples_load fun _ _ _ => rfl
  | save => exact .map couples_save fun _ _ _ => rfl

/-! ## Runs -/

/-- An operation that is tried some time later. -/
structure Later where
  step : Step
  /-- What others do to the disk before. -/
  meanwhile : Disk → Disk
  /-- The world of the operation, but for its disk. -/
  world : World

/-- Operations one after the other: their answers, and what becomes of the wallet and the disk. -/
def run (wallet : SoftWallet) (disk : Disk) :
    List Later → List (Except Error (Option PublicKey)) × SoftWallet × Disk
  | [] => ([], wallet, disk)
  | later :: rest =>
    let done := later.step.perform.outcome
      (wallet, { later.world with disk := later.meanwhile disk })
    let last := done.2.1.run done.2.2.disk rest
    (done.1 :: last.1, last.2)

/-- Others leave disks matching, as they do not look into the file at the path nor at the temporary
    one beside it. -/
def Later.Respects (path : Path) (later : Later) : Prop :=
  ∀ (R : Envelope → Envelope → Prop) (disk disk' : Disk), Envelope.Matching R path disk disk' →
    Envelope.Matching R path (later.meanwhile disk) (later.meanwhile disk')

/-- Wallets that agree give the same answers in every run, and agree after it. -/
theorem Agrees.run {laters : List Later} (h : wallet.Agrees admitted wallet') {disk disk' : Disk}
    (hdisk : Envelope.Matching (Envelope.Interchangeable admitted) wallet.path disk disk')
    (hmeanwhile : ∀ later ∈ laters, later.Respects wallet.path)
    (hadmitted : ∀ later ∈ laters, ∀ password,
      later.step = .unlock password → admitted password) :
    (wallet'.run disk' laters).1 = (wallet.run disk laters).1 ∧
      (wallet.run disk laters).2.1.Agrees admitted (wallet'.run disk' laters).2.1 := by
  generalize hpath : wallet.path = path at hdisk hmeanwhile
  induction laters generalizing wallet wallet' disk disk' with
  | nil => exact ⟨rfl, h⟩
  | cons later rest ih =>
    have hend := couples_step later.step (hadmitted _ List.mem_cons_self)
      (wallet, { later.world with disk := later.meanwhile disk })
      (wallet', { later.world with disk := later.meanwhile disk' })
      ⟨hpath, h, _, hmeanwhile _ List.mem_cons_self _ _ _ hdisk, rfl⟩
    obtain ⟨hpath', hagrees, last, hlast, hworld⟩ := hend.snd
    have hlast' : (later.step.perform.outcome
        (wallet', { later.world with disk := later.meanwhile disk' })).2.2.disk = last := by
      rw [hworld]
    obtain ⟨hanswers, hend'⟩ := ih hagrees
      (fun later hlater => hadmitted later (List.mem_cons_of_mem _ hlater)) hpath'
      (hlast' ▸ hlast) fun later hlater => hmeanwhile later (List.mem_cons_of_mem _ hlater)
    exact ⟨congrArg₂ List.cons hend.fst_eq hanswers, hend'⟩

end SoftWallet

end Custody
