import Custody.Proofs.Manager.Reachable

set_option autoImplicit false

/-! # Locked wallets

A registered soft wallet that is locked gives nothing away and stays locked, whatever commands are
given, until it is created anew or unlocked: `Manager.HoldsLocked.effect`. Locking everything brings
every soft wallet into this state, and a listing shows which wallets are not in it. -/

namespace Custody

/-- Whether a request gets anything out of a wallet, or changes what is in it. -/
def Request.discloses : Request → Bool
  | .isLocked _ | .lock | .unlock _ => false
  | _ => true

/-! ## Requests that give nothing away -/

/-- None of the requests gets anything out of the wallet. -/
def Discreet (name : WalletName) (trace : List Event) : Prop :=
  ∀ event ∈ trace, event.wallet = name → event.request.discloses = false

theorem Discreet.nil (name : WalletName) : Discreet name [] := by
  intro event hevent
  exact absurd hevent (by simp)

theorem Discreet.append {name : WalletName} {trace trace' : List Event} (h : Discreet name trace)
    (h' : Discreet name trace') : Discreet name (trace ++ trace') := by
  intro event hevent
  rcases List.mem_append.1 hevent with hmem | hmem
  · exact h event hmem
  · exact h' event hmem

theorem Discreet.of_ne {name other : WalletName} (hne : other ≠ name) (request : Request)
    (succeeded : Bool) : Discreet name [⟨other, request, succeeded⟩] := by
  intro event hevent hname
  rw [List.mem_singleton] at hevent
  subst hevent
  exact absurd hname hne

theorem Discreet.of_harmless {name other : WalletName} {request : Request}
    (hrequest : request.discloses = false) (succeeded : Bool) :
    Discreet name [⟨other, request, succeeded⟩] := by
  intro event hevent _
  rw [List.mem_singleton] at hevent
  subst hevent
  exact hrequest

namespace Manager

section Locked

variable {W : Type} [Backend W] (name : WalletName)

theorem discreet_lockEvents (entry : WalletName × W) : Discreet name (lockEvents entry) := by
  intro event hevent _
  unfold lockEvents at hevent
  rcases List.mem_cons.1 hevent with rfl | hlock
  · rfl
  · split at hlock
    · exact absurd hlock (by simp)
    · rw [List.mem_singleton] at hlock
      subst hlock
      rfl

theorem discreet_flatMap_lockEvents (entries : List (WalletName × W)) :
    Discreet name (entries.flatMap lockEvents) := by
  intro event hevent
  obtain ⟨entry, -, hmem⟩ := List.mem_flatMap.1 hevent
  exact discreet_lockEvents name entry event hmem

end Locked

end Manager

variable [Suite]

/-! ## A locked wallet stays locked -/

section Soft

variable {B : Type} [Backend B] {name : WalletName}

/-- The wallet of the name is a locked soft wallet. -/
def Manager.HoldsLocked (manager : Manager (SoftWallet ⊕ B)) (name : WalletName) : Prop :=
  manager.Distinct ∧ ∃ wallet : SoftWallet,
    (name, .inl wallet) ∈ manager.wallets ∧ wallet.session? = none

namespace Manager.HoldsLocked

variable {manager : Manager (SoftWallet ⊕ B)} {scene scene' : Scene (SoftWallet ⊕ B)}

theorem isLocked_inl (wallet : SoftWallet) :
    Backend.isLocked (.inl wallet : SoftWallet ⊕ B) = wallet.session?.isNone := rfl

/-- Whatever is registered under the name is locked. -/
theorem isLocked_of_mem (h : manager.HoldsLocked name) {wallet : SoftWallet ⊕ B}
    (hmem : (name, wallet) ∈ manager.wallets) : Backend.isLocked wallet = true := by
  obtain ⟨hdistinct, soft, hsoft, hlocked⟩ := h
  rw [hdistinct.eq_of_mem hmem hsoft, isLocked_inl, hlocked]
  rfl

theorem ne_of_isOpen (h : manager.HoldsLocked name) {text : String}
    {entry : WalletName × (SoftWallet ⊕ B)} (hopen : manager.IsOpen text entry) :
    entry.1 ≠ name := by
  rintro rfl
  have hlocked := h.isLocked_of_mem (mem_of_find?_eq_some hopen.1).1
  exact absurd hopen.2 (by simp [hlocked])

omit [Suite] [Backend B] in
theorem replace (h : manager.HoldsLocked name) {entry : WalletName × (SoftWallet ⊕ B)}
    (hentry : entry ∈ manager.wallets) (hne : entry.1 ≠ name) (wallet : SoftWallet ⊕ B) :
    (manager.replace entry.1 wallet).HoldsLocked name := by
  obtain ⟨hdistinct, soft, hsoft, hlocked⟩ := h
  refine ⟨hdistinct.replace, soft, ?_, hlocked⟩
  exact (mem_replace hentry name _).2 (.inr ⟨Ne.symm hne, hsoft⟩)

omit [Suite] [Backend B] in
theorem registered (h : manager.HoldsLocked name) {other : WalletName} (hne : other ≠ name)
    (wallet : SoftWallet ⊕ B) : (manager.registered other wallet).HoldsLocked name := by
  obtain ⟨hdistinct, soft, hsoft, hlocked⟩ := h
  refine ⟨hdistinct.registered, soft, ?_, hlocked⟩
  exact (mem_registered name _).2 (.inr ⟨Ne.symm hne, hsoft⟩)

/-- Locking all wallets locks the soft ones. -/
theorem lockedAll (hdistinct : scene.manager.Distinct) {wallet : SoftWallet}
    (hwallet : (name, .inl wallet) ∈ scene.manager.wallets) :
    scene.lockedAll.manager.HoldsLocked name := by
  refine ⟨Scene.distinct_lockedAll hdistinct, wallet.lock, ?_, rfl⟩
  rw [Scene.lockedAll_eq hdistinct]
  refine List.mem_map.2 ⟨_, hwallet, ?_⟩
  unfold Manager.locked
  split
  · rename_i hlocked
    rw [isLocked_inl, Option.isNone_iff_eq_none] at hlocked
    rw [SoftWallet.lock_eq_self hlocked]
  · rfl

theorem discreet_lockedAll (hdistinct : scene.manager.Distinct)
    (hdiscreet : Discreet name scene.trace) : Discreet name scene.lockedAll.trace := by
  rw [Scene.lockedAll_eq hdistinct]
  exact hdiscreet.append (discreet_flatMap_lockEvents name _)

theorem checked (h : scene.manager.HoldsLocked name) : scene.checked.manager.HoldsLocked name := by
  unfold Scene.checked
  dsimp only
  split
  · obtain ⟨hdistinct, wallet, hwallet, -⟩ := h
    exact lockedAll hdistinct hwallet
  · exact h

theorem discreet_checked (hdistinct : scene.manager.Distinct)
    (hdiscreet : Discreet name scene.trace) : Discreet name scene.checked.trace := by
  unfold Scene.checked
  dsimp only
  split
  · exact discreet_lockedAll hdistinct hdiscreet
  · exact hdiscreet

/-- A wallet that is opened is locked. -/
theorem opened (h : scene.manager.HoldsLocked name) {other : WalletName} {wallet : SoftWallet}
    (hopened : scene.Opened other wallet scene') : scene'.manager.HoldsLocked name := by
  rw [hopened.manager_eq]
  by_cases hname : other = name
  · subst hname
    obtain ⟨envelope, -, rfl⟩ := hopened.loaded
    exact ⟨h.1.registered, _, (mem_registered other _).2 (.inl ⟨rfl, rfl⟩), rfl⟩
  · exact h.registered hname _

/-- Looking around gets nothing out of a locked wallet. -/
theorem discreet_saw (h : scene.manager.HoldsLocked name) (hsaw : scene.Saw scene')
    (hdiscreet : Discreet name scene.trace) : Discreet name scene'.trace := by
  obtain ⟨events, htrace, hfits⟩ := hsaw.events
  rw [htrace]
  refine hdiscreet.append ?_
  rintro ⟨other, request, succeeded⟩ hevent rfl
  obtain ⟨wallet, hwallet, hrequest⟩ := hfits _ hevent
  have hlocked := h.isLocked_of_mem hwallet
  cases request with
  | isLocked answer => rfl
  | lock => rfl
  | unlock password => rfl
  | checkPassword password => exact absurd hrequest (by simp [hlocked])
  | listKeys => exact absurd hrequest (by simp [hlocked])
  | listPublicKeys => exact absurd hrequest (by simp [hlocked])
  | trySign digest key => exact absurd hrequest (by simp [hlocked])
  | _ => exact hrequest.elim

/-- A password that does not open a soft wallet leaves it as it is. -/
theorem unlock_inl_of_error {α : Type} {reply : Unit → α} {password : String} {soft : SoftWallet}
    {wallet : SoftWallet ⊕ B} {world world' : World} {error : Error}
    (hact : (reply <$> Backend.unlock password : Act Error ((SoftWallet ⊕ B) × World) α).outcome
      (.inl soft, world) = (.error error, wallet, world')) : wallet = .inl soft := by
  obtain ⟨answer, hdone, hanswer⟩ := Act.exists_of_outcome_map hact
  obtain rfl := Act.eq_error_of_map hanswer
  have hsoft := (SoftWallet.unlock_spec password soft world).eq_of_error (congrArg Prod.fst hdone)
  have hwallet : wallet = .inl ((SoftWallet.unlock password).outcome (soft, world)).2.1 :=
    (congrArg (·.2.1) hdone).symm
  rw [hwallet, hsoft]

/-- A locked wallet gives nothing away and stays locked, whatever the command, unless it is created
    or unlocked by it. -/
theorem effect {command : Command (SoftWallet ⊕ B)} {result : Except Error Reply}
    (h : scene.manager.HoldsLocked name) (heffect : Command.Effect command scene result scene')
    (hclosed : result.isOk = true → command ≠ .create name.text ∧
      ∀ password, command ≠ .unlock name.text password)
    (hdiscreet : Discreet name scene.trace) :
    scene'.manager.HoldsLocked name ∧ Discreet name scene'.trace := by
  have hdistinct' := heffect.distinct h.1
  cases heffect with
  | looked hsaw => exact ⟨hsaw.manager_eq ▸ h, h.discreet_saw hsaw hdiscreet⟩
  | @locked _ _ entry hopen =>
    refine ⟨?_, hdiscreet.append (discreet_lockEvents name entry)⟩
    have hne := h.ne_of_isOpen hopen
    have hentry := (mem_of_find?_eq_some hopen.1).1
    rcases scene.afterLocking_manager entry with heq | heq
    · exact heq ▸ h
    · exact heq ▸ h.replace hentry hne _
  | lockedAll =>
    obtain ⟨hdistinct, wallet, hwallet, -⟩ := h
    exact ⟨lockedAll hdistinct hwallet, discreet_lockedAll hdistinct hdiscreet⟩
  | changed hchanges hopen hsaw hworld hact =>
    have hne := h.ne_of_isOpen hopen
    have hentry := (mem_of_find?_eq_some hopen.1).1
    refine ⟨?_, (h.discreet_saw hsaw hdiscreet).append (Discreet.of_ne hne _ _)⟩
    show (Manager.replace _ _ _).HoldsLocked name
    rw [hsaw.manager_eq]
    exact h.replace hentry hne _
  | opened hopened =>
    exact ⟨h.opened hopened, hopened.trace_eq ▸ hdiscreet⟩
  | @unlocked _ scene₁ scene₂ text password entry _ wallet world hopened hsaw hfind hwas hact =>
    have hscene₁ : scene₁.manager.HoldsLocked name ∧ Discreet name scene₁.trace := by
      rcases hopened with rfl | ⟨_, _, -, hopened⟩
      · exact ⟨h, hdiscreet⟩
      · exact ⟨h.opened hopened, hopened.trace_eq ▸ hdiscreet⟩
    obtain ⟨h₁, hdiscreet₁⟩ := hscene₁
    obtain ⟨hentry, htext⟩ := mem_of_find?_eq_some hfind
    -- whether it succeeds or not, a request to unlock gives nothing of the wallet away
    refine ⟨?_, (h₁.discreet_saw hsaw hdiscreet₁).append (Discreet.of_harmless rfl _)⟩
    show (Manager.replace _ _ _).HoldsLocked name
    rw [hsaw.manager_eq]
    by_cases hname : entry.1 = name
    · subst hname htext
      cases result with
      | ok reply => exact absurd rfl ((hclosed rfl).2 password)
      | error error =>
        -- the entry asked is the soft wallet itself, as names are unique
        obtain ⟨hdistinct, soft, hsoft, hlocked⟩ := h₁
        obtain ⟨name, wallet₁⟩ := entry
        have hsame := hdistinct.eq_of_mem hentry hsoft
        subst hsame
        have hkept := unlock_inl_of_error hact
        exact ⟨hdistinct.replace, soft, (mem_replace hentry _ _).2 (.inl ⟨rfl, hkept.symm⟩),
          hlocked⟩
    · exact h₁.replace hentry hname _
  | unlockRefused hopened hsaw =>
    have h₁ := h.opened hopened
    exact ⟨hsaw.manager_eq ▸ h₁, h₁.discreet_saw hsaw (hopened.trace_eq ▸ hdiscreet)⟩
  | @created _ other password wallet world hprepared =>
    have hne : other ≠ name := by
      rintro rfl
      exact (hclosed rfl).1 rfl
    exact ⟨h.registered hne _, hdiscreet⟩
  -- an owned wallet gets a name of its own, and is put behind the others
  | owned howns hnew =>
    obtain ⟨hdistinct, soft, hsoft, hlocked⟩ := h
    exact ⟨⟨hdistinct', soft, List.mem_append_left _ hsoft, hlocked⟩, hdiscreet⟩
  | _ => exact ⟨h, hdiscreet⟩

end Manager.HoldsLocked

/-! ## Listings -/

namespace Manager

variable {manager : Manager (SoftWallet ⊕ B)}

/-- How a wallet that is locked or not stands in a listing. -/
def listed (standing : WalletName × Bool) : String :=
  if standing.2 then standing.1.text else standing.1.text ++ unlockedMark

omit [Suite] [Backend B] in
/-- A name has no space in it, so that no text can be read in two ways. -/
theorem listed_injective : Function.Injective listed := by
  have hmark : ∀ (name name' : WalletName), name.text ≠ name'.text ++ unlockedMark := by
    intro name name' htext
    refine name.space_notMem ?_
    rw [htext, String.toList_append]
    exact List.mem_append_right _ (by decide)
  rintro ⟨name, isLocked⟩ ⟨name', isLocked'⟩ h
  unfold listed at h
  cases isLocked with
  | true =>
    cases isLocked' with
    | true => exact Prod.ext (WalletName.eq_of_text_eq h) rfl
    | false => exact absurd h (hmark name name')
  | false =>
    cases isLocked' with
    | true => exact absurd h.symm (hmark name' name)
    | false =>
      have hlist := congrArg String.toList h
      simp only [Bool.false_eq_true, if_false, String.toList_append] at hlist
      have htext := String.toList_inj.1 (List.append_cancel_right hlist)
      exact Prod.ext (WalletName.eq_of_text_eq htext) rfl

omit [Suite] in
/-- Only an unlocked wallet is listed with the mark. -/
theorem eq_of_shown_eq {W : Type} [SoftBackend W] {entry : WalletName × W} {name : WalletName}
    (h : shown entry = name.text ++ unlockedMark) :
    entry.1 = name ∧ Backend.isLocked entry.2 = false := by
  have hlisted : listed (entry.1, Backend.isLocked entry.2) = listed (name, false) := h
  exact Prod.mk.inj (listed_injective hlisted)

/-- A soft wallet is listed with the mark exactly if it has a session. -/
theorem mark_mem_iff (hdistinct : manager.Distinct) {soft : SoftWallet}
    (hmem : (name, .inl soft) ∈ manager.wallets) :
    name.text ++ unlockedMark ∈ manager.wallets.map shown ↔ soft.session?.isSome = true := by
  constructor
  · intro hmark
    obtain ⟨⟨other, wallet⟩, hentry, hshown⟩ := List.mem_map.1 hmark
    obtain ⟨hname, hopen⟩ := eq_of_shown_eq hshown
    subst hname
    rw [hdistinct.eq_of_mem hentry hmem] at hopen
    cases hsession : soft.session? with
    | none => exact absurd hopen (by simp [HoldsLocked.isLocked_inl, hsession])
    | some session => rfl
  · intro hsession
    refine List.mem_map.2 ⟨_, hmem, ?_⟩
    unfold shown
    rw [if_neg]
    rw [HoldsLocked.isLocked_inl, Option.isNone_iff_eq_none]
    intro hnone
    rw [hnone] at hsession
    exact absurd hsession (by simp)

end Manager

end Soft

end Custody
