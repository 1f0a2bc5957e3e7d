import Custody.Proofs.Manager.Effect

set_option autoImplicit false

/-! # What is asked of wallets, and when

A manager asks a wallet for nothing that is meant for unlocked wallets unless the wallet has just
said that it is unlocked, and so on for every kind of request: `Command.Permits` are the rules.
`Manager.Asks` says that an operation keeps rules, together with what is known of the requests that
it has made by the time it answers; it is built up along the operation. Nothing is assumed of the
wallets, whatever they answer. -/

namespace Custody

variable [Suite] {W : Type}

/-! ## The rules -/

/-- Requests that leave the wallet as it is. -/
def Request.onlyReads : Request → Bool
  | .checkPassword _ | .listKeys | .listPublicKeys | .trySign _ _ => true
  | _ => false

/-- Requests that neither set a password nor have to do with the wallet's file. -/
def Request.sparesFile : Request → Bool
  | .setPassword _ | .load | .save => false
  | _ => true

/-- The wallet has just said that it is unlocked: since then nothing has been asked of any wallet,
    but this one may have been asked for what leaves it as it is. -/
def JustOpen (name : WalletName) (before : List Event) : Prop :=
  ∃ earlier since, before = earlier ++ ⟨name, .isLocked false, true⟩ :: since ∧
    ∀ event ∈ since, event.wallet = name ∧ event.request.onlyReads = true

omit [Suite] in
theorem JustOpen.of_getLast? {name : WalletName} {before : List Event}
    (h : before.getLast? = some ⟨name, .isLocked false, true⟩) : JustOpen name before := by
  obtain ⟨earlier, rfl⟩ := List.getLast?_eq_some_iff.1 h
  exact ⟨earlier, [], rfl, by simp⟩

omit [Suite] in
theorem JustOpen.snoc {name : WalletName} {before : List Event} {request : Request}
    (h : JustOpen name before) (hreads : request.onlyReads = true) (succeeded : Bool) :
    JustOpen name (before ++ [⟨name, request, succeeded⟩]) := by
  obtain ⟨earlier, since, rfl, hsince⟩ := h
  refine ⟨earlier, since ++ [⟨name, request, succeeded⟩], by simp, ?_⟩
  intro event hevent
  rcases List.mem_append.1 hevent with hmem | hmem
  · exact hsince event hmem
  · rw [List.mem_singleton] at hmem
    subst hmem
    exact ⟨rfl, hreads⟩

namespace Command

/-- The name of the wallet that the command is given. -/
def name? : Command W → Option String
  | .create name | .openWallet name | .own name _ | .lock name | .unlock name _ | .listKeys name _
  | .importKey name _ | .removeKey name _ _ | .createKey name _ => some name
  | _ => none

/-- The wallet is the one that the command names, if it names one. -/
def Concerns (command : Command W) (name : WalletName) : Prop :=
  ∀ text, command.name? = some text → name.text = text

/-- What a command may ask of a wallet, after what it has asked already. There is no rule under
    which it may set a password, load or save. -/
inductive Permits (command : Command W) (before : List Event) : WalletName → Request → Prop
  | isLocked {name : WalletName} {answer : Bool} (hconcerns : command.Concerns name) :
    Permits command before name (.isLocked answer)
  | lock {name : WalletName} (hconcerns : command.Concerns name)
    (hopen : before.getLast? = some ⟨name, .isLocked false, true⟩) :
    Permits command before name .lock
  | unlock {name : WalletName} {password : String}
    (hcommand : command = .unlock name.text password)
    (hlocked : before.getLast? = some ⟨name, .isLocked true, true⟩) :
    Permits command before name (.unlock password)
  | checkPassword {name : WalletName} {password : String} (hcommand :
      command = .listKeys name.text password ∨ ∃ key, command = .removeKey name.text password key)
    (hopen : JustOpen name before) : Permits command before name (.checkPassword password)
  | listKeys {name : WalletName} {password : String}
    (hcommand : command = .listKeys name.text password) (hopen : JustOpen name before)
    (hpassword : before.getLast? = some ⟨name, .checkPassword password, true⟩) :
    Permits command before name .listKeys
  | removeKey {name : WalletName} {password text : String} {key : PublicKey}
    (hcommand : command = .removeKey name.text password text) (hopen : JustOpen name before)
    (hpassword : before.getLast? = some ⟨name, .checkPassword password, true⟩)
    (hkey : PublicKey.ofText text = .ok key) : Permits command before name (.removeKey key)
  | importKey {name : WalletName} {text : String} {key : PrivateKey}
    (hcommand : command = .importKey name.text text) (hopen : JustOpen name before)
    (hkey : PrivateKey.ofText text = .ok key) : Permits command before name (.importKey key)
  | createKey {name : WalletName} {selector : String} {keyType : KeyType}
    (hcommand : command = .createKey name.text selector) (hopen : JustOpen name before)
    (hkeyType : Manager.selectKeyType selector = .ok keyType) :
    Permits command before name (.createKey keyType)
  | listPublicKeys {name : WalletName} (hconcerns : command.Concerns name)
    (hopen : JustOpen name before) : Permits command before name .listPublicKeys
  | trySign {name : WalletName} {digest : Digest} {key : PublicKey}
    (hconcerns : command.Concerns name) (hopen : JustOpen name before) :
    Permits command before name (.trySign digest key)

/-- No password is set, and no file is asked for. -/
theorem Permits.sparesFile {command : Command W} {before : List Event} {name : WalletName}
    {request : Request} (h : command.Permits before name request) : request.sparesFile = true := by
  cases h <;> rfl

/-- A command that names a wallet asks no other one. -/
theorem Permits.concerns {command : Command W} {before : List Event} {name : WalletName}
    {request : Request} (h : command.Permits before name request) : command.Concerns name := by
  cases h with
  | isLocked hconcerns => exact hconcerns
  | lock hconcerns => exact hconcerns
  | listPublicKeys hconcerns => exact hconcerns
  | trySign hconcerns => exact hconcerns
  | checkPassword hcommand =>
    rcases hcommand with rfl | ⟨key, rfl⟩ <;> exact fun _ hname => Option.some.inj hname
  | unlock hcommand | listKeys hcommand | removeKey hcommand | importKey hcommand
  | createKey hcommand =>
    subst hcommand
    exact fun _ hname => Option.some.inj hname

end Command

/-- Each of the events is permitted after those before it. -/
def Disciplined (permits : List Event → WalletName → Request → Prop) (before : List Event) :
    List Event → Prop
  | [] => True
  | event :: rest =>
    permits before event.wallet event.request ∧ Disciplined permits (before ++ [event]) rest

omit [Suite] in
theorem Disciplined.append {permits : List Event → WalletName → Request → Prop}
    {before events events' : List Event} (h : Disciplined permits before events)
    (h' : Disciplined permits (before ++ events) events') :
    Disciplined permits before (events ++ events') := by
  induction events generalizing before with
  | nil => simpa using h'
  | cons event rest ih =>
    refine ⟨h.1, ih h.2 ?_⟩
    simpa using h'

omit [Suite] in
/-- What the rules imply holds of every event. -/
theorem Disciplined.forall_mem {permits : List Event → WalletName → Request → Prop}
    {P : Event → Prop}
    (hrules : ∀ before event, permits before event.wallet event.request → P event)
    {before events : List Event} (h : Disciplined permits before events) :
    ∀ event ∈ events, P event := by
  induction events generalizing before with
  | nil => simp
  | cons event rest ih =>
    rw [List.forall_mem_cons]
    exact ⟨hrules before event h.1, ih h.2⟩

/-! ## Operations that keep the rules -/

namespace Manager

variable {α β : Type} {permits : List Event → WalletName → Request → Prop}
  {pre middle : List Event → Prop} {post : α → List Event → Prop}

/-- Once such requests have been made, the operation makes only permitted ones, and if it answers,
    the requests that have been made by then are as stated. -/
def Asks (permits : List Event → WalletName → Request → Prop) (pre : List Event → Prop)
    (x : Operation W α) (post : α → List Event → Prop) : Prop :=
  ∀ (scene : Scene W) (before : List Event), pre before → ∃ events,
    (x.outcome scene).2.trace = scene.trace ++ events ∧ Disciplined permits before events ∧
      ∀ a, (x.outcome scene).1 = .ok a → post a (before ++ events)

namespace Asks

omit [Suite]

/-- What asks nothing keeps every rule. -/
theorem of_trace_eq {x : Operation W α}
    (htrace : ∀ scene, (x.outcome scene).2.trace = scene.trace)
    (hpost : ∀ scene a before, (x.outcome scene).1 = .ok a → pre before → post a before) :
    Asks permits pre x post := by
  intro scene before hbefore
  refine ⟨[], by simp [htrace], trivial, ?_⟩
  intro a ha
  rw [List.append_nil]
  exact hpost scene a before ha hbefore

/-- A fact that is known beforehand may be used. -/
theorem assuming {fact : Prop} {x : Operation W α} (h : fact → Asks permits pre x post) :
    Asks permits (fun before => fact ∧ pre before) x post :=
  fun scene before hbefore => h hbefore.1 scene before hbefore.2

theorem pure {a : α} (hpost : ∀ before, pre before → post a before) :
    Asks permits pre (Pure.pure a : Operation W α) post := by
  refine of_trace_eq (fun _ => rfl) fun scene b before hb hbefore => ?_
  cases hb
  exact hpost before hbefore

theorem throw {error : Error} :
    Asks permits pre (MonadExcept.throw error : Operation W α) post :=
  of_trace_eq (fun _ => rfl) fun _ _ _ ha => absurd ha (by simp)

theorem throw_bind {error : Error} {f : α → Operation W β} {post : β → List Event → Prop} :
    Asks permits pre (MonadExcept.throw error >>= f) post :=
  of_trace_eq (fun _ => rfl) fun _ _ _ ha => absurd ha (by simp)

theorem bind {x : Operation W α} {f : α → Operation W β} {middle : α → List Event → Prop}
    {post : β → List Event → Prop} (hx : Asks permits pre x middle)
    (hf : ∀ a, Asks permits (middle a) (f a) post) : Asks permits pre (x >>= f) post := by
  intro scene before hbefore
  obtain ⟨events, htrace, hevents, hmiddle⟩ := hx scene before hbefore
  rw [Act.outcome_bind]
  rcases hdone : x.outcome scene with ⟨error | a, scene₁⟩
  · rw [hdone] at htrace
    exact ⟨events, htrace, hevents, by simp⟩
  · rw [hdone] at htrace hmiddle
    obtain ⟨events', htrace', hevents', hpost⟩ := hf a scene₁ _ (hmiddle a rfl)
    refine ⟨events ++ events', ?_, hevents.append hevents', ?_⟩
    · rw [htrace', htrace, List.append_assoc]
    · intro b hb
      rw [← List.append_assoc]
      exact hpost b hb

theorem mono {x : Operation W α} {pre' : List Event → Prop} {post' : α → List Event → Prop}
    (h : Asks permits pre x post) (hpre : ∀ before, pre' before → pre before)
    (hpost : ∀ a before, post a before → post' a before) : Asks permits pre' x post' := by
  intro scene before hbefore
  obtain ⟨events, htrace, hevents, hanswer⟩ := h scene before (hpre before hbefore)
  exact ⟨events, htrace, hevents, fun a ha => hpost a _ (hanswer a ha)⟩

/-- Only what the scene is like is read. -/
theorem get : Asks permits pre (MonadState.get : Operation W (Scene W)) fun _ => pre :=
  of_trace_eq (fun _ => rfl) fun _ _ _ _ => id

theorem update (f : Manager W → Manager W) :
    Asks permits pre (Manager.update f) fun _ => pre :=
  of_trace_eq (fun _ => rfl) fun _ _ _ _ => id

theorem onWorld (act : Act Error World α) :
    Asks permits pre (Manager.onWorld act : Operation W α) fun _ => pre :=
  of_trace_eq (fun _ => rfl) fun _ _ _ _ => id

theorem ofExcept {result : Except Error α} :
    Asks permits pre (Act.ofExcept result : Operation W α) fun a before =>
      result = .ok a ∧ pre before :=
  of_trace_eq (fun _ => rfl) fun _ _ _ ha hbefore => ⟨ha, hbefore⟩

/-- One more request is made. -/
theorem of_noted {x : Operation W α} {name : WalletName} {request : Request}
    (succeeded : Scene W → Bool) (htrace : ∀ scene, (x.outcome scene).2.trace =
      scene.trace ++ [⟨name, request, succeeded scene⟩])
    (hpermits : ∀ before, pre before → permits before name request)
    (hpost : ∀ scene a before, (x.outcome scene).1 = .ok a → pre before →
      post a (before ++ [⟨name, request, succeeded scene⟩])) : Asks permits pre x post := by
  intro scene before hbefore
  exact ⟨_, htrace scene, ⟨hpermits before hbefore, trivial⟩,
    fun a ha => hpost scene a before ha hbefore⟩

end Asks

/-- After the look at the timeout, the operation keeps the rules for the command. -/
def AsksOnceChecked [Backend W] (command : Command W) (x : Operation W α) : Prop :=
  ∀ scene : Scene W, ∃ events, (x.outcome scene).2.trace = scene.checked.trace ++ events ∧
    Disciplined command.Permits [] events

theorem AsksOnceChecked.of_asks [Backend W] {command : Command W} {f : Unit → Operation W α}
    (h : Asks command.Permits (fun _ => True) (f ()) fun _ _ => True) :
    AsksOnceChecked command (checkTimeout >>= f) := by
  intro scene
  obtain ⟨events, htrace, hevents, -⟩ := h scene.checked [] trivial
  rw [outcome_checkTimeout_bind]
  exact ⟨events, htrace, hevents⟩

/-! ### Single requests -/

variable {command : Command W} {entry : WalletName × W}

section

omit [Suite]

theorem asks_ask {request : Request} {answer : Except Error α}
    (hpermits : ∀ before, pre before → permits before entry.1 request) :
    Asks permits pre (ask entry request answer) fun _ before =>
      ∃ earlier, pre earlier ∧ before = earlier ++ [⟨entry.1, request, true⟩] := by
  refine .of_noted _ (fun _ => by rw [outcome_ask]; rfl) hpermits ?_
  intro scene a before ha hbefore
  rw [outcome_ask] at ha
  obtain rfl : answer = .ok a := ha
  exact ⟨before, hbefore, rfl⟩

theorem asks_request {request : Request} {act : Act Error (W × World) α}
    (hpermits : ∀ before, pre before → permits before entry.1 request) :
    Asks permits pre (Manager.request entry request act) fun _ _ => True :=
  .of_noted _ (fun _ => by rw [outcome_request]; rfl) hpermits fun _ _ _ _ _ => trivial

theorem asks_wallet (text : String) :
    Asks permits pre (wallet text : Operation W (WalletName × W)) fun entry before =>
      entry.1.text = text ∧ pre before := by
  refine .of_trace_eq ?_ ?_
  · intro scene
    rw [outcome_wallet]
    cases scene.manager.find? text <;> rfl
  · intro scene entry before hentry hbefore
    rw [outcome_wallet] at hentry
    cases hfind : scene.manager.find? text with
    | none =>
      rw [hfind] at hentry
      exact absurd hentry (by simp)
    | some found =>
      rw [hfind] at hentry
      cases hentry
      exact ⟨(mem_of_find?_eq_some hfind).2, hbefore⟩

end

/-- A request that leaves the wallet as it is leaves it open. -/
theorem asks_reading {request : Request} {answer : Except Error α}
    (hreads : request.onlyReads = true)
    (hpermits : ∀ before, JustOpen entry.1 before → command.Permits before entry.1 request) :
    Asks command.Permits (JustOpen entry.1) (ask entry request answer) fun _ before =>
      JustOpen entry.1 before ∧ before.getLast? = some ⟨entry.1, request, true⟩ := by
  refine (asks_ask hpermits).mono (fun _ => id) ?_
  rintro _ _ ⟨earlier, hopen, rfl⟩
  exact ⟨hopen.snoc hreads true, by simp⟩

variable [Backend W]

theorem asks_askSignature {digest : Digest} {key : PublicKey}
    (hconcerns : command.Concerns entry.1) :
    Asks command.Permits (JustOpen entry.1) (askSignature entry digest key) fun _ before =>
      JustOpen entry.1 before := by
  refine .bind (.onWorld _) fun answer => ?_
  exact (asks_reading rfl fun _ => .trySign hconcerns).mono (fun _ => id) fun _ _ h => h.1

theorem asks_askLocked (hconcerns : command.Concerns entry.1) :
    Asks command.Permits pre (askLocked entry) fun answer before =>
      before.getLast? = some ⟨entry.1, .isLocked answer, true⟩ := by
  refine .of_noted (fun _ => true) (fun _ => rfl) (fun _ _ => .isLocked hconcerns) ?_
  intro scene answer before hanswer _
  cases hanswer
  simp

omit [Suite] [Backend W] in
/-- The wallet under the name of a command is the one that the command concerns. -/
theorem concerns_of_text {text : String} (hname : command.name? = some text)
    (htext : entry.1.text = text) : command.Concerns entry.1 := by
  intro other hother
  rw [hname] at hother
  cases hother
  exact htext

omit [Suite] [Backend W] in
/-- A command that names no wallet may concern any. -/
theorem concerns_of_none {name : WalletName} (hname : command.name? = none) :
    command.Concerns name := by
  intro text htext
  rw [hname] at htext
  exact absurd htext (by simp)

/-- A command that begins with an unlocked wallet goes on with the wallet that it names, which has
    just said that it is unlocked. -/
theorem asks_unlockedWallet_bind {text : String} {f : WalletName × W → Operation W α}
    (hname : command.name? = some text)
    (hf : ∀ entry, entry.1.text = text → Asks command.Permits (JustOpen entry.1) (f entry) post) :
    Asks command.Permits pre (unlockedWallet text >>= f) post := by
  unfold unlockedWallet
  rw [bind_assoc]
  refine .bind (asks_wallet text) fun entry => .assuming fun htext => ?_
  rw [bind_assoc]
  refine .bind (asks_askLocked (concerns_of_text hname htext)) fun answer => ?_
  cases answer with
  | true => exact .throw_bind
  | false => exact (hf entry htext).mono (fun _ hlast => .of_getLast? hlast) fun _ _ => id

/-! ### Operations with one wallet -/

theorem asks_listKeys (text password : String) :
    AsksOnceChecked (.listKeys text password) (listKeys text password : Operation W KeyMap) := by
  refine .of_asks (asks_unlockedWallet_bind rfl fun entry htext => ?_)
  subst htext
  refine .bind (asks_reading rfl fun before => .checkPassword (.inl rfl)) fun _ => ?_
  refine (asks_ask fun before hbefore => ?_).mono (fun _ => id) fun _ _ _ => trivial
  exact .listKeys rfl hbefore.1 hbefore.2

theorem asks_importKey (text key : String) :
    AsksOnceChecked (.importKey text key) (importKey text key : Operation W PublicKey) := by
  refine .of_asks (asks_unlockedWallet_bind rfl fun entry htext => ?_)
  subst htext
  refine .bind .ofExcept fun key' => asks_request fun before hbefore => ?_
  exact .importKey rfl hbefore.2 (Act.eq_ok_of_mapError hbefore.1)

theorem asks_removeKey (text password key : String) :
    AsksOnceChecked (.removeKey text password key)
      (removeKey text password key : Operation W Unit) := by
  refine .of_asks (asks_unlockedWallet_bind rfl fun entry htext => ?_)
  subst htext
  refine .bind (asks_reading rfl fun before => .checkPassword (.inr ⟨key, rfl⟩)) fun _ => ?_
  refine .bind .ofExcept fun key' => asks_request fun before hbefore => ?_
  exact .removeKey rfl hbefore.2.1 hbefore.2.2 (Act.eq_ok_of_mapError hbefore.1)

theorem asks_createKey (text selector : String) :
    AsksOnceChecked (.createKey text selector)
      (createKey text selector : Operation W PublicKey) := by
  refine .of_asks (asks_unlockedWallet_bind rfl fun entry htext => ?_)
  subst htext
  refine .bind .ofExcept fun keyType => asks_request fun before hbefore => ?_
  exact .createKey rfl hbefore.2 hbefore.1

theorem asks_lockEntry (hconcerns : command.Concerns entry.1) :
    Asks command.Permits pre (lockEntry entry) fun _ _ => True := by
  refine .bind (asks_askLocked hconcerns) fun answer => ?_
  cases answer with
  | true => exact .pure fun _ _ => trivial
  | false =>
    refine .bind (.update _) fun _ => ?_
    refine .of_noted (fun _ => true) (fun _ => rfl) (fun before hlast => ?_)
      fun _ _ _ _ _ => trivial
    exact .lock hconcerns hlast

/-! ### Operations with all wallets -/

section All

variable (hconcerns : ∀ name, command.Concerns name)

include hconcerns in
theorem asks_publicKeysOf (entries : List (WalletName × W)) (found : Option KeySet) :
    Asks command.Permits (fun _ => True) (publicKeysOf entries found) fun _ _ => True := by
  induction entries generalizing found with
  | nil => exact .pure fun _ _ => trivial
  | cons entry rest ih =>
    refine .bind (asks_askLocked (hconcerns entry.1)) fun answer => ?_
    cases answer with
    | true => exact (ih found).mono (fun _ _ => trivial) fun _ _ => id
    | false =>
      refine .bind ((asks_reading rfl fun _ => .listPublicKeys (hconcerns entry.1)).mono
        (fun _ hlast => .of_getLast? hlast) fun _ _ _ => trivial) fun keys => ?_
      exact ih _

include hconcerns in
theorem asks_signaturesFor (digest : Digest) (keys : List PublicKey) (found : SignatureSet) :
    Asks command.Permits (JustOpen entry.1) (signaturesFor entry digest keys found)
      fun _ _ => True := by
  induction keys generalizing found with
  | nil => exact .pure fun _ _ => trivial
  | cons key rest ih =>
    refine .bind (asks_askSignature (hconcerns entry.1)) fun answer => ?_
    cases answer with
    | some signature => exact ih _
    | none => exact ih _

include hconcerns in
theorem asks_signaturesOf (digest : Digest) (entries : List (WalletName × W))
    (found : Option SignatureSet) :
    Asks command.Permits (fun _ => True) (signaturesOf digest entries found) fun _ _ => True := by
  induction entries generalizing found with
  | nil => exact .pure fun _ _ => trivial
  | cons entry rest ih =>
    refine .bind (asks_askLocked (hconcerns entry.1)) fun answer => ?_
    cases answer with
    | true => exact (ih found).mono (fun _ _ => trivial) fun _ _ => id
    | false =>
      refine .bind ((asks_reading rfl fun _ => .listPublicKeys (hconcerns entry.1)).mono
        (fun _ hlast => .of_getLast? hlast) fun _ _ h => h.1) fun keys => ?_
      exact .bind (asks_signaturesFor hconcerns digest _ _) fun signatures => ih _

include hconcerns in
theorem asks_firstSignature (digest : Digest) (key : PublicKey)
    (entries : List (WalletName × W)) :
    Asks command.Permits (fun _ => True) (firstSignature digest key entries) fun _ _ => True := by
  induction entries with
  | nil => exact .pure fun _ _ => trivial
  | cons entry rest ih =>
    refine .bind (asks_askLocked (hconcerns entry.1)) fun answer => ?_
    cases answer with
    | true => exact ih.mono (fun _ _ => trivial) fun _ _ => id
    | false =>
      refine .bind ((asks_askSignature (hconcerns entry.1)).mono
        (fun _ hlast => .of_getLast? hlast) fun _ _ => id) fun answer => ?_
      cases answer with
      | some signature => exact .pure fun _ _ => trivial
      | none => exact ih.mono (fun _ _ => trivial) fun _ _ => id

include hconcerns in
theorem asks_signatureOf (digest : Digest) (key : PublicKey) :
    Asks command.Permits (fun _ => True) (signatureOf digest key : Operation W Signature)
      fun _ _ => True := by
  refine .bind .get fun scene => ?_
  refine .bind (asks_firstSignature hconcerns digest key _) fun answer => ?_
  cases answer with
  | some signature => exact .pure fun _ _ => trivial
  | none => exact .throw

omit [Suite] [Backend W] in
/-- An operation for each member of a list. -/
theorem Asks.mapM {f : α → Operation W β} {permits : List Event → WalletName → Request → Prop}
    (hf : ∀ a, Asks permits (fun _ => True) (f a) fun _ _ => True) (as : List α) :
    Asks permits (fun _ => True) (as.mapM f) fun _ _ => True := by
  induction as with
  | nil => exact .pure fun _ _ => trivial
  | cons a rest ih =>
    rw [List.mapM_cons]
    exact .bind (hf a) fun _ => .bind ih fun _ => .pure fun _ _ => trivial

end All

theorem asks_publicKeys : AsksOnceChecked .publicKeys (publicKeys : Operation W KeySet) := by
  refine .of_asks (.bind .get fun scene => ?_)
  dsimp only
  split
  · exact .throw
  · refine .bind (asks_publicKeysOf (fun _ => concerns_of_none rfl) _ _) fun found => ?_
    cases found with
    | some keys => exact .pure fun _ _ => trivial
    | none => exact .throw

theorem asks_mySignatures (chain : ChainId) :
    AsksOnceChecked (.mySignatures chain) (mySignatures chain : Operation W SignatureSet) := by
  refine .of_asks (.bind .get fun scene => ?_)
  dsimp only
  split
  · exact .throw
  · refine .bind (asks_signaturesOf (fun _ => concerns_of_none rfl) _ _ _) fun found => ?_
    cases found with
    | some signatures => exact .pure fun _ _ => trivial
    | none => exact .throw

theorem asks_signDigest (digest : Digest) (key : PublicKey) :
    AsksOnceChecked (.signDigest digest key) (signDigest digest key : Operation W Signature) :=
  .of_asks (asks_signatureOf (fun _ => concerns_of_none rfl) digest key)

theorem asks_signTransaction (tx : SignedTransaction) (keys : KeySet) (chain : ChainId) :
    AsksOnceChecked (.signTransaction tx keys chain)
      (signTransaction tx keys chain : Operation W SignedTransaction) := by
  refine .of_asks (.bind (.mapM (fun key => ?_) _) fun _ => .pure fun _ _ => trivial)
  exact asks_signatureOf (fun _ => concerns_of_none rfl) _ key

/-! ### Operations on the registry -/

section Registry

variable {W : Type} [SoftBackend W]

theorem asks_lock (text : String) :
    AsksOnceChecked (.lock text) (lock text : Operation W Unit) := by
  refine .of_asks (.bind (asks_wallet text) fun entry => .assuming fun htext => ?_)
  exact asks_lockEntry (concerns_of_text rfl htext)

theorem asks_listWallets :
    AsksOnceChecked .listWallets (listWallets : Operation W (List String)) := by
  refine .of_asks (.bind .get fun scene => ?_)
  induction scene.manager.wallets with
  | nil => exact .pure fun _ _ => trivial
  | cons entry rest ih =>
    refine .bind (asks_askLocked (concerns_of_none rfl)) fun _ => ?_
    exact .bind (ih.mono (fun _ _ => trivial) fun _ _ => id) fun _ => .pure fun _ _ => trivial

omit [Suite] in
/-- A wallet that is opened is asked for nothing once it is in the registry. -/
theorem asks_openFile {permits : List Event → WalletName → Request → Prop}
    {pre : List Event → Prop} (text : String) :
    Asks permits pre (openFile text : Operation W Unit) fun _ => pre := by
  refine .bind .ofExcept fun name => .assuming fun _ => .bind .get fun scene => ?_
  dsimp only
  refine .bind (.of_trace_eq (fun _ => rfl) fun _ _ _ _ => id) fun opened => ?_
  cases opened with
  | ok wallet => exact .update _
  | error error => exact .throw

theorem asks_create (text : String) :
    AsksOnceChecked (.create text) (create text : Operation W String) := by
  refine .of_asks (.bind .ofExcept fun name => .bind .get fun scene => ?_)
  refine .bind (.onWorld _) fun exists? => ?_
  split
  · exact .throw_bind
  · refine .bind (.onWorld _) fun password => .bind (.onWorld _) fun wallet => ?_
    exact .bind (.update _) fun _ => .pure fun _ _ => trivial

theorem asks_unlock (text password : String) :
    AsksOnceChecked (.unlock text password) (unlock text password : Operation W Unit) := by
  have hfound : Asks (Command.unlock text password : Command W).Permits (fun _ => True)
      (unlockRegistered text password : Operation W Unit) fun _ _ => True := by
    refine .bind (asks_wallet text) fun entry => .assuming fun htext => ?_
    refine .bind (asks_askLocked (concerns_of_text rfl htext)) fun answer => ?_
    cases answer with
    | false => exact .throw_bind
    | true =>
      subst htext
      exact asks_request fun before hlast => .unlock rfl hlast
  refine .of_asks (.bind .get fun scene => ?_)
  dsimp only
  split
  · exact .bind (asks_openFile text) fun _ => hfound
  · exact hfound

end Registry

end Manager

end Custody
