import Custody.Proofs.Manager.Registry

set_option autoImplicit false

/-! # Questions for signatures

A manager that signs asks unlocked wallets for signatures of one digest, one question after the
other. Wallets may answer anything, and their answers may depend on what they draw from the random
source, so what happened is told by the list of the questions with their answers:
`Scene.Consulted` says that exactly these were asked, and that the wallets gave these answers. -/

namespace Custody

variable {W : Type}

/-- A question for a signature: which wallet was asked, under which key, and what it answered. -/
structure Question (W : Type) where
  entry : WalletName × W
  key : PublicKey
  answer : Except Error (Option Signature)

/-- The request that is on record for the question. -/
def Question.event (digest : Digest) (question : Question W) : Event :=
  ⟨question.entry.1, .trySign digest question.key, question.answer.isOk⟩

/-- What was asked: the wallet for a signature under the key. -/
def Question.asked (question : Question W) : (WalletName × W) × PublicKey :=
  (question.entry, question.key)

variable [Backend W]

/-- The answers are what the wallets answer, each of them drawing from the random source as the ones
    before have left it. -/
inductive Answered (digest : Digest) : List (Question W) → Entropy → Entropy → Prop
  | nil {entropy : Entropy} : Answered digest [] entropy entropy
  | cons {entry : WalletName × W} {key : PublicKey} {answer : Except Error (Option Signature)}
      {questions : List (Question W)} {entropy entropy₁ entropy₂ : Entropy}
      (hanswer : (Backend.trySign entry.2 digest key).run entropy = (answer, entropy₁))
      (hrest : Answered digest questions entropy₁ entropy₂) :
      Answered digest (⟨entry, key, answer⟩ :: questions) entropy entropy₂

theorem Answered.append {digest : Digest} {questions questions' : List (Question W)}
    {entropy entropy₁ entropy₂ : Entropy} (h : Answered digest questions entropy entropy₁)
    (h' : Answered digest questions' entropy₁ entropy₂) :
    Answered digest (questions ++ questions') entropy entropy₂ := by
  induction h with
  | nil => exact h'
  | cons hanswer _ ih => exact .cons hanswer (ih h')

/-- Every answer is one that the wallet gives for some state of the random source. -/
theorem Answered.exists_run {digest : Digest} {questions : List (Question W)}
    {entropy entropy' : Entropy} (h : Answered digest questions entropy entropy')
    {question : Question W} (hquestion : question ∈ questions) :
    ∃ entropy, ((Backend.trySign question.entry.2 digest question.key).run entropy).1 =
      question.answer := by
  induction h with
  | nil => exact absurd hquestion List.not_mem_nil
  | cons hanswer _ ih =>
    rcases List.mem_cons.1 hquestion with rfl | hrest
    · exact ⟨_, congrArg Prod.fst hanswer⟩
    · exact ih hrest

/-- The second scene comes from the first by asking these questions for signatures of the digest, in
    this order and no others: the manager stays as it is, and of the world only the random source
    moves on. -/
structure Scene.Consulted (digest : Digest) (questions : List (Question W))
    (scene scene' : Scene W) : Prop where
  manager_eq : scene'.manager = scene.manager
  world : ∃ entropy, scene'.world = { scene.world with entropy } ∧
    Answered digest questions scene.world.entropy entropy
  trace : ∃ events, scene'.trace = scene.trace ++ events ∧
    events.filter (fun event => event.request.kind = .trySign) =
      questions.map (Question.event digest)

namespace Scene.Consulted

variable {digest : Digest} {questions questions' : List (Question W)}
  {scene scene₁ scene₂ : Scene W}

theorem refl (digest : Digest) (scene : Scene W) : scene.Consulted digest [] scene :=
  ⟨rfl, ⟨_, rfl, .nil⟩, [], by simp, rfl⟩

theorem trans (h : scene.Consulted digest questions scene₁)
    (h' : scene₁.Consulted digest questions' scene₂) :
    scene.Consulted digest (questions ++ questions') scene₂ := by
  obtain ⟨entropy, hworld, hanswered⟩ := h.world
  obtain ⟨entropy', hworld', hanswered'⟩ := h'.world
  obtain ⟨events, htrace, hasked⟩ := h.trace
  obtain ⟨events', htrace', hasked'⟩ := h'.trace
  refine ⟨h'.manager_eq.trans h.manager_eq, ⟨entropy', ?_, ?_⟩, events ++ events', ?_, ?_⟩
  · rw [hworld', hworld]
  · rw [hworld] at hanswered'
    exact hanswered.append hanswered'
  · rw [htrace', htrace, List.append_assoc]
  · rw [List.filter_append, List.map_append, hasked, hasked']

/-- Any other request is no question. -/
theorem noted {name : WalletName} {request : Request} {succeeded : Bool}
    (h : request.kind ≠ .trySign) :
    scene.Consulted digest [] (scene.noted name request succeeded) := by
  refine ⟨rfl, ⟨_, rfl, .nil⟩, [⟨name, request, succeeded⟩], rfl, ?_⟩
  simp [h]

end Scene.Consulted

/-- To ask a wallet for a signature is one question, and its answer is passed on. -/
theorem Manager.consulted_askSignature (entry : WalletName × W) (digest : Digest)
    (key : PublicKey) (scene : Scene W) :
    ∃ answer scene', (askSignature entry digest key).outcome scene = (answer, scene') ∧
      scene.Consulted digest [⟨entry, key, answer⟩] scene' := by
  rcases hdraw : (Backend.trySign entry.2 digest key).run scene.world.entropy with ⟨answer, entropy⟩
  refine ⟨answer, Scene.noted { scene with world := { scene.world with entropy } } entry.1
    (.trySign digest key) answer.isOk, ?_, rfl, ⟨entropy, rfl, .cons hdraw .nil⟩, _, rfl, rfl⟩
  unfold askSignature
  rw [Act.outcome_bind, outcome_onWorld, World.outcome_drawing, hdraw]
  exact outcome_ask entry (.trySign digest key) answer _

/-! ## Unlocked wallets -/

namespace Manager

variable {entry : WalletName × W} {entries : List (WalletName × W)}

/-- The unlocked wallets among some entries, in their order. -/
def unlocked (entries : List (WalletName × W)) : List (WalletName × W) :=
  entries.filter fun entry => !Backend.isLocked entry.2

theorem unlocked_cons_of_locked (h : Backend.isLocked entry.2 = true) :
    unlocked (entry :: entries) = unlocked entries :=
  List.filter_cons_of_neg (by simp [h])

theorem unlocked_cons_of_open (h : Backend.isLocked entry.2 = false) :
    unlocked (entry :: entries) = entry :: unlocked entries :=
  List.filter_cons_of_pos (by simp [h])

theorem mem_unlocked :
    entry ∈ unlocked entries ↔ entry ∈ entries ∧ Backend.isLocked entry.2 = false := by
  unfold unlocked
  rw [List.mem_filter, Bool.not_eq_true']

/-- No wallet is unlocked exactly if all of them are locked. -/
theorem unlocked_eq_nil_iff :
    unlocked entries = [] ↔ ∀ entry ∈ entries, Backend.isLocked entry.2 = true := by
  unfold unlocked
  rw [List.filter_eq_nil_iff]
  simp

end Manager

end Custody
