import Custody.Proofs.Manager.Effect
import Custody.Proofs.Manager.Reachable
import Custody.Proofs.Timeout
import Mathlib.Data.List.Induction

set_option autoImplicit false

/-! # What becomes of a window

A window can be set, checked, asked for its remaining time and removed, at any instants and in any
order. Whatever has been done to it before, each of these does what exact arithmetic says
(`UnlockTimeout.ExactAt`), and a window whose new end could not be represented stays as it was, which
neither lengthens it nor removes it. `UnlockTimeout.exact_after_moves` says so of every history; what
carries it is that a window is always as long as it was last set to be, that this is a step, and that
its end is in the range of time (`UnlockTimeout.Follows`).

A window has run out when nothing remains of it, except around a leap second that ends a day, which
the remaining time misses (`UnlockTimeout.not_check_iff_remaining`). -/

namespace Custody

namespace UnlockTimeout

/-! ## Moves -/

/-- What can be done to a window, and when. -/
inductive Move where
  | set (duration : Duration) (now : Instant)
  | check (now : Instant)
  | remaining (now : Instant)
  | disable

/-- The window after a move. One that cannot be opened leaves the window as it was. -/
def move (timeout : UnlockTimeout) : Move → UnlockTimeout
  | .set duration now => (set? duration now).getD timeout
  | .check now => (timeout.check now).2
  | .remaining _ => timeout
  | .disable => timeout.disable

/-- The window after a series of moves. -/
def moves (timeout : UnlockTimeout) (history : List Move) : UnlockTimeout := history.foldl move timeout

/-- When the move is made, if that matters. -/
def Move.time? : Move → Option Instant
  | .set _ now | .check now | .remaining now => some now
  | .disable => none

/-- All moves are made within the range of time. -/
def InTime (history : List Move) : Prop := ∀ m ∈ history, ∀ now ∈ m.time?, now.InRange

instance (history : List Move) : Decidable (InTime history) :=
  inferInstanceAs (Decidable (∀ m ∈ history, ∀ now ∈ m.time?, now.InRange))

/-- The move opens a window of some length. -/
def Move.Sets (m : Move) (d : Duration) : Prop :=
  ∃ now, m = .set d now ∧ (set? d now).isSome = true

/-- The move neither opens a window of a new length nor removes one. -/
def Move.Quiet (m : Move) : Prop := m ≠ .disable ∧ ∀ d, ¬ m.Sets d

/-- The last move that set the window made it this long, and it has not been removed since. -/
def LastSet (history : List Move) (d : Duration) : Prop :=
  ∃ before m after, history = before ++ m :: after ∧ m.Sets d ∧ ∀ later ∈ after, later.Quiet

variable {timeout : UnlockTimeout} {history : List Move} {m : Move} {d d' : Duration}
  {now expiry : Instant}

theorem Move.Sets.unique (h : m.Sets d) (h' : m.Sets d') : d = d' := by
  obtain ⟨now, rfl, -⟩ := h
  obtain ⟨now', heq, -⟩ := h'
  cases heq
  rfl

theorem not_lastSet_nil : ¬ LastSet [] d := by
  rintro ⟨before, m, after, h, -⟩
  simp at h

/-- One more move either sets the window, or leaves it to the moves before. -/
theorem lastSet_concat : LastSet (history ++ [m]) d ↔ m.Sets d ∨ (m.Quiet ∧ LastSet history d) := by
  constructor
  · rintro ⟨before, m', after, heq, hsets, hquiet⟩
    rcases List.eq_nil_or_concat after with rfl | ⟨after, last, rfl⟩
    · obtain ⟨-, hm⟩ := List.append_inj' heq rfl
      obtain rfl : m = m' := List.singleton_inj.1 hm
      exact .inl hsets
    · rw [List.concat_eq_append] at heq hquiet
      rw [← List.cons_append, ← List.append_assoc] at heq
      obtain ⟨rfl, hm⟩ := List.append_inj' heq rfl
      obtain rfl : m = last := List.singleton_inj.1 hm
      exact .inr ⟨hquiet m (by simp), before, m', after, rfl, hsets,
        fun later hlater => hquiet later (List.mem_append_left _ hlater)⟩
  · rintro (hsets | ⟨hm, before, m', after, rfl, hsets, hquiet⟩)
    · exact ⟨history, m, [], rfl, hsets, by simp⟩
    · refine ⟨before, m', after ++ [m], by simp, hsets, ?_⟩
      intro later hlater
      rcases List.mem_append.1 hlater with hlater | hlater
      · exact hquiet later hlater
      · rw [List.mem_singleton.1 hlater]
        exact hm

/-! ## One move in exact arithmetic -/

/-- A window can be opened exactly if its length is a step, and its end can be represented and lies
    after the first second of 1970. -/
theorem set?_eq (d : Duration) (now : Instant) : set? d now =
    if d.isStep = true ∧ (now.plus d).isRepresentable = true ∧ 1 ≤ (now.plus d).seconds then
      some ⟨d, some (now.plus d)⟩
    else none := by
  have hlater := Instant.isAtMost_plus now d
  unfold set?
  rw [Instant.add?_eq]
  by_cases hstep : d.isStep = true <;>
    by_cases hrange : (now.plus d).isRepresentable = true <;>
      simp [hstep, hrange, hlater, Int.lt_iff_add_one_le]

theorem isSome_set?_iff : (set? d now).isSome = true ↔ d.toNanos ≤ 9223372036854775807 * 1000000 ∧
    (now.plus d).isRepresentable = true ∧ 1 ≤ (now.plus d).seconds := by
  rw [set?_eq, ← Duration.isStep_iff, Option.isSome_ite]

theorem move_set_of_isSome (h : (set? d now).isSome = true) :
    timeout.move (.set d now) = ⟨d, some (now.plus d)⟩ := by
  show (set? d now).getD timeout = _
  rw [isSome_set?_iff, ← Duration.isStep_iff] at h
  rw [set?_eq, if_pos h, Option.getD_some]

theorem move_set_of_isNone (h : (set? d now).isSome = false) :
    timeout.move (.set d now) = timeout := by
  show (set? d now).getD timeout = _
  rw [Option.isSome_eq_false_iff, Option.isNone_iff_eq_none] at h
  rw [h, Option.getD_none]

/-- A look at a window moves its end only if the new one can be represented. -/
theorem move_check (hstep : d.isStep = true) :
    (⟨d, some expiry⟩ : UnlockTimeout).move (.check now) =
      ⟨d, some (if (now.plus d).isRepresentable = true then now.plus d else expiry)⟩ := by
  show (check _ now).2 = _
  unfold check
  rw [Instant.add?_eq]
  by_cases hrange : (now.plus d).isRepresentable = true <;> simp [hstep, hrange]

theorem move_check_of_disabled (h : timeout.isEnabled = false) :
    timeout.move (.check now) = timeout := by
  show (timeout.check now).2 = timeout
  rw [check_of_disabled h]

theorem exists_of_duration? (h : timeout.duration? = some d) :
    ∃ expiry, timeout = ⟨d, some expiry⟩ := by
  obtain ⟨duration, expiresAt⟩ := timeout
  obtain ⟨expiry, rfl, rfl⟩ := Option.map_eq_some_iff.1 h
  exact ⟨expiry, rfl⟩

/-! ## Every history -/

/-- The window is what a history has made of it. -/
structure Follows (timeout : UnlockTimeout) (history : List Move) : Prop where
  duration_iff : ∀ d, timeout.duration? = some d ↔ LastSet history d
  isStep : ∀ d, timeout.duration? = some d → d.isStep = true
  inRange : ∀ expiry, timeout.expiresAt = some expiry → expiry.InRange

theorem Follows.nil : disabled.Follows [] where
  duration_iff _ := iff_of_false (by simp [disabled, duration?]) not_lastSet_nil
  isStep _ h := by simp [disabled, duration?] at h
  inRange _ h := by simp [disabled] at h

/-- After a quiet move the window is as long as before. -/
theorem Follows.concat_of_quiet (h : timeout.Follows history) (hquiet : m.Quiet)
    (hduration : (timeout.move m).duration? = timeout.duration?)
    (hrange : ∀ expiry, (timeout.move m).expiresAt = some expiry → expiry.InRange) :
    (timeout.move m).Follows (history ++ [m]) where
  duration_iff d := by
    rw [hduration, h.duration_iff, lastSet_concat]
    have hsets := hquiet.2 d
    constructor
    · exact fun hlast => .inr ⟨hquiet, hlast⟩
    · rintro (hset | ⟨-, hlast⟩)
      · exact absurd hset hsets
      · exact hlast
  isStep d hd := h.isStep d (hduration ▸ hd)
  inRange := hrange

/-- A move that opens a window makes it what it was set to be. -/
theorem Follows.concat_of_set (hset : (set? d now).isSome = true) (hnow : now.InRange) :
    (timeout.move (.set d now)).Follows (history ++ [.set d now]) := by
  obtain ⟨hlength, hsum, -⟩ := isSome_set?_iff.1 hset
  have hrange := hnow.plus hsum
  have hsets : (Move.set d now).Sets d := ⟨now, rfl, hset⟩
  rw [move_set_of_isSome hset]
  refine ⟨?_, ?_, ?_⟩
  · intro d'
    rw [lastSet_concat]
    constructor
    · intro hd
      cases hd
      exact .inl hsets
    · rintro (hsets' | ⟨hquiet, -⟩)
      · exact congrArg some (hsets.unique hsets')
      · exact absurd hsets (hquiet.2 d)
  · intro d' hd
    cases hd
    exact Duration.isStep_iff.2 hlength
  · intro expiry hexpiry
    cases hexpiry
    exact hrange

/-- What a history has made of a window, one more move makes of it as well. -/
theorem Follows.concat (h : timeout.Follows history) (m : Move)
    (htime : ∀ now ∈ m.time?, now.InRange) : (timeout.move m).Follows (history ++ [m]) := by
  cases m with
  | set d now =>
    cases hset : (set? d now).isSome with
    | true => exact .concat_of_set hset (htime now rfl)
    | false =>
      have hquiet : (Move.set d now).Quiet := by
        refine ⟨Move.noConfusion, ?_⟩
        rintro d' ⟨now', heq, hset'⟩
        cases heq
        simp [hset] at hset'
      refine h.concat_of_quiet hquiet ?_ ?_ <;> rw [move_set_of_isNone hset]
      exact h.inRange
  | check now =>
    have hquiet : (Move.check now).Quiet := ⟨Move.noConfusion, by simp [Move.Sets]⟩
    cases hduration : timeout.duration? with
    | none =>
      have hdisabled : timeout.isEnabled = false := by
        simpa [duration?, isEnabled] using hduration
      refine h.concat_of_quiet hquiet ?_ ?_ <;> rw [move_check_of_disabled hdisabled]
      exact h.inRange
    | some d =>
      have hstep := h.isStep d hduration
      obtain ⟨expiry, rfl⟩ := exists_of_duration? hduration
      refine h.concat_of_quiet hquiet ?_ ?_ <;> rw [move_check hstep]
      · rfl
      · intro next hnext
        cases hnext
        split
        · exact (htime now rfl).plus ‹_›
        · exact h.inRange expiry rfl
  | remaining now =>
    exact h.concat_of_quiet ⟨Move.noConfusion, by simp [Move.Sets]⟩ rfl h.inRange
  | disable =>
    refine ⟨?_, ?_, ?_⟩
    · intro d
      rw [lastSet_concat]
      simp [move, disable, duration?, Move.Sets, Move.Quiet]
    · simp [move, disable, duration?]
    · simp [move, disable]

theorem follows_moves (htime : InTime history) : (disabled.moves history).Follows history := by
  induction history using List.reverseRecOn with
  | nil => exact .nil
  | append_singleton history m ih =>
    have hbefore : InTime history := fun m' hm => htime m' (List.mem_append_left _ hm)
    have hlast := htime m (by simp)
    have hfollows := ih hbefore
    unfold moves at hfollows ⊢
    rw [List.foldl_append]
    exact hfollows.concat m hlast

/-! ## The next move -/

/-- The window has been opened at an instant. In exact arithmetic it does not end later than its
    length after that, and ends just then if that can be represented; until then no more than its
    length remains. -/
structure Opened (timeout : UnlockTimeout) (now : Instant) (d : Duration) : Prop where
  duration_eq : timeout.duration? = some d
  expiry_le : ∀ expiry, timeout.expiresAt = some expiry → expiry.isAtMost (now.plus d) = true
  expiry_eq : (now.plus d).isRepresentable = true → timeout.expiresAt = some (now.plus d)
  remaining_le : ∃ left, timeout.remaining now = some left ∧ left.toNanos ≤ d.toNanos

/-- Whatever is done to the window at an instant is what exact arithmetic says, and where that cannot
    be had, the window stays as it is. -/
structure ExactAt (timeout : UnlockTimeout) (now : Instant) : Prop where
  set_iff : ∀ d, (set? d now).isSome = true ↔ d.toNanos ≤ 9223372036854775807 * 1000000 ∧
    (now.plus d).isRepresentable = true ∧ 1 ≤ (now.plus d).seconds
  set_opens : ∀ d, (set? d now).isSome = true → (timeout.move (.set d now)).Opened now d
  set_keeps : ∀ d, (set? d now).isSome = false → timeout.move (.set d now) = timeout
  check_iff_isAtMost : (timeout.check now).1 = true ↔
    ∃ expiry, timeout.expiresAt = some expiry ∧ expiry.isAtMost now = true
  check_iff :
    (∀ expiry, timeout.expiresAt = some expiry →
      ¬ now.EndsDayBefore expiry ∧ ¬ expiry.EndsDayBefore now) →
    ((timeout.check now).1 = true ↔
      timeout.isEnabled = true ∧ (timeout.remaining now).map Duration.toNanos = some 0)
  check_opens : ∀ d, timeout.duration? = some d → (timeout.move (.check now)).Opened now d
  check_keeps : ∀ d, timeout.duration? = some d → (now.plus d).isRepresentable = false →
    timeout.move (.check now) = timeout
  check_disabled : timeout.isEnabled = false → timeout.move (.check now) = timeout
  remaining_eq : ∀ expiry, timeout.expiresAt = some expiry →
    (expiry.since now).natAbs ≤ 9223372036854775807 * 1000000 ∧
    ∃ left, timeout.remaining now = some left ∧ left.isStep = true ∧
      (left.toNanos : Int) = max 0 (expiry.since now)
  remaining_disabled : timeout.isEnabled = false → timeout.remaining now = none

/-- No more than its length remains of a window that does not end later than that. -/
theorem opened_of_le (hnow : now.InRange) (hexpiry : expiry.InRange)
    (hle : expiry.isAtMost (now.plus d) = true) (hsince : expiry.since now ≤ d.toNanos)
    (heq : (now.plus d).isRepresentable = true → expiry = now.plus d) :
    (⟨d, some expiry⟩ : UnlockTimeout).Opened now d where
  duration_eq := rfl
  expiry_le _ h := by
    cases h
    exact hle
  expiry_eq h := congrArg some (heq h)
  remaining_le := by
    have hleft := Instant.toNanos_timeUntil hnow hexpiry
    exact ⟨now.timeUntil expiry, rfl, by omega⟩

theorem opened_plus (hnow : now.InRange) (hsum : (now.plus d).isRepresentable = true) :
    (⟨d, some (now.plus d)⟩ : UnlockTimeout).Opened now d :=
  opened_of_le hnow (hnow.plus hsum) (Instant.isAtMost_iff_lex.2 (.inr ⟨rfl, Nat.le_refl _⟩))
    (Instant.since_plus_le now d) fun _ => rfl

/-- Whatever a history has made of a window, the next move is exact. -/
theorem Follows.exactAt (h : timeout.Follows history) (hnow : now.InRange) :
    timeout.ExactAt now where
  set_iff _ := isSome_set?_iff
  set_opens d hset := by
    rw [move_set_of_isSome hset]
    exact opened_plus hnow (isSome_set?_iff.1 hset).2.1
  set_keeps _ := move_set_of_isNone
  check_iff_isAtMost := by
    cases hexpiry : timeout.expiresAt with
    | none => simp [check, hexpiry]
    | some expiry => simp [check, hexpiry]
  check_iff hdays := by
    cases hexpiry : timeout.expiresAt with
    | none => simp [check, isEnabled, hexpiry]
    | some expiry =>
      obtain ⟨hbefore, hafter⟩ := hdays expiry hexpiry
      have hleft := Instant.toNanos_timeUntil hnow (h.inRange expiry hexpiry)
      simp only [check, isEnabled, remaining, hexpiry, Instant.isAtMost_iff_since hafter hbefore,
        Option.isSome_some, Option.map_some, Option.some.injEq, true_and]
      omega
  check_opens d hd := by
    have hstep := h.isStep d hd
    obtain ⟨expiry, rfl⟩ := exists_of_duration? hd
    have hexpiry := h.inRange expiry rfl
    rw [move_check hstep]
    split
    · exact opened_plus hnow ‹_›
    · rename_i hsum
      obtain ⟨hle, hsince⟩ :=
        Instant.of_not_isRepresentable_plus hnow hexpiry (Bool.eq_false_iff.2 hsum)
      exact opened_of_le hnow hexpiry hle hsince fun hrange => absurd hrange hsum
  check_keeps d hd hsum := by
    have hstep := h.isStep d hd
    obtain ⟨expiry, rfl⟩ := exists_of_duration? hd
    rw [move_check hstep]
    simp [hsum]
  check_disabled := move_check_of_disabled
  remaining_eq expiry hexpiry := by
    have hrange := h.inRange expiry hexpiry
    refine ⟨Instant.natAbs_since_le hnow hrange, now.timeUntil expiry, ?_,
      Instant.isStep_timeUntil hnow hrange, Instant.toNanos_timeUntil hnow hrange⟩
    simp [remaining, hexpiry]
  remaining_disabled hdisabled := by
    simpa [remaining, isEnabled] using hdisabled

theorem isEnabled_iff : timeout.isEnabled = true ↔ ∃ d, timeout.duration? = some d := by
  simp [isEnabled, duration?, Option.isSome_iff_exists]

end UnlockTimeout

/-! ## The window of a manager -/

/-- What a manager does to its window is a move at the time of its clock, and nothing else is done
    when the window cannot be set. -/
structure Scene.MovesWindow {W : Type} [Backend W] (scene : Scene W) (now : Instant) : Prop where
  set : ∀ d, (Manager.setTimeout d).outcome scene =
    if (UnlockTimeout.set? d now).isSome = true then
      (.ok (), { scene with
        manager := { scene.manager with timeout := scene.manager.timeout.move (.set d now) } })
    else (.error (.timeoutOverflow d.seconds), scene)
  check : ∃ scene', Manager.checkTimeout.outcome scene = (.ok (), scene') ∧
    scene'.manager.timeout = scene.manager.timeout.move (.check now)
  remaining : Manager.timeoutRemaining scene = scene.manager.timeout.remaining now
  disable : Manager.disableTimeout.outcome scene = (.ok (), { scene with
    manager := { scene.manager with timeout := scene.manager.timeout.move .disable } })

theorem Scene.movesWindow {W : Type} [Backend W] (scene : Scene W) :
    scene.MovesWindow (scene.world.time scene.manager.clock) where
  set d := by
    rw [Command.outcome_setTimeout]
    show _ = if _ then (_, { scene with manager := { scene.manager with
      timeout := (UnlockTimeout.set? d _).getD scene.manager.timeout } }) else _
    cases UnlockTimeout.set? d (scene.world.time scene.manager.clock) <;> rfl
  check := by
    obtain ⟨wallets, hchecked⟩ := scene.checked_manager
    exact ⟨_, Manager.outcome_checkTimeout scene, by rw [hchecked]; rfl⟩
  remaining := rfl
  disable := rfl

namespace UnlockTimeout

/-- After every history, the window is there exactly if it was last set later than it was last
    removed, with the length it was last set to; its end is in the range of time; and at every instant
    of that range each next move does what exact arithmetic says. The operations of a manager make
    just these moves. -/
theorem exact_after_moves {history : List Move} (htime : InTime history) :
    ((disabled.moves history).isEnabled = true ↔ ∃ d, LastSet history d) ∧
    (∀ d, (disabled.moves history).duration? = some d ↔ LastSet history d) ∧
    (∀ expiry, (disabled.moves history).expiresAt = some expiry → expiry.InRange) ∧
    (∀ now, now.InRange → (disabled.moves history).ExactAt now) ∧
    (∀ {W : Type} [Backend W] (scene : Scene W),
      scene.MovesWindow (scene.world.time scene.manager.clock)) := by
  have hfollows := follows_moves htime
  refine ⟨?_, hfollows.duration_iff, hfollows.inRange, fun _ => hfollows.exactAt,
    Scene.movesWindow⟩
  rw [isEnabled_iff]
  exact exists_congr hfollows.duration_iff

/-- So many seconds before the last one. -/
def beforeEnd (seconds : Int) : Instant := .ofSeconds (Instant.lastSecond - seconds)

/-- A window is opened within the last minutes of time; then its new end, and the end of a longer one,
    could no longer be represented. -/
def lastMinutes : List Move := [
  .set (.ofSeconds 60) (beforeEnd 100),
  .check (beforeEnd 10),
  .set (.ofSeconds 3600) ⟨Instant.lastSecond - 10, 250000000, by decide⟩]

/-- The window stays as it was opened. -/
theorem exact_in_lastMinutes :
    InTime lastMinutes ∧
    disabled.moves lastMinutes = ⟨.ofSeconds 60, some (beforeEnd 40)⟩ ∧
    LastSet lastMinutes (.ofSeconds 60) ∧
    (disabled.moves lastMinutes).ExactAt (beforeEnd 50) := by
  have htime : InTime lastMinutes := by decide
  obtain ⟨-, hduration, -, hexact, -⟩ := exact_after_moves htime
  exact ⟨htime, by decide, (hduration _).1 (by decide), hexact _ (by decide)⟩

/-- Nothing remains of a window of one second that is opened half a second before the end of a leap
    second that ends a day, and still it has not run out. -/
theorem not_check_iff_remaining :
    InTime [.set (.ofSeconds 1) .leapSecond] ∧ Instant.leapSecond.InRange ∧
    disabled.moves [.set (.ofSeconds 1) .leapSecond] = ⟨.ofSeconds 1, some .newYear⟩ ∧
    Instant.leapSecond.EndsDayBefore .newYear ∧
    ¬ (((disabled.moves [.set (.ofSeconds 1) .leapSecond]).check .leapSecond).1 = true ↔
      (disabled.moves [.set (.ofSeconds 1) .leapSecond]).isEnabled = true ∧
      ((disabled.moves [.set (.ofSeconds 1) .leapSecond]).remaining .leapSecond).map
        Duration.toNanos = some 0) :=
  ⟨by decide, by decide, by decide, by decide, by decide⟩

end UnlockTimeout

end Custody
