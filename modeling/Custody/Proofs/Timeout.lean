import Custody.Timeout.Window

set_option autoImplicit false

/-! # The exact time of a window

A sum of an instant and a duration is the exact one wherever it can be represented, counting the
leap second that the instant may lie in (`Instant.add?_eq`). A difference of two instants tells
which of them comes first (`Instant.isAtMost_iff_since`), unless a leap second at the end of a day
lies between them that it misses (`Instant.EndsDayBefore`).

Outside of leap seconds all this is arithmetic on nanoseconds. A window that is opened there ends
exactly its duration later (`UnlockTimeout.Spans`), and has run out from then on
(`UnlockTimeout.Spans.check_iff`). -/

namespace Custody

/-! ## Durations -/

/-- A step is at most as long as the milliseconds that can be counted in 63 bits. -/
theorem Duration.isStep_iff {d : Duration} :
    d.isStep = true ↔ d.toNanos ≤ 9223372036854775807 * 1000000 := by
  have hnanos := d.nanos_lt
  simp only [isStep, toNanos, Bool.or_eq_true, Bool.and_eq_true, decide_eq_true_eq, beq_iff_eq]
  unfold maxStepSeconds maxStepNanos nanosPerSecond at *
  omega

/-- A length is kept as long as its seconds can be counted in 64 bits. -/
theorem Duration.toNanos_ofNanos {n : Nat} (h : n < UInt64.size * nanosPerSecond) :
    (ofNanos n).toNanos = n := by
  have hseconds : (UInt64.ofNat (n / nanosPerSecond)).toNat = n / nanosPerSecond :=
    UInt64.toNat_ofNat_of_lt' (Nat.div_lt_of_lt_mul (by rwa [Nat.mul_comm]))
  show (UInt64.ofNat (n / nanosPerSecond)).toNat * nanosPerSecond + n % nanosPerSecond = n
  rw [hseconds]
  exact Nat.div_add_mod' n nanosPerSecond

namespace Instant

variable {a b t now later : Instant} {d : Duration}

/-! ## Order -/

theorem isLeap_eq_false_iff : t.isLeap = false ↔ t.nanos < nanosPerSecond := by
  simp [isLeap]

theorem isAtMost_iff_lex :
    a.isAtMost b = true ↔ a.seconds < b.seconds ∨ (a.seconds = b.seconds ∧ a.nanos ≤ b.nanos) := by
  simp [isAtMost]

/-- Outside of leap seconds instants are compared by their distance from the beginning of 1970. -/
theorem isAtMost_iff (ha : a.isLeap = false) (hb : b.isLeap = false) :
    a.isAtMost b = true ↔ a.toNanos ≤ b.toNanos := by
  rw [isLeap_eq_false_iff] at ha hb
  rw [isAtMost_iff_lex]
  unfold toNanos
  unfold nanosPerSecond at *
  omega

/-! ## Sums -/

@[simp] theorem isLeap_ofNanos (n : Int) : (ofNanos n).isLeap = false := by
  rw [isLeap_eq_false_iff]
  show (n % (nanosPerSecond : Int)).toNat < nanosPerSecond
  unfold nanosPerSecond
  omega

/-- The instant a duration later in exact arithmetic, whether it can be represented or not. A leap
    second that the instant lies in is as long as any other second, and the next one comes after
    it. -/
def plus (t : Instant) (d : Duration) : Instant :=
  if h : t.isLeap = true ∧ t.nanos + d.toNanos < 2 * nanosPerSecond then
    ⟨t.seconds, t.nanos + d.toNanos, h.2⟩
  else if t.isLeap then ofNanos (t.toNanos + d.toNanos - nanosPerSecond)
  else ofNanos (t.toNanos + d.toNanos)

theorem plus_of_not_isLeap (h : t.isLeap = false) : t.plus d = ofNanos (t.toNanos + d.toNanos) := by
  simp [plus, h]

theorem toNanos_plus (h : t.isLeap = false) : (t.plus d).toNanos = t.toNanos + d.toNanos := by
  rw [plus_of_not_isLeap h, toNanos_ofNanos]

theorem isLeap_plus (h : t.isLeap = false) : (t.plus d).isLeap = false := by
  rw [plus_of_not_isLeap h, isLeap_ofNanos]

/-- What is added is the exact sum. -/
theorem advance_eq_plus (t : Instant) (d : Duration) : t.advance d = t.plus d := by
  have hnanos := t.nanos_lt
  have hfraction := d.nanos_lt
  have hseconds : d.seconds = 0 ↔ d.seconds.toNat = 0 := by
    rw [← UInt64.toNat_inj]
    rfl
  have hstays : (t.isLeap = true ∧ d.seconds = 0 ∧ t.nanos + d.nanos < 2 * nanosPerSecond) ↔
      (t.isLeap = true ∧ t.nanos + d.toNanos < 2 * nanosPerSecond) := by
    refine and_congr_right fun hleap => ?_
    replace hleap : nanosPerSecond ≤ t.nanos := by simpa [isLeap] using hleap
    unfold Duration.toNanos
    rw [hseconds]
    unfold nanosPerSecond at *
    omega
  unfold advance plus
  split
  · rename_i hleap
    rw [dif_pos (hstays.1 hleap)]
    ext
    · rfl
    · have hlength : d.toNanos = d.nanos := by
        simp [Duration.toNanos, hseconds.1 hleap.2.1]
      exact congrArg (t.nanos + ·) hlength.symm
  · rename_i hleaves
    rw [dif_neg (mt hstays.2 hleaves)]
    unfold ofNanos toNanos Duration.toNanos
    simp only [isLeap, decide_eq_true_eq]
    unfold nanosPerSecond at *
    split <;> split <;> ext <;> dsimp only <;> omega

/-- A sum is the exact one, and there is none only if the duration is no step or the exact one cannot
    be represented. -/
theorem add?_eq (t : Instant) (d : Duration) : t.add? d =
    if d.isStep = true ∧ (t.plus d).isRepresentable = true then some (t.plus d) else none := by
  unfold add?
  rw [advance_eq_plus]
  simp only [Bool.and_eq_true]

theorem add?_eq_some_iff : t.add? d = some later ↔
    d.isStep = true ∧ (t.plus d).isRepresentable = true ∧ later = t.plus d := by
  rw [add?_eq, Option.ite_none_right_eq_some, Option.some.injEq, and_assoc, @eq_comm _ later]

/-- A sum is not before the instant that it starts from. -/
theorem isAtMost_plus (t : Instant) (d : Duration) : t.isAtMost (t.plus d) = true := by
  have hnanos := t.nanos_lt
  rw [isAtMost_iff_lex]
  unfold plus ofNanos toNanos isLeap
  simp only [decide_eq_true_eq]
  unfold nanosPerSecond at *
  split
  · simp
  · split <;> dsimp only <;> omega

/-! ## The range of time -/

/-- The first and the last instant. -/
def first : Instant := ofSeconds firstSecond

def last : Instant := ⟨lastSecond, 999999999, by decide⟩

/-- The instant is not before the first one nor after the last one. -/
def InRange (t : Instant) : Prop := first.isAtMost t = true ∧ t.isAtMost last = true

instance : Decidable t.InRange := inferInstanceAs (Decidable (_ ∧ _))

theorem inRange_iff : t.InRange ↔ t.isRepresentable = true ∧
    (t.seconds = lastSecond → t.isLeap = false) := by
  unfold InRange
  rw [isAtMost_iff_lex, isAtMost_iff_lex, isLeap_eq_false_iff]
  simp only [isRepresentable, first, ofSeconds, last, Bool.and_eq_true, decide_eq_true_eq]
  unfold nanosPerSecond
  omega

/-- A sum is in range if its second can be represented. -/
theorem InRange.plus (h : now.InRange) (hsum : (now.plus d).isRepresentable = true) :
    (now.plus d).InRange := by
  rw [inRange_iff] at h ⊢
  refine ⟨hsum, fun hlast => ?_⟩
  unfold Instant.plus at hlast ⊢
  split
  · -- a leap second that is not left is not the one after the last second
    rename_i hstays
    rw [dif_pos hstays] at hlast
    exact absurd (h.2 hlast) (by simp [hstays.1])
  · split <;> exact isLeap_ofNanos _

/-! ## Differences -/

/-- The instant lies in a leap second that ends a day, and the other one in the second after it, with
    no greater fraction of a second. -/
def EndsDayBefore (t later : Instant) : Prop :=
  later.seconds = t.seconds + 1 ∧ later.secondOfDay = 0 ∧
    later.nanos % nanosPerSecond + nanosPerSecond ≤ t.nanos

instance (t later : Instant) : Decidable (t.EndsDayBefore later) :=
  inferInstanceAs (Decidable (_ ∧ _))

theorem since_eq (ha : a.isLeap = false) (hb : b.isLeap = false) :
    a.since b = a.toNanos - b.toNanos := by
  simp [since, ha, hb]

/-- An instant earlier than another that does not come earlier in its day lies in a day before. -/
theorem secondOfDay_lt_sub (h : a.seconds < b.seconds) (hday : b.secondOfDay ≤ a.secondOfDay) :
    b.secondOfDay < b.seconds - a.seconds := by
  unfold secondOfDay at *
  have hdays : a.seconds / 86400 < b.seconds / 86400 := by
    refine Int.not_le.1 fun hle => ?_
    omega
  omega

/-- A difference tells which of two instants comes first, unless it misses a leap second between
    them. -/
theorem isAtMost_iff_since (h : ¬ a.EndsDayBefore b) (h' : ¬ b.EndsDayBefore a) :
    a.isAtMost b = true ↔ a.since b ≤ 0 := by
  have ha := a.nanos_lt
  have hb := b.nanos_lt
  have hday := @secondOfDay_lt_sub a b
  have hday' := @secondOfDay_lt_sub b a
  have hstart : 0 ≤ a.secondOfDay := Int.emod_nonneg _ (by decide)
  have hstart' : 0 ≤ b.secondOfDay := Int.emod_nonneg _ (by decide)
  rw [isAtMost_iff_lex]
  simp only [EndsDayBefore, since, toNanos, isLeap, Bool.and_eq_true,
    decide_eq_true_eq] at h h' ⊢
  have hsame : a.seconds = b.seconds → a.secondOfDay = b.secondOfDay := congrArg (· % 86400)
  generalize a.secondOfDay = x at *
  generalize b.secondOfDay = y at *
  unfold nanosPerSecond at *
  split <;> split <;> omega

/-- A sum does not come later than its duration after the instant that it starts from. -/
theorem since_plus_le (t : Instant) (d : Duration) : (t.plus d).since t ≤ d.toNanos := by
  have hnanos := t.nanos_lt
  unfold plus
  split
  · simp only [since, toNanos, secondOfDay, Int.lt_irrefl, decide_false, Bool.and_false,
      Bool.false_eq_true, if_false]
    omega
  · rename_i hleaves
    split
    · have hlater : (ofNanos (t.toNanos + d.toNanos - nanosPerSecond)).toNanos = _ :=
        toNanos_ofNanos _
      unfold since
      rw [hlater, isLeap_ofNanos]
      simp only [Bool.false_and, Bool.false_eq_true, if_false]
      unfold nanosPerSecond
      split <;> omega
    · rename_i hleap
      rw [since_eq (isLeap_ofNanos _) (by simpa using hleap), toNanos_ofNanos]
      omega

/-- A sum past the end of time would be later than any instant, and no instant is further away than the
    duration is long. -/
theorem of_not_isRepresentable_plus (hnow : now.InRange) (hlater : later.InRange)
    (hsum : (now.plus d).isRepresentable = false) :
    later.isAtMost (now.plus d) = true ∧ later.since now ≤ d.toNanos := by
  have hn := now.nanos_lt
  have hl := later.nanos_lt
  rw [inRange_iff, isLeap_eq_false_iff] at hnow hlater
  have hend : lastSecond < (now.plus d).seconds := by
    have hstart := isAtMost_iff_lex.1 (isAtMost_plus now d)
    simp only [isRepresentable, Bool.and_eq_true, Bool.and_eq_false_iff, decide_eq_true_eq,
      decide_eq_false_iff_not] at hnow hsum
    omega
  simp only [isRepresentable, Bool.and_eq_true, decide_eq_true_eq] at hnow hlater
  refine ⟨isAtMost_iff_lex.2 (.inl (by omega)), ?_⟩
  unfold plus at hend
  simp only [since, toNanos, isLeap, secondOfDay, Bool.and_eq_true, decide_eq_true_eq, ofNanos]
    at hend ⊢
  unfold lastSecond nanosPerSecond at *
  split at hend
  · dsimp only at hend
    omega
  · split at hend <;> dsimp only at hend <;> split <;> split <;> omega

/-- No difference is too long for a step, in either direction. -/
theorem natAbs_since_le (hnow : now.InRange) (hlater : later.InRange) :
    (later.since now).natAbs ≤ 9223372036854775807 * 1000000 := by
  have hn := now.nanos_lt
  have hl := later.nanos_lt
  rw [inRange_iff] at hnow hlater
  simp only [isRepresentable, Bool.and_eq_true, decide_eq_true_eq] at hnow hlater
  simp only [since, toNanos]
  unfold firstSecond lastSecond nanosPerSecond at *
  split <;> split <;> omega

/-- The time until an instant is its difference, and zero where that would be negative. -/
theorem toNanos_timeUntil (hnow : now.InRange) (hlater : later.InRange) :
    ((now.timeUntil later).toNanos : Int) = max 0 (later.since now) := by
  have hsince := natAbs_since_le hnow hlater
  unfold timeUntil
  rw [Duration.toNanos_ofNanos]
  · omega
  · unfold nanosPerSecond UInt64.size
    omega

theorem isStep_timeUntil (hnow : now.InRange) (hlater : later.InRange) :
    (now.timeUntil later).isStep = true := by
  have hexact := toNanos_timeUntil hnow hlater
  have hsince := natAbs_since_le hnow hlater
  rw [Duration.isStep_iff]
  omega

/-- Half a second into the leap second that ended the year 2016, and half a second after it. -/
def leapSecond : Instant := ⟨1483228799, 1500000000, by decide⟩

def newYear : Instant := ⟨1483228800, 500000000, by decide⟩

end Instant

/-! ## Windows -/

namespace UnlockTimeout

variable {timeout : UnlockTimeout} {duration : Duration} {opened now : Instant}

/-- The window is as long as the duration, and was opened at an instant outside of leap seconds. -/
def Spans (timeout : UnlockTimeout) (opened : Instant) (duration : Duration) : Prop :=
  ∃ expiry, timeout = ⟨duration, some expiry⟩ ∧ expiry.isLeap = false ∧
    expiry.toNanos = opened.toNanos + duration.toNanos

theorem spans_of_add? (hopened : opened.isLeap = false) {expiry : Instant}
    (h : opened.add? duration = some expiry) :
    (⟨duration, some expiry⟩ : UnlockTimeout).Spans opened duration := by
  obtain ⟨-, -, rfl⟩ := Instant.add?_eq_some_iff.1 h
  exact ⟨_, rfl, Instant.isLeap_plus hopened, Instant.toNanos_plus hopened⟩

theorem spans_of_set? (hnow : now.isLeap = false) (h : set? duration now = some timeout) :
    timeout.Spans now duration := by
  unfold set? at h
  cases hadd : now.add? duration with
  | none =>
    rw [hadd] at h
    exact absurd h (by simp)
  | some expiry =>
    rw [hadd] at h
    simp only [Option.ite_none_right_eq_some] at h
    obtain ⟨-, h⟩ := h
    cases h
    exact spans_of_add? hnow hadd

/-- The window has run out as soon as its duration is over. -/
theorem Spans.check_iff (h : timeout.Spans opened duration) (hnow : now.isLeap = false) :
    (timeout.check now).1 = true ↔ (duration.toNanos : Int) ≤ now.toNanos - opened.toNanos := by
  obtain ⟨expiry, rfl, hleap, hexpiry⟩ := h
  show expiry.isAtMost now = true ↔ _
  rw [Instant.isAtMost_iff hleap hnow, hexpiry]
  omega

/-- Whether it has run out or not, the window is opened anew. -/
theorem Spans.check (h : timeout.Spans opened duration) (hnow : now.isLeap = false)
    (hadd : (now.add? duration).isSome = true) : (timeout.check now).2.Spans now duration := by
  obtain ⟨expiry, rfl, -⟩ := h
  obtain ⟨next, hnext⟩ := Option.isSome_iff_exists.1 hadd
  have hspans := spans_of_add? hnow hnext
  unfold UnlockTimeout.check
  simp only [hnext]
  exact hspans

theorem check_of_disabled (h : timeout.isEnabled = false) :
    timeout.check now = (false, timeout) := by
  unfold isEnabled at h
  rw [Option.isSome_eq_false_iff, Option.isNone_iff_eq_none] at h
  unfold UnlockTimeout.check
  rw [h]

end UnlockTimeout

end Custody
