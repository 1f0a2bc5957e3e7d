set_option autoImplicit false

/-! # Instants and durations

An instant counts from the beginning of 1970, a duration from zero; both as whole seconds and a part
below one second in nanoseconds. Leap seconds are not among the seconds that are counted: an instant
in a leap second is told by the second before, from whose beginning its nanoseconds go on. Instants
lie between the beginning of the year -262143 and the end of the year 262142.

A sum counts the leap second that it starts in. A difference counts the leap second of one instant
only if the other one comes later in its day, so it misses a leap second that ends a day. -/

namespace Custody

/-- Nanoseconds of a second. -/
def nanosPerSecond : Nat := 1000000000

/-- A length of time. -/
structure Duration where
  seconds : UInt64
  nanos : Nat
  nanos_lt : nanos < nanosPerSecond
  deriving DecidableEq

namespace Duration

instance : Inhabited Duration := ⟨⟨0, 0, by decide⟩⟩

/-- A duration of whole seconds. -/
def ofSeconds (seconds : UInt64) : Duration := ⟨seconds, 0, by decide⟩

/-- The exact length in nanoseconds. -/
def toNanos (d : Duration) : Nat := d.seconds.toNat * nanosPerSecond + d.nanos

/-- The duration of a length in nanoseconds. -/
def ofNanos (n : Nat) : Duration :=
  ⟨UInt64.ofNat (n / nanosPerSecond), n % nanosPerSecond, Nat.mod_lt _ (by decide)⟩

/-- The largest number of seconds whose milliseconds can be counted in 63 bits, and the nanoseconds
    that may follow it. -/
def maxStepSeconds : Nat := 9223372036854775

def maxStepNanos : Nat := 807000000

/-- Whether the duration can be added to an instant at all. -/
def isStep (d : Duration) : Bool :=
  d.seconds.toNat < maxStepSeconds
    || (d.seconds.toNat == maxStepSeconds && d.nanos ≤ maxStepNanos)

end Duration

/-- A point in time. Nanoseconds beyond one second lie in a leap second that follows the second. -/
@[ext] structure Instant where
  seconds : Int
  nanos : Nat
  nanos_lt : nanos < 2 * nanosPerSecond
  deriving DecidableEq

namespace Instant

/-- The beginning of a second. -/
def ofSeconds (seconds : Int) : Instant := ⟨seconds, 0, by decide⟩

instance : Inhabited Instant := ⟨ofSeconds 0⟩

/-- Whether the instant lies in a leap second. -/
def isLeap (t : Instant) : Bool := nanosPerSecond ≤ t.nanos

/-- The second of the day that the instant lies in. -/
def secondOfDay (t : Instant) : Int := t.seconds % 86400

/-- The distance from the beginning of 1970 in nanoseconds, as far as it is counted: an instant in a
    leap second has the same as one in the second after it. -/
def toNanos (t : Instant) : Int := t.seconds * nanosPerSecond + t.nanos

/-- The instant at a distance from the beginning of 1970, outside of leap seconds. -/
def ofNanos (n : Int) : Instant :=
  ⟨n / nanosPerSecond, (n % nanosPerSecond).toNat, by unfold nanosPerSecond; omega⟩

theorem toNanos_ofNanos (n : Int) : (ofNanos n).toNanos = n := by
  show n / (nanosPerSecond : Int) * nanosPerSecond + (n % nanosPerSecond).toNat = n
  unfold nanosPerSecond
  omega

/-- The first and the last second. -/
def firstSecond : Int := -8334601228800

def lastSecond : Int := 8210266876799

/-- Whether the second of the instant can be represented. -/
def isRepresentable (t : Instant) : Bool := firstSecond ≤ t.seconds && t.seconds ≤ lastSecond

/-- Whether one instant is not after another. -/
def isAtMost (a b : Instant) : Bool :=
  a.seconds < b.seconds || (a.seconds == b.seconds && a.nanos ≤ b.nanos)

/-- The instant a duration later, whether it can be represented or not. -/
def advance (t : Instant) (d : Duration) : Instant :=
  if h : t.isLeap ∧ d.seconds = 0 ∧ t.nanos + d.nanos < 2 * nanosPerSecond then
    ⟨t.seconds, t.nanos + d.nanos, h.2.2⟩
  else
    -- of a leap second that is left only the fraction is carried on
    let nanos := t.nanos % nanosPerSecond + d.nanos
    if h : nanos < nanosPerSecond then
      ⟨t.seconds + d.seconds.toNat, nanos, by omega⟩
    else
      ⟨t.seconds + d.seconds.toNat + 1, nanos - nanosPerSecond, by
        have := Nat.mod_lt t.nanos (show 0 < nanosPerSecond by decide)
        have := d.nanos_lt
        omega⟩

/-- The instant a duration later, if both can be represented. -/
def add? (t : Instant) (d : Duration) : Option Instant :=
  if d.isStep && (t.advance d).isRepresentable then some (t.advance d) else none

/-- How many nanoseconds one instant comes after another. The leap second of either is counted if
    the other one comes later in its day. -/
def since (later now : Instant) : Int :=
  later.toNanos - now.toNanos
    + (if now.isLeap && now.secondOfDay < later.secondOfDay then (nanosPerSecond : Int) else 0)
    - (if later.isLeap && later.secondOfDay < now.secondOfDay then (nanosPerSecond : Int) else 0)

/-- The time from one instant until another, and zero if that is past. -/
def timeUntil (now later : Instant) : Duration := .ofNanos (later.since now).toNat

end Instant

end Custody
