import Custody.Timeout.Instant

set_option autoImplicit false

/-! # The unlock timeout

A window of inactivity that is looked at only when something is done: each check tells whether the
window has run out and opens it anew from the moment of the check. -/

namespace Custody

/-- The window, and when it runs out; disabled if it never does. -/
structure UnlockTimeout where
  duration : Duration
  expiresAt : Option Instant
  deriving DecidableEq, Inhabited

namespace UnlockTimeout

/-- No window. -/
def disabled : UnlockTimeout := ⟨default, none⟩

def isEnabled (timeout : UnlockTimeout) : Bool := timeout.expiresAt.isSome

/-- The length of the window, if there is one. -/
def duration? (timeout : UnlockTimeout) : Option Duration :=
  timeout.expiresAt.map fun _ => timeout.duration

/-- Open a window now. Nothing comes back if its end cannot be represented or does not lie after the
    first second of 1970. -/
def set? (duration : Duration) (now : Instant) : Option UnlockTimeout :=
  match now.add? duration with
  | none => none
  | some expiresAt =>
    if now.isAtMost expiresAt && 0 < expiresAt.seconds then some ⟨duration, some expiresAt⟩
    else none

/-- Remove the window. -/
def disable (timeout : UnlockTimeout) : UnlockTimeout := { timeout with expiresAt := none }

/-- Whether the window has run out, and the window from now on. Where its new end cannot be
    represented, the old end stays. -/
def check (timeout : UnlockTimeout) (now : Instant) : Bool × UnlockTimeout :=
  match timeout.expiresAt with
  | none => (false, timeout)
  | some expiresAt =>
    (expiresAt.isAtMost now,
      match now.add? timeout.duration with
      | some next => { timeout with expiresAt := some next }
      | none => timeout)

/-- How long it takes until the window runs out; nothing if there is none. -/
def remaining (timeout : UnlockTimeout) (now : Instant) : Option Duration :=
  timeout.expiresAt.map fun expiresAt => now.timeUntil expiresAt

end UnlockTimeout

end Custody
