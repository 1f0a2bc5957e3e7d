import Custody.Kdf
import Custody.Path
import Custody.Text.Blank
import Custody.Timeout.Instant

set_option autoImplicit false

/-! # Configuration

What a manager is set up with. The wallet directory and the unlock timeout may come from the
environment; a timeout that cannot be read is ignored. -/

namespace Custody

/-- The settings of a manager. -/
structure Config where
  walletDir : Path
  unlockTimeout : Option Duration
  cost : KdfCost
  probePlatform : Bool
  deriving DecidableEq

/-- The variables that are looked at, each as the bytes that it is set to, and the home directory
    that the account has by itself. -/
structure Environment where
  home : Option Bytes
  accountHome : Option Bytes
  walletDir : Option Bytes
  unlockTimeout : Option Bytes
  deriving DecidableEq, Repr

namespace Config

/-- The timeout that is used unless another is chosen: a quarter of an hour. -/
def standardTimeout : Duration := .ofSeconds 900

/-- The home directory: the variable unless it is empty, else the account's, else the working
    directory. -/
def homeDirectory (environment : Environment) : Path :=
  let named := environment.home.filter (· != [])
  ⟨(named.or environment.accountHome).getD Path.here⟩

/-- The settings that are used unless others are chosen. -/
def standard (environment : Environment) : Config :=
  { walletDir := (homeDirectory environment).join (.ofString ".tt_wallet")
    unlockTimeout := some standardTimeout
    cost := .standard
    probePlatform := true }

/-! ## Timeouts as text -/

/-- Whether two texts are equal up to the case of ASCII letters. -/
def equalUpToCase (a b : List Char) : Bool := a.map Char.toLower == b.map Char.toLower

/-- Read decimal digits onto a number, as long as it stays below 2^64. -/
def readDigits : List Char → Nat → Option Nat
  | [], n => some n
  | c :: rest, n =>
    if c.isDigit then
      let m := 10 * n + (c.toNat - '0'.toNat)
      if m < UInt64.size then readDigits rest m else none
    else none

/-- Read a number: at least one digit, perhaps after a plus sign. -/
def readNumber (text : List Char) : Option Nat :=
  match text with
  | [] => none
  | '+' :: [] => none
  | '+' :: rest => readDigits rest 0
  | text => readDigits text 0

/-- Read a timeout: `none` or `off` in any case or a number of seconds, with white space around it.
    Zero seconds are no timeout. -/
def readTimeout (text : String) : Option (Option Duration) :=
  let text := Text.trim text.toList
  if equalUpToCase text "none".toList || equalUpToCase text "off".toList then some none
  else
    (readNumber text).map fun seconds =>
      if seconds = 0 then none else some (.ofSeconds (UInt64.ofNat seconds))

/-- The settings that an environment asks for. -/
def ofEnvironment (environment : Environment) : Config :=
  let base := standard environment
  let base :=
    match environment.walletDir with
    | some dir => { base with walletDir := ⟨dir⟩ }
    | none => base
  match environment.unlockTimeout.map Utf8.decode with
  | some (.ok text) =>
    match readTimeout text with
    | some unlockTimeout => { base with unlockTimeout }
    | none => base
  | _ => base

end Config

end Custody
