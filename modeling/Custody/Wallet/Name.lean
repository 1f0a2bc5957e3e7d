import Custody.Error

set_option autoImplicit false

/-! # Names of wallets

A name is made of ASCII letters, digits, dots, underscores and hyphens, and is the last component of
itself as a path, so that the wallet's file lies directly in the wallet directory. -/

namespace Custody

namespace WalletName

/-- Whether a character may stand in a name. -/
def isNameChar (c : Char) : Bool := c.isAlphanum || c == '.' || c == '_' || c == '-'

/-- Whether a text is the last component of itself as a path. -/
def isBare (text : String) : Bool := (Path.ofString text).fileName? == some (Utf8.encode text)

/-- Whether a text is a name. -/
def accepts (text : String) : Bool :=
  text.toList != [] && text.toList.all isNameChar && isBare text

end WalletName

/-- The name of a wallet. -/
structure WalletName where
  text : String
  accepted : WalletName.accepts text = true
  deriving DecidableEq

namespace WalletName

/-- Read a name. -/
def parse (text : String) : Except Error WalletName :=
  if h : WalletName.accepts text = true then .ok ⟨text, h⟩ else .error (.invalidName text)

/-- The name of the wallet's file. -/
def fileName (name : WalletName) : String := name.text ++ ".wallet"

end WalletName

end Custody
