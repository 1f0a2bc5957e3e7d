import Custody.Manager.Keys
import Custody.Manager.Lifecycle

set_option autoImplicit false

/-! # Commands to a manager

Every operation of a manager as a value, so that a run is a list of commands and a law about all
operations is a law about all commands. -/

namespace Custody

/-- An operation with its arguments. -/
inductive Command (W : Type)
  | create (name : String)
  | openWallet (name : String)
  | listWallets
  | own (name : String) (wallet : W)
  | registerPlatform (probe : Except Error W)
  | lockAll
  | lock (name : String)
  | unlock (name password : String)
  | listKeys (name password : String)
  | publicKeys
  | mySignatures (chain : ChainId)
  | importKey (name key : String)
  | removeKey (name password key : String)
  | createKey (name selector : String)
  | signTransaction (tx : SignedTransaction) (keys : KeySet) (chain : ChainId)
  | signDigest (digest : Digest) (key : PublicKey)
  | setTimeout (duration : Duration)
  | disableTimeout
  | checkTimeout
  | setDir (dir : Path)
  | initializeLock

/-- What an operation answers with. -/
inductive Reply
  | done
  | flag (value : Bool)
  | password (text : String)
  | names (texts : List String)
  | keyMap (keys : KeyMap)
  | keySet (keys : KeySet)
  | signatureSet (signatures : SignatureSet)
  | publicKey (key : PublicKey)
  | signature (signature : Signature)
  | transaction (tx : SignedTransaction)

namespace Command

variable {W : Type}

/-- Whether the operation looks at the timeout before anything else. -/
def isChecked : Command W → Bool
  | .own .. | .registerPlatform .. | .lockAll | .setTimeout .. | .disableTimeout | .setDir ..
  | .initializeLock => false
  | _ => true

variable [Suite] [SoftBackend W]

/-- Carry a command out. -/
def perform : Command W → Manager.Operation W Reply
  | .create name => return .password (← Manager.create name)
  | .openWallet name => do Manager.openWallet name; return .done
  | .listWallets => return .names (← Manager.listWallets)
  | .own name wallet => do Manager.own name wallet; return .done
  | .registerPlatform probe => return .flag (← Manager.registerPlatform probe)
  | .lockAll => do Manager.lockAll; return .done
  | .lock name => do Manager.lock name; return .done
  | .unlock name password => do Manager.unlock name password; return .done
  | .listKeys name password => return .keyMap (← Manager.listKeys name password)
  | .publicKeys => return .keySet (← Manager.publicKeys)
  | .mySignatures chain => return .signatureSet (← Manager.mySignatures chain)
  | .importKey name key => return .publicKey (← Manager.importKey name key)
  | .removeKey name password key => do Manager.removeKey name password key; return .done
  | .createKey name selector => return .publicKey (← Manager.createKey name selector)
  | .signTransaction tx keys chain =>
    return .transaction (← Manager.signTransaction tx keys chain)
  | .signDigest digest key => return .signature (← Manager.signDigest digest key)
  | .setTimeout duration => do Manager.setTimeout duration; return .done
  | .disableTimeout => do Manager.disableTimeout; return .done
  | .checkTimeout => do Manager.checkTimeout; return .done
  | .setDir dir => do Manager.setDir dir; return .done
  | .initializeLock => do Manager.initializeLock; return .done

end Command

end Custody
