/-! The error taxonomy of `domain/errors.ts`, as far as the providers raise it or
look at it again: the class of the error, its message, and on a provider error
the upstream status and the body kept as its cause. -/
namespace WalletBackend

inductive Failure where
  | provider (message : String) (upstreamStatus : Option Nat) (details : Option String)
  /-- `CreationBlockRolledBackError`, a provider error with a fixed message. -/
  | creationBlockRolledBack
  | timeout (message : String)
  | malformed (message : String)
  /-- A caller contract error: JavaScript's own `TypeError`. -/
  | typeError (message : String)
  deriving DecidableEq, Repr

/-- A provider error with neither an upstream status nor a cause. -/
def Failure.plain (message : String) : Failure := .provider message none none

end WalletBackend
