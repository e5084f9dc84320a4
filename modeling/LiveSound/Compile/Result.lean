import LiveSound.Module

/-!
# Compile results

Every way of compiling answers with a `Result`; trouble on the way is a `Failure` too.
-/

namespace LiveSound.Compile

inductive FailureKind where
  /-- The compiler ran and refused the source. -/
  | compile
  | timeout
  /-- The toolchain could not be made ready and there is nothing to fall back to. -/
  | assetLoad
  /-- Connection trouble. -/
  | transport
  /-- The service answered with something that is no compile result. -/
  | protocol
  deriving DecidableEq, Repr

def FailureKind.label : FailureKind → String
  | .compile => "compile error"
  | .timeout => "timeout"
  | .assetLoad => "asset load error"
  | .transport => "transport error"
  | .protocol => "protocol error"

structure Success where
  artifact : Module
  output : String
  warnings : List String

structure Failure where
  kind : FailureKind
  error : String
  details : List String
  stdout : Option String
  stderr : Option String
  deriving DecidableEq, Repr

namespace Failure

def plain (kind : FailureKind) (error : String) : Failure := ⟨kind, error, [], none, none⟩

def timeout (milliseconds : Nat) : Failure :=
  plain .timeout s!"Compilation timeout after {milliseconds} ms"

def message (f : Failure) : String := f.kind.label ++ ": " ++ f.error

end Failure

inductive Result where
  | success (s : Success)
  | failure (f : Failure)

namespace Result

def fail (kind : FailureKind) (error : String) : Result := .failure (.plain kind error)

def isSuccess : Result → Bool
  | .success _ => true
  | .failure _ => false

def failureKind? : Result → Option FailureKind
  | .success _ => none
  | .failure f => some f.kind

end Result

end LiveSound.Compile
