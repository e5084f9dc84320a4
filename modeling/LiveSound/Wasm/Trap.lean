/-!
# Why running code stops

`Stop` tells a trap of the code itself from an exit, from a fault that the host reports, and from a
failure of the host itself.
-/

namespace LiveSound.Wasm

inductive Trap where
  | unreachable
  | divideByZero
  | integerOverflow
  | badConversion
  | memoryOutOfBounds
  | tableOutOfBounds
  | uninitializedElement
  | signatureMismatch
  | stackExhausted
  deriving DecidableEq, Repr

def Trap.message : Trap → String
  | .unreachable => "wasm trap: wasm \x60unreachable\x60 instruction executed"
  | .divideByZero => "wasm trap: integer divide by zero"
  | .integerOverflow => "wasm trap: integer overflow"
  | .badConversion => "wasm trap: invalid conversion to integer"
  | .memoryOutOfBounds => "wasm trap: out of bounds memory access"
  | .tableOutOfBounds => "wasm trap: undefined element: out of bounds table access"
  | .uninitializedElement => "wasm trap: uninitialized element"
  | .signatureMismatch => "wasm trap: indirect call type mismatch"
  | .stackExhausted => "wasm trap: call stack exhausted"

inductive Stop where
  | trap (t : Trap)
  /-- The code asked to be ended, with a code. -/
  | exit (code : Int)
  /-- A function of the host refused its arguments. -/
  | fault (message : String)
  /-- A function of the host failed, and whoever runs the code fails with it. -/
  | crash (message : String)
  /-- More steps than are ever taken. -/
  | endless
  deriving DecidableEq, Repr

def Stop.message : Stop → String
  | .trap t => t.message
  | .exit code => s!"module exited with code {code}"
  | .fault message => message
  | .crash message => message
  | .endless => "wasm trap: interrupt"

end LiveSound.Wasm
