import LiveSound.Numeric.Binary

/-!
# Events

What the player tells whoever controls it.
-/

namespace LiveSound

inductive Event where
  /-- A module was installed. -/
  | ready
  | error (message : String)
  /-- Text that the module wrote, or a remark about it. -/
  | log (text : String)
  /-- Timing of the buffers so far: average and longest in milliseconds, the length of the
  current buffer and the rate. -/
  | perf (average longest : Binary64) (frames rate : Nat)
  deriving DecidableEq, Inhabited

end LiveSound
