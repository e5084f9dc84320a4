import LiveSound.Numeric.Binary

/-!
# Timing of buffers

Running totals for the instance that plays. Times are exact numbers of milliseconds; they are
rounded only when they are reported.
-/

namespace LiveSound.Playback

/-- Every so many buffers there is a report. -/
def reportInterval : Nat := 500

structure Perf where
  calls : Nat
  total : Rat
  longest : Rat
  deriving DecidableEq

namespace Perf

def zero : Perf := ⟨0, 0, 0⟩

/-- Counts a buffer; true when a report is due. -/
def record (p : Perf) (elapsed : Rat) : Perf × Bool :=
  let longest := if p.longest < elapsed then elapsed else p.longest
  let p : Perf := ⟨p.calls + 1, p.total + elapsed, longest⟩
  (p, p.calls % reportInterval == 0)

def average (p : Perf) : Rat := if p.calls = 0 then 0 else p.total / p.calls

end Perf

end LiveSound.Playback
