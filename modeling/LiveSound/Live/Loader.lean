import LiveSound.Compile.Session
import LiveSound.Log.Logger
import LiveSound.Processor.Basic

/-!
# Loading sources

A source is read, compiled, and sent to a processor that may be playing. If anything fails nothing
is sent, so what plays goes on playing.
-/

namespace LiveSound.Live

open Net (Network)

inductive LoadFault where
  | unreadable (path : String)
  | compile (f : Compile.Failure)
  /-- The processor takes no modules any more. -/
  | stopped
  deriving DecidableEq, Repr

def LoadFault.message : LoadFault → String
  | .unreadable path => s!"failed to read {path}"
  | .compile f => f.message
  | .stopped => "processor is no longer running"

/-- What a compile took, from nanoseconds. -/
def elapsedText (nanoseconds : Nat) : String :=
  if 1000000000 ≤ nanoseconds then
    (Binary64.ofRatio false nanoseconds 1000000000).fixed 2 ++ "s"
  else
    let places := if 100000000 ≤ nanoseconds then 0 else 1
    (Binary64.ofRatio false nanoseconds 1000000).fixed places ++ "ms"

structure Loader (σ : Type) where
  session : Compile.Session
  processor : Processor σ

namespace Loader

variable {σ : Type} {m : Type → Type} [Monad m] [FileSystem m] [Network m] [Programs m]
  [Terminal m] [Clock m]

def deliver (l : Loader σ) : Compile.Result → Loader σ × Except LoadFault Unit
  | .failure f => (l, .error (.compile f))
  | .success s =>
    let (sent, processor) := l.processor.send s.artifact
    ({ l with processor := processor }, if sent then .ok () else .error .stopped)

/-- Loads the source at a path; `report` tells of the progress of the compile. -/
def load (logger : Log.Logger) (options : Compile.Options) (report : String → m Unit)
    (path : String) (l : Loader σ) : m (Loader σ × Except LoadFault Unit) := do
  match ← FileSystem.readText path with
  | none => return (l, .error (.unreadable path))
  | some source =>
    Terminal.print (logger.log .action s!"Compiling {path}")
    let started ← Clock.nanoseconds
    let (session, result) ← l.session.compile report ⟨source, options⟩
    Terminal.print (logger.compileResult result)
    if result.isSuccess then
      let took := (← Clock.nanoseconds) - started
      Terminal.print (logger.log .debug s!"compile took {elapsedText took}")
    return deliver { l with session := session } result

end Loader

end LiveSound.Live
