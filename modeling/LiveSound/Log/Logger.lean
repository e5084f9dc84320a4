import LiveSound.Log.Level
import LiveSound.Event.Basic
import LiveSound.Compile.Result
import LiveSound.Numeric.Decimal
import LiveSound.Text.Blank

/-!
# The log

A `Logger` turns what happened into the text that is printed. Debug lines are printed only by a
verbose one. `Event.lines` gives the lines of an event: the output of a module is split into its
lines, of which the empty ones are dropped.
-/

namespace LiveSound

/-- The time that a buffer lasts, in milliseconds. -/
def bufferBudget (frames rate : Nat) : Binary64 :=
  let scaled := Binary64.ofRatio false ((Binary64.ofNat frames).units * 1000)
    Layout.double.one
  .ofRatio false scaled.units (Layout.double.one * max rate 1)

def Event.lines : Event → List (Log.Level × String)
  | .ready => [(.success, "Module ready")]
  | .error message => [(.error, message)]
  | .log text =>
    ((Text.lines text).filter (!·.isEmpty)).map fun line =>
      (if line.startsWith "Warning:" then .warning else .print, line)
  | .perf average longest frames rate =>
    [(.debug,
      "perf: avg " ++ average.fixed 3 ++ " ms, max " ++ longest.fixed 3 ++ " ms (" ++
        toString frames ++ " frames @ " ++ toString rate ++ " Hz, budget " ++
        (bufferBudget frames rate).fixed 2 ++ " ms)")]

namespace Log

structure Logger where
  verbose : Bool
  deriving DecidableEq, Repr

namespace Logger

def log (logger : Logger) (level : Level) (message : String) : String :=
  if level = .debug ∧ !logger.verbose then "" else level.line message ++ "\n"

/-- What is printed for a detail of the message before it. -/
def detail (text : String) : String := "   ↳ " ++ text ++ "\n"

def withDetails (logger : Logger) (level : Level) (message : String) (details : List String) :
    String :=
  logger.log level message ++ String.join (details.map detail)

def event (logger : Logger) (e : Event) : String :=
  String.join (e.lines.map fun (level, line) => logger.log level line)

/-- A failed compile; the output of the compiler follows for a verbose logger. -/
def compileFailure (logger : Logger) (f : Compile.Failure) : String :=
  let main := logger.withDetails .error
    ("Compilation failed (" ++ f.kind.label ++ "): " ++ f.error) f.details
  match f.stderr with
  | some stderr =>
    if logger.verbose && !Text.allBlank stderr then
      main ++ logger.withDetails .debug "compiler stderr" (Text.lines stderr)
    else main
  | none => main

/-- The warnings of a successful compile and its size, or the failure. -/
def compileResult (logger : Logger) : Compile.Result → String
  | .success s =>
    String.join (s.warnings.map (logger.log .warning)) ++
      logger.log .success s!"Compiled module ({s.artifact.size} bytes)"
  | .failure f => logger.compileFailure f

end Logger

end Log

end LiveSound
