import LiveSound.Cli.Build
import LiveSound.Live.Session

/-!
# Running commands

All commands come to an end by themselves but one: `play` gives a session that goes on until it is
told to stop.
-/

namespace LiveSound.Cli

open Guest (Engine)
open Net (Network)

variable {μ σ : Type} {m : Type → Type} [Monad m] [FileSystem m] [Network m] [Programs m]
  [Terminal m] [Clock m] [AudioDevice m]

/-- The client for the source of the project's development server. -/
def sourceClient (settings : Settings) : Compile.SourceClient :=
  .ofUrl settings.localServer.url settings.localTimeout

def pull (logger : Log.Logger) (out : Option String) : ExceptT String m Unit := do
  let (root, settings) ← project logger
  let client := sourceClient settings
  let path := out.getD (settings.entryPath root)
  let content ← ExceptT.mk client.fetch
  makeParent path fun _ f => f.message
  attempt (FileSystem.writeFile path (Utf8.encode content)) fun _ => s!"failed to write {path}"
  say logger .success s!"Pulled {(Utf8.encode content).length} bytes from {client.base} into {path}"

def push (logger : Log.Logger) (input : Option String) : ExceptT String m Unit := do
  let (root, settings) ← project logger
  let client := sourceClient settings
  let path := input.getD (settings.entryPath root)
  match ← inquire (FileSystem.readText path) with
  | none => throw s!"failed to read {path}"
  | some content =>
    ExceptT.mk (client.update content)
    say logger .success s!"Pushed {path} to {client.base}"

/-- A session, and the seconds after which it is to end. -/
structure Playing (σ : Type) where
  session : Live.Session σ
  settings : Settings
  seconds : Option Binary64

/-- The device takes some blocks. -/
def Playing.hear (e : Engine μ σ) (p : Playing σ) : m (Playing σ) := do
  let blocks := 4
  return { p with session :=
    ← p.session.play e p.settings.channels p.settings.bufferSize blocks }

/-- Something was changed where the session watches. -/
def Playing.saved (e : Engine μ σ) (notices : String → List Watch.Notice) (p : Playing σ) :
    m (Playing σ) := do
  return { p with session := ← p.session.saved e fun w => notices w.directory }

/-- A time in which something can be played. -/
def isSpan (x : Binary64) : Bool := x.isFinite && !x.isNegative && x.magnitude != 0

def withVolume (settings : Settings) (volume : Option Binary32) : Settings :=
  match volume with
  | some v => { settings with audio := { settings.audio with volume := v } }
  | none => settings

def play (e : Engine μ σ) (logger : Log.Logger) (o : PlayOptions) :
    ExceptT String m (Playing σ) := do
  let (root, settings) ← project logger
  let settings := withVolume (withMode settings o.mode) o.volume
  let entry := o.input.getD (settings.entryPath root)
  if !(← inquire (FileSystem.isPresent entry)) then
    say logger .error s!"Source file not found: {entry}"
    throw s!"missing source file {entry}"
  let session ← Live.Session.start e logger settings entry o.watch
  return ⟨session, settings, o.seconds.filter isSpan⟩

/-- Runs a command; a session is left if it is to go on. -/
def run (e : Engine μ σ) (order : Order) : ExceptT String m (Option (Playing σ)) := do
  let logger : Log.Logger := ⟨order.verbose⟩
  match order.command with
  | .play o => return some (← play e logger o)
  | .compile o => compile logger o; return none
  | .render o => render e logger o; return none
  | .init o => init logger o; return none
  | .pull out => pull logger out; return none
  | .push input => push logger input; return none

end LiveSound.Cli
