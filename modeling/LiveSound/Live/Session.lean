import LiveSound.Live.Loader
import LiveSound.Settings.Basic
import LiveSound.Watch.Watcher

/-!
# Live sessions

A session plays a source on a sound device and, if it is told to watch it, loads it again whenever
it is saved. A save that fails to compile changes nothing.
-/

namespace LiveSound.Live

open Guest (Engine)
open Net (Network)

structure Session (σ : Type) where
  logger : Log.Logger
  options : Compile.Options
  loader : Loader σ
  /-- Without one the session only plays. -/
  watcher : Option Watch.Watcher

namespace Session

variable {μ σ : Type} {m : Type → Type} [Monad m] [FileSystem m] [Network m] [Programs m]
  [Terminal m] [Clock m] [AudioDevice m]

/-- Lines that tell of the progress of a compile. -/
def report (logger : Log.Logger) (line : String) : m Unit :=
  Terminal.print (logger.log .debug line)

def logEvents (logger : Log.Logger) (events : List Event) : m Unit :=
  Terminal.print (String.join (events.map logger.event))

/-- The processor takes what was sent to it. -/
def settle (e : Engine μ σ) (s : Session σ) : m (Session σ) := do
  let (processor, events) := s.loader.processor.serve e
  logEvents s.logger events
  return { s with loader := { s.loader with processor := processor } }

/-- Loads a source and lets the processor take it. -/
def load (e : Engine μ σ) (path : String) (s : Session σ) :
    m (Session σ × Except LoadFault Unit) := do
  let (loader, outcome) ← s.loader.load s.logger s.options (report s.logger) path
  let s ← settle e { s with loader := loader }
  return (s, outcome)

def play (e : Engine μ σ) (channels frames blocks : Nat) (s : Session σ) : m (Session σ) := do
  let p := s.loader.processor
  let (deck, _, events) := p.deck.render e channels frames blocks
  logEvents s.logger events
  return { s with loader := { s.loader with processor := { p with deck := deck } } }

/-- What the session waits for: saves, or only its end. -/
def await (settings : Settings) (entry : String) (watch : Bool) (s : Session σ) :
    ExceptT String m (Session σ) := do
  if watch then
    let watcher ← attempt (Watch.Watcher.start entry settings.debounce) fun _ =>
      "failed to initialise file watcher"
    inquire (Terminal.print (s.logger.log .watch s!"Watching {entry}"))
    return { s with watcher := some watcher }
  else
    inquire (Terminal.print (s.logger.log .info "Playing. Press Ctrl-C to stop."))
    return s

/-- How the device is used. -/
def outputText (s : Settings) : String :=
  s!"Audio output: {s.sampleRate} Hz, {s.channels} ch, {s.bufferSize} frames per block"

/-- Starts to play a source. If it cannot be loaded, a session that watches waits for the next
save. -/
def start (e : Engine μ σ) (logger : Log.Logger) (settings : Settings) (entry : String)
    (watch : Bool) : ExceptT String m (Session σ) := do
  let cache ← inquire FileSystem.cacheDirectory
  if !(← inquire AudioDevice.openOutput) then throw "failed to start audio output"
  inquire (Terminal.print (logger.log .info (outputText settings)))
  let loader : Loader σ := ⟨.start (settings.dispatcherConfig cache), .fresh settings.sampleRate⟩
  let (s, outcome) ← inquire (load e entry ⟨logger, settings.compileOptions, loader, none⟩)
  match outcome with
  | .ok () => pure ()
  | .error f =>
    if !watch then throw f.message
    inquire (Terminal.print (logger.log .warning
      "Initial compile failed; waiting for the next save"))
  await settings entry watch s

/-- The source was saved. -/
def reload (e : Engine μ σ) (path : String) (s : Session σ) : m (Session σ) := do
  Terminal.print (s.logger.log .watch s!"Change detected: {path}")
  return (← load e path s).1

/-- The watcher gets notices, and then it is quiet for as long as it has to be. -/
def saved (e : Engine μ σ) (notices : Watch.Watcher → List Watch.Notice) (s : Session σ) :
    m (Session σ) := do
  match s.watcher with
  | none => return s
  | some w =>
    match w.next 0 (notices w) with
    | (w, some path) => reload e path { s with watcher := some w }
    | (w, none) => return { s with watcher := some w }

def stop (s : Session σ) : m Unit :=
  Terminal.print (s.logger.log .success "Playback stopped.")

end Session

end LiveSound.Live
