import LiveSound.Cli.Init
import LiveSound.Compile.Dispatcher
import LiveSound.Processor.Basic

/-!
# Compiling and rendering

`compile` writes the module of a source to a file, `render` plays a module without a sound device
and writes what is heard. Output files are touched only when there is something to write.
-/

namespace LiveSound.Cli

open Guest (Engine)
open Net (Network)

variable {μ σ : Type} {m : Type → Type} [Monad m] [FileSystem m] [Network m] [Programs m]
  [Terminal m]

/-- The current directory and the settings found there. -/
def project (logger : Log.Logger) : ExceptT String m (String × Settings) := do
  let root ← inquire FileSystem.currentDirectory
  let settings ← Settings.load root
  match ← inquire (Settings.find root) with
  | some path => say logger .debug s!"Using config {path}"
  | none => pure ()
  return (root, settings)

def withMode (settings : Settings) (mode : Option Compile.Mode) : Settings :=
  match mode with
  | some mode => { settings with compilation := { settings.compilation with mode := mode } }
  | none => settings

/-- A line about the progress of a compile. -/
def report (logger : Log.Logger) (line : String) : m Unit :=
  Terminal.print (logger.log .debug line)

/-- The module of a source; a failed compile is logged. -/
def compileFile (logger : Log.Logger) (settings : Settings) (input : String) :
    ExceptT String m Module := do
  match ← inquire (FileSystem.readText input) with
  | none => throw s!"failed to read {input}"
  | some source =>
    let cache ← inquire FileSystem.cacheDirectory
    let dispatcher := Compile.Dispatcher.ofConfig (settings.dispatcherConfig cache)
    say logger .action s!"Compiling {input}"
    let (_, result) ←
      inquire (dispatcher.compile (report logger) ⟨source, settings.compileOptions⟩)
    inquire (Terminal.print (logger.compileResult result))
    match result with
    | .success s => return s.artifact
    | .failure f => throw f.message

def compile (logger : Log.Logger) (o : CompileOptions) : ExceptT String m Unit := do
  let (root, settings) ← project logger
  let settings := withMode settings o.mode
  let out := o.out.getD (settings.outputPath root)
  let artifact ← compileFile logger settings (o.input.getD (settings.entryPath root))
  makeParent out fun parent _ => s!"failed to create {parent}"
  attempt (FileSystem.writeFile out artifact.bytes) fun _ => s!"failed to write {out}"
  say logger .success s!"Wrote {out} ({artifact.size} bytes)"

def renderedModule (logger : Log.Logger) (o : RenderOptions) (root : String)
    (settings : Settings) : ExceptT String m Module := do
  match o.module with
  | none => compileFile logger settings (o.input.getD (settings.entryPath root))
  | some path =>
    let bytes ← attempt (FileSystem.readFile path) fun _ => s!"failed to read {path}"
    match Module.ofBytes bytes with
    | .ok artifact => return artifact
    | .error f => throw f.message

def logEvents (logger : Log.Logger) (events : List Event) : ExceptT String m Unit :=
  inquire (Terminal.print (String.join (events.map logger.event)))

def installed (e : Engine μ σ) (logger : Log.Logger) (settings : Settings) (artifact : Module) :
    ExceptT String m (Processor σ) := do
  let (generation, p) := (Processor.fresh settings.sampleRate).issue
  let (p, outcome, events) := p.install e artifact generation
  logEvents logger events
  match outcome with
  | .failed f => throw s!"module failed to start: {f.message}"
  | _ => return p

def render (e : Engine μ σ) (logger : Log.Logger) (o : RenderOptions) :
    ExceptT String m Unit := do
  let (root, settings) ← project logger
  let artifact ← renderedModule logger o root settings
  let p ← installed e logger settings artifact
  let (_, samples, events) := p.deck.render e settings.channels settings.bufferSize o.buffers
  logEvents logger events
  let file := Playback.WaveFile.write settings.channels settings.sampleRate o.depth samples
  makeParent o.out fun parent _ => s!"failed to create {parent}"
  attempt (FileSystem.writeFile o.out file) fun _ => s!"failed to open WAV writer for {o.out}"
  say logger .success s!"Rendered {samples.length / settings.channels} frames to {o.out}"

end LiveSound.Cli
