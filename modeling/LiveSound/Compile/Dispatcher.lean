import LiveSound.Compile.Service
import LiveSound.Compile.SourceClient
import LiveSound.Compile.Toolchain

/-!
# Dispatching compiles

A session is served by one backend, which is chosen at its first compile. If the toolchain was
chosen and cannot be made ready, the session goes to the fallback. While no backend could be made
ready, each compile tries anew.
-/

namespace LiveSound.Compile

open Net (Network)

structure DispatcherConfig where
  mode : Mode
  toolchainEnabled : Bool
  remoteEnabled : Bool
  localEnabled : Bool
  toolchain : ToolchainSettings
  remote : ServiceSettings
  /-- The address of the development server. -/
  localUrl : String
  localArtifactPath : Option String
  localTimeout : Nat
  /-- For compiles that bring no options of their own. -/
  options : Options
  deriving DecidableEq, Repr

namespace DispatcherConfig

def localSettings (c : DispatcherConfig) : ServiceSettings :=
  let base := Text.trimEndOf '/' c.localUrl
  ⟨base ++ "/rebuild", c.localArtifactPath.map fun path => base ++ "/" ++ Text.trimStartOf '/' path,
    c.localTimeout⟩

def selected (c : DispatcherConfig) : Backend :=
  .select c.mode c.toolchainEnabled c.remoteEnabled

def fallback? (c : DispatcherConfig) : Option Backend :=
  Backend.fallback? c.remoteEnabled c.localEnabled

end DispatcherConfig

/-- A backend that serves a session. -/
inductive Serving where
  | toolchain (t : Toolchain)
  | remote (s : ServiceSettings)
  | local (s : ServiceSettings)
  deriving DecidableEq, Repr

namespace Serving

def ofBackend (c : DispatcherConfig) : Backend → Serving
  | .toolchain => .toolchain (.ofSettings c.toolchain)
  | .remote => .remote c.remote
  | .local => .local c.localSettings

def backend : Serving → Backend
  | .toolchain _ => .toolchain
  | .remote _ => .remote
  | .local _ => .local

variable {m : Type → Type} [Monad m] [Network m] [FileSystem m] [Programs m]

/-- Makes it ready. Services are so from the start. -/
def prepare : Serving → m (Except Failure Serving)
  | .toolchain t => do
    let (t, ready) ← t.prepare
    return ready.map fun _ => .toolchain t
  | s => return .ok s

def compile (s : Serving) (r : Request) : m (Serving × Result) := do
  match s with
  | .toolchain t =>
    let (t, result) ← t.compile r
    return (.toolchain t, result)
  | .remote settings => return (s, ← Service.compile settings r)
  | .local settings => return (s, ← Service.compile settings r)

end Serving

structure Dispatcher where
  config : DispatcherConfig
  active : Option Serving

namespace Dispatcher

def ofConfig (c : DispatcherConfig) : Dispatcher := ⟨c, none⟩

def activeBackend? (d : Dispatcher) : Option Backend := d.active.map Serving.backend

def sourceClient (d : Dispatcher) : SourceClient :=
  .ofUrl d.config.localUrl d.config.localTimeout

/-- A request with the options of the session. -/
def request (d : Dispatcher) (source : String) : Request := ⟨source, d.config.options⟩

variable {m : Type → Type} [Monad m] [Network m] [FileSystem m] [Programs m]

/-- Chooses a backend and makes it ready; `report` tells of the progress. -/
def choose (report : String → m Unit) (c : DispatcherConfig) : m (Except Failure Serving) := do
  report s!"Initializing compiler (mode: {c.selected.name})..."
  match ← (Serving.ofBackend c c.selected).prepare with
  | .ok s => return .ok s
  | .error failure =>
    if c.selected ≠ .toolchain then return .error failure
    match c.fallback? with
    | none => return .error (.plain .assetLoad s!"toolchain unavailable: {failure.error}")
    | some backend =>
      report s!"Toolchain unavailable ({failure.error}), falling back to {backend.name}"
      (Serving.ofBackend c backend).prepare

/-- The backend of the session, which is chosen if there is none yet. -/
def establish (report : String → m Unit) (d : Dispatcher) :
    m (Dispatcher × Except Failure Serving) := do
  match d.active with
  | some s => return (d, .ok s)
  | none =>
    match ← choose report d.config with
    | .error failure => return (d, .error failure)
    | .ok s =>
      report "Compiler ready!"
      return ({ d with active := some s }, .ok s)

def compile (report : String → m Unit) (d : Dispatcher) (r : Request) :
    m (Dispatcher × Result) := do
  let (d, session) ← d.establish report
  match session with
  | .error failure => return (d, .failure failure)
  | .ok s =>
    report "Compiling..."
    let (s, result) ← s.compile r
    return ({ d with active := some s }, result)

end Dispatcher

end LiveSound.Compile
