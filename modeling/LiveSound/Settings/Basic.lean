import LiveSound.Compile.Dispatcher

/-!
# Project settings

What a project file may set, with the values that hold when it does not. Values outside the range
that playback can work with are kept as they were given; the functions on `Settings` bring them
into range.
-/

namespace LiveSound

structure CompilationSettings where
  mode : Compile.Mode
  options : Compile.Options
  deriving DecidableEq, Repr

structure LocalToolchainSettings where
  enabled : Bool
  cdnUrl : String
  clang : String
  linker : String
  sysroot : String
  /-- Without one, the directory is in the user's cache. -/
  cacheDirectory : Option String
  timeout : Nat
  deriving DecidableEq, Repr

structure RemoteSettings where
  enabled : Bool
  endpoint : String
  artifactUrl : Option String
  timeout : Nat
  deriving DecidableEq, Repr

structure LocalSettings where
  enabled : Bool
  url : String
  artifactPath : Option String
  timeout : Nat
  deriving DecidableEq, Repr

structure AudioSettings where
  sampleRate : Nat
  channels : Nat
  /-- Frames in a buffer. -/
  bufferSize : Nat
  volume : Binary32
  deriving DecidableEq

structure PathSettings where
  /-- The source of the project's sound. -/
  entry : String
  /-- Where the compiled module goes. -/
  output : String
  deriving DecidableEq, Repr

structure LiveSettings where
  /-- Milliseconds without a change after which changes count as one. -/
  debounce : Nat
  deriving DecidableEq, Repr

structure Settings where
  compilation : CompilationSettings
  toolchain : LocalToolchainSettings
  remote : RemoteSettings
  localServer : LocalSettings
  audio : AudioSettings
  paths : PathSettings
  live : LiveSettings
  deriving DecidableEq

def CompilationSettings.default : CompilationSettings := ⟨.auto, .default⟩

def LocalToolchainSettings.default : LocalToolchainSettings :=
  ⟨false, "https://your-cdn.com/wasm-clang/", "clang", "wasm-ld", "sysroot.tar", none, 300000⟩

def RemoteSettings.default : RemoteSettings :=
  ⟨false, "https://your-worker.workers.dev/compile", none, 30000⟩

def LocalSettings.default : LocalSettings :=
  ⟨true, "http://localhost:3000", some "/build/index.wasm", 30000⟩

def AudioSettings.default : AudioSettings := ⟨44100, 2, 128, .one⟩

def PathSettings.default : PathSettings := ⟨"src/user.h", "build/module.wasm"⟩

def LiveSettings.default : LiveSettings := ⟨250⟩

namespace Settings

def default : Settings :=
  ⟨.default, .default, .default, .default, .default, .default, .default⟩

/-- Brings a number into a range. -/
def clamp (low high n : Nat) : Nat := max low (min n high)

def sampleRate (s : Settings) : Nat := clamp 8000 192000 s.audio.sampleRate

def channels (s : Settings) : Nat := clamp 1 8 s.audio.channels

def bufferSize (s : Settings) : Nat := clamp 16 8192 s.audio.bufferSize

/-- Between 0 and 1. What is no number stays so, and a negative zero keeps its sign. -/
def volume (s : Settings) : Binary32 :=
  let v := s.audio.volume
  if v.isNaN then v
  else if v.isNegative then if v.magnitude = 0 then v else .zero
  else if Binary32.one.magnitude < v.magnitude then .one
  else v

def debounce (s : Settings) : Nat := max 10 s.live.debounce

/-- For one exchange with the development server, in milliseconds. -/
def localTimeout (s : Settings) : Nat := max s.localServer.timeout 1

def entryPath (s : Settings) (root : String) : String := Path.join root s.paths.entry

def outputPath (s : Settings) (root : String) : String := Path.join root s.paths.output

/-- A flag that looks as if it gave the sample rate. -/
def givesRate (flag : String) : Bool := flag.startsWith "-DSAMPLE_RATE"

/-- Sources learn the sample rate from a macro, unless the project gives it itself. -/
def rateFlags (s : Settings) : List String :=
  if s.compilation.options.additionalFlags.any givesRate then []
  else [s!"-DSAMPLE_RATE={s.sampleRate}"]

def compileOptions (s : Settings) : Compile.Options :=
  let o := s.compilation.options
  { o with
    optimizationLevel := min o.optimizationLevel 3
    additionalFlags := o.additionalFlags ++ s.rateFlags }

/-- How the project's compiles are dispatched; `userCache` is the user's cache directory. -/
def dispatcherConfig (s : Settings) (userCache : String) : Compile.DispatcherConfig :=
  let t := s.toolchain
  let cache := t.cacheDirectory.getD (Compile.ToolchainSettings.defaultCache userCache)
  { mode := s.compilation.mode
    toolchainEnabled := t.enabled
    remoteEnabled := s.remote.enabled
    localEnabled := s.localServer.enabled
    toolchain := ⟨t.cdnUrl, cache, t.clang, t.linker, t.sysroot, max t.timeout 1⟩
    remote := ⟨s.remote.endpoint, s.remote.artifactUrl, max s.remote.timeout 1⟩
    localUrl := s.localServer.url
    localArtifactPath := s.localServer.artifactPath
    localTimeout := s.localTimeout
    options := s.compileOptions }

/-- The directory of a toolchain, if both name one. -/
def sameDirectory : Option String → Option String → Bool
  | some p, some q => Path.same p q
  | none, none => true
  | _, _ => false

/-- Both mean the same: paths may be written in several ways, and so may the number zero. What is
no number is unlike everything. -/
def alike (s t : Settings) : Bool :=
  s.compilation = t.compilation &&
  { s.toolchain with cacheDirectory := none } = { t.toolchain with cacheDirectory := none } &&
  sameDirectory s.toolchain.cacheDirectory t.toolchain.cacheDirectory &&
  s.remote = t.remote && s.localServer = t.localServer &&
  { s.audio with volume := .zero } = { t.audio with volume := .zero } &&
  s.audio.volume.equals t.audio.volume &&
  Path.same s.paths.entry t.paths.entry && Path.same s.paths.output t.paths.output &&
  s.live = t.live

end Settings

end LiveSound
