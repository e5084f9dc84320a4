import LiveSound.Compile.Backend
import LiveSound.Compile.Diagnostic
import LiveSound.Compile.Harness
import LiveSound.Compile.Request
import LiveSound.Compile.Result
import LiveSound.World.Host

/-!
# The toolchain

A compiler, a linker and a directory of headers and libraries, kept in a cache directory. What is
missing there is downloaded: the two programs as they are, the directory as an archive. Each file
comes under its final name only when it is complete, so a download that broke off is not taken for
an asset later.
-/

namespace LiveSound.Compile

open Net (Network)

structure ToolchainSettings where
  /-- Where the assets are downloaded from. -/
  cdnUrl : String
  cacheDirectory : String
  clang : String
  linker : String
  /-- The name of the archive; compressed if it ends in `.gz` or `.tgz`. -/
  sysroot : String
  /-- For one compile, in milliseconds. -/
  timeout : Nat
  deriving DecidableEq, Repr

namespace ToolchainSettings

def ofUrl (cdnUrl cacheDirectory : String) : ToolchainSettings :=
  ⟨cdnUrl, cacheDirectory, "clang", "wasm-ld", "sysroot.tar", Backend.toolchain.deadline⟩

/-- The cache directory of those who name none, in the user's. -/
def defaultCache (userCache : String) : String :=
  Path.join (Path.join userCache "hear-c") "toolchain"

def assetUrl (s : ToolchainSettings) (name : String) : String :=
  Text.trimEndOf '/' s.cdnUrl ++ "/" ++ name

end ToolchainSettings

/-- The paths of a toolchain that is ready. -/
structure Assets where
  clang : String
  linker : String
  sysroot : String
  deriving DecidableEq, Repr

namespace Toolchain

/-! ## Assets -/

section

variable {m : Type → Type} [Monad m] [Network m] [FileSystem m]

def downloadTrouble (url : String) (t : Net.Trouble) : String :=
  s!"Failed to download {url}: {t.message}"

def readAsset (url : String) (r : Net.Reply) : Except String Bytes :=
  if r.isSuccess then r.bytes.mapError fun t => s!"Failed to read {url}: {t.message}"
  else .error s!"Failed to download {url}: HTTP {Net.statusText r.status}"

/-- For one download, in milliseconds. -/
def downloadTime : Nat := Backend.toolchain.deadline

/-- Downloads to a name beside the final one and then renames. -/
def download (url destination : String) : ExceptT String m Unit := do
  let reply ← attempt (Net.fetch .get url none downloadTime) (downloadTrouble url)
  let bytes ← ExceptT.mk (pure (readAsset url reply))
  let part := Path.withExtension destination "part"
  attempt (FileSystem.writeFile part bytes) fun f => s!"failed to write {part}: {f.message}"
  attempt (FileSystem.rename part destination) fun f =>
    s!"failed to move {destination}: {f.message}"

/-- Makes sure that a program is in the cache. -/
def ensureProgram (s : ToolchainSettings) (path : String) : ExceptT String m Unit := do
  if ← inquire (FileSystem.isFile path) then return
  match Path.fileName? path with
  | none => throw s!"invalid asset path: {path}"
  | some name =>
    download (s.assetUrl name) path
    attempt (FileSystem.setMode path 0o755) fun f =>
      s!"failed to mark {path} executable: {f.message}"

def isCompressed (archive : String) : Bool :=
  match Path.fileName? archive with
  | some name => name.endsWith ".gz" || name.endsWith ".tgz"
  | none => false

def unpackSysroot (archive target : String) : ExceptT String m Unit := do
  let bytes ← attempt (FileSystem.readFile archive) fun f =>
    s!"failed to open archive: {archive}: {f.message}"
  let staging := Path.withExtension target "unpacking"
  if ← inquire (FileSystem.isPresent staging) then
    attempt (FileSystem.removeTree staging) fun f => s!"failed to clear {staging}: {f.message}"
  attempt (FileSystem.makeDirectories staging) OsFault.message
  if ← inquire (FileSystem.unpack (isCompressed archive) bytes staging) then
    attempt (FileSystem.rename staging target) fun f =>
      s!"failed to move sysroot into {target}: {f.message}"
  else throw s!"failed to extract {archive}: damaged archive"

/-- Makes sure that the directory of headers and libraries is in the cache. -/
def ensureSysroot (s : ToolchainSettings) (path : String) : ExceptT String m Unit := do
  if ← inquire (FileSystem.isDirectory path) then return
  let archive := Path.join s.cacheDirectory s.sysroot
  if !(← inquire (FileSystem.isFile archive)) then download (s.assetUrl s.sysroot) archive
  unpackSysroot archive path

/-- Where the assets are when they are ready. -/
def assetsOf (s : ToolchainSettings) : Assets :=
  ⟨Path.join s.cacheDirectory s.clang, Path.join s.cacheDirectory s.linker,
    Path.join s.cacheDirectory "sysroot"⟩

/-- Downloads what the cache lacks: compiler, linker and archive, in this order. -/
def fetchAssets (s : ToolchainSettings) : ExceptT String m Assets := do
  if Text.allBlank s.cdnUrl then throw "toolchain CDN URL not configured"
  attempt (FileSystem.makeDirectories s.cacheDirectory) fun f =>
    s!"failed to create cache directory: {s.cacheDirectory}: {f.message}"
  let assets := assetsOf s
  ensureProgram s assets.clang
  ensureProgram s assets.linker
  ensureSysroot s assets.sysroot
  return assets

end

/-! ## Compiling -/

def moduleFile : String := "module.wasm"

def arguments (a : Assets) (o : Options) : List String :=
  let exported := (o.exportedFunctions.map (Text.trimStartOf '_')).filter (· != "")
  ["--driver-mode=g++", "--target=wasm32-wasi", s!"--sysroot={a.sysroot}",
   s!"--ld-path={a.linker}", s!"-O{min o.optimizationLevel 3}", "-fno-exceptions", "-I.",
   "harness.cpp", "-o", moduleFile] ++
  (if o.sdlEnabled then ["-DHEAR_C_SDL=1"] else []) ++
  exported.map (s!"-Wl,--export={·}") ++ o.additionalFlags

def invocation (a : Assets) (r : Request) : Invocation :=
  ⟨a.clang, arguments a r.options,
    [("user.h", Utf8.encode r.source), ("harness.cpp", Utf8.encode harness)], moduleFile⟩

/-- What a failed compile has to say: its errors, or all that was printed. -/
def details (diagnostics : List Diagnostic) (stderr : String) : List String :=
  match Diagnostic.texts .error diagnostics with
  | [] => (Text.lines stderr).filter (!Text.allBlank ·)
  | errors => errors

/-- The result of a run that came to its end. -/
def judge (f : Finished) : Result :=
  let stdout := Utf8.lossy f.stdout
  let stderr := Utf8.lossy f.stderr
  let diagnostics := Diagnostic.parse stderr
  let refused := Result.failure
    ⟨.compile, "Compilation failed", details diagnostics stderr, some stdout, some stderr⟩
  match f.success, f.product with
  | true, .unreadable path fault => .fail .compile s!"failed to read {path}: {fault.message}"
  | true, .file bytes =>
    match Module.ofBytes bytes with
    | .ok artifact =>
      let output := if Text.allBlank stdout then s!"Compiled {artifact.size} bytes" else stdout
      .success ⟨artifact, output, Diagnostic.texts .warning diagnostics⟩
    | .error fault => .fail .compile s!"compiler produced an invalid module: {fault.message}"
  | _, _ => refused

def verdict (a : Assets) (timeout : Nat) : Run → Result
  | .noDirectory trouble => .fail .compile s!"failed to create build directory: {trouble}"
  | .noInputs f => .fail .compile s!"failed to stage sources: {f.message}"
  | .notStarted f => .fail .assetLoad s!"failed to run {a.clang}: {f.message}"
  | .unfinished => .failure (.timeout timeout)
  | .finished f => judge f

variable {m : Type → Type} [Monad m] [Programs m]

def runCompiler (s : ToolchainSettings) (a : Assets) (r : Request) : m Result := do
  return verdict a s.timeout (← Programs.run (invocation a r) s.timeout)

end Toolchain

/-- The toolchain of a session; once it is ready it stays so. -/
structure Toolchain where
  settings : ToolchainSettings
  assets : Option Assets
  deriving DecidableEq, Repr

namespace Toolchain

variable {m : Type → Type} [Monad m] [Network m] [FileSystem m] [Programs m]

def ofSettings (s : ToolchainSettings) : Toolchain := ⟨s, none⟩

def prepare (t : Toolchain) : m (Toolchain × Except Failure Assets) := do
  match t.assets with
  | some a => return (t, .ok a)
  | none =>
    match ← (fetchAssets t.settings).run with
    | .ok a => return ({ t with assets := some a }, .ok a)
    | .error message => return (t, .error (.plain .assetLoad message))

def compile (t : Toolchain) (r : Request) : m (Toolchain × Result) := do
  let (t, ready) ← t.prepare
  match ready with
  | .error failure => return (t, .failure failure)
  | .ok a => return (t, ← runCompiler t.settings a r)

end Toolchain

end LiveSound.Compile
