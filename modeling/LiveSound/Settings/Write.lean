import LiveSound.Settings.Basic
import LiveSound.Toml.Writer

/-!
# Writing settings
-/

namespace LiveSound

namespace Settings

def optionalData : Option String → Data
  | some t => .text t
  | none => .null

def textsData (items : List String) : Data := .list (items.map .text)

def compilationMembers (s : CompilationSettings) : List (String × Data) :=
  [("mode", .text s.mode.name), ("optimization_level", .integer s.options.optimizationLevel),
   ("sdl_enabled", .bool s.options.sdlEnabled),
   ("exported_functions", textsData s.options.exportedFunctions),
   ("additional_flags", textsData s.options.additionalFlags)]

def toolchainMembers (s : LocalToolchainSettings) : List (String × Data) :=
  [("enabled", .bool s.enabled), ("cdn_url", .text s.cdnUrl), ("clang", .text s.clang),
   ("linker", .text s.linker), ("sysroot", .text s.sysroot),
   ("cache_dir", optionalData s.cacheDirectory), ("timeout_ms", .integer s.timeout)]

def remoteMembers (s : RemoteSettings) : List (String × Data) :=
  [("enabled", .bool s.enabled), ("endpoint", .text s.endpoint),
   ("artifact_url", optionalData s.artifactUrl), ("timeout_ms", .integer s.timeout)]

def localMembers (s : LocalSettings) : List (String × Data) :=
  [("enabled", .bool s.enabled), ("url", .text s.url),
   ("artifact_path", optionalData s.artifactPath), ("timeout_ms", .integer s.timeout)]

def audioMembers (s : AudioSettings) : List (String × Data) :=
  [("sample_rate", .integer s.sampleRate), ("channels", .integer s.channels),
   ("buffer_size", .integer s.bufferSize), ("volume", .float s.volume.toBinary64)]

def pathMembers (s : PathSettings) : List (String × Data) :=
  [("entry", .text s.entry), ("output", .text s.output)]

def liveMembers (s : LiveSettings) : List (String × Data) :=
  [("debounce_ms", .integer s.debounce)]

def toSections (s : Settings) : List Toml.Section :=
  [⟨"compilation", compilationMembers s.compilation⟩, ⟨"toolchain", toolchainMembers s.toolchain⟩,
   ⟨"remote", remoteMembers s.remote⟩, ⟨"local", localMembers s.localServer⟩,
   ⟨"audio", audioMembers s.audio⟩, ⟨"paths", pathMembers s.paths⟩, ⟨"live", liveMembers s.live⟩]

/-- The settings as the text of a file; none if a number is too large for it. -/
def write? (s : Settings) : Option String := Toml.write? s.toSections

end Settings

end LiveSound
