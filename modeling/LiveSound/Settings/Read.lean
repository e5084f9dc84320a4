import LiveSound.Json.Record
import LiveSound.Settings.Basic
import LiveSound.Toml.Reader

/-!
# Reading settings

Settings files come in two formats, which hold the same records. They differ in two points: how
a mode can be written as a record, and what happens to a list that has more values than its record
has fields.
-/

namespace LiveSound

inductive SettingsFormat where
  | toml
  | json
  deriving DecidableEq, Repr

namespace SettingsFormat

/-- A field whose value is read by `read`. -/
def field {σ α : Type} (name : String) (read : Data → Option α) (set : α → σ → σ) : Field Unit σ :=
  ⟨name, fun d record =>
    match read d with
    | some a => .ok (set a record)
    | none => .error ()⟩

/-- A natural number of so many bits. -/
def naturals (bits : Nat) : Data → Option Nat := Data.asNat? (Nat.pow 2 bits)

def optionalText : Data → Option (Option String) := Data.asOptional? Data.asText?

/-- The nearest number of 32 bits. A whole number is rounded once, not by way of 64 bits. -/
def volume? : Data → Option Binary32
  | .integer n => some (.ofRatio (n < 0) n.natAbs 1)
  | .float x => some x.toBinary32
  | _ => none

/-- What stands for nothing in a record that names a mode. -/
def isUnit (f : SettingsFormat) (d : Data) : Bool :=
  match f, d with
  | .json, .null => true
  | .toml, .record [] => true
  | .toml, .list [] => true
  | _, _ => false

/-- A mode, by its name or as a record with one member of that name. -/
def mode? (f : SettingsFormat) : Data → Option Compile.Mode
  | .text name => Compile.Mode.ofName? name
  | .record [(name, d)] => if f.isUnit d then Compile.Mode.ofName? name else none
  | _ => none

def section? {σ : Type} (f : SettingsFormat) (fields : List (Field Unit σ)) (start : σ)
    (d : Data) : Option σ :=
  let d := match f, d with
    | .toml, .list items => .list (items.take fields.length)
    | _, d => d
  (Field.readRecord fields () start d).toOption

def compilationFields (f : SettingsFormat) : List (Field Unit CompilationSettings) :=
  let option {α : Type} (name : String) (read : Data → Option α)
      (set : α → Compile.Options → Compile.Options) : Field Unit CompilationSettings :=
    field name read fun a s => { s with options := set a s.options }
  [field "mode" f.mode? fun m s => { s with mode := m },
   option "optimization_level" (naturals 8) fun n o => { o with optimizationLevel := n },
   option "sdl_enabled" Data.asBool? fun b o => { o with sdlEnabled := b },
   option "exported_functions" Data.asTexts? fun l o => { o with exportedFunctions := l },
   option "additional_flags" Data.asTexts? fun l o => { o with additionalFlags := l }]

def toolchainFields : List (Field Unit LocalToolchainSettings) :=
  [field "enabled" Data.asBool? fun b s => { s with enabled := b },
   field "cdn_url" Data.asText? fun t s => { s with cdnUrl := t },
   field "clang" Data.asText? fun t s => { s with clang := t },
   field "linker" Data.asText? fun t s => { s with linker := t },
   field "sysroot" Data.asText? fun t s => { s with sysroot := t },
   field "cache_dir" optionalText fun t s => { s with cacheDirectory := t },
   field "timeout_ms" (naturals 64) fun n s => { s with timeout := n }]

def remoteFields : List (Field Unit RemoteSettings) :=
  [field "enabled" Data.asBool? fun b s => { s with enabled := b },
   field "endpoint" Data.asText? fun t s => { s with endpoint := t },
   field "artifact_url" optionalText fun t s => { s with artifactUrl := t },
   field "timeout_ms" (naturals 64) fun n s => { s with timeout := n }]

def localFields : List (Field Unit LocalSettings) :=
  [field "enabled" Data.asBool? fun b s => { s with enabled := b },
   field "url" Data.asText? fun t s => { s with url := t },
   field "artifact_path" optionalText fun t s => { s with artifactPath := t },
   field "timeout_ms" (naturals 64) fun n s => { s with timeout := n }]

def audioFields : List (Field Unit AudioSettings) :=
  [field "sample_rate" (naturals 32) fun n s => { s with sampleRate := n },
   field "channels" (naturals 16) fun n s => { s with channels := n },
   field "buffer_size" (naturals 64) fun n s => { s with bufferSize := n },
   field "volume" volume? fun v s => { s with volume := v }]

def pathFields : List (Field Unit PathSettings) :=
  [field "entry" Data.asText? fun t s => { s with entry := t },
   field "output" Data.asText? fun t s => { s with output := t }]

def liveFields : List (Field Unit LiveSettings) :=
  [field "debounce_ms" (naturals 64) fun n s => { s with debounce := n }]

def fields (f : SettingsFormat) : List (Field Unit Settings) :=
  [field "compilation" (f.section? f.compilationFields .default)
     fun x s => { s with compilation := x },
   field "toolchain" (f.section? toolchainFields .default) fun x s => { s with toolchain := x },
   field "remote" (f.section? remoteFields .default) fun x s => { s with remote := x },
   field "local" (f.section? localFields .default) fun x s => { s with localServer := x },
   field "audio" (f.section? audioFields .default) fun x s => { s with audio := x },
   field "paths" (f.section? pathFields .default) fun x s => { s with paths := x },
   field "live" (f.section? liveFields .default) fun x s => { s with live := x }]

/-- The settings that a text gives; what it leaves out has its default. -/
def read? (f : SettingsFormat) (text : String) : Option Settings :=
  match f with
  | .json => (Json.readRecord f.fields () .default text).toOption
  | .toml => (Toml.read? text).bind fun d => f.section? f.fields .default d

end SettingsFormat

end LiveSound
