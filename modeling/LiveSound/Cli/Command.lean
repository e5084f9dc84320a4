import LiveSound.Cli.Arguments
import LiveSound.Compile.Backend
import LiveSound.Numeric.Literal
import LiveSound.Playback.WaveFile

/-!
# Commands

What the program can be asked to do, and the arguments that ask for it.
-/

namespace LiveSound.Cli

structure PlayOptions where
  input : Option String
  watch : Bool
  mode : Option Compile.Mode
  volume : Option Binary32
  seconds : Option Binary64
  deriving DecidableEq

structure CompileOptions where
  input : Option String
  out : Option String
  mode : Option Compile.Mode
  deriving DecidableEq, Repr

structure RenderOptions where
  /-- A module that is compiled already. -/
  module : Option String
  input : Option String
  buffers : Nat
  out : String
  depth : Playback.BitDepth
  deriving DecidableEq, Repr

structure InitOptions where
  name : Option String
  force : Bool
  deriving DecidableEq, Repr

inductive Command where
  | play (o : PlayOptions)
  | compile (o : CompileOptions)
  | render (o : RenderOptions)
  | init (o : InitOptions)
  /-- Fetches the source of the development server. -/
  | pull (out : Option String)
  /-- Replaces the source of the development server. -/
  | push (input : Option String)
  deriving DecidableEq

structure Order where
  verbose : Bool
  command : Command
  deriving DecidableEq

/-! ## Values -/

def anyText (_ : String) : Option UsageFault := none

def checkPath (text : String) : Option UsageFault :=
  if text.isEmpty then some .invalidValue else none

def modeFault (text : String) : String :=
  s!"unknown compile mode '{text}' (expected auto, toolchain, remote or local)"

def checkMode (text : String) : Option UsageFault :=
  if (Compile.Mode.parse? text).isSome then none
  else some (.unreadableValue (some (modeFault text)))

def count? (text : String) : Option Nat := natural? 0x10000000000000000 text

def checkCount (text : String) : Option UsageFault :=
  if (count? text).isSome then none else some (.unreadableValue none)

def checkNumber (text : String) : Option UsageFault :=
  if (NumberLiteral.read? text).isSome then none else some (.unreadableValue none)

def depth? : String → Option Playback.BitDepth
  | "16" => some .sixteen
  | "32" => some .thirtyTwo
  | _ => none

def checkDepth (text : String) : Option UsageFault :=
  if (depth? text).isSome then none else some .invalidValue

/-! ## Arguments -/

def verboseSwitch : Switch := ⟨"verbose", some 'v', .flag⟩

/-- A command with these switches, besides the one that every command takes. -/
def leaf (name : String) (switches : List Switch) (exclusive : List (String × String)) : Shape :=
  ⟨name, verboseSwitch :: switches, exclusive, []⟩

def long (name : String) (check : String → Option UsageFault) : Switch := ⟨name, none, .value check⟩

def flag (name : String) : Switch := ⟨name, none, .flag⟩

def playShape : Shape :=
  leaf "play" [long "input" checkPath, flag "watch", long "mode" checkMode,
    long "volume" checkNumber, long "seconds" checkNumber] []

def compileShape : Shape :=
  leaf "compile" [long "input" checkPath, long "out" checkPath, long "mode" checkMode] []

def renderShape : Shape :=
  leaf "render" [long "module" checkPath, long "input" checkPath, long "buffers" checkCount,
    long "out" checkPath, long "bit-depth" checkDepth] [("module", "input")]

def initShape : Shape :=
  leaf "init" [⟨"name", some 'n', .value anyText⟩, flag "force"] []

def sourceShape : Shape :=
  ⟨"source", [verboseSwitch], [],
    [leaf "pull" [long "out" checkPath] [], leaf "push" [long "input" checkPath] []]⟩

def programShape : Shape :=
  ⟨"hearc", [verboseSwitch, ⟨"version", some 'V', .version⟩], [],
    [playShape, compileShape, renderShape, initShape, sourceShape]⟩

/-! ## Answers -/

def versionText : String := "hearc 0.1.0\n"

def helpLines : List String :=
  ["Hear-C: write C++ audio code, compile it to WebAssembly and hear it live.",
   "",
   "Usage: hearc [OPTIONS] <COMMAND>",
   "",
   "Commands:",
   "  play     Compile and play a source file, optionally reloading on save",
   "  compile  Compile a source file to a WebAssembly module",
   "  render   Render a module offline to a WAV file",
   "  init     Initialize a new project",
   "  source   Sync the source file with the local compile server",
   "  help     Print this message or the help of the given subcommand(s)",
   "",
   "Options:",
   "  -v, --verbose  Print compiler status and performance reports",
   "  -h, --help     Print help",
   "  -V, --version  Print version"]

def helpText : String := String.join (helpLines.map (· ++ "\n"))

/-- What is printed on standard output in place of running a command. -/
def UsageFault.output? : UsageFault → Option String
  | .version => some versionText
  | .help => some helpText
  | _ => none

/-! ## Reading -/

namespace Given

def value? (g : Given) (name : String) : Option String := g.values.lookup name

def has (g : Given) (name : String) : Bool := (g.value? name).isSome

def mode? (g : Given) : Option Compile.Mode := (g.value? "mode").bind Compile.Mode.parse?

def number? (g : Given) (name : String) : Option NumberLiteral :=
  (g.value? name).bind NumberLiteral.read?

end Given

/-- The command that was given; every shape without commands stands for one. -/
def Command.ofGiven? (g : Given) : Option Command :=
  match g.commands with
  | ["play"] => some (.play ⟨g.value? "input", g.has "watch", g.mode?,
      (g.number? "volume").map (·.toBinary32), (g.number? "seconds").map (·.toBinary64)⟩)
  | ["compile"] => some (.compile ⟨g.value? "input", g.value? "out", g.mode?⟩)
  | ["render"] => some (.render ⟨g.value? "module", g.value? "input",
      ((g.value? "buffers").bind count?).getD 345, (g.value? "out").getD "render.wav",
      ((g.value? "bit-depth").bind depth?).getD .thirtyTwo⟩)
  | ["init"] => some (.init ⟨g.value? "name", g.has "force"⟩)
  | ["source", "pull"] => some (.pull (g.value? "out"))
  | ["source", "push"] => some (.push (g.value? "input"))
  | _ => none

def Order.read (arguments : List String) : Except UsageFault Order := do
  let g ← programShape.read arguments
  match Command.ofGiven? g with
  | some command => return ⟨g.has "verbose", command⟩
  | none => throw .missingCommand

end LiveSound.Cli
