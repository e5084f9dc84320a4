import LiveSound.Cli.Command
import LiveSound.Cli.Template
import LiveSound.Log.Logger
import LiveSound.Settings.Store

/-!
# New projects

A new project has a settings file with all defaults, a first source, and a directory for modules.
Unless it is forced, nothing is made where something of that kind is there already.
-/

namespace LiveSound.Cli

variable {m : Type → Type} [Monad m] [FileSystem m] [Terminal m]

/-- Prints a line. -/
def say (logger : Log.Logger) (level : Log.Level) (message : String) : ExceptT String m Unit :=
  inquire (Terminal.print (logger.log level message))

def settingsFile : String := "hearc.toml"

/-- Writes the files of a project. -/
def scaffold (directory : String) (settings : Settings) : ExceptT String m Unit := do
  settings.save (Path.join directory settingsFile)
  let entry := settings.entryPath directory
  makeParent entry fun _ f => f.message
  attempt (FileSystem.writeFile entry (Utf8.encode template)) OsFault.message
  makeParent (settings.outputPath directory) fun _ f => f.message

/-- Refuses to go where a project is, or where anything of the project's name is. -/
def checkFree (logger : Log.Logger) (o : InitOptions) (directory project : String) :
    ExceptT String m Unit := do
  if o.force then return
  if o.name.isSome && (← inquire (FileSystem.isPresent directory)) then
    say logger .error s!"Directory '{project}' already exists"
    throw "Target directory already exists"
  if ← inquire (FileSystem.isPresent (Path.join directory settingsFile)) then
    say logger .error
      s!"'{project}' already contains {settingsFile} (use --force to overwrite)"
    throw "Project already initialized"

def nextSteps (o : InitOptions) : List String :=
  ["Next steps:"] ++ (o.name.map fun name => s!"  cd {name}").toList ++
    [s!"  edit {Settings.default.paths.entry}", "  hearc play --watch"]

def sayAll (logger : Log.Logger) (level : Log.Level) : List String → ExceptT String m Unit
  | [] => return
  | line :: rest => do
    say logger level line
    sayAll logger level rest

/-- Makes a project, in a new directory if it is given a name. -/
def init (logger : Log.Logger) (o : InitOptions) : ExceptT String m Unit := do
  let current ← inquire FileSystem.currentDirectory
  let directory := match o.name with
    | some name => Path.join current name
    | none => current
  let project := o.name.getD ((Path.fileName? current).getD "")
  checkFree logger o directory project
  say logger .action s!"Initializing '{project}' project..."
  attempt (FileSystem.makeDirectories directory) OsFault.message
  scaffold directory .default
  say logger .success s!"Project '{project}' initialized successfully at '{directory}'"
  sayAll logger .info (nextSteps o)

end LiveSound.Cli
