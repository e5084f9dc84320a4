import LiveSound.Settings.Read
import LiveSound.Settings.Write
import LiveSound.World.Host

/-!
# Settings files

A project has at most one settings file that counts: the first of three names under which there
is a file. Without one the defaults hold.
-/

namespace LiveSound.Settings

variable {m : Type → Type} [Monad m] [FileSystem m]

/-- The names of settings files, the first one first. -/
def fileNames : List String := ["hearc.toml", "hearc.json", ".hearc"]

def firstFile : List String → m (Option String)
  | [] => return none
  | p :: rest => do if ← FileSystem.isFile p then return some p else firstFile rest

/-- The settings file of a project. -/
def find (root : String) : m (Option String) := firstFile (fileNames.map (Path.join root))

/-- The format of a file of that name. One without an extension is told by its first character. -/
def formatOf (path text : String) : SettingsFormat :=
  match Path.extension? path with
  | some "json" => .json
  | some "toml" => .toml
  | _ => if (Text.trimStart text).startsWith "\x7b" then .json else .toml

def formatFault : SettingsFormat → String → String
  | .json, path => s!"invalid JSON config: {path}"
  | .toml, path => s!"invalid TOML config: {path}"

def ofContent (path : String) (content : Bytes) : Except String Settings :=
  match Utf8.decode? content with
  | none => .error s!"failed to read config: {path}"
  | some text =>
    match (formatOf path text).read? text with
    | some s => .ok s
    | none => .error (formatFault (formatOf path text) path)

def load (root : String) : ExceptT String m Settings := do
  match ← inquire (find root) with
  | none => return .default
  | some path =>
    let content ← attempt (FileSystem.readFile path) fun _ => s!"failed to read config: {path}"
    ExceptT.mk (pure (ofContent path content))

def toContent (s : Settings) : Except String Bytes :=
  s.write?.elim (.error "serialize config") fun text => .ok (Utf8.encode text)

def save (s : Settings) (path : String) : ExceptT String m Unit := do
  let content ← ExceptT.mk (pure s.toContent)
  makeParent path fun parent _ => s!"failed to create config directory: {parent}"
  attempt (FileSystem.writeFile path content) fun _ => s!"unable to write config file: {path}"

end LiveSound.Settings
