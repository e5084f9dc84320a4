import LiveSound.Watch.Notice
import LiveSound.World.Host

/-!
# A world as a value

`World` holds a file tree, what the network and the programs do, and a record of what they were
asked. The network and the programs may do anything that depends on what was asked before. Archives
are unpacked by a library, which is a part of the world, too.
-/

namespace LiveSound

open Net (Network Exchange)

structure World where
  files : Files
  /-- From where paths are seen. -/
  directory : Place
  /-- Where the user keeps files that can be fetched again. -/
  cache : String
  /-- What comes of a request, after those that were sent before. -/
  network : List Net.Request → Net.Request → Exchange
  /-- All requests so far. -/
  requests : List Net.Request
  unpacker : Unpacker
  /-- What a program of this content does, after the runs before. -/
  program : List Invocation → Bytes → Invocation → Run
  /-- All runs so far. -/
  runs : List Invocation
  printed : String
  /-- There is a sound device; what is played on it is heard by nobody. -/
  hasDevice : Bool

namespace World

/-- Does something to the file tree. -/
def onFiles (change : Files → Place → Except OsFault Files) (w : World) :
    Except OsFault Unit × World :=
  match change w.files w.directory with
  | .ok files => (.ok (), { w with files := files })
  | .error f => (.error f, w)

/-- The content of a program file that may be run. -/
def executable (f : Files) (base : Place) (p : String) : Except OsFault Bytes :=
  match f.locate base p with
  | .error e => .error e
  | .ok place =>
    match f.entry? place with
    | none => .error .notFound
    | some .directory => .error .denied
    | some (.file content mode) => if mode &&& 0o111 = 0 then .error .denied else .ok content

/-- Somebody changes a file; what the system tells of it. -/
def change (c : Watch.Change) : StateM World (List Watch.Notice) := fun w =>
  let (files, notices) := Watch.perform w.files w.directory c
  (notices, { w with files := files })

def noticesIn (w : World) (directory : String) (notices : List Watch.Notice) :
    List Watch.Notice :=
  match w.files.locate w.directory directory with
  | .ok place => notices.filter (·.isIn place)
  | .error _ => []

/-- A program runs in a directory of its own, so only an absolute name leads to it. -/
def run (w : World) (i : Invocation) : Run × World :=
  if !Path.isAbsolute i.program then (.notStarted .notFound, w)
  else
    match executable w.files w.directory i.program with
    | .error f => (.notStarted f, w)
    | .ok content => (w.program w.runs content i, { w with runs := w.runs ++ [i] })

instance : FileSystem (StateM World) where
  readFile p := fun w => (w.files.read w.directory p, w)
  writeFile p content := onFiles fun f base => f.write base p content
  makeDirectories p := onFiles fun f base => f.makeDirectories base p
  rename p q := onFiles fun f base => f.rename base p q
  removeTree p := onFiles fun f base => f.removeTree base p
  setMode p mode := onFiles fun f base => f.setMode base p mode
  unpack compressed content p := fun w =>
    let (whole, files) := w.unpacker compressed content w.directory p w.files
    (whole, { w with files := files })
  isFile p := fun w =>
    (match w.files.find? w.directory p with
      | some (.file _ _) => true
      | _ => false, w)
  isDirectory p := fun w => (w.files.find? w.directory p == some .directory, w)
  isPresent p := fun w => ((w.files.find? w.directory p).isSome, w)
  currentDirectory := fun w => ("/" ++ String.intercalate "/" w.directory, w)
  cacheDirectory := fun w => (w.cache, w)

/-- Nothing takes any time. -/
instance : Network (StateM World) where
  exchange r _ := fun w => ((w.network w.requests r, 0), { w with requests := w.requests ++ [r] })

instance : Programs (StateM World) where
  run i _ := fun w => w.run i

instance : Terminal (StateM World) where
  print text := fun w => ((), { w with printed := w.printed ++ text })

instance : Clock (StateM World) where
  nanoseconds := fun w => (0, w)

instance : AudioDevice (StateM World) where
  openOutput := fun w => (w.hasDevice, w)

end World

end LiveSound
