import LiveSound.Text.Utf8
import LiveSound.World.Path

/-!
# File trees

`Files` is a file system as a value: what stands under each absolute name. The root is always
there. Operations fail as those of a system do, and then leave everything as it was.
-/

namespace LiveSound

/-- Why the system refused an operation. -/
inductive OsFault where
  | notFound
  | badProgram
  | denied
  | fileExists
  | notDirectory
  | isDirectory
  | invalid
  | notEmpty
  deriving DecidableEq, Repr

def OsFault.message : OsFault → String
  | .notFound => "No such file or directory (os error 2)"
  | .badProgram => "Exec format error (os error 8)"
  | .denied => "Permission denied (os error 13)"
  | .fileExists => "File exists (os error 17)"
  | .notDirectory => "Not a directory (os error 20)"
  | .isDirectory => "Is a directory (os error 21)"
  | .invalid => "Invalid argument (os error 22)"
  | .notEmpty => "Directory not empty (os error 39)"

/-- What stands under a name. -/
inductive Entry where
  | file (content : Bytes) (mode : Nat)
  | directory
  deriving DecidableEq, Repr

/-- Names from the root. -/
abbrev Place := List String

/-- Each place at most once; the directories above each entry are entries too. -/
structure Files where
  entries : List (Place × Entry)
  deriving Repr

namespace Files

def empty : Files := ⟨[]⟩

def entry? (f : Files) (place : Place) : Option Entry :=
  if place.isEmpty then some .directory else f.entries.lookup place

def isDirectoryAt (f : Files) (place : Place) : Bool := f.entry? place == some .directory

def put (f : Files) (place : Place) (e : Entry) : Files :=
  ⟨(place, e) :: f.entries.filter (·.1 != place)⟩

/-- `place` is `top` or lies below it. -/
def isWithin (top place : Place) : Bool := top.isPrefixOf place

/-- Without what stands at a place and below it. -/
def drop (f : Files) (place : Place) : Files := ⟨f.entries.filter fun e => !isWithin place e.1⟩

/-- What stands at a place and below it, under another name. -/
def move (f : Files) (source target : Place) : Files :=
  let moved := f.entries.filter fun e => isWithin source e.1
  let rest := (f.drop source).drop target
  ⟨moved.map (fun e => (target ++ e.1.drop source.length, e.2)) ++ rest.entries⟩

/-! ## Names -/

/-- Follows a path from a place. Everything before the last part has to be a directory. -/
def follow (f : Files) : Place → List String → Except OsFault Place
  | place, [] => .ok place
  | place, part :: rest =>
    match f.entry? place with
    | none => .error .notFound
    | some (.file _ _) => .error .notDirectory
    | some .directory =>
      if part = "." then follow f place rest
      else if part = ".." then follow f place.dropLast rest
      else follow f (place ++ [part]) rest

/-- The place that a path names, as seen from `base`. A path that ends in a slash can only name a
directory, which need not be there. -/
def locate (f : Files) (base : Place) (p : String) : Except OsFault Place :=
  if p.isEmpty then .error .notFound
  else
    match f.follow (if Path.isAbsolute p then [] else base) (Path.parts p) with
    | .error e => .error e
    | .ok place =>
      match p.endsWith "/", f.entry? place with
      | true, some (.file _ _) => .error .notDirectory
      | _, _ => .ok place

/-- What a path names. -/
def find? (f : Files) (base : Place) (p : String) : Option Entry :=
  match f.locate base p with
  | .ok place => f.entry? place
  | .error _ => none

/-! ## Operations -/

def read (f : Files) (base : Place) (p : String) : Except OsFault Bytes :=
  match f.locate base p with
  | .error e => .error e
  | .ok place =>
    match f.entry? place with
    | some (.file content _) => .ok content
    | some .directory => .error .isDirectory
    | none => .error .notFound

/-- Writes a file that may or may not have been there; its mode stays. -/
def write (f : Files) (base : Place) (p : String) (content : Bytes) : Except OsFault Files :=
  match f.locate base p with
  | .error e => .error e
  | .ok place =>
    match f.entry? place with
    | some (.file _ mode) => .ok (f.put place (.file content mode))
    | some .directory => .error .isDirectory
    | none =>
      if p.endsWith "/" then .error .isDirectory
      else
        match f.entry? place.dropLast with
        | some .directory => .ok (f.put place (.file content 0o644))
        | some (.file _ _) => .error .notDirectory
        | none => .error .notFound

def makeDirectory (f : Files) (base : Place) (p : String) : Except OsFault Files :=
  match f.locate base p with
  | .error e => .error e
  | .ok place =>
    match f.entry? place with
    | some _ => .error .fileExists
    | none =>
      match f.entry? place.dropLast with
      | some .directory => .ok (f.put place .directory)
      | some (.file _ _) => .error .notDirectory
      | none => .error .notFound

/-- Makes a directory and those above it that are missing; `fuel` bounds their number. -/
def makeUpTo (base : Place) : Nat → Files → String → Except OsFault Files
  | 0, _, _ => .error .notFound
  | fuel + 1, f, p =>
    if p.isEmpty then .ok f
    else
      match f.makeDirectory base p with
      | .ok f => .ok f
      | .error .notFound =>
        match Path.parent? p with
        | none => .error .notFound
        | some above =>
          match makeUpTo base fuel f above with
          | .error e => .error e
          | .ok f =>
            match f.makeDirectory base p with
            | .ok f => .ok f
            | .error e => if f.find? base p = some .directory then .ok f else .error e
      | .error e => if f.find? base p = some .directory then .ok f else .error e

/-- Makes a directory and those above it that are missing. -/
def makeDirectories (f : Files) (base : Place) (p : String) : Except OsFault Files :=
  makeUpTo base (p.length + 1) f p

/-- Gives a file or a tree another name, in place of a file or an empty directory. -/
def rename (f : Files) (base : Place) (source target : String) : Except OsFault Files :=
  match f.locate base source, f.locate base target with
  | .error e, _ => .error e
  | _, .error e => .error e
  | .ok source, .ok place =>
    match f.entry? source, f.entry? place with
    | none, _ => .error .notFound
    | some (.file _ _), some .directory =>
      .error (if target.endsWith "/" then .notDirectory else .isDirectory)
    | some .directory, some (.file _ _) => .error .notDirectory
    | some (.file _ _), none =>
      if target.endsWith "/" then .error .notDirectory
      else if f.isDirectoryAt place.dropLast then .ok (f.move source place) else .error .notFound
    | some .directory, none =>
      if isWithin source place then .error .invalid
      else if f.isDirectoryAt place.dropLast then .ok (f.move source place) else .error .notFound
    | some (.file _ _), some (.file _ _) =>
      .ok (if source = place then f else f.move source place)
    | some .directory, some .directory =>
      if source = place then .ok f
      else if isWithin source place then .error .invalid
      else if f.entries.any fun e => isWithin place e.1 && e.1 != place then .error .notEmpty
      else .ok (f.move source place)

/-- Removes a directory and all that is in it. -/
def removeTree (f : Files) (base : Place) (p : String) : Except OsFault Files :=
  match f.locate base p with
  | .error e => .error e
  | .ok place =>
    match f.entry? place with
    | none => .error .notFound
    | some (.file _ _) => .error .notDirectory
    | some .directory => .ok (f.drop place)

def setMode (f : Files) (base : Place) (p : String) (mode : Nat) : Except OsFault Files :=
  match f.locate base p with
  | .error e => .error e
  | .ok place =>
    match f.entry? place with
    | some (.file content _) => .ok (f.put place (.file content mode))
    | some .directory => .ok f
    | none => .error .notFound

end Files

/-- What comes of unpacking the bytes of an archive, compressed or not, below the directory that a
path names: whether all of it could be unpacked, and the files then. -/
abbrev Unpacker := Bool → Bytes → Place → String → Files → Bool × Files

end LiveSound
