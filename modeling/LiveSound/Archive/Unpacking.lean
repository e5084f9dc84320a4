import LiveSound.Archive.Tar
import LiveSound.World.Files

/-!
# Unpacking archives

What a host does that unpacks tar archives: the members are written in order, the directories last,
up to the first one that cannot be written.
-/

namespace LiveSound.Archive

/-- Goes on after an operation that succeeded. -/
def after (f : Files) (result : Except OsFault Files) (next : Files → Bool × Files) :
    Bool × Files :=
  match result with
  | .ok f => next f
  | .error _ => (false, f)

def unpackMember (base : Place) (directory : String) (member : Member) (f : Files) :
    Bool × Files :=
  let path := Path.join directory member.path
  match member.kind with
  | .directory => after f (f.makeDirectories base path) (true, ·)
  | .file content =>
    let above := (Path.parent? path).getD directory
    after f (f.makeDirectories base above) fun f =>
      after f (f.write base path content) fun f =>
        after f (f.setMode base path (member.mode &&& 0o777)) (true, ·)

/-- Writes members in order up to the first that fails. -/
def unpackMembers (base : Place) (directory : String) : List Member → Files → Bool × Files
  | [], f => (true, f)
  | member :: rest, f =>
    match unpackMember base directory member f with
    | (true, f) => unpackMembers base directory rest f
    | (false, f) => (false, f)

def Member.isDirectory (member : Member) : Bool :=
  match member.kind with
  | .directory => true
  | .file _ => false

/-- Writes what an archive holds. -/
def unpack (base : Place) (directory : String) (listing : Listing) (f : Files) : Bool × Files :=
  let (directories, files) := listing.members.partition (·.isDirectory)
  match unpackMembers base directory files f with
  | (true, f) =>
    if listing.complete then unpackMembers base directory directories f else (false, f)
  | (false, f) => (false, f)

def listing (compressed : Bool) (bytes : Bytes) : Listing :=
  Tar.read (if compressed then Gzip.read bytes else ⟨bytes, true⟩)

def unpacker : Unpacker := fun compressed bytes base directory =>
  unpack base directory (listing compressed bytes)

end LiveSound.Archive
