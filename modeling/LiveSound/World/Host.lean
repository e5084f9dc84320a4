import LiveSound.Net.Exchange
import LiveSound.World.Files

/-!
# What a program asks of its host

The operations that reach outside, as classes of monads. A program that is written against them
runs on a real system as well as in a world that is a value.
-/

namespace LiveSound

class FileSystem (m : Type → Type) where
  readFile : String → m (Except OsFault Bytes)
  writeFile : String → Bytes → m (Except OsFault Unit)
  makeDirectories : String → m (Except OsFault Unit)
  rename : String → String → m (Except OsFault Unit)
  removeTree : String → m (Except OsFault Unit)
  setMode : String → Nat → m (Except OsFault Unit)
  /-- Unpacks the bytes of an archive, compressed or not, below a directory; false if anything was
  wrong, and then some of it may be there. -/
  unpack : Bool → Bytes → String → m Bool
  isFile : String → m Bool
  isDirectory : String → m Bool
  isPresent : String → m Bool
  /-- The directory from which paths are seen, as an absolute path. -/
  currentDirectory : m String
  /-- Where the user keeps files that can be fetched again. -/
  cacheDirectory : m String

/-- The text of a file; none if it cannot be read or is no text. -/
def FileSystem.readText {m : Type → Type} [Monad m] [FileSystem m] (path : String) :
    m (Option String) := do
  match ← FileSystem.readFile path with
  | .ok content => return Utf8.decode? content
  | .error _ => return none

/-- A program to run in a directory of its own. -/
structure Invocation where
  program : String
  arguments : List String
  /-- The files that the directory holds. -/
  inputs : List (String × Bytes)
  /-- The file that the program may leave there. -/
  product : String
  deriving Repr

/-- What is under the name of the product when a program has ended. -/
inductive Product where
  /-- No file. -/
  | missing
  /-- A file that cannot be read, and its path. -/
  | unreadable (path : String) (f : OsFault)
  | file (content : Bytes)
  deriving Repr

/-- How a run went. -/
structure Finished where
  /-- The program ended of itself with the code 0. -/
  success : Bool
  stdout : Bytes
  stderr : Bytes
  product : Product
  deriving Repr

inductive Run where
  /-- There is no directory for it, in the words of the host. -/
  | noDirectory (trouble : String)
  /-- The directory cannot hold its files. -/
  | noInputs (f : OsFault)
  | notStarted (f : OsFault)
  /-- It did not end in the time there was. -/
  | unfinished
  | finished (f : Finished)
  deriving Repr

/-- An operation whose refusal ends the work, told in words. -/
def attempt {m : Type → Type} [Monad m] {ε α : Type} (operation : m (Except ε α))
    (words : ε → String) : ExceptT String m α :=
  ExceptT.mk do return (← operation).mapError words

/-- A question that is always answered. -/
def inquire {m : Type → Type} [Monad m] {α : Type} (question : m α) : ExceptT String m α :=
  ExceptT.lift question

/-- Makes the directory that a file is to stand in. -/
def makeParent {m : Type → Type} [Monad m] [FileSystem m] (path : String)
    (words : String → OsFault → String) : ExceptT String m Unit := do
  match Path.parent? path with
  | none => return
  | some parent =>
    if !parent.isEmpty then attempt (FileSystem.makeDirectories parent) (words parent)

class Programs (m : Type → Type) where
  /-- Runs a program for so many milliseconds at most. -/
  run : Invocation → Nat → m Run

class Terminal (m : Type → Type) where
  print : String → m Unit

class Clock (m : Type → Type) where
  /-- Since some moment in the past. -/
  nanoseconds : m Nat

class AudioDevice (m : Type → Type) where
  /-- Opens the output; false if there is none. -/
  openOutput : m Bool

end LiveSound
