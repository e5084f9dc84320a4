import LiveSound.Archive.Unpacking
import LiveSound.Cli.Run
import LiveSound.Guest.WebAssembly
import LiveSound.Net.Message
import Std.Async.DNS
import Std.Async.TCP
import Std.Async.Timer

/-!
# The command line

A real host for the program: the files of the machine, plain HTTP over TCP, and the terminal. The
host opens no sound device, starts no other programs and has no TLS; it answers as a machine
without them does.
-/

namespace LiveSound.Host

open Std.Async
open Std.Net (IPAddr SocketAddress)

/-! ## Files -/

def faultOf : IO.Error → OsFault
  | .permissionDenied _ _ _ => .denied
  | .alreadyExists _ _ _ => .fileExists
  | .inappropriateType _ 20 _ => .notDirectory
  | .inappropriateType _ _ _ => .isDirectory
  | .invalidArgument _ _ _ => .invalid
  | .unsatisfiedConstraints _ _ => .notEmpty
  | _ => .notFound

def guarded {α : Type} (operation : IO α) : IO (Except OsFault α) := do
  match ← operation.toBaseIO with
  | .ok a => return .ok a
  | .error e => return .error (faultOf e)

/-- What can be opened at all is there; of a directory nothing can be read. -/
def probe (path : String) : IO (Option Bool) := do
  match ← (IO.FS.Handle.mk path .read).toBaseIO with
  | .error _ => return none
  | .ok file => return some (← guarded (file.read 1)).toBool

def rights (mode : Nat) : IO.AccessRight := ⟨mode &&& 4 != 0, mode &&& 2 != 0, mode &&& 1 != 0⟩

/-- The directory for caches that the environment names. -/
def cache : IO String := do
  match ← IO.getEnv "XDG_CACHE_HOME" with
  | some directory => return directory
  | none => return Path.join ((← IO.getEnv "HOME").getD "/") ".cache"

/-- Writes the tree that an archive makes below a directory. -/
def unpack (compressed : Bool) (content : Bytes) (directory : String) : IO Bool := do
  let (whole, files) := Archive.unpacker compressed content [] "/" .empty
  let mut written := true
  for (place, entry) in files.entries.reverse do
    let path := Path.join directory (String.intercalate "/" place)
    let done ← guarded do
      match entry with
      | .directory => IO.FS.createDirAll path
      | .file content mode =>
        IO.FS.writeBinFile path ⟨content.toArray⟩
        IO.setAccessRights path ⟨rights (mode / 64), rights (mode / 8), rights mode⟩
    written := written && done.toBool
  return whole && written

instance : FileSystem IO where
  readFile path := guarded do return (← IO.FS.readBinFile path).toList
  writeFile path content := guarded (IO.FS.writeBinFile path ⟨content.toArray⟩)
  makeDirectories path := guarded (IO.FS.createDirAll path)
  rename source target := guarded (IO.FS.rename source target)
  removeTree path := guarded (IO.FS.removeDirAll path)
  setMode path mode := guarded (IO.setAccessRights path
    ⟨rights (mode / 64), rights (mode / 8), rights mode⟩)
  unpack := unpack
  isFile path := return (← probe path) == some true
  isDirectory path := return (← probe path) == some false
  isPresent path := return (← probe path).isSome
  currentDirectory := return (← IO.currentDir).toString
  cacheDirectory := cache

/-! ## Network -/

def socketAddress (port : UInt16) : IPAddr → SocketAddress
  | .v4 a => .v4 ⟨a, port⟩
  | .v6 a => .v6 ⟨a, port⟩

/-- All that comes until the other side closes the connection. -/
partial def receive (socket : TCP.Socket.Client) (sofar : ByteArray) : Async ByteArray := do
  match ← socket.recv? 65536 with
  | some bytes => receive socket (sofar ++ bytes)
  | none => return sofar

/-- Connects to the first address of a host that answers. -/
def connect (url : Net.Url) : Async TCP.Socket.Client := do
  let port := url.port.getD 80
  let host := (url.host.dropWhile (· == '[')).toString
  let host := Text.trimEndOf ']' host
  let mut refusal := IO.userError "unreachable"
  for address in ← DNS.getAddrInfo host (toString port) do
    let socket ← TCP.Socket.Client.mk
    try
      socket.connect (socketAddress port.toUInt16 address)
      return socket
    catch e => refusal := e
  throw refusal

def converse (r : Net.Request) : Async Net.Exchange := do
  let socket ← connect r.url
  socket.send ⟨r.message.toArray⟩
  match Net.Reply.ofMessage? (← receive socket .empty).toList with
  | some reply => return .answered reply
  | none => return .unreachable

/-- Nothing is heard in the time there is. -/
def patience (milliseconds : Nat) : Async Net.Exchange := do
  sleep (.ofNat milliseconds)
  return .silent

def exchange (r : Net.Request) (timeout : Nat) : IO Net.Exchange := do
  if r.url.scheme != "http" then return .unreachable
  have : Inhabited Net.Exchange := ⟨.unreachable⟩
  try (Async.race (converse r) (patience timeout)).block
  catch
    | .timeExpired _ _ => return .timedOut
    | _ => return .unreachable

instance : Net.Network IO where
  exchange r timeout := do
    let start ← IO.monoMsNow
    let came ← exchange r timeout
    return (came, (← IO.monoMsNow) - start)

/-! ## The rest of the host -/

instance : Programs IO where
  run _ _ := return .notStarted .denied

instance : Terminal IO where
  print text := IO.print text

instance : Clock IO where
  nanoseconds := IO.monoNanosNow

instance : AudioDevice IO where
  openOutput := return false

/-- An engine with the machine's time and a random seed. -/
def engine : IO (Guest.Engine Wasm.Program Guest.Running) := do
  let seed := (← IO.getRandomBytes 8).foldl (fun n b => n * 256 + b.toUInt64) 0
  let now ← Std.Time.Timestamp.now
  return Guest.webAssembly seed now.toNanosecondsSinceUnixEpoch.toInt.toNat.toUInt64

end LiveSound.Host

open LiveSound

/-- The answer to arguments that ask for nothing that can be run. -/
def explain (f : Cli.UsageFault) : IO UInt32 := do
  match f.output? with
  | some text => IO.print text
  | none =>
    let reason := f.reason?.getD "these arguments ask for nothing"
    IO.eprintln s!"error: {reason}"
    IO.eprint Cli.helpText
  return f.exitCode.toUInt32

def main (arguments : List String) : IO UInt32 := do
  match Cli.Order.read arguments with
  | .error f => explain f
  | .ok order =>
    match ← (Cli.run (← Host.engine) order : ExceptT String IO _).run with
    | .ok none => return 0
    | .ok (some playing) =>
      (playing.session.stop : IO Unit)
      return 0
    | .error message =>
      IO.eprintln s!"Error: {message}"
      return 1
