import LiveSound.Json.Reader
import LiveSound.Json.Writer
import LiveSound.Text.Hex
import LiveSound.World.Model

/-!
# Scripted worlds

A server that answers from a list of replies, and program files that say themselves what they do
when they are run.
-/

namespace LiveSound.Script

open Net (Exchange)

/-! ## Servers -/

structure Server where
  host : String
  port : Nat
  /-- By method and target, as in `GET /path`: the replies in order. The last one is repeated. -/
  replies : List (String × List Exchange)

namespace Server

def serves (s : Server) (u : Net.Url) : Bool := u.host == s.host && u.port == some s.port

def key (r : Net.Request) : String := r.method.name ++ " " ++ r.url.target

def missing : Exchange :=
  .answered ⟨404, some "text/plain", Utf8.encode "not found", .whole⟩

/-- Every other address is unreachable. -/
def network (s : Server) (past : List Net.Request) (r : Net.Request) : Exchange :=
  if !s.serves r.url then .unreachable
  else
    let before := (past.filter fun q => s.serves q.url && key q == key r).length
    match s.replies.lookup (key r) with
    | none => missing
    | some replies => (replies[min before (replies.length - 1)]?).getD missing

def received (s : Server) (w : World) : List Net.Request :=
  w.requests.filter fun r => s.serves r.url

end Server

/-! ## Programs -/

structure Program where
  stdout : Bytes
  stderr : Bytes
  exitCode : Nat
  /-- What it writes to the file named by the last `-o`. -/
  product : Option Bytes
  /-- A word in `user.h` on which it gives up. -/
  refused : Option String
  /-- It never ends. -/
  endless : Bool

namespace Program

def mark : String := "#!scripted\n"

/-- The content of the program's file. -/
def toBytes (p : Program) : Bytes :=
  let product := match p.product with
    | some b => .text (hexOfBytes b)
    | none => .null
  let refused := match p.refused with
    | some word => .text word
    | none => .null
  Utf8.encode (mark ++ Json.write (.list [.text (hexOfBytes p.stdout), .text (hexOfBytes p.stderr),
    .integer p.exitCode, product, refused, .bool p.endless]))

def ofBytes? (b : Bytes) : Option Program :=
  let cs := Utf8.lossyChars b
  if !mark.toList.isPrefixOf cs then none
  else
    match Json.read? (String.ofList (cs.drop mark.length)) with
    | some (.list [.text out, .text err, .integer exit, product, refused, .bool endless]) =>
      let product := match product with
        | .text h => bytesOfHex? h
        | _ => none
      let refused := match refused with
        | .text word => some word
        | _ => none
      some ⟨(bytesOfHex? out).getD [], (bytesOfHex? err).getD [], exit.toNat, product, refused,
        endless⟩
    | _ => none

/-- The value of the last `-o`. -/
def target (arguments : List String) : String :=
  (arguments.zip (arguments.drop 1)).foldl
    (fun found (a, b) => if a == "-o" then b else found) "a.out"

def run (p : Program) (i : Invocation) : Run :=
  let source := Utf8.lossy ((i.inputs.lookup "user.h").getD [])
  let refuses : Bool := match p.refused with
    | some word => 1 < (source.splitOn word).length
    | none => false
  if p.endless then .unfinished
  else if refuses then .finished ⟨false, p.stdout, p.stderr, .missing⟩
  else
    let product := if target i.arguments == i.product then p.product else none
    .finished ⟨p.exitCode == 0, p.stdout, p.stderr, product.elim .missing .file⟩

/-- What a file does when it is run: a scripted program, or a shell script that does nothing. -/
def behaviour (_ : List Invocation) (content : Bytes) (i : Invocation) : Run :=
  match ofBytes? content with
  | some p => p.run i
  | none =>
    if content = Utf8.encode "#!/bin/sh\nexit 0\n" then .finished ⟨true, [], [], .missing⟩
    else .notStarted .badProgram

def runs (w : World) : List Invocation :=
  w.runs.filter fun i =>
    match w.files.find? w.directory i.program with
    | some (.file content _) => (ofBytes? content).isSome
    | _ => false

end Program

/-! ## Files -/

/-- Puts a file or a directory below a place, with the directories on the way. -/
def addEntry (f : Files) (top : Place) (path : String) (e : Entry) : Files :=
  let place := top ++ (Path.parts path).filter (· != ".")
  let f := (List.range place.length).foldl (fun f n =>
    if (f.entry? (place.take n)).isNone then f.put (place.take n) .directory else f) f
  match e, f.entry? place with
  | .directory, some _ => f
  | _, _ => f.put place e

/-- The paths below a place, in order; those of directories end in a slash. -/
def tree (f : Files) (top : Place) : List String :=
  let below := f.entries.filter fun (place, _) => Files.isWithin top place && place != top
  let paths := below.map fun (place, e) =>
    String.intercalate "/" (place.drop top.length) ++ if e == .directory then "/" else ""
  paths.mergeSort fun a b => a < b || a == b

end LiveSound.Script
