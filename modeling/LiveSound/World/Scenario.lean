import LiveSound.Archive.Unpacking
import LiveSound.Data.Access
import LiveSound.World.Script

/-!
# Scenarios

Scripted worlds that are described by data: what is in files, what programs do, and what a server
replies. The content of a file is a text or a record that says how it is made: from hexadecimal
digits, by repeating a text, as an archive, or as a program.
-/

namespace LiveSound.Scenario

/-- The content of a file that is no program. -/
def plain (d : Data) : Bytes :=
  match d, d.get "hex", d.itemsAt "repeat", d.get "tar" with
  | .text s, _, _, _ => Utf8.encode s
  | _, .text digits, _, _ => (bytesOfHex? digits).getD []
  | _, _, [.text t, n], _ => (List.replicate (n.nat?.getD 0) (Utf8.encode t)).flatten
  | _, _, _, .list members =>
    let archive := Archive.Tar.write (members.filterMap fun member =>
      match member.texts with
      | [name, text] => some (name, Utf8.encode text)
      | _ => none)
    if d.boolAt "gz" false then Archive.Gzip.write archive else archive
  | _, _, _, _ => []

def program (d : Data) : Script.Program :=
  ⟨plain (d.get "stdout"), plain (d.get "stderr"), d.natAt "exit" 0,
    (d.textAt? "module").bind bytesOfHex?, d.textAt? "reject", (d.textAt? "sleep").isSome⟩

def isProgram (d : Data) : Bool := !(d.get "clang").isNull

def content (d : Data) : Bytes :=
  if isProgram d then (program (d.get "clang")).toBytes else plain d

/-- What stands under a name; only programs may be run. -/
def entry (d : Data) : Entry :=
  if d.boolAt "dir" false then .directory
  else .file (content d) (if isProgram d then 0o755 else 0o644)

def put (f : Files) (top : Place) (path : String) (d : Data) : Files :=
  Script.addEntry f top path (entry d)

def files (top : Place) (d : Data) : Files :=
  d.members.foldl (fun f (path, content) => put f top path content)
    (Script.addEntry .empty [] (String.intercalate "/" top) .directory)

def reply (d : Data) : Net.Exchange :=
  if d.boolAt "hang" false then .silent
  else
    let status := d.natAt "status" 200
    let body := if Net.hasBody status then content (d.get "body") else []
    .answered ⟨status, some ((d.textAt? "type").getD "application/json"), body,
      if d.natAt "missing" 0 = 0 then .whole else .cutShort⟩

/-- One reply, or several that are given one after another. -/
def replies : Data → List Net.Exchange
  | .list items => items.map reply
  | d => [reply d]

def server (host : String) (port : Nat) (d : Data) : Script.Server :=
  ⟨host, port, d.members.map fun (key, r) => (key, replies r)⟩

end LiveSound.Scenario
