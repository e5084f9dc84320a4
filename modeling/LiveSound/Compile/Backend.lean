import LiveSound.Text.Blank

/-!
# Where compiles run

A project asks for a `Mode`; a session is served by a `Backend`.
-/

namespace LiveSound.Compile

inductive Mode where
  /-- The settings decide. -/
  | auto
  | toolchain
  | remote
  | local
  deriving DecidableEq, Repr, Inhabited

namespace Mode

def name : Mode → String
  | .auto => "auto"
  | .toolchain => "toolchain"
  | .remote => "remote"
  | .local => "local"

/-- The mode of that name; three have a second name. -/
def ofName? : String → Option Mode
  | "auto" => some .auto
  | "toolchain" => some .toolchain
  | "wasm-clang" => some .toolchain
  | "remote" => some .remote
  | "serverless" => some .remote
  | "local" => some .local
  | "local-server" => some .local
  | _ => none

/-- A name as a person types it: in any case and with white space around it. -/
def parse? (raw : String) : Option Mode := ofName? (Text.lowerAscii (Text.trim raw))

end Mode

inductive Backend where
  /-- A compiler on this machine, fetched when it is first needed. -/
  | toolchain
  /-- A compile service. -/
  | remote
  /-- The development server. -/
  | local
  deriving DecidableEq, Repr

namespace Backend

def name : Backend → String
  | .toolchain => "toolchain"
  | .remote => "remote"
  | .local => "local"

/-- A mode that names a backend is followed; else the toolchain comes first, then the service. -/
def select (mode : Mode) (toolchainEnabled remoteEnabled : Bool) : Backend :=
  match mode with
  | .toolchain => .toolchain
  | .remote => .remote
  | .local => .local
  | .auto => if toolchainEnabled then .toolchain else if remoteEnabled then .remote else .local

/-- Where a session goes when the toolchain cannot be made ready. -/
def fallback? (remoteEnabled localEnabled : Bool) : Option Backend :=
  if remoteEnabled then some .remote else if localEnabled then some .local else none

/-- How long a client waits for a compile, in milliseconds. -/
def deadline : Backend → Nat
  | .toolchain => 300000
  | .remote => 60000
  | .local => 60000

end Backend

end LiveSound.Compile
