import LiveSound.Compile.Request
import LiveSound.Compile.Wire
import LiveSound.Net.Exchange

/-!
# Compile services

A compile service takes the request as the body of a POST and answers with a `Reply`. If that
holds no module, the module is fetched from another place. The remote service and the development
server differ only in their settings. The whole exchange has to be over in a given time.
-/

namespace LiveSound.Compile

open Net (Network Method Trouble)

structure ServiceSettings where
  endpoint : String
  /-- Where modules are when replies bring none. -/
  artifactUrl : Option String
  /-- In milliseconds. -/
  timeout : Nat
  deriving DecidableEq, Repr

namespace Service

/-- The first 120 characters, without white space around them. -/
def snippet (text : String) : String :=
  let cs := Text.trimChars text.toList
  if cs.length ≤ 120 then String.ofList cs else String.ofList (cs.take 120) ++ "..."

/-- The failure that is behind a missing reply from a place. `waited` is what it is when the system
gave up waiting. -/
def ofTrouble (s : ServiceSettings) (url : String) (waited : FailureKind) : Trouble → Failure
  | .failed message => .plain .transport (url ++ ": " ++ message)
  | .timedOut message => .plain waited (url ++ ": " ++ message)
  | .silent => .timeout s.timeout

def postFailure (s : ServiceSettings) : Trouble → Failure := ofTrouble s s.endpoint .timeout

/-- Trouble with the request for the module; no difference is made there. -/
def fetchFailure (s : ServiceSettings) (url : String) : Trouble → Failure :=
  ofTrouble s url .transport

def readReply (s : ServiceSettings) (r : Net.Reply) : Except Failure Reply :=
  match r.text with
  | .error trouble => .error (postFailure s trouble)
  | .ok text =>
    let status := Net.statusText r.status
    match Reply.ofJson text with
    | .error _ =>
      .error (.plain .protocol s!"HTTP {status}: unexpected response body: {snippet text}")
    | .ok reply =>
      if !reply.success then
        .error ⟨.compile, reply.error.getD "Compilation failed", reply.details, reply.stdout,
          reply.stderr⟩
      else if !r.isSuccess then .error (.plain .protocol s!"HTTP {status} reported success")
      else .ok reply

/-- The module that was fetched. -/
def readArtifact (s : ServiceSettings) (url : String) (r : Net.Reply) : Except Failure Bytes :=
  if r.isSuccess then r.bytes.mapError (fetchFailure s url)
  else .error (.plain .transport s!"Failed to fetch module: HTTP {Net.statusText r.status}")

/-- The result of an exchange that brought a module. -/
def conclude (reply : Reply) (bytes : Bytes) : Result :=
  match Module.ofBytes bytes with
  | .ok artifact => .success ⟨artifact, reply.output.getD "", reply.warnings⟩
  | .error fault => .fail .protocol s!"invalid module: {fault.message}"

variable {m : Type → Type} [Monad m] [Network m]

def fetchArtifact (s : ServiceSettings) (left : Nat) : m (Except Failure Bytes) := do
  match s.artifactUrl with
  | none => return .error (.plain .protocol "compile succeeded but no module was returned")
  | some url =>
    match ← Net.fetch .get url none left with
    | .error trouble => return .error (fetchFailure s url trouble)
    | .ok r => return readArtifact s url r

def compile (s : ServiceSettings) (request : Request) : m Result := do
  let body := Json.write request.toData
  let (posted, spent) ← Net.timedFetch .post s.endpoint (some body) s.timeout
  match posted with
  | .error trouble => return .failure (postFailure s trouble)
  | .ok r =>
    match readReply s r with
    | .error failure => return .failure failure
    | .ok reply =>
      match reply.module with
      | some bytes => return conclude reply bytes
      | none =>
        match ← fetchArtifact s (s.timeout - spent) with
        | .error failure => return .failure failure
        | .ok bytes => return conclude reply bytes

end Service

end LiveSound.Compile
