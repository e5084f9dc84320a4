import LiveSound.Json.Record
import LiveSound.Json.Writer
import LiveSound.Net.Exchange

/-!
# The source on the development server

The development server keeps the source that it compiles; it can be fetched and replaced.
-/

namespace LiveSound.Compile

open Net (Network)

structure SourceClient where
  base : String
  /-- In milliseconds. -/
  timeout : Nat

namespace SourceClient

/-- Slashes at the end of the address do not matter. -/
def ofUrl (url : String) (timeout : Nat) : SourceClient := ⟨Text.trimEndOf '/' url, timeout⟩

/-- The server's answer to a new source. -/
structure Update where
  success : Option Bool
  error : Option String

def fields : List (Field Unit Update) :=
  [⟨"success", fun d u => match d with
      | .bool b => .ok { u with success := some b }
      | _ => .error ()⟩,
   ⟨"error", fun d u => match d.asOptional? Data.asText? with
      | some e => .ok { u with error := e }
      | none => .error ()⟩]

/-- The answer in a body, if it is one: whether the source was taken, and the server's words. -/
def readUpdate (body : Bytes) : Option (Bool × Option String) := do
  let text ← Utf8.decode? body
  let u ← (Json.readRecord fields () ⟨none, none⟩ text).toOption
  let success ← u.success
  return (success, u.error)

def readSource (url : String) (r : Net.Reply) : Except String String :=
  if r.isSuccess then
    match r.text with
    | .ok text => .ok text
    | .error _ => .error s!"failed to read body from {url}"
  else .error s!"Failed to fetch source: HTTP {Net.statusText r.status}"

def readTaken (url : String) (r : Net.Reply) : Except String Unit :=
  let status := s!"HTTP {Net.statusText r.status}"
  let answer := match r.bytes with
    | .ok body => readUpdate body
    | .error _ => none
  match answer with
  | none => .error s!"invalid reply from {url} ({status})"
  | some (true, _) => .ok ()
  | some (false, error) => .error s!"Failed to update source: {error.getD status}"

variable {m : Type → Type} [Monad m] [Network m]

def fetch (c : SourceClient) : m (Except String String) := do
  let url := c.base ++ "/source"
  match ← Net.fetch .get url none c.timeout with
  | .error _ => return .error s!"failed to reach {url}"
  | .ok r => return readSource url r

def update (c : SourceClient) (content : String) : m (Except String Unit) := do
  let url := c.base ++ "/update-source"
  let body := Json.write (.record [("content", .text content)])
  match ← Net.fetch .post url (some body) c.timeout with
  | .error _ => return .error s!"failed to reach {url}"
  | .ok r => return readTaken url r

end SourceClient

end LiveSound.Compile
