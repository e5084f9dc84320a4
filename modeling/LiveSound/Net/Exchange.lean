import LiveSound.Net.Url
import LiveSound.Net.Status
import LiveSound.Net.Charset

/-!
# HTTP exchanges

One request and what comes of it. `Net.fetch` is the client's side: it reads the URL and says in
words what went wrong.
-/

namespace LiveSound.Net

inductive Method where
  | get
  | post
  deriving DecidableEq, Repr

def Method.name : Method → String
  | .get => "GET"
  | .post => "POST"

structure Request where
  method : Method
  url : Url
  /-- JSON text. -/
  body : Option String
  deriving DecidableEq, Repr

/-- How a body ends. -/
inductive Ending where
  | whole
  /-- The connection was lost. -/
  | cutShort
  /-- The system gave up waiting for the rest. -/
  | timedOut
  deriving DecidableEq, Repr

structure Reply where
  status : Nat
  contentType : Option String
  body : Bytes
  ending : Ending
  deriving DecidableEq, Repr

/-- What comes of a request. -/
inductive Exchange where
  /-- There was no connection. -/
  | unreachable
  /-- The system gave up waiting for the connection. -/
  | timedOut
  /-- The request was sent and nothing is ever answered. -/
  | silent
  /-- The reply that the client hands on: the last one, if it is sent on to other places. -/
  | answered (r : Reply)
  deriving DecidableEq, Repr

class Network (m : Type → Type) where
  /-- Sends a request and waits so many milliseconds at most. Also told is how many it took. -/
  exchange : Request → Nat → m (Exchange × Nat)

/-- Why there is no reply, or not all of it. -/
inductive Trouble where
  | failed (message : String)
  /-- The system gave up waiting. -/
  | timedOut (message : String)
  /-- Nothing came in the time that the client had. -/
  | silent
  deriving DecidableEq, Repr

def Trouble.message : Trouble → String
  | .failed message | .timedOut message => message
  | .silent => "operation timed out"

variable {m : Type → Type} [Monad m] [Network m]

/-- What the client makes of an exchange with a place. -/
def Exchange.outcome (u : Url) : Exchange → Except Trouble Reply
  | .unreachable => .error (.failed s!"error sending request for url ({u.text})")
  | .timedOut => .error (.timedOut s!"error sending request for url ({u.text})")
  | .silent => .error .silent
  | .answered r => .ok r

/-- Asks for a URL and waits so many milliseconds at most. Also told is how many it took. -/
def timedFetch (method : Method) (url : String) (body : Option String) (timeout : Nat) :
    m (Except Trouble Reply × Nat) := do
  match Url.parse url with
  | .error .malformed => return (.error (.failed "builder error"), 0)
  | .error (.foreign text) => return (.error (.failed s!"builder error for url ({text})"), 0)
  | .ok u =>
    let (came, spent) ← Network.exchange ⟨method, u, body⟩ timeout
    return (came.outcome u, spent)

/-- Asks for a URL and waits so many milliseconds at most. -/
def fetch (method : Method) (url : String) (body : Option String) (timeout : Nat) :
    m (Except Trouble Reply) := do
  let (outcome, _) ← timedFetch method url body timeout
  return outcome

namespace Reply

def isSuccess (r : Reply) : Bool := Net.isSuccess r.status

/-- The whole body. -/
def bytes (r : Reply) : Except Trouble Bytes :=
  match r.ending with
  | .whole => .ok r.body
  | .cutShort => .error (.failed "error decoding response body")
  | .timedOut => .error (.timedOut "error decoding response body")

def text (r : Reply) : Except Trouble String := r.bytes.map (textOf r.contentType)

end Reply

end LiveSound.Net
