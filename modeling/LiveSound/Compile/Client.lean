import LiveSound.Compile.Pending
import LiveSound.Compile.Request
import LiveSound.Compile.Backend

/-!
# Compile clients

A client sends requests to a worker and waits for their replies, many at a time; every request has
an id of its own, by which its reply is known. A call that has no reply when the deadline is over
fails. The deadline is that of the backend which serves the session, as the worker reports it, and
a call keeps the one it started with. Time is in milliseconds.
-/

namespace LiveSound.Compile

/-- What a worker sends. -/
inductive Message where
  | status (text : String)
  /-- The backend that serves the session. -/
  | backend (b : Backend)
  | reply (id : Nat) (r : Result)

/-- A call that waits. -/
structure Call where
  id : Nat
  ticket : Nat
  started : Nat
  deadline : Nat
  deriving DecidableEq, Repr

structure Client where
  nextId : Nat
  deadline : Nat
  pending : Pending
  /-- In the order of their ids. -/
  calls : List Call
  now : Nat
  /-- The worker receives requests. -/
  sending : Bool
  /-- The worker can still send messages. -/
  routing : Bool

namespace Client

def connect (deadline : Nat) : Client := ⟨0, deadline, .empty, [], 0, true, true⟩

def notRunning : Result := .fail .transport "compile worker is not running"

def dropped : Result := .fail .transport "compile worker dropped the request"

/-- Starts a call. The id tells it from all others; the result is there at once if the request
could not be sent. -/
def compile (c : Client) : Client × Nat × Option Result :=
  let id := c.nextId
  let (pending, ticket) := c.pending.insert id
  if c.sending then
    ({ c with nextId := id + 1, pending := pending,
              calls := c.calls ++ [⟨id, ticket, c.now, c.deadline⟩] }, id, none)
  else ({ c with nextId := id + 1, pending := (pending.remove id).1 }, id, some notRunning)

/-- The result of a call, if it has come to an end. A result that is there counts even when the
deadline is over. -/
def outcome (now : Nat) (p : Pending) (call : Call) : Pending × Option Result :=
  match p.read call.ticket with
  | (p, .result r) => (p, some r)
  | (p, .closed) => (p, some dropped)
  | (p, .empty) =>
    if call.started + call.deadline ≤ now then
      ((p.remove call.id).1, some (.failure (.timeout call.deadline)))
    else (p, none)

def finishCalls (now : Nat) : Pending → List Call → Pending × List Call × List (Nat × Result)
  | p, [] => (p, [], [])
  | p, call :: rest =>
    let (p, result) := outcome now p call
    let (p, waiting, done) := finishCalls now p rest
    match result with
    | some r => (p, waiting, (call.id, r) :: done)
    | none => (p, call :: waiting, done)

/-- The ids and results of the calls that have come to an end. -/
def finish (c : Client) : Client × List (Nat × Result) :=
  let (pending, waiting, done) := finishCalls c.now c.pending c.calls
  ({ c with pending := pending, calls := waiting }, done)

/-- Takes a message of the worker; status texts are passed on. -/
def route (c : Client) : Message → Client × Option String
  | .status text => (c, some text)
  | .backend b => ({ c with deadline := b.deadline }, none)
  | .reply id r => ({ c with pending := (c.pending.resolve id r).1 }, none)

def advance (c : Client) (milliseconds : Nat) : Client :=
  { c with now := c.now + milliseconds }

/-- Gives up a request as if the worker had forgotten it. -/
def forget (c : Client) (id : Nat) : Client × Bool :=
  let (pending, removed) := c.pending.remove id
  ({ c with pending := pending }, removed)

/-- The worker receives no more requests. -/
def stopSending (c : Client) : Client := { c with sending := false }

/-- The worker sends no more messages. Calls that wait go on waiting. -/
def stopRouting (c : Client) : Client := { c with routing := false }

end Client

end LiveSound.Compile
