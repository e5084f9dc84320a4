import LiveSound.Compile.Client
import LiveSound.Compile.Dispatcher

/-!
# Compile sessions

A client together with the worker that it talks to. The worker answers each request with the
result of its dispatcher, and says before that which backend serves the session.
-/

namespace LiveSound.Compile

open Net (Network)

structure Session where
  client : Client
  dispatcher : Dispatcher

namespace Session

/-- The deadline starts as that of the backend that will be tried first. -/
def start (c : DispatcherConfig) : Session :=
  ⟨.connect c.selected.deadline, .ofConfig c⟩

/-- What the worker sends when a compile has come to its end. -/
def messages (d : Dispatcher) (id : Nat) (result : Result) : List Message :=
  (d.activeBackend?.map Message.backend).toList ++ [.reply id result]

def routeAll (c : Client) (messages : List Message) : Client :=
  messages.foldl (fun c message => (c.route message).1) c

variable {m : Type → Type} [Monad m] [Network m] [FileSystem m] [Programs m]

/-- One call from its start to its end, while no other is under way. -/
def compile (report : String → m Unit) (s : Session) (r : Request) : m (Session × Result) := do
  let (client, id, refused) := s.client.compile
  match refused with
  | some result => return ({ s with client := client }, result)
  | none =>
    let (dispatcher, result) ← s.dispatcher.compile report r
    let (client, done) := (routeAll client (messages dispatcher id result)).finish
    return (⟨client, dispatcher⟩, (done.lookup id).getD Client.dropped)

end Session

end LiveSound.Compile
