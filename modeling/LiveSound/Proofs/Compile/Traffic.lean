import LiveSound.Compile.Client
import LiveSound.Proofs.Compile.Table

/-!
# Calls at the same time

Many callers share a client, and the worker sends it messages of any kind at any time. `Step` says
what can happen next, in pieces as small as the others can come between: a call takes its id,
registers it, sends the request, starts to wait with the deadline of that moment, and looks at its
ticket from time to time. When it finds nothing there and the deadline is over it takes its id out
of the table, which is a step of its own: a reply that comes in between is too late.

`Traffic` keeps what was sent and which messages were routed, so that the result of a call can be
compared with the replies that came for it. The pieces of a call put together are what
`Client.compile` and `Client.outcome` do (`compile_steps`, `outcome_steps`).
-/

namespace LiveSound.Compile

def repliesTo (id : Nat) (messages : List Message) : List Result :=
  messages.filterMap fun
    | .reply target r => if target = id then some r else none
    | _ => none

/-- How a call came to its result. `heard` is the number of messages routed until then. -/
inductive Ending where
  | refused
  | answered (heard : Nat)
  | late (call : Call) (heard : Nat)
  | dropped

/-- How far a call has come. -/
inductive Phase where
  /-- It has an id, which is not in the table yet. -/
  | numbered
  | registered (ticket : Nat)
  /-- The request could not be sent. -/
  | refused (ticket : Nat)
  | sent (ticket : Nat)
  | waiting (call : Call)
  /-- When this many messages were routed, none of them was for it and the deadline was over. -/
  | expired (call : Call) (heard : Nat)
  | done (result : Result) (ending : Ending)

def Phase.ticket? : Phase → Option Nat
  | .numbered | .done _ _ => none
  | .registered n | .refused n | .sent n => some n
  | .waiting call | .expired call _ => some call.ticket

structure Caller where
  id : Nat
  request : Request
  /-- The number of messages routed before its id was registered. -/
  since : Nat
  phase : Phase

namespace Caller

/-- The replies to a call among these messages, from its registration on. -/
def heard (c : Caller) (messages : List Message) : List Result :=
  repliesTo c.id (messages.drop c.since)

/-- It is registered and neither answered, nor timed out, nor rejected. -/
def Open (c : Caller) (routed : List Message) : Prop :=
  c.phase.ticket?.isSome ∧ c.heard routed = []

end Caller

structure Traffic where
  client : Client
  /-- All calls that were started, in the order of their ids. -/
  callers : List Caller
  /-- The requests that were sent, oldest first. -/
  sent : List (Nat × Request)
  /-- The messages that were routed, oldest first. -/
  routed : List Message

namespace Traffic

def connect (deadline : Nat) : Traffic := ⟨.connect deadline, [], [], []⟩

def pending (s : Traffic) : Pending := s.client.pending

/-- A call gets the next id. -/
def start (s : Traffic) (request : Request) : Traffic :=
  { s with
    client := { s.client with nextId := s.client.nextId + 1 },
    callers := s.callers ++ [⟨s.client.nextId, request, 0, .numbered⟩] }

def setCaller (s : Traffic) (k : Nat) (c : Caller) : Traffic :=
  { s with callers := s.callers.set k c }

def setPending (s : Traffic) (p : Pending) : Traffic :=
  { s with client := { s.client with pending := p } }

/-- A call goes to another phase, and the table changes to `p`. -/
def goes (s : Traffic) (k : Nat) (c : Caller) (phase : Phase) (p : Pending) : Traffic :=
  (s.setPending p).setCaller k { c with phase := phase }

def register (s : Traffic) (k : Nat) (c : Caller) : Traffic :=
  (s.setPending (s.pending.insert c.id).1).setCaller k
    { c with since := s.routed.length, phase := .registered (s.pending.insert c.id).2 }

def send (s : Traffic) (k : Nat) (c : Caller) (ticket : Nat) : Traffic :=
  { s.goes k c (.sent ticket) s.pending with sent := s.sent ++ [(c.id, c.request)] }

def route (s : Traffic) (m : Message) : Traffic :=
  { s with client := (s.client.route m).1, routed := s.routed ++ [m] }

/-- What can happen next: `some m` when the message `m` is routed. -/
inductive Step : Option Message → Traffic → Traffic → Prop where
  | start {s : Traffic} (request : Request) : Step none s (s.start request)
  | register {s : Traffic} {k : Nat} {c : Caller} (caller : s.callers[k]? = some c)
      (phase : c.phase = .numbered) : Step none s (s.register k c)
  | send {s : Traffic} {k : Nat} {c : Caller} {n : Nat} (caller : s.callers[k]? = some c)
      (phase : c.phase = .registered n) (sending : s.client.sending = true) :
      Step none s (s.send k c n)
  | refuse {s : Traffic} {k : Nat} {c : Caller} {n : Nat} (caller : s.callers[k]? = some c)
      (phase : c.phase = .registered n) (closed : s.client.sending = false) :
      Step none s (s.goes k c (.refused n) s.pending)
  | reject {s : Traffic} {k : Nat} {c : Caller} {n : Nat} (caller : s.callers[k]? = some c)
      (phase : c.phase = .refused n) :
      Step none s (s.goes k c (.done Client.notRunning .refused) (s.pending.remove c.id).1)
  | wait {s : Traffic} {k : Nat} {c : Caller} {n : Nat} (caller : s.callers[k]? = some c)
      (phase : c.phase = .sent n) :
      Step none s
        (s.goes k c (.waiting ⟨c.id, n, s.client.now, s.client.deadline⟩) s.pending)
  | answer {s : Traffic} {k : Nat} {c : Caller} {call : Call} {p : Pending} {r : Result}
      (caller : s.callers[k]? = some c) (phase : c.phase = .waiting call)
      (read : s.pending.read call.ticket = (p, .result r)) :
      Step none s (s.goes k c (.done r (.answered s.routed.length)) p)
  | drop {s : Traffic} {k : Nat} {c : Caller} {call : Call} {p : Pending}
      (caller : s.callers[k]? = some c) (phase : c.phase = .waiting call)
      (read : s.pending.read call.ticket = (p, .closed)) :
      Step none s (s.goes k c (.done Client.dropped .dropped) p)
  | expire {s : Traffic} {k : Nat} {c : Caller} {call : Call} {p : Pending}
      (caller : s.callers[k]? = some c) (phase : c.phase = .waiting call)
      (read : s.pending.read call.ticket = (p, .empty))
      (late : call.started + call.deadline ≤ s.client.now) :
      Step none s (s.goes k c (.expired call s.routed.length) p)
  | timeOut {s : Traffic} {k : Nat} {c : Caller} {call : Call} {heard : Nat}
      (caller : s.callers[k]? = some c) (phase : c.phase = .expired call heard) :
      Step none s (s.goes k c (.done (.failure (.timeout call.deadline)) (.late call heard))
        (s.pending.remove c.id).1)
  | route {s : Traffic} (m : Message) (routing : s.client.routing = true) :
      Step (some m) s (s.route m)
  | advance {s : Traffic} (milliseconds : Nat) :
      Step none s { s with client := s.client.advance milliseconds }
  | stopSending {s : Traffic} : Step none s { s with client := s.client.stopSending }
  | stopRouting {s : Traffic} : Step none s { s with client := s.client.stopRouting }

/-- Any number of steps. -/
inductive Steps (s : Traffic) : Traffic → Prop where
  | refl : Steps s s
  | tail {s' s'' : Traffic} {m : Option Message} : Steps s s' → Step m s' s'' → Steps s s''

/-- The states of the runs of a client, whatever the worker sends. -/
def Reachable (deadline : Nat) (s : Traffic) : Prop := Steps (.connect deadline) s

section Steps

variable {s s' s'' : Traffic}

theorem Step.steps {m : Option Message} (h : Step m s s') : Steps s s' := .tail .refl h

theorem getElem?_goes {k : Nat} {c : Caller} (hk : s.callers[k]? = some c) (phase : Phase)
    (p : Pending) : (s.goes k c phase p).callers[k]? = some { c with phase := phase } :=
  List.getElem?_set_self (List.getElem?_eq_some_iff.mp hk).1

theorem getElem?_register {k : Nat} {c : Caller} (hk : s.callers[k]? = some c) :
    (s.register k c).callers[k]? = some { c with
      since := s.routed.length, phase := .registered (s.pending.insert c.id).2 } :=
  List.getElem?_set_self (List.getElem?_eq_some_iff.mp hk).1

theorem getElem?_send {k : Nat} {c : Caller} (hk : s.callers[k]? = some c) (n : Nat) :
    (s.send k c n).callers[k]? = some { c with phase := .sent n } :=
  getElem?_goes hk (.sent n) s.pending

theorem getElem?_start (request : Request) :
    (s.start request).callers[s.callers.length]? =
      some ⟨s.client.nextId, request, 0, .numbered⟩ := by
  simp [start]

/-! ## A call without interruption -/

/-- The steps of a call from its start to the moment when it waits or has been rejected, with
nobody else between them: that is what `compile` does. -/
theorem compile_steps (s : Traffic) (request : Request) :
    ∃ s', Steps s s' ∧ s'.routed = s.routed ∧
      s'.client = { s.client.compile.1 with calls := s.client.calls } ∧
      ∃ c, s'.callers = s.callers ++ [c] ∧ c.id = s.client.compile.2.1 ∧ c.request = request ∧
        c.since = s.routed.length ∧
        match s.client.compile.2.2 with
        | none => s'.sent = s.sent ++ [(c.id, request)] ∧ ∃ call, c.phase = .waiting call ∧
            s.client.compile.1.calls = s.client.calls ++ [call]
        | some r => s'.sent = s.sent ∧ c.phase = .done r .refused := by
  have at0 := getElem?_start (s := s) request
  have at1 := getElem?_register at0
  have registered := (Step.start (s := s) request).steps.tail (.register at0 rfl)
  obtain ⟨ticket, issued⟩ : ∃ n, n = (s.client.pending.insert s.client.nextId).2 := ⟨_, rfl⟩
  cases sending : s.client.sending with
  | true =>
    have at2 := getElem?_send at1 ticket
    have sent := registered.tail (.send (n := ticket) at1 (by rw [issued]; rfl) sending)
    let call : Call := ⟨s.client.nextId, ticket, s.client.now, s.client.deadline⟩
    refine ⟨_, sent.tail (.wait at2 rfl), rfl, ?_,
      ⟨s.client.nextId, request, s.routed.length, .waiting call⟩, ?_, ?_, rfl, rfl, ?_⟩
    · simp [Client.compile, sending, goes, setCaller, setPending, send, register, start, pending]
    · simp [goes, setCaller, setPending, send, register, start, call]
    · simp [Client.compile, sending]
    · simp [Client.compile, sending, call, issued, goes, setCaller, setPending, send, register,
        start]
  | false =>
    have at2 := getElem?_goes at1 (.refused ticket) (s.client.pending.insert s.client.nextId).1
    have refused := registered.tail (.refuse (n := ticket) at1 (by rw [issued]; rfl) sending)
    refine ⟨_, refused.tail (.reject at2 rfl), rfl, ?_,
      ⟨s.client.nextId, request, s.routed.length, .done Client.notRunning .refused⟩, ?_, ?_, rfl,
      rfl, ?_⟩
    · simp [Client.compile, sending, goes, setCaller, setPending, register, start, pending]
    · simp [goes, setCaller, setPending, register, start]
    · simp [Client.compile, sending]
    · simp [Client.compile, sending, goes, setCaller, setPending, register, start]

/-- A call that looks at its ticket does what `outcome` says. -/
theorem outcome_steps {k : Nat} {c : Caller} {call : Call} (hk : s.callers[k]? = some c)
    (waits : c.phase = .waiting call) (own : call.id = c.id) :
    match Client.outcome s.client.now s.pending call with
    | (p, none) => p = s.pending
    | (p, some r) => ∃ ending, Steps s (s.goes k c (.done r ending) p) := by
  unfold Client.outcome
  rcases read : s.pending.read call.ticket with ⟨p, reading⟩
  cases reading with
  | result r => exact ⟨_, (Step.answer hk waits read).steps⟩
  | closed => exact ⟨_, (Step.drop hk waits read).steps⟩
  | empty =>
    have same : p = s.pending := Pending.eq_of_read_empty read
    by_cases late : call.started + call.deadline ≤ s.client.now
    · have at1 := getElem?_goes hk (.expired call s.routed.length) p
      have ended := (Step.expire hk waits read late).steps.tail (.timeOut at1 rfl)
      simp only [late, ↓reduceIte]
      refine ⟨.late call s.routed.length, ?_⟩
      rw [own]
      simpa [goes, setCaller, setPending, pending, List.set_set] using ended
    · simpa only [late, ↓reduceIte] using same

end Steps

end Traffic

end LiveSound.Compile
