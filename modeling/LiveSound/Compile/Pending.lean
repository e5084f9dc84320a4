import LiveSound.Compile.Result

/-!
# Outstanding requests

A request that waits for its result holds a ticket. `Pending` maps the ids of the requests that
are not answered yet to their tickets, and keeps what has become of every ticket.
-/

namespace LiveSound.Compile

/-- What has become of a ticket. -/
inductive Ticket where
  | waiting
  | answered (r : Result)
  /-- No result is to come any more, or it has been read. -/
  | closed
  /-- Nobody waits for the result any more. -/
  | discarded

/-- What reading a ticket gives. -/
inductive Reading where
  | empty
  | closed
  | result (r : Result)

structure Pending where
  /-- Ids and numbers of tickets, each id at most once. -/
  entries : List (Nat × Nat)
  tickets : List Ticket

namespace Pending

def empty : Pending := ⟨[], []⟩

def size (p : Pending) : Nat := p.entries.length

def isEmpty (p : Pending) : Bool := p.entries.isEmpty

def ticketOf? (p : Pending) (id : Nat) : Option Nat := p.entries.lookup id

def ticket? (p : Pending) (number : Nat) : Option Ticket := p.tickets[number]?

/-- A ticket that still waits gets this in place of waiting. -/
def settle (p : Pending) (number : Nat) (t : Ticket) : Pending :=
  match p.ticket? number with
  | some .waiting => { p with tickets := p.tickets.set number t }
  | _ => p

/-- Takes an id out of the table; its ticket is not touched. -/
def erase (p : Pending) (id : Nat) : Pending :=
  { p with entries := p.entries.filter (·.1 != id) }

/-- Takes an id out of the table without an answer; true if it was there. -/
def remove (p : Pending) (id : Nat) : Pending × Bool :=
  match p.ticketOf? id with
  | some number => ((p.erase id).settle number .closed, true)
  | none => (p, false)

/-- Registers a request and gives it a ticket. An older request of that id is given up. -/
def insert (p : Pending) (id : Nat) : Pending × Nat :=
  let p := (p.remove id).1
  (⟨(id, p.tickets.length) :: p.entries, p.tickets ++ [.waiting]⟩, p.tickets.length)

/-- Answers a request; true if someone waits for the result. Ids that are not in the table are
passed over. -/
def resolve (p : Pending) (id : Nat) (r : Result) : Pending × Bool :=
  match p.ticketOf? id with
  | some number =>
    let waiting := match p.ticket? number with
      | some .waiting => true
      | _ => false
    ((p.erase id).settle number (.answered r), waiting)
  | none => (p, false)

/-- Reads a ticket; a result is there only once. -/
def read (p : Pending) (number : Nat) : Pending × Reading :=
  match p.ticket? number with
  | some .waiting => (p, .empty)
  | some (.answered r) => ({ p with tickets := p.tickets.set number .closed }, .result r)
  | _ => (p, .closed)

/-- The holder of a ticket gives up waiting. The id stays in the table. -/
def discard (p : Pending) (number : Nat) : Pending :=
  { p with tickets := p.tickets.set number .discarded }

end Pending

end LiveSound.Compile
