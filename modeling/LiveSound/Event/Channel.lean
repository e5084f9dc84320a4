/-!
# Channels

An unbounded queue between a sending and a receiving side. Posting never waits: once nobody
listens, what is posted is lost.
-/

namespace LiveSound

structure Channel (α : Type) where
  queue : List α
  /-- Some sender is left. -/
  hasSender : Bool
  /-- The receiver is left. -/
  hasReceiver : Bool

/-- What a receiver that waits gets. -/
inductive Received (α : Type) where
  | item (a : α)
  /-- Nothing yet. -/
  | waiting
  /-- Nothing any more. -/
  | closed

namespace Channel

variable {α : Type}

def empty : Channel α := ⟨[], true, true⟩

def post (c : Channel α) (a : α) : Channel α :=
  if c.hasReceiver then { c with queue := c.queue ++ [a] } else c

def postAll (c : Channel α) (items : List α) : Channel α :=
  if c.hasReceiver then { c with queue := c.queue ++ items } else c

def dropSender (c : Channel α) : Channel α := { c with hasSender := false }

def dropReceiver (c : Channel α) : Channel α := { c with queue := [], hasReceiver := false }

/-- Takes the oldest item if there is one. -/
def tryReceive (c : Channel α) : Channel α × Option α :=
  match c.queue with
  | [] => (c, none)
  | a :: rest => ({ c with queue := rest }, some a)

def receive (c : Channel α) : Channel α × Received α :=
  match c.queue with
  | a :: rest => ({ c with queue := rest }, .item a)
  | [] => (c, if c.hasSender then .waiting else .closed)

/-- Takes everything that is there. -/
def drain (c : Channel α) : Channel α × List α := ({ c with queue := [] }, c.queue)

end Channel

end LiveSound
