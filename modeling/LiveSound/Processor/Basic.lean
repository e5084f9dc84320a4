import LiveSound.Playback.Source

/-!
# The processor

Modules come in as messages; each gets a generation of its own when it is received and is
bootstrapped, several of them at a time if they come fast. Whichever is done offers its instance,
but only the generation issued last is let through, so a slow bootstrap cannot undo a later one.

The steps `receive`, `finish` and `Deck.process` can come in any order, and `finish` for the
generations in any order; `serve` is the order in which nothing is left behind.
-/

namespace LiveSound

open Guest (Engine Instance InitFault)
open Playback (Deck)

/-- What became of a message. -/
inductive InstallOutcome where
  | installed
  /-- A later message was received meanwhile. -/
  | stale
  | failed (fault : InitFault)
  deriving DecidableEq, Repr

structure Processor (σ : Type) where
  deck : Deck σ
  /-- The generation issued last. -/
  latest : Nat
  /-- How many replaced instances were collected. -/
  collected : Nat
  /-- Messages that were sent and not received. -/
  waiting : List Module
  /-- Messages whose bootstrap is going on, with their generations. -/
  starting : List (Nat × Module)
  /-- Messages are still taken. -/
  accepting : Bool

namespace Processor

variable {μ σ : Type}

def fresh (sampleRate : Nat) : Processor σ := ⟨.fresh sampleRate, 0, 0, [], [], true⟩

/-- Issues a generation. -/
def issue (p : Processor σ) : Nat × Processor σ :=
  (p.latest + 1, { p with latest := p.latest + 1 })

/-- Sends a message; false once messages are not taken any more. -/
def send (p : Processor σ) (m : Module) : Bool × Processor σ :=
  if p.accepting then (true, { p with waiting := p.waiting ++ [m] }) else (false, p)

/-- Offers the result of a bootstrap: the outcome and the event it posts. -/
def conclude (p : Processor σ) (result : Except InitFault (Instance σ)) :
    Processor σ × InstallOutcome × List Event :=
  match result with
  | .error fault => (p, .failed fault, [.error fault.message])
  | .ok i =>
    match p.deck.handoff.offerIfLatest i p.latest with
    | (handoff, .ok _) =>
      ({ p with deck := { p.deck with handoff := handoff } }, .installed, [.ready])
    | (_, .error _) => (p, .stale, [])

def install (e : Engine μ σ) (p : Processor σ) (m : Module) (generation : Nat) :
    Processor σ × InstallOutcome × List Event :=
  let (posted, result) := Guest.Bootstrap.run e m generation
  let (p, outcome, events) := p.conclude result
  (p, outcome, posted ++ events)

/-- Gives up the instances that were replaced. -/
def collect (p : Processor σ) : Processor σ :=
  let (handoff, gone) := p.deck.handoff.collect
  { p with deck := { p.deck with handoff := handoff }, collected := p.collected + gone.length }

/-- Receives the next message. -/
def receive (p : Processor σ) : Processor σ :=
  match p.waiting with
  | [] => p
  | m :: rest =>
    let (generation, p) := p.issue
    { p with waiting := rest, starting := p.starting ++ [(generation, m)] }

/-- Ends the bootstrap of a generation, if it is going on. -/
def finish (e : Engine μ σ) (p : Processor σ) (generation : Nat) : Processor σ × List Event :=
  match p.starting.lookup generation with
  | none => (p, [])
  | some m =>
    let rest := p.starting.filter (·.1 != generation)
    let (p, _, events) := { p with starting := rest }.install e m generation
    (p.collect, events)

/-- Receives `n` messages. -/
def receiveAll : Nat → Processor σ → Processor σ
  | 0, p => p
  | n + 1, p => receiveAll n p.receive

/-- Ends the bootstraps of some generations in this order. -/
def finishAll (e : Engine μ σ) : List Nat → Processor σ → Processor σ × List Event
  | [], p => (p, [])
  | generation :: rest, p =>
    let (p, events) := p.finish e generation
    let (p, more) := finishAll e rest p
    (p, events ++ more)

/-- Receives everything that waits and ends every bootstrap, the oldest first. -/
def serve (e : Engine μ σ) (p : Processor σ) : Processor σ × List Event :=
  let p := receiveAll p.waiting.length p
  finishAll e (p.starting.map (·.1)) p

/-- Nothing is taken any more and replaced instances are not collected; what still waits is
lost. -/
def abandon (p : Processor σ) : Processor σ :=
  { p with
    deck := { p.deck with handoff := p.deck.handoff.stopCollecting },
    waiting := [], starting := [], accepting := false }

/-- Serves what was sent before the senders went away. -/
def shutDown (e : Engine μ σ) (p : Processor σ) : Processor σ × List Event :=
  let (p, events) := p.serve e
  (p.collect.abandon, events)

def process (e : Engine μ σ) (p : Processor σ) (buffer : Playback.Buffer) :
    Processor σ × Playback.Buffer × List Event :=
  let (deck, buffer, events) := p.deck.process e buffer
  ({ p with deck := deck }, buffer, events)

end Processor

end LiveSound
