import LiveSound.Playback.Driver

/-!
# Streams of samples

A `Source` serves the driver's output sample by sample to a sound device, block after block.
`render` produces the same stream for a number of blocks at once.
-/

namespace LiveSound.Playback

open Guest (Engine)

def maxChannels : Nat := 8

/-- A driver with its handoff; what the audio side owns. -/
structure Deck (σ : Type) where
  driver : Driver σ
  handoff : Handoff σ

namespace Deck

variable {μ σ : Type}

def fresh (sampleRate : Nat) : Deck σ := ⟨.fresh sampleRate, .empty⟩

/-- One buffer with nobody else at the slot. -/
def process (e : Engine μ σ) (d : Deck σ) (buffer : Buffer) : Deck σ × Buffer × List Event :=
  let done := d.driver.process e d.handoff false 0 buffer
  (⟨done.driver, done.handoff⟩, done.buffer, done.events)

def block (e : Engine μ σ) (d : Deck σ) (channels frames : Nat) :
    Deck σ × List Binary32 × List Event :=
  let (d, buffer, events) := d.process e (silence channels frames)
  (d, interleave frames buffer, events)

/-- A number of blocks one after another. -/
def render (e : Engine μ σ) (channels frames : Nat) :
    Nat → Deck σ → Deck σ × List Binary32 × List Event
  | 0, d => (d, [], [])
  | n + 1, d =>
    let (d, samples, events) := d.block e (max channels 1) (max frames 1)
    let (d, others, more) := render e channels frames n d
    (d, samples ++ others, events ++ more)

end Deck

structure Source where
  channels : Nat
  blockSize : Nat
  /-- What is left of the current block. -/
  rest : List Binary32

namespace Source

variable {μ σ : Type}

/-- A source with nothing rendered yet; there is at least one channel and one frame. -/
def ofShape (channels blockSize : Nat) : Source :=
  ⟨min (max channels 1) maxChannels, max blockSize 1, []⟩

/-- The next sample; there always is one. A new block is rendered when the last one is used up. -/
def next (e : Engine μ σ) (s : Source) (d : Deck σ) :
    Source × Deck σ × Option Binary32 × List Event :=
  match s.rest with
  | x :: rest => ({ s with rest := rest }, d, some x, [])
  | [] =>
    let (d, samples, events) := d.block e s.channels s.blockSize
    ({ s with rest := samples.tail }, d, samples.head?, events)

/-- A number of samples. -/
def take (e : Engine μ σ) : Nat → Source → Deck σ → Source × Deck σ × List Binary32 × List Event
  | 0, s, d => (s, d, [], [])
  | n + 1, s, d =>
    match s.next e d with
    | (s, d, none, events) => (s, d, [], events)
    | (s, d, some x, events) =>
      let (s, d, others, more) := take e n s d
      (s, d, x :: others, events ++ more)

/-- How many samples are served before anything can change. -/
def frameLength (s : Source) : Nat := max s.rest.length 1

end Source

end LiveSound.Playback
