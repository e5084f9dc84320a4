import LiveSound.Playback.Source

/-!
# Sources with their buffers

A `BlockSource` is a `Source` down to the buffers that it works on: the channels that the driver
fills, the same block in the order in which it is served, and the place of the next sample. The
buffers are made once. What could go wrong with places and sizes is a `Fault`.
-/

namespace LiveSound.Playback

open Guest (Engine)

/-- What would be the end of the program. -/
inductive Fault where
  /-- A place that a buffer or a table does not have. -/
  | outOfBounds
  /-- Frames without a sample. -/
  | emptyFrames
  /-- A number that is too large. -/
  | overflow
  deriving DecidableEq, Repr

def maxPlace : Nat := 0xffffffffffffffff

structure BlockSource where
  channels : Nat
  /-- The block by channels, for the driver. -/
  planar : Buffer
  /-- The block frame by frame. -/
  interleaved : List Binary32
  /-- The place of the next sample; from the end of the block on, there is none. -/
  cursor : Nat

namespace BlockSource

variable {μ σ : Type}

/-- A source with nothing rendered yet: the cursor is behind any block. -/
def ofShape (channels blockSize : Nat) : BlockSource :=
  let channels := min (max channels 1) maxChannels
  let frames := max blockSize 1
  ⟨channels, silence channels frames, List.replicate (frames * channels) .zero, maxPlace⟩

def blockSize (s : BlockSource) : Nat := (s.planar.head?.map (·.length)).getD 0

/-- The channels as the driver is given them, in a table with room for `maxChannels`. -/
def outputs (planar : Buffer) : Except Fault Buffer :=
  let table := planar.take maxChannels ++ List.replicate (maxChannels - planar.length) []
  if planar.length ≤ table.length then .ok (table.take planar.length) else .error .outOfBounds

def sampleAt (planar : Buffer) (channel frame : Nat) : Except Fault Binary32 :=
  match planar[channel]? with
  | none => .error .outOfBounds
  | some samples =>
    match samples[frame]? with
    | none => .error .outOfBounds
    | some x => .ok x

/-- Writes the channels over a block, as many frames as it has room for. -/
def weave (channels : Nat) (planar : Buffer) (block : List Binary32) :
    Except Fault (List Binary32) :=
  if channels = 0 then .error .emptyFrames
  else do
    let whole := block.length / channels * channels
    let samples ← (List.range whole).mapM fun m => sampleAt planar (m % channels) (m / channels)
    return samples ++ block.drop whole

/-- What comes of a request for a sample. -/
structure Served (σ : Type) where
  source : BlockSource
  deck : Deck σ
  sample : Option Binary32
  /-- The call of the driver that was made for it: the buffer that it got, and what it left. -/
  call : Option (Buffer × Driver.Processed σ)

/-- Has the driver fill the cleared channels, and goes to the beginning of the block. -/
def renderBlock (e : Engine μ σ) (contended : Bool) (elapsed : Rat) (s : BlockSource)
    (d : Deck σ) : Except Fault (BlockSource × Buffer × Driver.Processed σ) := do
  let given ← outputs (s.planar.map fun channel => channel.map fun _ => .zero)
  let done := d.driver.process e d.handoff contended elapsed given
  let interleaved ← weave s.channels done.buffer s.interleaved
  return (⟨s.channels, done.buffer, interleaved, 0⟩, given, done)

/-- Renders another block when the last one is used up. -/
def refresh (e : Engine μ σ) (contended : Bool) (elapsed : Rat) (s : BlockSource) (d : Deck σ) :
    Except Fault (BlockSource × Deck σ × Option (Buffer × Driver.Processed σ)) :=
  if s.interleaved.length ≤ s.cursor then do
    let (s, given, done) ← s.renderBlock e contended elapsed d
    return (s, ⟨done.driver, done.handoff⟩, some (given, done))
  else .ok (s, d, none)

/-- Moves the cursor to the next place. -/
def advance (s : BlockSource) : Except Fault BlockSource :=
  if s.cursor < maxPlace then .ok { s with cursor := s.cursor + 1 } else .error .overflow

/-- The next sample. The slot may be in use by the other side meanwhile. -/
def next (e : Engine μ σ) (contended : Bool) (elapsed : Rat) (s : BlockSource) (d : Deck σ) :
    Except Fault (Served σ) := do
  let (s, d, call) ← s.refresh e contended elapsed d
  let sample := s.interleaved[s.cursor]?
  let s ← s.advance
  return ⟨s, d, sample, call⟩

/-- How many samples are served before anything can change. -/
def frameLength (s : BlockSource) : Nat := max (s.interleaved.length - s.cursor) 1

end BlockSource

end LiveSound.Playback
