import LiveSound.Playback.Handoff
import LiveSound.Playback.Perf

/-!
# The sample driver

The audio side: for each buffer it takes over a new instance if one is offered, asks the instance
for one sample per frame and writes it to every channel. After the first sample that fails the
instance is silent until another one takes its place. Frames that are not produced keep what was
in the buffer.
-/

namespace LiveSound.Playback

open Guest (Engine Instance Halt)

/-- One buffer: the samples of each channel. -/
abbrev Buffer := List (List Binary32)

structure Driver (σ : Type) where
  active : Option (Instance σ)
  /-- The active instance has failed. -/
  faulted : Bool
  perf : Perf
  sampleRate : Nat

namespace Driver

variable {μ σ : Type}

def fresh (sampleRate : Nat) : Driver σ := ⟨none, false, .zero, sampleRate⟩

def activeGeneration (d : Driver σ) : Option Nat := d.active.map (·.generation)

/-- The samples an instance gave, what it posted meanwhile, and the failure that ended them. -/
structure Sampled (σ : Type) where
  guest : Instance σ
  samples : List Binary32
  events : List Event
  halt : Option Halt

/-- Asks for `n` samples, up to the first that fails. -/
def sample (e : Engine μ σ) : Nat → Instance σ → Sampled σ
  | 0, i => ⟨i, [], [], none⟩
  | n + 1, i =>
    match i.nextSample e with
    | ⟨i, events, .ok x⟩ =>
      let rest := sample e n i
      ⟨rest.guest, x :: rest.samples, events ++ rest.events, rest.halt⟩
    | ⟨i, events, .error halt⟩ => ⟨i, [], events, some halt⟩

/-- Writes samples over the beginning of a channel, as far as it reaches. -/
def overlay : List Binary32 → List Binary32 → List Binary32
  | x :: xs, _ :: ys => x :: overlay xs ys
  | _, ys => ys

/-- Takes over a pending instance. The instance it replaces is retired, or given back when there
is no room for it. -/
def pickup (d : Driver σ) (h : Handoff σ) : Driver σ × Handoff σ × Option (Instance σ) :=
  match h.take with
  | (h, none) => (d, h, none)
  | (h, some next) =>
    let d' := { d with active := some next, faulted := false, perf := .zero }
    match d.active with
    | none => (d', h, none)
    | some old =>
      match h.retire old with
      | (h, true) => (d', h, none)
      | (h, false) => (d', h, some old)

/-- The text of the event for a sample that failed. -/
def trapMessage (halt : Halt) : String := Guest.sampleName ++ " trapped: " ++ halt.message

/-- What a call leaves: the buffer, the events in order, and an instance for which there was no
room. -/
structure Processed (σ : Type) where
  driver : Driver σ
  handoff : Handoff σ
  buffer : Buffer
  events : List Event
  dropped : Option (Instance σ)
  /-- The host is to call again. -/
  goesOn : Bool

/-- Fills a buffer from the active instance. -/
def play (e : Engine μ σ) (d : Driver σ) (elapsed : Rat) (buffer : Buffer) :
    Driver σ × Buffer × List Event :=
  match d.active, buffer with
  | some i, first :: _ =>
    if d.faulted ∨ !i.hasSampler then (d, buffer, [])
    else
      let frames := first.length
      let done := sample e frames i
      let failure := match done.halt with
        | some halt => [Event.error (trapMessage halt)]
        | none => []
      let (perf, due) := d.perf.record elapsed
      let report :=
        if due then
          [Event.perf (.ofRat perf.average) (.ofRat perf.longest) frames d.sampleRate]
        else []
      ({ d with active := some done.guest, faulted := done.halt.isSome, perf := perf },
        buffer.map (overlay done.samples), done.events ++ failure ++ report)
  | _, _ => (d, buffer, [])

/-- One call of the audio callback. While the slot is in use by the other side nothing is taken
over. `elapsed` is the time that the samples took, in milliseconds. -/
def process (e : Engine μ σ) (d : Driver σ) (h : Handoff σ) (contended : Bool) (elapsed : Rat)
    (buffer : Buffer) : Processed σ :=
  let (d, h, dropped) := if contended then (d, h, none) else d.pickup h
  let (d, buffer, events) := d.play e elapsed buffer
  ⟨d, h, buffer, events, dropped, true⟩

end Driver

def silence (channels frames : Nat) : Buffer :=
  List.replicate channels (List.replicate frames .zero)

/-- The first `frames` frames of the channels, sample by sample. -/
def interleave : Nat → Buffer → List Binary32
  | 0, _ => []
  | frames + 1, channels =>
    channels.filterMap (·.head?) ++ interleave frames (channels.map (·.tail))

end LiveSound.Playback
