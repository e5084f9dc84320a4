import LiveSound.Guest.Bootstrap

/-!
# Handing instances over

Instances go to the audio side through a slot for one of them, and come back from there through a
short queue when they were replaced, so that they can be given up elsewhere. The audio side never
waits: it skips the slot when that is in use, and drops an instance when the queue is full.
-/

namespace LiveSound.Playback

open Guest (Instance)

/-- How many replaced instances may wait. -/
def retireCapacity : Nat := 4

structure Handoff (σ : Type) where
  pending : Option (Instance σ)
  /-- Replaced instances, the oldest first. -/
  retired : List (Instance σ)
  /-- Someone is left who collects replaced instances. -/
  collecting : Bool

namespace Handoff

variable {σ : Type}

def empty : Handoff σ := ⟨none, [], true⟩

/-- Puts an instance into the slot and gives back one that was never taken. -/
def offer (h : Handoff σ) (i : Instance σ) : Handoff σ × Option (Instance σ) :=
  ({ h with pending := some i }, h.pending)

/-- Like `offer`, but only for the generation that was issued last; any other instance is given
back. -/
def offerIfLatest (h : Handoff σ) (i : Instance σ) (latest : Nat) :
    Handoff σ × Except (Instance σ) (Option (Instance σ)) :=
  if i.generation = latest then
    let (h, replaced) := h.offer i
    (h, .ok replaced)
  else (h, .error i)

/-- Empties the slot. -/
def take (h : Handoff σ) : Handoff σ × Option (Instance σ) :=
  ({ h with pending := none }, h.pending)

/-- Queues a replaced instance; false if there is no room for it or nobody to collect it. -/
def retire (h : Handoff σ) (i : Instance σ) : Handoff σ × Bool :=
  if h.collecting ∧ h.retired.length < retireCapacity then
    ({ h with retired := h.retired ++ [i] }, true)
  else (h, false)

/-- Takes all replaced instances out of the queue. -/
def collect (h : Handoff σ) : Handoff σ × List (Instance σ) :=
  ({ h with retired := [] }, h.retired)

def stopCollecting (h : Handoff σ) : Handoff σ := { h with retired := [], collecting := false }

end Handoff

end LiveSound.Playback
