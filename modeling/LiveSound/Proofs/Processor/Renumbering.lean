import LiveSound.Processor.Basic
import LiveSound.Proofs.Playback.Filling
import Mathlib.Logic.Function.Basic

/-!
# Renumbering

An instance carries its generation along and never looks at it. So nothing that is heard changes
when the generations are renumbered: bootstrapping, taking over and playing commute with
`Instance.renumber`, whatever the new numbers are. Only offers look at generations, and there it is
enough that the generations issued last correspond (`Renumbered.offer`).
-/

namespace LiveSound

open Guest (Engine Instance InitFault)
open Playback (Buffer Driver)

variable {μ σ : Type}

/-- The same instance under another number. -/
def Guest.Instance.renumber (ρ : Nat → Nat) (i : Instance σ) : Instance σ :=
  { i with generation := ρ i.generation }

theorem Guest.Bootstrap.run_renumber (e : Engine μ σ) (m : Module) (ρ : Nat → Nat)
    (generation : Nat) :
    run e m (ρ generation) =
      ((run e m generation).1, (run e m generation).2.map (·.renumber ρ)) := by
  unfold run
  split
  · rfl
  · split
    · rfl
    · simp only
      split <;> rfl

namespace Playback

/-- The same driver with its instance under another number. -/
def Driver.renumber (ρ : Nat → Nat) (d : Driver σ) : Driver σ :=
  { d with active := d.active.map (·.renumber ρ) }

namespace Driver

theorem sample_renumber (e : Engine μ σ) (ρ : Nat → Nat) (n : Nat) (i : Instance σ) :
    sample e n (i.renumber ρ) =
      { sample e n i with guest := (sample e n i).guest.renumber ρ } := by
  induction n generalizing i with
  | zero => rfl
  | succ n ih =>
    have asked : (i.renumber ρ).nextSample e =
        { i.nextSample e with state := (i.nextSample e).state.renumber ρ } := rfl
    rw [sample, sample, asked]
    rcases i.nextSample e with ⟨j, events, outcome | x⟩
    · rfl
    · simp only [ih]

theorem play_renumber (e : Engine μ σ) (ρ : Nat → Nat) (d : Driver σ) (elapsed : Rat)
    (buffer : Buffer) :
    (d.renumber ρ).play e elapsed buffer =
      ((d.play e elapsed buffer).1.renumber ρ, (d.play e elapsed buffer).2) := by
  obtain ⟨active, faulted, perf, sampleRate⟩ := d
  unfold play renumber
  cases active with
  | none => rfl
  | some i =>
    cases buffer with
    | nil => rfl
    | cons first rest =>
      by_cases idle : faulted = true ∨ (!i.hasSampler) = true
      · have idle' : faulted = true ∨ (!(i.renumber ρ).hasSampler) = true := idle
        simp only [Option.map_some, if_pos idle, if_pos idle']
      · have going : ¬ (faulted = true ∨ (!(i.renumber ρ).hasSampler) = true) := idle
        simp only [Option.map_some, if_neg idle, if_neg going, sample_renumber]

theorem ready_renumber (ρ : Nat → Nat) (d : Driver σ) (next : Option (Instance σ)) :
    (d.renumber ρ).ready (next.map (·.renumber ρ)) = (d.ready next).renumber ρ := by
  cases next <;> rfl

theorem taken_map {h h' : Handoff σ} {f : Instance σ → Instance σ}
    (pending : h'.pending = h.pending.map f) (contended : Bool) :
    taken? h' contended = (taken? h contended).map f := by
  cases contended with
  | true => rfl
  | false => exact pending

/-- What is left in the slot after a call of the audio callback. -/
theorem process_pending (e : Engine μ σ) (d : Driver σ) (h : Handoff σ) (contended : Bool)
    (elapsed : Rat) (buffer : Buffer) :
    (d.process e h contended elapsed buffer).handoff.pending =
      if contended then h.pending else none := by
  cases contended with
  | true => rfl
  | false => exact (process_eq e d h false elapsed buffer).2.2.2.2 rfl

end Driver

end Playback

/-! ## Processors under other numbers -/

namespace Processor

/-- One processor has what the other has in its slot and its driver, under other numbers. -/
structure Renumbered (ρ : Nat → Nat) (p q : Processor σ) : Prop where
  driver : q.deck.driver = p.deck.driver.renumber ρ
  pending : q.deck.handoff.pending = p.deck.handoff.pending.map (·.renumber ρ)

def pendingAfter (p : Processor σ) : Except InitFault (Instance σ) → Option (Instance σ)
  | .ok i => if i.generation = p.latest then some i else p.deck.handoff.pending
  | .error _ => p.deck.handoff.pending

/-- The events that tell what came of an offer. -/
def tidings (p : Processor σ) : Except InitFault (Instance σ) → List Event
  | .ok i => if i.generation = p.latest then [.ready] else []
  | .error fault => [.error fault.message]

theorem conclude_eq (p : Processor σ) (result : Except InitFault (Instance σ)) :
    (p.conclude result).1 =
        { p with deck := { p.deck with handoff := { p.deck.handoff with
          pending := p.pendingAfter result } } } ∧
      (p.conclude result).2.2 = p.tidings result := by
  cases result with
  | error fault => exact ⟨rfl, rfl⟩
  | ok i =>
    unfold conclude pendingAfter tidings Playback.Handoff.offerIfLatest
    by_cases latest : i.generation = p.latest
    · simp only [if_pos latest, and_true]
      rfl
    · simp only [if_neg latest, and_true]

section Renumbered

variable {ρ : Nat → Nat} {p q : Processor σ}

/-- If the generations issued last correspond, then what is let through does. -/
theorem Renumbered.offer (h : Renumbered ρ p q) (injective : ρ.Injective)
    (latest : q.latest = ρ p.latest) (result : Except InitFault (Instance σ)) :
    q.pendingAfter (result.map (·.renumber ρ)) =
        (p.pendingAfter result).map (·.renumber ρ) ∧
      q.tidings (result.map (·.renumber ρ)) = p.tidings result := by
  cases result with
  | error fault => exact ⟨h.pending, rfl⟩
  | ok i =>
    have same : (i.renumber ρ).generation = q.latest ↔ i.generation = p.latest := by
      rw [latest]
      exact injective.eq_iff
    show (if (i.renumber ρ).generation = q.latest then some (i.renumber ρ) else _) = _ ∧
      (if (i.renumber ρ).generation = q.latest then [Event.ready] else []) = _
    unfold pendingAfter tidings
    by_cases last : i.generation = p.latest
    · simp only [if_pos last, if_pos (same.mpr last), and_true]
      rfl
    · simp only [if_neg last, if_neg (mt same.mp last), and_true]
      exact h.pending

/-- A call of the audio callback fills the buffer and posts the same for both. -/
theorem Renumbered.process (h : Renumbered ρ p q) (e : Engine μ σ) (contended : Bool)
    (elapsed : Rat) (buffer : Buffer) :
    let done := p.deck.driver.process e p.deck.handoff contended elapsed buffer
    let done' := q.deck.driver.process e q.deck.handoff contended elapsed buffer
    done'.driver = done.driver.renumber ρ ∧ done'.buffer = done.buffer ∧
      done'.events = done.events ∧
      done'.handoff.pending = done.handoff.pending.map (·.renumber ρ) ∧
      Driver.taken? q.deck.handoff contended =
        (Driver.taken? p.deck.handoff contended).map (·.renumber ρ) := by
  have taken := Driver.taken_map h.pending contended
  obtain ⟨driver, filled, events, -⟩ :=
    Driver.process_eq e p.deck.driver p.deck.handoff contended elapsed buffer
  obtain ⟨driver', filled', events', -⟩ :=
    Driver.process_eq e q.deck.driver q.deck.handoff contended elapsed buffer
  rw [taken, h.driver, Driver.ready_renumber, Driver.play_renumber] at driver' filled' events'
  refine ⟨?_, ?_, ?_, ?_, taken⟩
  · rw [driver, h.driver, driver']
  · rw [filled, h.driver, filled']
  · rw [events, h.driver, events']
  · rw [Driver.process_pending, Driver.process_pending, h.pending]
    split <;> rfl

end Renumbered

end Processor

end LiveSound
