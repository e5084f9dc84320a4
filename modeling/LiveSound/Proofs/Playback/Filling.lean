import LiveSound.Proofs.Guest.Answers
import LiveSound.Proofs.Playback.Succession
import Mathlib.Data.List.Forall2

/-!
# How a buffer is filled

What one call of the audio callback writes, posts and leaves, said by the answers of the instance
that plays. There are three cases: nothing is asked (`play_of_not_sounds`), all frames are filled
(`play_of_gives`), or the instance fails on the way (`play_of_failsAt`).
-/

namespace LiveSound.Playback

open Guest (Engine Instance Halt)

/-- The first `n` cells of each channel, as far as it reaches, are the samples `x`; all other cells
are as they were. -/
def Written (x : Nat → Binary32) (n : Nat) (before after : Buffer) : Prop :=
  List.Forall₂ (fun old new : List Binary32 =>
    ∀ k : Nat, new[k]? = if k < n then old[k]?.map fun _ => x k else old[k]?) before after

namespace Driver

theorem getElem?_overlay (xs ys : List Binary32) (k : Nat) :
    (overlay xs ys)[k]? = ys[k]?.map fun y => (xs[k]?).getD y := by
  induction xs generalizing ys k with
  | nil => simp [overlay]
  | cons x xs ih =>
    cases ys with
    | nil => simp [overlay]
    | cons y ys =>
      cases k with
      | zero => simp [overlay]
      | succ k => simpa [overlay] using ih ys k

theorem written_overlay (x : Nat → Binary32) (n : Nat) (buffer : Buffer) :
    Written x n buffer (buffer.map (overlay ((List.range n).map x))) := by
  unfold Written
  rw [List.forall₂_map_right_iff, List.forall₂_same]
  intro channel _ k
  rw [getElem?_overlay, List.getElem?_map]
  by_cases lt : k < n
  · rw [if_pos lt, List.getElem?_range lt]
    rfl
  · rw [if_neg lt, List.getElem?_eq_none (by simpa using lt)]
    simp

variable {μ σ : Type}

/-- The driver that a buffer is filled by: what is offered is taken over first. -/
def ready (d : Driver σ) : Option (Instance σ) → Driver σ
  | some next => d.takeOver next
  | none => d

theorem process_eq (e : Engine μ σ) (d : Driver σ) (h : Handoff σ) (contended : Bool)
    (elapsed : Rat) (buffer : Buffer) :
    let done := d.process e h contended elapsed buffer
    let played := (d.ready (taken? h contended)).play e elapsed buffer
    done.driver = played.1 ∧ done.buffer = played.2.1 ∧ done.events = played.2.2 ∧
      done.goesOn = true ∧ (contended = false → done.handoff.pending = none) := by
  cases taken : taken? h contended with
  | none =>
    rw [process_of_none e d taken]
    refine ⟨rfl, rfl, rfl, rfl, ?_⟩
    rintro rfl
    exact taken
  | some next =>
    obtain ⟨driver, filled, events, empty⟩ := process_of_some e d taken elapsed buffer
    exact ⟨driver, filled, events, rfl, fun _ => empty⟩

theorem play_sampleRate (e : Engine μ σ) (d : Driver σ) (elapsed : Rat) (buffer : Buffer) :
    (d.play e elapsed buffer).1.sampleRate = d.sampleRate := by
  unfold play
  split
  · split <;> rfl
  · rfl

theorem process_sampleRate (e : Engine μ σ) (d : Driver σ) (h : Handoff σ) (contended : Bool)
    (elapsed : Rat) (buffer : Buffer) :
    (d.process e h contended elapsed buffer).driver.sampleRate = d.sampleRate := by
  rw [(process_eq e d h contended elapsed buffer).1, play_sampleRate]
  cases taken? h contended <;> rfl

/-- The events that tell of the timing, if it is time to. -/
def report (d : Driver σ) (elapsed : Rat) (frames : Nat) : List Event :=
  let (perf, due) := d.perf.record elapsed
  if due then
    [.perf (.ofRat perf.average) (.ofRat perf.longest) frames d.sampleRate]
  else []

/-- The instance `i` is asked to fill the buffer, which has `n` frames. -/
structure Sounds (d : Driver σ) (buffer : Buffer) (i : Instance σ) (n : Nat) : Prop where
  active : d.active = some i
  sound : d.faulted = false
  sampler : i.hasSampler = true
  frames : buffer.head?.map (·.length) = some n

variable {d : Driver σ} {buffer : Buffer} {i : Instance σ} {n : Nat}

/-- A driver does not ask: it has no instance, or one that failed or gives no samples, or there is
no channel. -/
theorem play_of_not_sounds (e : Engine μ σ) (h : ∀ i n, ¬ d.Sounds buffer i n) (elapsed : Rat) :
    d.play e elapsed buffer = (d, buffer, []) := by
  unfold play
  split
  · rename_i i first rest active
    rw [if_pos]
    by_contra going
    rw [not_or, Bool.not_eq_true] at going
    exact h i first.length ⟨active, going.1, by simpa using going.2, rfl⟩
  · rfl

theorem play_of_sounds (e : Engine μ σ) (h : d.Sounds buffer i n) (elapsed : Rat) :
    d.play e elapsed buffer =
      ({ d with
          active := some (sample e n i).guest, faulted := (sample e n i).halt.isSome,
          perf := (d.perf.record elapsed).1 },
        buffer.map (overlay (sample e n i).samples),
        (sample e n i).events ++
          (match (sample e n i).halt with
            | some halt => [Event.error (trapMessage halt)]
            | none => []) ++
          d.report elapsed n) := by
  obtain ⟨active, sound, sampler, frames⟩ := h
  obtain ⟨first, rest, rfl⟩ : ∃ first rest, buffer = first :: rest := by
    cases buffer with
    | nil => cases frames
    | cons first rest => exact ⟨first, rest, rfl⟩
  obtain rfl : first.length = n := by simpa using frames
  have going : ¬ (d.faulted = true ∨ (!i.hasSampler) = true) := by simp [sound, sampler]
  unfold play
  rw [active]
  simp only [if_neg going]
  rfl

/-- The instance gives a sample for each frame. -/
theorem play_of_gives (h : d.Sounds buffer i n) (gives : i.Gives e n) (elapsed : Rat) :
    d.play e elapsed buffer =
      ({ d with
          active := some (i.after e n), faulted := false, perf := (d.perf.record elapsed).1 },
        buffer.map (overlay ((List.range n).map (i.sampleAt e))),
        i.postedIn e 0 n ++ d.report elapsed n) := by
  rw [play_of_sounds e h, sample_of_gives gives]
  simp

/-- The instance fails at a frame: that is posted, and it is not asked for the frames after it. -/
theorem play_of_failsAt {k : Nat} {halt : Halt} (h : d.Sounds buffer i n)
    (fails : i.FailsAt e k halt) (lt : k < n) (elapsed : Rat) :
    d.play e elapsed buffer =
      ({ d with
          active := some (i.after e (k + 1)), faulted := true,
          perf := (d.perf.record elapsed).1 },
        buffer.map (overlay ((List.range k).map (i.sampleAt e))),
        i.postedIn e 0 (k + 1) ++ .error (trapMessage halt) :: d.report elapsed n) := by
  rw [play_of_sounds e h, sample_of_failsAt fails lt]
  simp

end Driver

end LiveSound.Playback
