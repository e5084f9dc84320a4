import LiveSound.Playback.Driver

/-!
# What becomes of an instance

Asking an instance for samples changes its state and nothing else. `Instance.Becomes` relates an
instance to those it turns into this way, so that an instance that plays is known to be the one
that was offered. The lemmas on `Driver.process` say which instance plays after a buffer.
-/

namespace LiveSound.Guest

namespace Instance

/-- `j` is what has become of `i` by being asked for samples. The engine may answer differently
each time. -/
inductive Becomes (μ : Type) {σ : Type} (i : Instance σ) : Instance σ → Prop where
  | refl : Becomes μ i i
  | sample (e : Engine μ σ) {j : Instance σ} : Becomes μ i j → Becomes μ i (j.nextSample e).state

variable {μ σ : Type}

theorem Becomes.trans {i j k : Instance σ} (h : Becomes μ i j) (h' : Becomes μ j k) :
    Becomes μ i k := by
  induction h' with
  | refl => exact h
  | sample e _ ih => exact .sample e ih

theorem Becomes.generation_eq {i j : Instance σ} (h : Becomes μ i j) :
    j.generation = i.generation := by
  induction h with
  | refl => rfl
  | sample e _ ih => exact ih

end Instance

end LiveSound.Guest

namespace LiveSound.Playback

open Guest (Engine Instance)
open Guest.Instance (Becomes)

namespace Driver

variable {μ σ : Type}

theorem sample_guest (e : Engine μ σ) (n : Nat) (i : Instance σ) :
    Becomes μ i (sample e n i).guest := by
  induction n generalizing i with
  | zero => exact .refl
  | succ n ih =>
    have asked : Becomes μ i (i.nextSample e).state := .sample e (.refl)
    rw [sample]
    split
    · rename_i j events x h
      rw [h] at asked
      exact asked.trans (ih j)
    · rename_i j events halt h
      rw [h] at asked
      exact asked

/-! ## One buffer -/

theorem play_of_idle (e : Engine μ σ) {d : Driver σ} (h : d.active = none) (elapsed : Rat)
    (buffer : Buffer) : (d.play e elapsed buffer).1 = d := by
  unfold play
  rw [h]

theorem play_active (e : Engine μ σ) {d : Driver σ} {i : Instance σ} (h : d.active = some i)
    (elapsed : Rat) (buffer : Buffer) :
    ∃ j, (d.play e elapsed buffer).1.active = some j ∧ Becomes μ i j := by
  unfold play
  rw [h]
  cases buffer with
  | nil => exact ⟨i, h, .refl⟩
  | cons first rest =>
    simp only
    split
    · exact ⟨i, h, .refl⟩
    · exact ⟨_, rfl, sample_guest e first.length i⟩

def takeOver (d : Driver σ) (next : Instance σ) : Driver σ :=
  { d with active := some next, faulted := false, perf := .zero }

theorem pickup_of_empty {d : Driver σ} {h : Handoff σ} (hp : h.pending = none) :
    d.pickup h = (d, h, none) := by
  obtain ⟨pending, retired, collecting⟩ := h
  subst hp
  rfl

theorem retire_pending (h : Handoff σ) (i : Instance σ) : (h.retire i).1.pending = h.pending := by
  unfold Handoff.retire
  split <;> rfl

theorem pickup_of_pending {d : Driver σ} {h : Handoff σ} {next : Instance σ}
    (hp : h.pending = some next) :
    (d.pickup h).1 = d.takeOver next ∧ (d.pickup h).2.1.pending = none := by
  obtain ⟨pending, retired, collecting⟩ := h
  subst hp
  unfold pickup
  simp only [Handoff.take]
  cases ha : d.active with
  | none => exact ⟨rfl, rfl⟩
  | some old =>
    have kept := retire_pending ⟨none, retired, collecting⟩ old
    simp only
    split
    · rename_i h' hr
      rw [hr] at kept
      exact ⟨rfl, kept⟩
    · rename_i h' hr
      rw [hr] at kept
      exact ⟨rfl, kept⟩

/-- The instance that a call of the audio callback takes over. -/
def taken? (h : Handoff σ) (contended : Bool) : Option (Instance σ) :=
  if contended then none else h.pending

theorem pending_of_taken {h : Handoff σ} {contended : Bool} {next : Instance σ}
    (ht : taken? h contended = some next) : h.pending = some next := by
  unfold taken? at ht
  split at ht
  · cases ht
  · exact ht

/-- Without an instance to take over, the driver plays what it has. -/
theorem process_of_none (e : Engine μ σ) (d : Driver σ) {h : Handoff σ} {contended : Bool}
    (ht : taken? h contended = none) (elapsed : Rat) (buffer : Buffer) :
    d.process e h contended elapsed buffer =
      ⟨(d.play e elapsed buffer).1, h, (d.play e elapsed buffer).2.1,
        (d.play e elapsed buffer).2.2, none, true⟩ := by
  unfold process
  cases contended with
  | true => rfl
  | false =>
    have hp : h.pending = none := ht
    simp only [pickup_of_empty hp]
    rfl

theorem process_of_some (e : Engine μ σ) (d : Driver σ) {h : Handoff σ} {contended : Bool}
    {next : Instance σ} (ht : taken? h contended = some next) (elapsed : Rat) (buffer : Buffer) :
    let done := d.process e h contended elapsed buffer
    let played := (d.takeOver next).play e elapsed buffer
    done.driver = played.1 ∧ done.buffer = played.2.1 ∧ done.events = played.2.2 ∧
      done.handoff.pending = none := by
  cases contended with
  | true => cases ht
  | false =>
    obtain ⟨hd, hh⟩ := pickup_of_pending (d := d) (h := h) ht
    simp only [process, Bool.false_eq_true, ↓reduceIte, hd, hh, and_self]

end Driver

end LiveSound.Playback
