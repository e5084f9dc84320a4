import LiveSound.Playback.Source
import LiveSound.Proofs.Playback.Filling

/-!
# One stream

What is played and what is rendered is the same stream of samples, and the size of the blocks does
not matter. `Deck.heard` is that stream, one sample for each frame: a block is a piece of it, and
leaves a deck whose stream is the rest (`block_heard`). Both loops over blocks follow from that.
-/

namespace LiveSound.Guest.Instance

variable {μ σ : Type} {e : Engine μ σ} {i : Instance σ}

/-- What is heard of an instance: the samples that it gives, and silence from its first failure
on. -/
def heard (e : Engine μ σ) : Instance σ → Nat → Binary32
  | i, 0 => i.sampleAt e 0
  | i, k + 1 =>
    match (i.answer e 0).outcome with
    | .ok _ => heard e (i.after e 1) k
    | .error _ => .zero

theorem heard_add {n : Nat} (gives : i.Gives e n) (k : Nat) :
    i.heard e (n + k) = (i.after e n).heard e k := by
  induction n generalizing i with
  | zero => rw [Nat.zero_add]; rfl
  | succ n ih =>
    obtain ⟨x, ok⟩ := gives 0 (by omega)
    have rest := ih (Gives.after (m := 1) (by rwa [Nat.add_comm]))
    rw [Nat.add_right_comm, heard, ok]
    simp only [rest, after_after, Nat.add_comm 1]

theorem heard_zero : i.heard e 0 = i.sampleAt e 0 := rfl

theorem heard_of_gives {k : Nat} (gives : i.Gives e k) : i.heard e k = i.sampleAt e k := by
  have at_k := heard_add gives 0
  rwa [heard_zero, sampleAt_after, Nat.add_zero] at at_k

theorem heard_of_failsAt {m k : Nat} {halt : Halt} (fails : i.FailsAt e m halt) (le : m ≤ k) :
    i.heard e k = .zero := by
  obtain ⟨k, rfl⟩ := Nat.exists_eq_add_of_le le
  have stopped : ((i.after e m).answer e 0).outcome = .error halt := by
    rw [answer_after]
    exact fails.2
  rw [heard_add fails.1]
  cases k with
  | zero =>
    rw [heard_zero]
    unfold sampleAt
    rw [stopped]
  | succ k => rw [heard, stopped]

end LiveSound.Guest.Instance

namespace LiveSound.Playback

open Guest (Engine Instance Halt)

/-! ## Interleaving -/

/-- Channels that are all the same, interleaved. -/
theorem interleave_replicate (f : Nat → Binary32) {c : Nat} (pos : 0 < c) (b : Nat) :
    interleave b (List.replicate c ((List.range b).map f)) =
      (List.range (c * b)).map fun m => f (m / c) := by
  induction b generalizing f with
  | zero => rfl
  | succ b ih =>
    have later : ((List.range (b + 1)).map f) = f 0 :: (List.range b).map (f <| · + 1) := by
      rw [List.range_succ_eq_map, List.map_cons, List.map_map]
      rfl
    have first : (List.range c).map (fun m => f (m / c)) = List.replicate c (f 0) := by
      refine List.eq_replicate_iff.mpr ⟨by simp, fun x hx => ?_⟩
      obtain ⟨m, hm, rfl⟩ := List.mem_map.mp hx
      rw [Nat.div_eq_of_lt (List.mem_range.mp hm)]
    rw [interleave, later, Nat.mul_succ, Nat.add_comm (c * b), List.range_add, List.map_append,
      first, List.map_map]
    congr 1
    · rw [List.filterMap_replicate_of_some (List.head?_cons ..)]
    · rw [List.map_replicate, List.tail_cons, ih]
      refine List.map_congr_left fun m _ => ?_
      show f (m / c + 1) = f ((c + m) / c)
      rw [Nat.add_div_left m pos]

/-- A cleared buffer with the first `k` frames filled, interleaved. -/
theorem interleave_filled (x : Nat → Binary32) {c k b : Nat} (pos : 0 < c) :
    interleave b ((silence c b).map (Driver.overlay ((List.range k).map x))) =
      (List.range (c * b)).map fun m => if m / c < k then x (m / c) else .zero := by
  have channel : Driver.overlay ((List.range k).map x) (List.replicate b .zero) =
      (List.range b).map fun j => if j < k then x j else .zero := by
    refine List.ext_getElem? fun j => ?_
    rw [Driver.getElem?_overlay, List.getElem?_map, List.getElem?_map]
    rcases Nat.lt_or_ge j b with lt | ge
    · rw [List.getElem?_replicate_of_lt lt, List.getElem?_range lt]
      by_cases filled : j < k
      · simp [filled]
      · rw [List.getElem?_eq_none (by simpa using filled)]
        simp [filled]
    · rw [List.getElem?_eq_none (l := List.replicate b _) (by simpa using ge),
        List.getElem?_eq_none (l := List.range b) (by simpa using ge)]
      rfl
  rw [silence, List.map_replicate, channel, interleave_replicate _ pos]

namespace Deck

variable {μ σ : Type} {d : Deck σ}

/-- The driver with the instance that waits taken over. -/
def ready (d : Deck σ) : Driver σ := d.driver.ready d.handoff.pending

/-- The instance that the next buffer is filled from. -/
def playing? (d : Deck σ) : Option (Instance σ) :=
  if d.ready.faulted then none else d.ready.active.filter (·.hasSampler)

/-- What is heard from now on when nothing is offered, one sample for each frame. -/
def heard (e : Engine μ σ) (d : Deck σ) (k : Nat) : Binary32 :=
  match d.playing? with
  | some i => i.heard e k
  | none => .zero

theorem sounds_of_playing {i : Instance σ} (h : d.playing? = some i) {c b : Nat} (pos : 0 < c) :
    d.ready.Sounds (silence c b) i b := by
  unfold playing? at h
  split at h
  · cases h
  · rename_i sound
    obtain ⟨active, sampler⟩ := Option.filter_eq_some_iff.mp h
    obtain ⟨c, rfl⟩ : ∃ m, c = m + 1 := ⟨c - 1, by omega⟩
    exact ⟨active, by simpa using sound, sampler, by simp [silence, List.replicate_succ]⟩

theorem not_sounds_of_idle (h : d.playing? = none) (buffer : Buffer) (i : Instance σ) (n : Nat) :
    ¬ d.ready.Sounds buffer i n := by
  rintro ⟨active, sound, sampler, -⟩
  simp [playing?, active, sound, sampler] at h

theorem playing_of_empty {handoff : Handoff σ} (empty : handoff.pending = none) (d : Driver σ) :
    (⟨d, handoff⟩ : Deck σ).playing? =
      if d.faulted then none else d.active.filter (·.hasSampler) := by
  simp only [playing?, ready, Driver.ready, empty]

theorem heard_of_playing (e : Engine μ σ) {i : Instance σ} (h : d.playing? = some i) (k : Nat) :
    d.heard e k = i.heard e k := by
  unfold heard
  rw [h]

theorem heard_of_idle (e : Engine μ σ) (h : d.playing? = none) (k : Nat) :
    d.heard e k = .zero := by
  unfold heard
  rw [h]

/-- The block is the beginning of the stream, and the deck after it has the rest of the stream. -/
def Continues (e : Engine μ σ) (d : Deck σ) (c b : Nat) (samples : List Binary32)
    (later : Deck σ) : Prop :=
  samples = (List.range (c * b)).map (fun m => d.heard e (m / c)) ∧
    ∀ k, later.heard e k = d.heard e (b + k)

variable {e : Engine μ σ} {handoff : Handoff σ} {i : Instance σ} {c b : Nat}

theorem continues_of_idle (e : Engine μ σ) (playing : d.playing? = none)
    (empty : handoff.pending = none) (pos : 0 < c) (b : Nat) :
    Continues e d c b (interleave b (silence c b)) ⟨d.ready, handoff⟩ := by
  have cleared : silence c b = List.replicate c ((List.range b).map fun _ => .zero) := by
    simp [silence]
  have next : (⟨d.ready, handoff⟩ : Deck σ).playing? = none :=
    (playing_of_empty empty d.ready).trans playing
  constructor
  · rw [cleared, interleave_replicate _ pos]
    exact List.map_congr_left fun m _ => (heard_of_idle e playing _).symm
  · intro k
    rw [heard_of_idle e next, heard_of_idle e playing]

theorem continues_of_gives {later : Driver σ} (playing : d.playing? = some i)
    (empty : handoff.pending = none) (gives : i.Gives e b) (pos : 0 < c)
    (active : later.active = some (i.after e b)) (sound : later.faulted = false) :
    Continues e d c b
      (interleave b ((silence c b).map (Driver.overlay ((List.range b).map (i.sampleAt e)))))
      ⟨later, handoff⟩ := by
  constructor
  · rw [interleave_filled _ pos]
    refine List.map_congr_left fun m hm => ?_
    have frame : m / c < b := Nat.div_lt_of_lt_mul (List.mem_range.mp hm)
    rw [if_pos frame, heard_of_playing e playing,
      Guest.Instance.heard_of_gives (gives.mono (Nat.le_of_lt frame))]
  · intro k
    have sampler : i.hasSampler = true := by
      have sounds := sounds_of_playing playing pos (b := b)
      exact sounds.sampler
    have next : (⟨later, handoff⟩ : Deck σ).playing? = some (i.after e b) := by
      rw [playing_of_empty empty, active, sound]
      simp [Guest.Instance.hasSampler_after, sampler]
    rw [heard_of_playing e next, heard_of_playing e playing, Guest.Instance.heard_add gives]

theorem continues_of_failsAt {later : Driver σ} {m : Nat} {halt : Halt}
    (playing : d.playing? = some i) (empty : handoff.pending = none)
    (fails : i.FailsAt e m halt) (lt : m < b) (pos : 0 < c) (faulted : later.faulted = true) :
    Continues e d c b
      (interleave b ((silence c b).map (Driver.overlay ((List.range m).map (i.sampleAt e)))))
      ⟨later, handoff⟩ := by
  constructor
  · rw [interleave_filled _ pos]
    refine List.map_congr_left fun j hj => ?_
    rw [heard_of_playing e playing]
    split
    · rename_i before
      rw [Guest.Instance.heard_of_gives (fails.1.mono (Nat.le_of_lt before))]
    · rename_i behind
      rw [Guest.Instance.heard_of_failsAt fails (Nat.le_of_not_lt behind)]
  · intro k
    have next : (⟨later, handoff⟩ : Deck σ).playing? = none := by
      rw [playing_of_empty empty, faulted]
      rfl
    rw [heard_of_idle e next, heard_of_playing e playing,
      Guest.Instance.heard_of_failsAt fails (by omega)]

/-- A block that is filled while the slot is free, however long that takes. -/
theorem process_heard (e : Engine μ σ) (d : Deck σ) (pos : 0 < c) (b : Nat) (elapsed : Rat) :
    let done := d.driver.process e d.handoff false elapsed (silence c b)
    Continues e d c b (interleave b done.buffer) ⟨done.driver, done.handoff⟩ := by
  intro done
  obtain ⟨driver, filled, -, -, empty⟩ :=
    Driver.process_eq e d.driver d.handoff false elapsed (silence c b)
  have ready : d.driver.ready (Driver.taken? d.handoff false) = d.ready := rfl
  rw [ready] at driver filled
  rw [filled, driver]
  cases playing : d.playing? with
  | none =>
    rw [Driver.play_of_not_sounds e (not_sounds_of_idle playing _)]
    exact continues_of_idle e playing (empty rfl) pos b
  | some i =>
    have sounds := sounds_of_playing playing pos (b := b)
    rcases i.gives_or_failsAt e b with gives | ⟨m, lt, halt, fails⟩
    · rw [Driver.play_of_gives sounds gives]
      exact continues_of_gives playing (empty rfl) gives pos rfl rfl
    · rw [Driver.play_of_failsAt sounds fails lt]
      exact continues_of_failsAt playing (empty rfl) fails lt pos rfl

theorem block_heard (e : Engine μ σ) (d : Deck σ) (pos : 0 < c) (b : Nat) :
    Continues e d c b (d.block e c b).2.1 (d.block e c b).1 :=
  process_heard e d pos b 0

/-- Any number of blocks is the beginning of the stream. -/
theorem render_heard (e : Engine μ σ) {c b : Nat} (pos : 0 < c) (some_frame : 0 < b) (n : Nat)
    (d : Deck σ) :
    (render e c b n d).2.1 = (List.range (c * b * n)).map fun m => d.heard e (m / c) := by
  induction n generalizing d with
  | zero => rfl
  | succ n ih =>
    obtain ⟨samples, rest⟩ := block_heard e d pos b
    have shape : max c 1 = c ∧ max b 1 = b := by omega
    have later := ih (d.block e c b).1
    show (d.block e (max c 1) (max b 1)).2.1 ++
      (render e c b n (d.block e (max c 1) (max b 1)).1).2.1 = _
    rw [shape.1, shape.2, samples, later, Nat.mul_succ, Nat.add_comm (c * b * n), List.range_add,
      List.map_append, List.map_map]
    congr 1
    refine List.map_congr_left fun m _ => ?_
    show _ = d.heard e ((c * b + m) / c)
    rw [rest, Nat.mul_add_div pos]

/-- What is to be served when nothing is offered: what is left of a block, then the stream. -/
def upcoming (e : Engine μ σ) (c : Nat) (rest : List Binary32) (d : Deck σ) (m : Nat) : Binary32 :=
  (rest[m]?).getD (d.heard e ((m - rest.length) / c))

theorem upcoming_cons_succ (x : Binary32) (rest : List Binary32) (m : Nat) :
    d.upcoming e c (x :: rest) (m + 1) = d.upcoming e c rest m := by
  simp [upcoming]

/-- A block may as well be rendered at once. -/
theorem Continues.upcoming_eq {samples : List Binary32} {later : Deck σ}
    (h : Continues e d c b samples later) (pos : 0 < c) (m : Nat) :
    later.upcoming e c samples m = d.upcoming e c [] m := by
  obtain ⟨rfl, rest⟩ := h
  have stream : d.upcoming e c [] m = d.heard e (m / c) := rfl
  rw [stream, upcoming, List.length_map, List.length_range]
  rcases Nat.lt_or_ge m (c * b) with lt | ge
  · rw [List.getElem?_map, List.getElem?_range lt]
    rfl
  · obtain ⟨j, rfl⟩ := Nat.exists_eq_add_of_le ge
    rw [List.getElem?_eq_none (by simp), Option.getD_none, rest, Nat.add_sub_cancel_left,
      Nat.mul_add_div pos]

end Deck

namespace Source

variable {μ σ : Type}

/-- What a source will serve when nothing is offered. -/
def served (e : Engine μ σ) (s : Source) (d : Deck σ) (m : Nat) : Binary32 :=
  d.upcoming e s.channels s.rest m

/-- A source serves the first sample of what it will serve, and then the rest. -/
theorem next_served (e : Engine μ σ) (s : Source) (d : Deck σ) (pos : 0 < s.channels)
    (some_frame : 0 < s.blockSize) :
    ∃ (s' : Source) (d' : Deck σ) (events : List Event),
      s.next e d = (s', d', some (s.served e d 0), events) ∧ s'.channels = s.channels ∧
        s'.blockSize = s.blockSize ∧ ∀ m, s'.served e d' m = s.served e d (m + 1) := by
  obtain ⟨channels, blockSize, rest⟩ := s
  cases rest with
  | cons x rest =>
    exact ⟨⟨channels, blockSize, rest⟩, d, [], rfl, rfl, rfl, fun m =>
      (Deck.upcoming_cons_succ x rest m).symm⟩
  | nil =>
    have block := Deck.block_heard e d pos blockSize
    have ahead := block.upcoming_eq pos
    obtain ⟨x, rest, samples⟩ : ∃ x rest, (d.block e channels blockSize).2.1 = x :: rest := by
      refine List.exists_cons_of_length_pos ?_
      rw [block.1, List.length_map, List.length_range]
      exact Nat.mul_pos pos some_frame
    rw [samples] at ahead
    refine ⟨⟨channels, blockSize, rest⟩, (d.block e channels blockSize).1,
      (d.block e channels blockSize).2.2, ?_, rfl, rfl, fun m => ?_⟩
    · have first : x = served e ⟨channels, blockSize, []⟩ d 0 := ahead 0
      rw [next, ← first]
      simp only [samples, List.tail_cons, List.head?_cons]
    · exact (Deck.upcoming_cons_succ x rest m).symm.trans (ahead (m + 1))

/-- Any number of samples is the beginning of what a source will serve. -/
theorem take_served (e : Engine μ σ) (n : Nat) (s : Source) (d : Deck σ) (pos : 0 < s.channels)
    (some_frame : 0 < s.blockSize) :
    (s.take e n d).2.2.1 = (List.range n).map (s.served e d) := by
  induction n generalizing s d with
  | zero => rfl
  | succ n ih =>
    obtain ⟨s', d', events, served, channels, blockSize, rest⟩ :=
      s.next_served e d pos some_frame
    have later := ih s' d' (channels ▸ pos) (blockSize ▸ some_frame)
    rw [take, served]
    simp only [later, List.range_succ_eq_map, List.map_cons, List.map_map]
    congr 1
    exact List.map_congr_left fun m _ => rest m

end Source

/-- Rendering and playing give the same samples, whatever the sizes of their blocks: each frame of
one stream on all channels. The stream is what the instance gives that plays, one sample after the
other, and silence from the first one on that does not come. -/
theorem render_eq_take (e : Engine μ σ) (d : Deck σ) {c b₁ b₂ : Nat} (some_channel : 1 ≤ c)
    (le : c ≤ maxChannels) (some_frame₁ : 1 ≤ b₁) (some_frame₂ : 1 ≤ b₂) (n : Nat) :
    (d.render e c b₂ n).2.1 = ((Source.ofShape c b₁).take e (c * b₂ * n) d).2.2.1 ∧
    (d.render e c b₂ n).2.1 = (List.range (c * b₂ * n)).map (fun m => d.heard e (m / c)) ∧
    (∀ i, d.playing? = some i →
      (∀ k, i.Gives e (k + 1) → (i.answer e k).outcome = .ok (d.heard e k)) ∧
      ∀ m halt, i.FailsAt e m halt → ∀ k, m ≤ k → d.heard e k = .zero) ∧
    (d.playing? = none → ∀ k, d.heard e k = .zero) := by
  have rendered := Deck.render_heard e (b := b₂) some_channel some_frame₂ n d
  have shape : Source.ofShape c b₁ = ⟨c, b₁, []⟩ := by
    simp only [Source.ofShape, Source.mk.injEq, and_true]
    omega
  have taken := (Source.ofShape c b₁).take_served e (c * b₂ * n) d
    (by rw [shape]; exact some_channel) (by rw [shape]; exact some_frame₁)
  refine ⟨?_, rendered, fun i playing => ⟨fun k gives => ?_, fun m halt fails k le => ?_⟩,
    Deck.heard_of_idle e⟩
  · rw [rendered, taken, shape]
    rfl
  · obtain ⟨x, ok⟩ := gives k (Nat.lt_succ_self k)
    rw [Deck.heard_of_playing e playing, Guest.Instance.heard_of_gives (gives.mono (Nat.le_succ k)),
      Guest.Instance.sampleAt_of_ok ok, ok]
  · rw [Deck.heard_of_playing e playing, Guest.Instance.heard_of_failsAt fails le]

/-- Three samples, on two channels, rendered in blocks of four frames and played in blocks of
three. -/
theorem three_samples_are_heard :
    let d : Deck Nat := ⟨.fresh 48000, ⟨some ⟨3, 1, .skipped, true⟩, [], true⟩⟩
    (d.render .countdown 2 4 2).2.1 = ((Source.ofShape 2 3).take .countdown 16 d).2.2.1 ∧
      (d.render .countdown 2 4 2).2.1 =
        [⟨3⟩, ⟨3⟩, ⟨2⟩, ⟨2⟩, ⟨1⟩, ⟨1⟩] ++ List.replicate 10 .zero := by
  intro d
  refine ⟨?_, by decide⟩
  exact (render_eq_take .countdown d (by decide) (by decide) (by decide) (by decide) 2).1

end LiveSound.Playback
