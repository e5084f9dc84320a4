import LiveSound.Playback.BlockSource
import LiveSound.Proofs.Playback.Stream

/-!
# Blocks in their buffers

All buffers of a source have one shape, which the driver keeps. So a block is read and served
without a place being missed: a source moves on in its block (`next_inside`), or it begins the next
one with what the driver makes of cleared channels (`next_boundary`).
-/

namespace LiveSound.Playback

open Guest (Engine Instance)

/-! ## Buffers of one shape -/

/-- `c` channels of `b` frames. -/
structure Shape (c b : Nat) (buffer : Buffer) : Prop where
  channels : buffer.length = c
  frames : ∀ channel ∈ buffer, channel.length = b

def cell? (buffer : Buffer) (channel frame : Nat) : Option Binary32 :=
  buffer[channel]?.bind (·[frame]?)

/-- A block frame by frame: sample `m` is in frame `m / c` of channel `m % c`. -/
def woven (c b : Nat) (buffer : Buffer) : List Binary32 :=
  (List.range (c * b)).map fun m => (cell? buffer (m % c) (m / c)).getD .zero

variable {c b : Nat} {buffer : Buffer}

theorem shape_silence (c b : Nat) : Shape c b (silence c b) := by
  refine ⟨by simp [silence], fun channel h => ?_⟩
  rw [List.eq_of_mem_replicate h, List.length_replicate]

theorem Driver.length_overlay (xs ys : List Binary32) : (overlay xs ys).length = ys.length := by
  fun_induction overlay xs ys with
  | case1 x xs y ys ih => simp [ih]
  | case2 => rfl

theorem Shape.cell?_eq_some (h : Shape c b buffer) {channel frame : Nat} (hc : channel < c)
    (hb : frame < b) : ∃ x, cell? buffer channel frame = some x := by
  have room : channel < buffer.length := h.channels ▸ hc
  have frames : frame < buffer[channel].length := (h.frames _ (List.getElem_mem room)).symm ▸ hb
  exact ⟨buffer[channel][frame], by simp [cell?, room, frames]⟩

/-- The place of a sample is in a channel and in a frame. -/
theorem place_lt {m : Nat} (h : m < c * b) : m % c < c ∧ m / c < b :=
  ⟨Nat.mod_lt _ (Nat.pos_of_lt_mul_right h), Nat.div_lt_of_lt_mul h⟩

theorem length_woven : (woven c b buffer).length = c * b := by
  rw [woven, List.length_map, List.length_range]

theorem Shape.getElem?_woven (h : Shape c b buffer) {m : Nat} (lt : m < c * b) :
    (woven c b buffer)[m]? = cell? buffer (m % c) (m / c) := by
  obtain ⟨hc, hb⟩ := place_lt lt
  obtain ⟨x, cell⟩ := h.cell?_eq_some hc hb
  rw [woven, List.getElem?_map, List.getElem?_range lt, Option.map_some, cell, Option.getD_some]

theorem Shape.process {σ μ : Type} (h : Shape c b buffer) (e : Engine μ σ) (d : Driver σ)
    (handoff : Handoff σ) (contended : Bool) (elapsed : Rat) :
    Shape c b (d.process e handoff contended elapsed buffer).buffer := by
  obtain ⟨-, filled, -⟩ := Driver.process_eq e d handoff contended elapsed buffer
  rw [filled]
  unfold Driver.play
  split
  · split
    · exact h
    · refine ⟨by simpa using h.channels, fun channel mem => ?_⟩
      obtain ⟨old, hold, rfl⟩ := List.mem_map.mp mem
      rw [Driver.length_overlay, h.frames old hold]
  · exact h

theorem cell?_tail (buffer : Buffer) (channel frame : Nat) :
    cell? (buffer.map (·.tail)) channel frame = cell? buffer channel (frame + 1) := by
  unfold cell?
  rw [List.getElem?_map]
  cases buffer[channel]? with
  | none => rfl
  | some samples => exact List.getElem?_tail

/-- The first samples of the channels are the first frame. -/
theorem Shape.filterMap_head? (h : Shape c (b + 1) buffer) :
    buffer.filterMap (·.head?) =
      (List.range c).map fun m => (cell? buffer (m % c) (m / c)).getD .zero := by
  have some_head : ∀ channel ∈ buffer, channel.head? = some ((channel[0]?).getD .zero) := by
    intro channel mem
    have frames := h.frames channel mem
    cases channel with
    | nil => cases frames
    | cons x rest => rfl
  rw [List.filterMap_congr some_head, List.filterMap_eq_map']
  refine List.ext_getElem (by simpa using h.channels) fun m left right => ?_
  have lt : m < c := by simpa using right
  have room : m < buffer.length := by simpa using left
  simp [cell?, Nat.mod_eq_of_lt lt, Nat.div_eq_of_lt lt, room]

/-- A block frame by frame is what `interleave` makes of it. -/
theorem Shape.interleave_eq (h : Shape c b buffer) : interleave b buffer = woven c b buffer := by
  induction b generalizing buffer with
  | zero => rfl
  | succ b ih =>
    have tails : Shape c b (buffer.map (·.tail)) := by
      refine ⟨by simpa using h.channels, fun channel mem => ?_⟩
      obtain ⟨old, hold, rfl⟩ := List.mem_map.mp mem
      rw [List.length_tail, h.frames old hold, Nat.add_sub_cancel]
    rw [interleave, h.filterMap_head?, ih tails, woven, woven, Nat.mul_succ,
      Nat.add_comm (c * b), List.range_add, List.map_append, List.map_map]
    congr 1
    refine List.map_congr_left fun m mem => ?_
    have pos : 0 < c := Nat.pos_of_lt_mul_right (List.mem_range.mp mem)
    rw [cell?_tail, Function.comp_apply, Nat.add_mod_left, Nat.add_div_left m pos]

theorem Shape.cleared (h : Shape c b buffer) :
    (buffer.map fun channel => channel.map fun _ => Binary32.zero) = silence c b := by
  refine List.eq_replicate_iff.mpr ⟨by simpa using h.channels, fun channel mem => ?_⟩
  obtain ⟨old, hold, rfl⟩ := List.mem_map.mp mem
  rw [List.map_const', h.frames old hold]

/-! ## Steps of a source -/

namespace BlockSource

/-- Sizes that a source can have in memory. -/
structure Fits (c b : Nat) : Prop where
  some_channel : 0 < c
  channels : c ≤ maxChannels
  some_frame : 0 < b
  size : c * b ≤ maxPlace

/-- A source with buffers for `b` frames on `c` channels. -/
structure Sized (c b : Nat) (s : BlockSource) : Prop where
  channels : s.channels = c
  planar : Shape c b s.planar
  interleaved : s.interleaved.length = c * b

variable {μ σ : Type} {s : BlockSource}

theorem Sized.blockSize_eq {c b : Nat} (h : Sized c b s) (pos : 0 < c) : s.blockSize = b := by
  obtain ⟨first, others, planar⟩ : ∃ first others, s.planar = first :: others :=
    List.exists_cons_of_length_pos (h.planar.channels ▸ pos)
  have frames := h.planar.frames first (planar ▸ List.mem_cons_self)
  simp [blockSize, planar, frames]

theorem sized_ofShape (channels blockSize : Nat) :
    Sized (min (max channels 1) maxChannels) (max blockSize 1) (ofShape channels blockSize) :=
  ⟨rfl, shape_silence _ _, by simp [ofShape, Nat.mul_comm]⟩

/-- Up to `maxChannels` channels have a slot in the table. -/
theorem outputs_eq {planar : Buffer} (room : planar.length ≤ maxChannels) :
    outputs planar = .ok planar := by
  have table : planar.take maxChannels = planar := List.take_of_length_le room
  unfold outputs
  simp [table]

theorem sampleAt_eq {planar : Buffer} {channel frame : Nat} {x : Binary32}
    (h : cell? planar channel frame = some x) : sampleAt planar channel frame = .ok x := by
  obtain ⟨samples, there, found⟩ := Option.bind_eq_some_iff.mp h
  unfold sampleAt
  rw [there]
  simp only [found]

theorem mapM_eq_ok {α β : Type} {f : α → Except Fault β} {g : α → β} {l : List α}
    (h : ∀ a ∈ l, f a = .ok (g a)) : l.mapM f = .ok (l.map g) := by
  induction l with
  | nil => rfl
  | cons a l ih =>
    obtain ⟨first, rest⟩ := List.forall_mem_cons.mp h
    rw [List.mapM_cons, first, ih rest]
    rfl

/-- No cell of the block is missed, and none is read that is not there. -/
theorem weave_eq {c b : Nat} {planar : Buffer} {block : List Binary32} (pos : 0 < c)
    (shape : Shape c b planar) (size : block.length = c * b) :
    weave c planar block = .ok (woven c b planar) := by
  have whole : block.length / c * c = c * b := by
    rw [size, Nat.mul_div_cancel_left b pos, Nat.mul_comm]
  have cells : ∀ m ∈ List.range (c * b), sampleAt planar (m % c) (m / c) =
      .ok ((cell? planar (m % c) (m / c)).getD .zero) := by
    intro m mem
    obtain ⟨hc, hb⟩ := place_lt (List.mem_range.mp mem)
    obtain ⟨x, cell⟩ := shape.cell?_eq_some hc hb
    rw [cell, Option.getD_some, sampleAt_eq cell]
  unfold weave
  rw [if_neg (Nat.ne_of_gt pos), whole]
  simp only [mapM_eq_ok cells, bind, Except.bind]
  rw [← size, List.drop_length, List.append_nil, size]
  rfl

theorem advance_eq (h : s.cursor < maxPlace) :
    s.advance = .ok { s with cursor := s.cursor + 1 } := by
  rw [advance, if_pos h]

variable {c b : Nat} {d : Deck σ}

/-- Before the end of the block nothing is rendered, and the driver and the slot are left alone. -/
theorem next_inside (e : Engine μ σ) (contended : Bool) (elapsed : Rat)
    (inside : s.cursor < s.interleaved.length) (size : s.interleaved.length ≤ maxPlace) :
    s.next e contended elapsed d =
      .ok ⟨{ s with cursor := s.cursor + 1 }, d, s.interleaved[s.cursor]?, none⟩ := by
  have before : ¬ s.interleaved.length ≤ s.cursor := by omega
  unfold next refresh
  rw [if_neg before]
  simp only [bind, Except.bind, advance_eq (Nat.lt_of_lt_of_le inside size)]
  rfl

/-- At the end of the block the driver gets cleared channels, and the first sample is served of
what it makes of them. -/
theorem next_boundary (e : Engine μ σ) (contended : Bool) (elapsed : Rat) (fits : Fits c b)
    (sized : s.Sized c b) (behind : c * b ≤ s.cursor) :
    let done := d.driver.process e d.handoff contended elapsed (silence c b)
    s.next e contended elapsed d =
      .ok ⟨⟨c, done.buffer, woven c b done.buffer, 1⟩, ⟨done.driver, done.handoff⟩,
        (woven c b done.buffer)[0]?, some (silence c b, done)⟩ := by
  intro done
  obtain ⟨rfl, planar, size⟩ := sized
  have room : (silence s.channels b).length ≤ maxChannels := by
    rw [(shape_silence s.channels b).channels]
    exact fits.channels
  have filled : Shape s.channels b done.buffer :=
    (shape_silence s.channels b).process e d.driver d.handoff contended elapsed
  have rendered : s.renderBlock e contended elapsed d =
      .ok (⟨s.channels, done.buffer, woven s.channels b done.buffer, 0⟩,
        silence s.channels b, done) := by
    unfold renderBlock
    rw [planar.cleared, outputs_eq room]
    simp only [bind, Except.bind]
    rw [weave_eq fits.some_channel filled size]
    rfl
  unfold next refresh
  rw [if_pos (size ▸ behind), rendered]
  rfl

end BlockSource

end LiveSound.Playback
