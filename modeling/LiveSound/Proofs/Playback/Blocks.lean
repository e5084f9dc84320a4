import LiveSound.Proofs.Playback.Buffers
import LiveSound.Proofs.Playback.Timing
import Mathlib.Algebra.Order.Floor.Div

/-!
# Blocks and the cursor

A source has the driver fill one block after the other and serves each sample by sample, while
instances are offered at any time (`Move`). `Kept` is what holds after each move: where the cursor
is, and that all samples so far are those of the blocks, in order. A step moves on in the block or
begins the next one; so none is at fault, and what is offered waits for the next block. Without its
buffers such a source is a `Source` (`run_eq_take`).
-/

namespace LiveSound.Playback

open Guest (Engine Instance)

variable {c b : Nat}

/-! ## Runs -/

/-- What happens to a source and to the deck behind it. -/
inductive Move (σ : Type) where
  /-- The other side does something to the handoff. -/
  | meanwhile (change : Handoff σ → Handoff σ)
  /-- A sample is asked for. If a block is rendered for it that takes some time, and the slot may be
  in use. -/
  | next (contended : Bool) (elapsed : Rat)

namespace Move

variable {σ : Type}

def offer (i : Instance σ) : Move σ := .meanwhile fun h => (h.offer i).1

def isNext : Move σ → Bool
  | .meanwhile _ => false
  | .next .. => true

/-- Nothing is offered and nothing taken back, and the slot is free when a block is rendered. -/
def Leaves : Move σ → Prop
  | .meanwhile change => ∀ h, (change h).pending = h.pending
  | .next contended _ => contended = false

end Move

/-- A source, its deck, the calls of the driver so far and the samples so far. -/
structure Playout (σ : Type) where
  source : BlockSource
  deck : Deck σ
  turns : List (Turn σ)
  samples : List (Option Binary32)

namespace Playout

variable {μ σ : Type}

def start (channels blockSize : Nat) (d : Deck σ) : Playout σ :=
  ⟨.ofShape channels blockSize, d, [], []⟩

/-- With one more sample, and the call that was made for it. -/
def extend (p : Playout σ) (contended : Bool) (elapsed : Rat) (served : BlockSource.Served σ) :
    Playout σ :=
  let turn := served.call.map fun (given, done) =>
    ⟨⟨p.deck.handoff, contended, elapsed, given⟩, done⟩
  ⟨served.source, served.deck, p.turns ++ turn.toList, p.samples ++ [served.sample]⟩

def step (e : Engine μ σ) (p : Playout σ) : Move σ → Except Fault (Playout σ)
  | .meanwhile change => .ok { p with deck := ⟨p.deck.driver, change p.deck.handoff⟩ }
  | .next contended elapsed =>
    (p.source.next e contended elapsed p.deck).map (p.extend contended elapsed)

def run (e : Engine μ σ) : Playout σ → List (Move σ) → Except Fault (Playout σ)
  | p, [] => .ok p
  | p, m :: moves => (p.step e m).bind fun p => run e p moves

end Playout

/-- Sample `j` of a run of blocks is in frame `j / c % b` of channel `j % c` of block
`j / (c * b)`. -/
def item? {σ : Type} (c b : Nat) (turns : List (Turn σ)) (j : Nat) : Option Binary32 :=
  turns[j / (c * b)]?.bind fun t => cell? t.done.buffer (j % c) (j / c % b)

section Items

variable {σ : Type} {turns : List (Turn σ)} {t : Turn σ} {j : Nat}

theorem item?_append (pos : 0 < c * b) (lt : j < turns.length * (c * b)) (later : List (Turn σ)) :
    item? c b (turns ++ later) j = item? c b turns j := by
  have block : j / (c * b) < turns.length := by
    rwa [Nat.div_lt_iff_lt_mul pos]
  unfold item?
  rw [List.getElem?_append_left block]

theorem item?_last (shape : Shape c b t.done.buffer) {m : Nat} (lt : m < c * b) :
    item? c b (turns ++ [t]) (turns.length * (c * b) + m) = (woven c b t.done.buffer)[m]? := by
  have pos : 0 < c := Nat.pos_of_lt_mul_right lt
  have frame : m / c < b := (place_lt lt).2
  have block : (turns.length * (c * b) + m) / (c * b) = turns.length := by
    rw [Nat.mul_comm, Nat.mul_add_div (by omega), Nat.div_eq_of_lt lt, Nat.add_zero]
  have channel : (turns.length * (c * b) + m) % c = m % c := by
    rw [Nat.mul_left_comm, Nat.mul_add_mod]
  have within : (turns.length * (c * b) + m) / c % b = m / c := by
    rw [Nat.mul_left_comm, Nat.mul_add_div pos, Nat.mul_comm, Nat.mul_add_mod,
      Nat.mod_eq_of_lt frame]
  unfold item?
  rw [block, channel, within, shape.getElem?_woven lt]
  simp

end Items

/-- How far a source is after `n` samples from these turns. -/
inductive Reached {σ : Type} (c b : Nat) (s : BlockSource) : Nat → List (Turn σ) → Prop
  | start (cursor : s.cursor = maxPlace) : Reached c b s 0 []
  | within {early : List (Turn σ)} {t : Turn σ} (some_sample : 0 < s.cursor)
      (le : s.cursor ≤ c * b) (block : s.interleaved = woven c b t.done.buffer) :
      Reached c b s (early.length * (c * b) + s.cursor) (early ++ [t])

namespace Reached

variable {σ : Type} {s : BlockSource} {n : Nat} {turns : List (Turn σ)}

theorem eq_of_behind (h : Reached c b s n turns) (behind : c * b ≤ s.cursor) :
    n = turns.length * (c * b) := by
  cases h with
  | start => rw [List.length_nil, Nat.zero_mul]
  | within some_sample le block =>
    rw [List.length_append, List.length_singleton, Nat.succ_mul]
    omega

/-- There are as many blocks as it takes for the samples. -/
theorem length_eq (h : Reached c b s n turns) (pos : 0 < c * b) :
    turns.length = n ⌈/⌉ (c * b) := by
  rw [Nat.ceilDiv_eq_add_pred_div]
  cases h with
  | start => rw [Nat.div_eq_of_lt (by omega), List.length_nil]
  | @within early t some_sample le block =>
    have rest : early.length * (c * b) + s.cursor + c * b - 1 =
        (c * b) * (early.length + 1) + (s.cursor - 1) := by
      rw [Nat.mul_succ, Nat.mul_comm (c * b)]
      omega
    rw [rest, Nat.mul_add_div pos, Nat.div_eq_of_lt (by omega), List.length_append]
    rfl

theorem add_left (h : Reached c b s n turns) (fits : c * b ≤ maxPlace) :
    n + (c * b - s.cursor) = turns.length * (c * b) := by
  cases h with
  | start cursor => rw [cursor, Nat.sub_eq_zero_of_le fits, List.length_nil, Nat.zero_mul]
  | within some_sample le block =>
    rw [List.length_append, List.length_singleton, Nat.succ_mul, Nat.add_assoc,
      Nat.add_sub_cancel' le]

/-- The length that is told is that of what is left of the blocks. -/
theorem frameLength_eq (h : Reached c b s n turns) (size : s.interleaved.length = c * b)
    (fits : c * b ≤ maxPlace) :
    s.frameLength = max (turns.length * (c * b) - n) 1 := by
  rw [BlockSource.frameLength, size, ← h.add_left fits, Nat.add_sub_cancel_left]

end Reached

namespace Driver

variable {μ σ : Type} {e : Engine μ σ}

theorem turns_concat (d : Driver σ) (calls : List (Call σ)) (c : Call σ) :
    d.turns e (calls ++ [c]) = d.turns e calls ++ [(d.after e calls).turn e c] := by
  induction calls generalizing d with
  | nil => rfl
  | cons first calls ih => exact congrArg (d.turn e first :: ·) (ih _)

end Driver

namespace Playout

variable {μ σ : Type} {e : Engine μ σ} {d₀ : Driver σ} {c b n : Nat} {p : Playout σ}

/-- What holds after `n` samples, whatever happened between them. -/
structure Kept (e : Engine μ σ) (d₀ : Driver σ) (c b n : Nat) (p : Playout σ) : Prop where
  sized : p.source.Sized c b
  reached : Reached c b p.source n p.turns
  cleared : ∀ t ∈ p.turns, t.call.buffer = silence c b
  shaped : ∀ t ∈ p.turns, Shape c b t.done.buffer
  /-- All turns are calls of one driver, one after the other. -/
  chained : p.turns = d₀.turns e (p.turns.map (·.call))
  driver : p.deck.driver = d₀.after e (p.turns.map (·.call))
  served : p.samples.length = n
  items : ∀ j < n, ∃ x, p.samples[j]? = some (some x) ∧ item? c b p.turns j = some x

theorem kept_start (e : Engine μ σ) (channels blockSize : Nat) (d : Deck σ) :
    Kept e d.driver (min (max channels 1) maxChannels) (max blockSize 1) 0
      (start channels blockSize d) where
  sized := BlockSource.sized_ofShape channels blockSize
  reached := .start rfl
  cleared := by simp [start]
  shaped := by simp [start]
  chained := rfl
  driver := rfl
  served := rfl
  items j lt := absurd lt (Nat.not_lt_zero j)

theorem Kept.meanwhile (h : Kept e d₀ c b n p) (change : Handoff σ → Handoff σ) :
    Kept e d₀ c b n { p with deck := ⟨p.deck.driver, change p.deck.handoff⟩ } :=
  ⟨h.sized, h.reached, h.cleared, h.shaped, h.chained, h.driver, h.served, h.items⟩

theorem Kept.items_concat (h : Kept e d₀ c b n p) {turns : List (Turn σ)} {x : Binary32}
    (old : ∀ j < n, item? c b turns j = item? c b p.turns j) (new : item? c b turns n = some x) :
    ∀ j < n + 1, ∃ y, (p.samples ++ [some x])[j]? = some (some y) ∧
      item? c b turns j = some y := by
  intro j lt
  rcases Nat.lt_succ_iff_lt_or_eq.mp lt with before | rfl
  · obtain ⟨y, sample, item⟩ := h.items j before
    refine ⟨y, ?_, (old j before).trans item⟩
    rwa [List.getElem?_append_left (by rw [h.served]; exact before)]
  · exact ⟨x, by simp [← h.served], new⟩

theorem Kept.served_concat (h : Kept e d₀ c b n p) (x : Option Binary32) :
    (p.samples ++ [x]).length = n + 1 := by
  rw [List.length_append, h.served, List.length_singleton]

theorem Kept.next_inside (h : Kept e d₀ c b n p) (fits : BlockSource.Fits c b)
    (inside : p.source.cursor < c * b) (contended : Bool) (elapsed : Rat) :
    ∃ x, p.source.interleaved[p.source.cursor]? = some x ∧
      p.step e (.next contended elapsed) =
        .ok ⟨{ p.source with cursor := p.source.cursor + 1 }, p.deck, p.turns,
          p.samples ++ [some x]⟩ ∧
      Kept e d₀ c b (n + 1) ⟨{ p.source with cursor := p.source.cursor + 1 }, p.deck, p.turns,
        p.samples ++ [some x]⟩ := by
  obtain ⟨channels, planar, size⟩ := h.sized
  have room : p.source.cursor < p.source.interleaved.length := by rwa [size]
  have served := BlockSource.next_inside (d := p.deck) e contended elapsed room
    (size ▸ fits.size)
  obtain ⟨x, sample⟩ : ∃ x, p.source.interleaved[p.source.cursor]? = some x :=
    ⟨_, List.getElem?_eq_getElem room⟩
  obtain ⟨source, deck, turns, samples⟩ := p
  obtain ⟨early, t, rfl, rfl, block⟩ : ∃ early t, turns = early ++ [t] ∧
      n = early.length * (c * b) + source.cursor ∧
        source.interleaved = woven c b t.done.buffer := by
    cases h.reached with
    | start cursor => exact absurd (cursor ▸ inside) (Nat.not_lt.mpr fits.size)
    | @within early t _ _ block => exact ⟨early, t, rfl, rfl, block⟩
  refine ⟨x, sample, ?_, ?_⟩
  · rw [step, served, sample]
    exact congrArg Except.ok (by simp [extend])
  · have reached : Reached c b { source with cursor := source.cursor + 1 }
        (early.length * (c * b) + (source.cursor + 1)) (early ++ [t]) :=
      .within (Nat.succ_pos _) inside block
    refine ⟨⟨channels, planar, size⟩, reached, h.cleared, h.shaped, h.chained, h.driver,
      h.served_concat _, h.items_concat (fun _ _ => rfl) ?_⟩
    rw [item?_last (h.shaped t (by simp)) inside, ← block, sample]

/-- A step to the next block, which is filled by what is in the slot now. -/
theorem Kept.next_boundary (h : Kept e d₀ c b n p) (fits : BlockSource.Fits c b)
    (behind : c * b ≤ p.source.cursor) (contended : Bool) (elapsed : Rat) :
    let t := p.deck.driver.turn e ⟨p.deck.handoff, contended, elapsed, silence c b⟩
    ∃ x, (woven c b t.done.buffer)[0]? = some x ∧
      p.step e (.next contended elapsed) =
        .ok ⟨⟨c, t.done.buffer, woven c b t.done.buffer, 1⟩, ⟨t.done.driver, t.done.handoff⟩,
          p.turns ++ [t], p.samples ++ [some x]⟩ ∧
      Kept e d₀ c b (n + 1) ⟨⟨c, t.done.buffer, woven c b t.done.buffer, 1⟩,
        ⟨t.done.driver, t.done.handoff⟩, p.turns ++ [t], p.samples ++ [some x]⟩ := by
  intro t
  have served := BlockSource.next_boundary (d := p.deck) e contended elapsed fits h.sized behind
  have some_sample : 0 < c * b := Nat.mul_pos fits.some_channel fits.some_frame
  have shape : Shape c b t.done.buffer :=
    (shape_silence c b).process e p.deck.driver p.deck.handoff contended elapsed
  obtain ⟨x, sample⟩ : ∃ x, (woven c b t.done.buffer)[0]? = some x :=
    ⟨_, List.getElem?_eq_getElem (by rwa [length_woven])⟩
  have all : n = p.turns.length * (c * b) := h.reached.eq_of_behind behind
  have called : (p.turns ++ [t]).map (·.call) =
      p.turns.map (·.call) ++ [⟨p.deck.handoff, contended, elapsed, silence c b⟩] :=
    List.map_append
  refine ⟨x, sample, ?_, ⟨rfl, shape, length_woven⟩, all ▸ .within Nat.one_pos some_sample rfl,
    ?_, ?_, ?_, ?_, h.served_concat _, h.items_concat (fun j lt => ?_) ?_⟩
  · rw [step, served, ← sample]
    rfl
  · exact List.forall_mem_append.mpr ⟨h.cleared, List.forall_mem_singleton.mpr rfl⟩
  · exact List.forall_mem_append.mpr ⟨h.shaped, List.forall_mem_singleton.mpr shape⟩
  · rw [called, Driver.turns_concat, ← h.chained, ← h.driver]
  · rw [called, Driver.after_concat, ← h.driver]
  · exact item?_append some_sample (all ▸ lt) [t]
  · rw [all, ← Nat.add_zero (p.turns.length * (c * b)), item?_last shape some_sample, sample]

theorem Kept.step (h : Kept e d₀ c b n p) (fits : BlockSource.Fits c b) (m : Move σ) :
    ∃ p', p.step e m = .ok p' ∧ Kept e d₀ c b (n + if m.isNext then 1 else 0) p' := by
  cases m with
  | meanwhile change => exact ⟨_, rfl, h.meanwhile change⟩
  | next contended elapsed =>
    rcases Nat.lt_or_ge p.source.cursor (c * b) with inside | behind
    · obtain ⟨x, -, stepped, kept⟩ := h.next_inside fits inside contended elapsed
      exact ⟨_, stepped, kept⟩
    · obtain ⟨x, -, stepped, kept⟩ := h.next_boundary fits behind contended elapsed
      exact ⟨_, stepped, kept⟩

/-- Nothing goes wrong in a run, and what holds before it holds after it. -/
theorem Kept.run (h : Kept e d₀ c b n p) (fits : BlockSource.Fits c b) (moves : List (Move σ)) :
    ∃ p', p.run e moves = .ok p' ∧ Kept e d₀ c b (n + moves.countP (·.isNext)) p' := by
  induction moves generalizing n p with
  | nil => exact ⟨p, rfl, h⟩
  | cons m moves ih =>
    obtain ⟨p₁, stepped, kept⟩ := h.step fits m
    obtain ⟨p', ran, kept⟩ := ih kept
    refine ⟨p', ?_, ?_⟩
    · rw [Playout.run, stepped]
      exact ran
    · rw [List.countP_cons, Nat.add_comm (moves.countP _), ← Nat.add_assoc]
      exact kept

theorem run_append (e : Engine μ σ) (p : Playout σ) (early later : List (Move σ)) :
    p.run e (early ++ later) = (p.run e early).bind fun p => p.run e later := by
  induction early generalizing p with
  | nil => rfl
  | cons m early ih =>
    rw [List.cons_append, run, run]
    cases p.step e m with
    | error fault => rfl
    | ok p => exact ih p

/-! ## What is offered -/

/-- What is left of the block. -/
def rest (p : Playout σ) : List Binary32 := p.source.interleaved.drop p.source.cursor

/-- What will be served when nothing is offered. -/
def upcoming (e : Engine μ σ) (c : Nat) (p : Playout σ) : Nat → Binary32 :=
  p.deck.upcoming e c p.rest

theorem drop_of_getElem? {α : Type} {l : List α} {k : Nat} {x : α} (h : l[k]? = some x) :
    l.drop k = x :: l.drop (k + 1) := by
  obtain ⟨room, rfl⟩ := List.getElem?_eq_some_iff.mp h
  exact List.drop_eq_getElem_cons room

theorem Kept.length_rest (h : Kept e d₀ c b n p) (fits : BlockSource.Fits c b) :
    n + p.rest.length = n ⌈/⌉ (c * b) * (c * b) := by
  rw [← h.reached.length_eq (Nat.mul_pos fits.some_channel fits.some_frame), rest,
    List.length_drop, h.sized.interleaved, h.reached.add_left fits.size]

/-- If the slot is free, the sample that is served is the first of those to come. -/
theorem Kept.next_upcoming (h : Kept e d₀ c b n p) (fits : BlockSource.Fits c b) (elapsed : Rat) :
    ∃ p', p.step e (.next false elapsed) = .ok p' ∧ Kept e d₀ c b (n + 1) p' ∧
      p'.samples = p.samples ++ [some (p.upcoming e c 0)] ∧
      ∀ m, p'.upcoming e c m = p.upcoming e c (m + 1) := by
  rcases Nat.lt_or_ge p.source.cursor (c * b) with inside | behind
  · obtain ⟨x, sample, stepped, kept⟩ := h.next_inside fits inside false elapsed
    have rest : p.rest = x :: p.source.interleaved.drop (p.source.cursor + 1) :=
      drop_of_getElem? sample
    refine ⟨_, stepped, kept, by rw [upcoming, rest]; rfl, fun m => ?_⟩
    rw [upcoming, upcoming, rest, Deck.upcoming_cons_succ]
    rfl
  · obtain ⟨x, sample, stepped, kept⟩ := h.next_boundary fits behind false elapsed
    have ahead (m : Nat) := (Deck.process_heard e p.deck fits.some_channel b elapsed).upcoming_eq
      fits.some_channel m
    rw [((shape_silence c b).process ..).interleave_eq] at ahead
    have block : woven c b _ = x :: _ := (List.drop_zero ..).symm.trans (drop_of_getElem? sample)
    have none_left : p.rest = [] := List.drop_of_length_le (h.sized.interleaved ▸ behind)
    refine ⟨_, stepped, kept, ?_, fun m => ?_⟩
    · rw [upcoming, none_left, ← ahead 0]
      exact congrArg (fun l => p.samples ++ [some (Deck.upcoming e c l _ 0)]) block.symm
    · rw [upcoming, upcoming, none_left, ← ahead (m + 1), rest]
      exact Deck.upcoming_cons_succ .. |>.symm.trans <|
        congrArg (fun l => Deck.upcoming e c l _ (m + 1)) block.symm

theorem upcoming_meanwhile (e : Engine μ σ) {change : Handoff σ → Handoff σ}
    (leaves : ∀ h, (change h).pending = h.pending) (c : Nat) (p : Playout σ) :
    upcoming e c { p with deck := ⟨p.deck.driver, change p.deck.handoff⟩ } = p.upcoming e c := by
  have heard : Deck.heard e ⟨p.deck.driver, change p.deck.handoff⟩ = p.deck.heard e := by
    have playing : Deck.playing? ⟨p.deck.driver, change p.deck.handoff⟩ = p.deck.playing? := by
      unfold Deck.playing? Deck.ready
      rw [leaves]
    funext k
    unfold Deck.heard
    rw [playing]
  funext m
  unfold upcoming Deck.upcoming
  rw [heard]
  rfl

/-- As long as nothing is offered, what was to come is what is served. -/
theorem Kept.run_upcoming (h : Kept e d₀ c b n p) (fits : BlockSource.Fits c b)
    {moves : List (Move σ)} (leaves : ∀ m ∈ moves, m.Leaves) :
    ∃ p', p.run e moves = .ok p' ∧ p'.samples =
      p.samples ++ (List.range (moves.countP (·.isNext))).map fun m => some (p.upcoming e c m) := by
  induction moves generalizing n p with
  | nil => exact ⟨p, rfl, by simp⟩
  | cons m moves ih =>
    obtain ⟨first, others⟩ := List.forall_mem_cons.mp leaves
    cases m with
    | meanwhile change =>
      obtain ⟨p', ran, samples⟩ := ih (h.meanwhile change) others
      rw [upcoming_meanwhile e first] at samples
      exact ⟨p', ran, samples⟩
    | next contended elapsed =>
      obtain rfl : contended = false := first
      obtain ⟨p₁, stepped, kept, sample, ahead⟩ := h.next_upcoming fits elapsed
      obtain ⟨p', ran, samples⟩ := ih kept others
      refine ⟨p', by rw [Playout.run, stepped]; exact ran, ?_⟩
      simp only [samples, sample, ahead, List.countP_cons, Move.isNext, if_true,
        List.range_succ_eq_map, List.map_cons, List.map_map, List.append_assoc]
      rfl

/-! ## Without the buffers -/

/-- What a source serves, as a `Source` has it. -/
def unbuffered (p : Playout σ) : Source := ⟨p.source.channels, p.source.blockSize, p.rest⟩

/-- What the calls so far have posted. -/
def events (p : Playout σ) : List Event := p.turns.flatMap (·.done.events)

theorem Kept.unbuffered_eq (h : Kept e d₀ c b n p) (fits : BlockSource.Fits c b) :
    p.unbuffered = ⟨c, b, p.rest⟩ := by
  rw [unbuffered, h.sized.channels, h.sized.blockSize_eq fits.some_channel]

theorem Kept.next_unbuffered (h : Kept e d₀ c b n p) (fits : BlockSource.Fits c b) :
    ∃ p' x posted, p.step e (.next false 0) = .ok p' ∧ Kept e d₀ c b (n + 1) p' ∧
      p.unbuffered.next e p.deck = (p'.unbuffered, p'.deck, some x, posted) ∧
      p'.samples = p.samples ++ [some x] ∧ p'.events = p.events ++ posted := by
  rcases Nat.lt_or_ge p.source.cursor (c * b) with inside | behind
  · obtain ⟨x, sample, stepped, kept⟩ := h.next_inside fits inside false 0
    have rest : p.rest = x :: p.source.interleaved.drop (p.source.cursor + 1) :=
      drop_of_getElem? sample
    refine ⟨_, x, [], stepped, kept, ?_, rfl, (List.append_nil _).symm⟩
    rw [h.unbuffered_eq fits, kept.unbuffered_eq fits, rest]
    rfl
  · obtain ⟨x, sample, stepped, kept⟩ := h.next_boundary fits behind false 0
    have none_left : p.rest = [] := List.drop_of_length_le (h.sized.interleaved ▸ behind)
    have filled := (shape_silence c b).process e p.deck.driver p.deck.handoff false 0
    have samples : (p.deck.block e c b).2.1 = x :: _ :=
      filled.interleave_eq.trans <| (List.drop_zero ..).symm.trans (drop_of_getElem? sample)
    refine ⟨_, x, _, stepped, kept, ?_, rfl, by simp [events]; rfl⟩
    rw [h.unbuffered_eq fits, kept.unbuffered_eq fits, none_left, Source.next]
    simp only [samples]
    rfl

theorem Kept.run_unbuffered (h : Kept e d₀ c b n p) (fits : BlockSource.Fits c b) (count : Nat) :
    ∃ p' served posted, p.run e (List.replicate count (.next false 0)) = .ok p' ∧
      Kept e d₀ c b (n + count) p' ∧
      p.unbuffered.take e count p.deck = (p'.unbuffered, p'.deck, served, posted) ∧
      p'.samples = p.samples ++ served.map some ∧ p'.events = p.events ++ posted := by
  induction count generalizing n p with
  | zero => exact ⟨p, [], [], rfl, h, rfl, by simp, by simp⟩
  | succ count ih =>
    obtain ⟨p₁, x, posted, stepped, kept, next, samples, events⟩ := h.next_unbuffered fits
    obtain ⟨p', others, more, ran, kept, take, samples', events'⟩ := ih kept
    refine ⟨p', x :: others, posted ++ more, ?_, ?_, ?_, ?_, ?_⟩
    · rw [List.replicate_succ, Playout.run, stepped]
      exact ran
    · rwa [Nat.add_assoc, Nat.add_comm 1] at kept
    · rw [Source.take, next]
      simp only [take]
    · rw [samples', samples, List.append_assoc]
      rfl
    · rw [events', events, List.append_assoc]

/-- A source with its buffers is a `Source`: it serves the same samples and posts the same events,
and both tell the same length. -/
theorem run_eq_take (e : Engine μ σ) (d : Deck σ) (channels blockSize : Nat)
    (fits : BlockSource.Fits (min (max channels 1) maxChannels) (max blockSize 1)) (count : Nat) :
    ∃ p served, (start channels blockSize d).run e (List.replicate count (.next false 0)) = .ok p ∧
      (Source.ofShape channels blockSize).take e count d =
        (p.unbuffered, p.deck, served, p.events) ∧
      p.samples = served.map some ∧ p.unbuffered.frameLength = p.source.frameLength := by
  have kept := kept_start e channels blockSize d
  have fresh : (start channels blockSize d).unbuffered = Source.ofShape channels blockSize := by
    rw [kept.unbuffered_eq fits, rest]
    refine congrArg (Source.mk _ _) (List.drop_of_length_le ?_)
    rw [kept.sized.interleaved]
    exact fits.size
  obtain ⟨p, served, posted, ran, -, take, samples, events⟩ := kept.run_unbuffered fits count
  refine ⟨p, served, ran, ?_, samples, ?_⟩
  · rw [← fresh, events]
    exact take
  · rw [BlockSource.frameLength, ← List.length_drop]
    rfl

/-! ## What cannot be changed any more -/

/-- All calls and samples of a playout are at the beginning of those of another. -/
structure Extends (p p' : Playout σ) : Prop where
  turns : p.turns <+: p'.turns
  samples : p.samples <+: p'.samples

theorem step_extends {p' : Playout σ} {m : Move σ} (h : p.step e m = .ok p') : p.Extends p' := by
  cases m with
  | meanwhile change =>
    cases h
    exact ⟨List.prefix_rfl, List.prefix_rfl⟩
  | next contended elapsed =>
    rw [step] at h
    cases served : p.source.next e contended elapsed p.deck with
    | error fault =>
      rw [served] at h
      cases h
    | ok served =>
      rw [served] at h
      cases h
      exact ⟨List.prefix_append .., List.prefix_append ..⟩

theorem run_extends {p' : Playout σ} {moves : List (Move σ)} (h : p.run e moves = .ok p') :
    p.Extends p' := by
  induction moves generalizing p with
  | nil =>
    cases h
    exact ⟨List.prefix_rfl, List.prefix_rfl⟩
  | cons m moves ih =>
    rw [run] at h
    cases stepped : p.step e m with
    | error fault => rw [stepped] at h; cases h
    | ok p₁ =>
      rw [stepped] at h
      have first := step_extends stepped
      have others := ih h
      exact ⟨first.turns.trans others.turns, first.samples.trans others.samples⟩

/-- Samples of blocks that are rendered come as they are, whatever happens. -/
theorem Kept.getElem?_samples (h : Kept e d₀ c b n p) (fits : BlockSource.Fits c b)
    {moves : List (Move σ)} {p' : Playout σ} (ran : p.run e moves = .ok p') {j : Nat}
    (rendered : j < n ⌈/⌉ (c * b) * (c * b)) (served : j < p'.samples.length) :
    p'.samples[j]? = (item? c b p.turns j).map some := by
  have some_sample : 0 < c * b := Nat.mul_pos fits.some_channel fits.some_frame
  obtain ⟨p'', ran', kept⟩ := h.run fits moves
  obtain rfl : p' = p'' := Except.ok.inj (ran.symm.trans ran')
  obtain ⟨x, sample, item⟩ := kept.items j (kept.served ▸ served)
  obtain ⟨later, turns⟩ := (run_extends ran).turns
  rw [← turns, item?_append some_sample (h.reached.length_eq some_sample ▸ rendered)] at item
  rw [sample, item]
  rfl

end Playout

/-- An instance in the slot is all that is heard from the next block on. -/
theorem Deck.heard_of_pending {μ σ : Type} (e : Engine μ σ) (d : Driver σ) {h : Handoff σ}
    {i : Instance σ} (pending : h.pending = some i) (k : Nat) :
    heard e ⟨d, h⟩ k = if i.hasSampler then i.heard e k else .zero := by
  have playing : playing? ⟨d, h⟩ = (some i).filter (·.hasSampler) := by
    simp only [playing?, ready, pending]
    rfl
  by_cases sampler : i.hasSampler = true
  · rw [if_pos sampler, heard_of_playing e (i := i) (by rw [playing]; simp [sampler])]
  · rw [if_neg sampler, heard_of_idle e (by rw [playing]; simp [sampler])]

namespace Playout

variable {μ σ : Type} {e : Engine μ σ} {d₀ : Driver σ} {c b n : Nat} {p : Playout σ}

theorem upcoming_behind (e : Engine μ σ) (c : Nat) (p : Playout σ) (j : Nat) :
    p.upcoming e c (p.rest.length + j) = p.deck.heard e (j / c) := by
  unfold upcoming Deck.upcoming
  rw [List.getElem?_eq_none (Nat.le_add_right ..), Option.getD_none, Nat.add_sub_cancel_left]

/-- What is offered is heard from the end of the block on, until something else is offered. -/
theorem Kept.offer_heard (h : Kept e d₀ c b n p) (fits : BlockSource.Fits c b) (i : Instance σ)
    {later : List (Move σ)} (leaves : ∀ m ∈ later, m.Leaves) (others : List (Move σ)) :
    ∃ p', p.run e (.offer i :: later ++ others) = .ok p' ∧
      ∀ j, n ⌈/⌉ (c * b) * (c * b) + j < n + later.countP (·.isNext) →
        p'.samples[n ⌈/⌉ (c * b) * (c * b) + j]? =
          some (some (if i.hasSampler then i.heard e (j / c) else .zero)) := by
  obtain ⟨p', ran, -⟩ := h.run fits (.offer i :: later ++ others)
  let q : Playout σ := { p with deck := ⟨p.deck.driver, (p.deck.handoff.offer i).1⟩ }
  have kept : Kept e d₀ c b n q := h.meanwhile fun handoff => (handoff.offer i).1
  obtain ⟨p₁, heard, samples⟩ := kept.run_upcoming fits leaves
  have on : p₁.run e others = .ok p' := by
    rw [run_append] at ran
    exact (congrArg (Except.bind · _) heard).symm.trans ran
  obtain ⟨more, all⟩ := (run_extends on).samples
  refine ⟨p', ran, fun j lt => ?_⟩
  have place : n ⌈/⌉ (c * b) * (c * b) + j = q.samples.length + (q.rest.length + j) := by
    rw [kept.served, ← Nat.add_assoc, kept.length_rest fits]
  rw [place] at lt ⊢
  rw [kept.served, Nat.add_lt_add_iff_left] at lt
  rw [← all, samples, List.append_assoc, List.getElem?_append_right (Nat.le_add_right ..),
    Nat.add_sub_cancel_left, List.getElem?_append_left (by simpa using lt), List.getElem?_map,
    List.getElem?_range lt, Option.map_some, upcoming_behind, Deck.heard_of_pending e _ rfl]

/-- What is known of a playout after `n` samples, in blocks of `b` frames on `c` channels. -/
structure BlockByBlock (e : Engine μ σ) (d₀ : Driver σ) (c b n : Nat) (p : Playout σ) :
    Prop where
  served : p.samples.length = n
  items : ∀ j < n, ∃ x, p.samples[j]? = some (some x) ∧ item? c b p.turns j = some x
  called : p.turns.length = n ⌈/⌉ (c * b)
  cleared : ∀ t ∈ p.turns, t.call.buffer = silence c b
  chained : p.turns = d₀.turns e (p.turns.map (·.call))
  frameLength : p.source.frameLength = max (p.turns.length * (c * b) - n) 1

theorem Kept.blockByBlock (h : Kept e d₀ c b n p) (fits : BlockSource.Fits c b) :
    BlockByBlock e d₀ c b n p where
  served := h.served
  items := h.items
  called := h.reached.length_eq (Nat.mul_pos fits.some_channel fits.some_frame)
  cleared := h.cleared
  chained := h.chained
  frameLength := h.reached.frameLength_eq h.sized.interleaved fits.size

end Playout

/-- A source never fails to serve a sample, whatever is done to the handoff between them. The driver
is called once for each block that is begun, with cleared channels, and all samples of its blocks
are served in order. What is offered changes nothing before the end of the block, and is heard from
there on. -/
theorem blocks_are_served_in_order {μ σ : Type} (e : Engine μ σ) (d : Deck σ)
    (channels blockSize : Nat)
    (fits : min (max channels 1) maxChannels * max blockSize 1 ≤ maxPlace) :
    let c := min (max channels 1) maxChannels
    let b := max blockSize 1
    let play := (Playout.start channels blockSize d).run e
    (∀ moves, ∃ p, play moves = .ok p ∧
      p.BlockByBlock e d.driver c b (moves.countP (·.isNext))) ∧
    ∀ early : List (Move σ),
      let begun := early.countP (·.isNext) ⌈/⌉ (c * b) * (c * b)
      (∀ moves₁ moves₂ p₁ p₂, play (early ++ moves₁) = .ok p₁ → play (early ++ moves₂) = .ok p₂ →
        ∀ j < begun, j < p₁.samples.length → j < p₂.samples.length →
          p₁.samples[j]? = p₂.samples[j]?) ∧
      ∀ i later others, (∀ m ∈ later, m.Leaves) →
        ∃ p, play (early ++ .offer i :: later ++ others) = .ok p ∧
          ∀ j, begun + j < early.countP (·.isNext) + later.countP (·.isNext) →
            p.samples[begun + j]? =
              some (some (if i.hasSampler then i.heard e (j / c) else .zero)) := by
  intro c b play
  have sizes : BlockSource.Fits c b := by
    refine ⟨?_, Nat.min_le_right .., by omega, fits⟩
    exact Nat.lt_min.mpr ⟨by omega, by decide⟩
  have start := Playout.kept_start e channels blockSize d
  refine ⟨fun moves => ?_, fun early => ?_⟩
  · obtain ⟨p, ran, kept⟩ := start.run sizes moves
    rw [Nat.zero_add] at kept
    exact ⟨p, ran, kept.blockByBlock sizes⟩
  · obtain ⟨q, ran, kept⟩ := start.run sizes early
    rw [Nat.zero_add] at kept
    have split (moves : List (Move σ)) : play (early ++ moves) = q.run e moves := by
      show Playout.run e _ _ = _
      rw [Playout.run_append, ran]
      rfl
    refine ⟨fun moves₁ moves₂ p₁ p₂ ran₁ ran₂ j lt served₁ served₂ => ?_,
      fun i later others leaves => ?_⟩
    · rw [kept.getElem?_samples sizes (split _ ▸ ran₁) lt served₁,
        kept.getElem?_samples sizes (split _ ▸ ran₂) lt served₂]
    · rw [List.append_assoc, split]
      exact kept.offer_heard sizes i leaves others

/-- On two channels, in blocks of three frames: an instance that is offered after the second sample
is heard from the seventh on, and the driver is called twice for nine samples. -/
theorem offer_after_two_samples :
    let moves : List (Move Nat) :=
      List.replicate 2 (.next false 0) ++ .offer ⟨3, 1, .skipped, true⟩ ::
        List.replicate 7 (.next false 0)
    let samples : List Binary32 := List.replicate 6 .zero ++ [⟨3⟩, ⟨3⟩, ⟨2⟩]
    2 * 3 ≤ maxPlace ∧ ∃ p,
      (Playout.start 2 3 ⟨.fresh 48000, .empty⟩).run .countdown moves = .ok p ∧
        p.turns.length = 2 ∧ p.source.frameLength = 3 ∧ p.samples = samples.map some := by
  intro moves samples
  have fits : 2 * 3 ≤ maxPlace := by decide
  obtain ⟨always, -⟩ :=
    blocks_are_served_in_order .countdown ⟨.fresh 48000, .empty⟩ 2 3 fits
  obtain ⟨p, ran, blocks⟩ := always moves
  have called : p.turns.length = 2 := blocks.called.trans (by decide)
  refine ⟨fits, p, ran, called, ?_, ?_⟩
  · rw [blocks.frameLength, called]
    decide
  · have heard : ((Playout.start 2 3 ⟨.fresh 48000, .empty⟩).run .countdown moves).toOption.map
        (·.samples) = some (samples.map some) := by decide
    rw [ran] at heard
    exact Option.some.inj heard

end LiveSound.Playback
