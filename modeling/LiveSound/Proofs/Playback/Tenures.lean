import LiveSound.Proofs.Playback.Filling

/-!
# Tenures

The driver is called again and again, and instances are offered to it between the calls. A `Turn`
is one of these calls with all that came of it. The turns from the one that takes an instance over
to the last one before another is taken over are the tenure of that instance, and `Plays` tells how
a tenure goes: the instance fills buffer after buffer, going on where the one before left off, until
it fails at some frame; that is said once, and it is left alone for the rest of its tenure. Every
run falls into tenures (`every_tenure_plays`).
-/

namespace LiveSound

def Event.isTiming : Event → Bool
  | .perf .. => true
  | _ => false

def Event.isError : Event → Bool
  | .error _ => true
  | _ => false

namespace Playback

open Guest (AllText Engine Instance Halt)

/-- What a call of the audio callback meets. In the slot is whatever was offered meanwhile. -/
structure Call (σ : Type) where
  handoff : Handoff σ
  contended : Bool
  elapsed : Rat
  buffer : Buffer

/-- A call and what came of it. -/
structure Turn (σ : Type) where
  call : Call σ
  done : Driver.Processed σ

namespace Turn

variable {σ : Type}

def picked (t : Turn σ) : Option (Instance σ) := Driver.taken? t.call.handoff t.call.contended

/-- Nothing was written or posted, and the driver has this instance. -/
structure Idle (t : Turn σ) (active : Option (Instance σ)) (faulted : Bool) : Prop where
  buffer : t.done.buffer = t.call.buffer
  events : t.done.events = []
  active : t.done.driver.active = active
  faulted : t.done.driver.faulted = faulted

/-- The first `n` frames were filled with the samples `x`, this was posted, and then perhaps the
timing; the driver has this instance. -/
structure Filled (t : Turn σ) (x : Nat → Binary32) (n : Nat) (posted : List Event)
    (active : Instance σ) (faulted : Bool) : Prop where
  buffer : Written x n t.call.buffer t.done.buffer
  events : ∃ timing, t.done.events = posted ++ timing ∧ ∀ event ∈ timing, event.isTiming
  active : t.done.driver.active = some active
  faulted : t.done.driver.faulted = faulted

def errors (t : Turn σ) : List Event := t.done.events.filter (·.isError)

end Turn

variable {μ σ : Type} {e : Engine μ σ} {i : Instance σ}

/-- The turns of an instance that was asked for `k` samples so far and has not failed. -/
inductive Plays (e : Engine μ σ) (i : Instance σ) : Nat → List (Turn σ) → Prop where
  | nil {k : Nat} : Plays e i k []
  /-- There is nothing to ask or nothing to fill. -/
  | idle {k : Nat} {t : Turn σ} {rest : List (Turn σ)}
      (unable : i.hasSampler = false ∨ t.call.buffer = [])
      (turn : t.Idle (some (i.after e k)) false) (more : Plays e i k rest) :
      Plays e i k (t :: rest)
  /-- It gives a sample for each frame of the first channel. -/
  | full {k n : Nat} {t : Turn σ} {rest : List (Turn σ)} (sampler : i.hasSampler = true)
      (frames : t.call.buffer.head?.map (·.length) = some n) (gives : (i.after e k).Gives e n)
      (turn : t.Filled (fun j => i.sampleAt e (k + j)) n (i.postedIn e k n)
        (i.after e (k + n)) false)
      (more : Plays e i (k + n) rest) :
      Plays e i k (t :: rest)
  /-- It fails at frame `m`, and is not asked again. -/
  | fails {k m n : Nat} {halt : Halt} {t : Turn σ} {rest : List (Turn σ)}
      (sampler : i.hasSampler = true) (frames : t.call.buffer.head?.map (·.length) = some n)
      (lt : m < n) (fails : (i.after e k).FailsAt e m halt)
      (turn : t.Filled (fun j => i.sampleAt e (k + j)) m
        (i.postedIn e k (m + 1) ++ [.error (Driver.trapMessage halt)])
        (i.after e (k + (m + 1))) true)
      (silent : ∀ u ∈ rest, u.Idle (some (i.after e (k + (m + 1)))) true) :
      Plays e i k (t :: rest)

namespace Driver

def turn (e : Engine μ σ) (d : Driver σ) (c : Call σ) : Turn σ :=
  ⟨c, d.process e c.handoff c.contended c.elapsed c.buffer⟩

def turns (e : Engine μ σ) : Driver σ → List (Call σ) → List (Turn σ)
  | _, [] => []
  | d, c :: calls => d.turn e c :: turns e (d.turn e c).done.driver calls

/-- Any part of a run is a run. -/
theorem turns_eq_append {d : Driver σ} {calls : List (Call σ)} {early late : List (Turn σ)}
    (h : d.turns e calls = early ++ late) :
    ∃ front back d', early = d.turns e front ∧ late = turns e d' back := by
  induction early generalizing d calls with
  | nil => exact ⟨[], calls, d, rfl, h.symm⟩
  | cons t early ih =>
    cases calls with
    | nil => cases h
    | cons c calls =>
      obtain ⟨rfl, rest⟩ := List.cons.inj h
      obtain ⟨front, back, d', rfl, rfl⟩ := ih rest
      exact ⟨c :: front, back, d', rfl, rfl⟩

theorem turns_eq_cons {d : Driver σ} {calls : List (Call σ)} {t : Turn σ} {rest : List (Turn σ)}
    (h : d.turns e calls = t :: rest) :
    ∃ c back, t = d.turn e c ∧ rest = turns e t.done.driver back := by
  cases calls with
  | nil => cases h
  | cons c calls =>
    obtain ⟨rfl, rfl⟩ := List.cons.inj h
    exact ⟨c, calls, rfl, rfl⟩

theorem goesOn_of_mem_turns {d : Driver σ} {calls : List (Call σ)} {t : Turn σ}
    (h : t ∈ d.turns e calls) : t.done.goesOn = true := by
  induction calls generalizing d with
  | nil => cases h
  | cons c calls ih =>
    rcases List.mem_cons.mp h with rfl | h
    · rfl
    · exact ih h

theorem report_isTiming (d : Driver σ) (elapsed : Rat) (frames : Nat) :
    ∀ event ∈ d.report elapsed frames, event.isTiming = true := by
  unfold report
  intro event h
  simp only at h
  split at h
  · rw [List.mem_singleton.mp h]
    rfl
  · cases h

/-- A turn is what the driver plays after it has taken over what was offered. -/
theorem turn_spec (e : Engine μ σ) (d : Driver σ) (c : Call σ) :
    let t := d.turn e c
    (t.done.driver, t.done.buffer, t.done.events) =
      (d.ready t.picked).play e c.elapsed c.buffer := by
  obtain ⟨driver, filled, events, -⟩ :=
    process_eq e d c.handoff c.contended c.elapsed c.buffer
  exact Prod.ext driver (Prod.ext filled events)

theorem turn_of_not_sounds (d : Driver σ) (c : Call σ)
    (h : ∀ i n, ¬ (d.ready (d.turn e c).picked).Sounds c.buffer i n) :
    (d.turn e c).done.driver = d.ready (d.turn e c).picked ∧
      (d.turn e c).Idle (d.ready (d.turn e c).picked).active
        (d.ready (d.turn e c).picked).faulted := by
  have spec := turn_spec e d c
  simp only [play_of_not_sounds e h, Prod.mk.injEq] at spec
  obtain ⟨driver, filled, events⟩ := spec
  exact ⟨driver, filled, events, by rw [driver], by rw [driver]⟩

/-- A driver that cannot play is idle for as long as nothing is taken over. -/
theorem idle_of_turns {d : Driver σ} (silent : d.active = none ∨ d.faulted = true)
    {calls : List (Call σ)} (kept : ∀ t ∈ d.turns e calls, t.picked = none) :
    ∀ t ∈ d.turns e calls, t.Idle d.active d.faulted := by
  induction calls with
  | nil => intro t h; cases h
  | cons c calls ih =>
    have same : d.ready (d.turn e c).picked = d := by
      rw [kept _ (.head _)]
      rfl
    have quiet : ∀ i n, ¬ (d.ready (d.turn e c).picked).Sounds c.buffer i n := by
      rw [same]
      rintro i n ⟨active, sound, -, -⟩
      rcases silent with none | faulted
      · rw [none] at active
        cases active
      · rw [faulted] at sound
        cases sound
    obtain ⟨driver, turn⟩ := turn_of_not_sounds d c quiet
    rw [same] at driver turn
    intro t h
    rcases List.mem_cons.mp h with rfl | h
    · exact turn
    · rw [driver] at h
      refine ih (fun u hu => kept u (.tail _ ?_)) t h
      rwa [driver]

theorem turn_of_gives (d : Driver σ) (c : Call σ) {n : Nat}
    (sounds : (d.ready (d.turn e c).picked).Sounds c.buffer i n) (gives : i.Gives e n) :
    (d.turn e c).Filled (i.sampleAt e) n (i.postedIn e 0 n) (i.after e n) false := by
  have spec := turn_spec e d c
  simp only [play_of_gives sounds gives, Prod.mk.injEq] at spec
  obtain ⟨driver, filled, events⟩ := spec
  refine ⟨?_, ⟨_, events, report_isTiming _ _ _⟩, by rw [driver], by rw [driver]⟩
  rw [filled]
  apply written_overlay

theorem turn_of_failsAt (d : Driver σ) (c : Call σ) {m n : Nat} {halt : Halt}
    (sounds : (d.ready (d.turn e c).picked).Sounds c.buffer i n) (fails : i.FailsAt e m halt)
    (lt : m < n) :
    (d.turn e c).Filled (i.sampleAt e) m
      (i.postedIn e 0 (m + 1) ++ [.error (trapMessage halt)]) (i.after e (m + 1)) true := by
  have spec := turn_spec e d c
  simp only [play_of_failsAt sounds fails lt, Prod.mk.injEq] at spec
  obtain ⟨driver, filled, events⟩ := spec
  refine ⟨?_, ⟨_, events.trans (List.append_cons ..), report_isTiming _ _ _⟩, by rw [driver],
    by rw [driver]⟩
  rw [filled]
  apply written_overlay

/-- A turn of an instance that has not failed, when the turns after it go on from there. -/
theorem plays_turn {d : Driver σ} {c : Call σ} {k : Nat}
    (active : (d.ready (d.turn e c).picked).active = some (i.after e k))
    (sound : (d.ready (d.turn e c).picked).faulted = false) {rest : List (Turn σ)}
    (goes : ∀ k', (d.turn e c).done.driver.active = some (i.after e k') →
      (d.turn e c).done.driver.faulted = false → Plays e i k' rest)
    (stops : ∀ j, (d.turn e c).done.driver.active = some j →
      (d.turn e c).done.driver.faulted = true → ∀ u ∈ rest, u.Idle (some j) true) :
    Plays e i k (d.turn e c :: rest) := by
  by_cases unable : i.hasSampler = false ∨ c.buffer = []
  · have quiet : ∀ j n, ¬ (d.ready (d.turn e c).picked).Sounds c.buffer j n := by
      rintro j n ⟨playing, -, sampler, frames⟩
      obtain rfl := Option.some.inj (playing.symm.trans active)
      rcases unable with none | empty
      · rw [Guest.Instance.hasSampler_after, none] at sampler
        cases sampler
      · rw [empty] at frames
        cases frames
    obtain ⟨-, turn⟩ := turn_of_not_sounds d c quiet
    rw [active, sound] at turn
    exact .idle unable turn (goes k turn.active turn.faulted)
  · obtain ⟨sampler, some_channel⟩ := not_or.mp unable
    rw [Bool.not_eq_false] at sampler
    obtain ⟨n, frames⟩ : ∃ n, c.buffer.head?.map (·.length) = some n := by
      cases buffer : c.buffer with
      | nil => exact absurd buffer some_channel
      | cons first others => exact ⟨_, rfl⟩
    have sounds : (d.ready (d.turn e c).picked).Sounds c.buffer (i.after e k) n :=
      ⟨active, sound, by rwa [Guest.Instance.hasSampler_after], frames⟩
    have samples : (i.after e k).sampleAt e = fun j => i.sampleAt e (k + j) :=
      funext (Guest.Instance.sampleAt_after k)
    rcases (i.after e k).gives_or_failsAt e n with gives | ⟨m, lt, halt, fails⟩
    · have turn := turn_of_gives d c sounds gives
      rw [samples, Guest.Instance.postedIn_after, Guest.Instance.after_after] at turn
      exact .full sampler frames gives turn (goes _ turn.active turn.faulted)
    · have turn := turn_of_failsAt d c sounds fails lt
      rw [samples, Guest.Instance.postedIn_after, Guest.Instance.after_after] at turn
      exact .fails sampler frames lt fails turn (stops _ turn.active turn.faulted)

/-- An instance goes on playing for as long as no other is taken over. -/
theorem plays_of_turns {d : Driver σ} {k : Nat} (active : d.active = some (i.after e k))
    (sound : d.faulted = false) {calls : List (Call σ)}
    (kept : ∀ t ∈ d.turns e calls, t.picked = none) : Plays e i k (d.turns e calls) := by
  induction calls generalizing d k with
  | nil => exact .nil
  | cons c calls ih =>
    have same : d.ready (d.turn e c).picked = d := by
      rw [kept _ (.head _)]
      rfl
    have later := fun t ht => kept t (.tail (d.turn e c) ht)
    refine plays_turn (by rwa [same]) (by rwa [same]) (fun k' now sound => ih now sound later) ?_
    intro j now faulted
    have idle := idle_of_turns (.inr faulted) later
    rwa [now, faulted] at idle

end Driver

/-! ## The one error -/

theorem filter_eq_nil_of_isTiming {events : List Event} (h : ∀ event ∈ events, event.isTiming) :
    events.filter (·.isError) = [] := by
  rw [List.filter_eq_nil_iff]
  intro event he
  have timing := h event he
  cases event with
  | perf => simp [Event.isError]
  | ready | error | log => cases timing

theorem filter_eq_nil_of_allText {events : List Event} (h : AllText events) :
    events.filter (·.isError) = [] := by
  rw [List.filter_eq_nil_iff]
  intro event he
  have text := h event he
  cases event with
  | log => simp [Event.isError]
  | ready | error | perf => cases text

theorem Turn.Filled.errors {t : Turn σ} {x : Nat → Binary32} {n : Nat} {posted : List Event}
    {j : Instance σ} {faulted : Bool} (h : t.Filled x n posted j faulted) :
    t.errors = posted.filter (·.isError) := by
  obtain ⟨timing, events, isTiming⟩ := h.events
  unfold Turn.errors
  rw [events, List.filter_append, filter_eq_nil_of_isTiming isTiming, List.append_nil]

theorem Turn.Idle.errors {t : Turn σ} {active : Option (Instance σ)} {faulted : Bool}
    (h : t.Idle active faulted) : t.errors = [] := by
  unfold Turn.errors
  rw [h.events]
  rfl

theorem errors_of_idle {turns : List (Turn σ)} {active : Option (Instance σ)} {faulted : Bool}
    (h : ∀ t ∈ turns, t.Idle active faulted) : turns.flatMap (·.errors) = [] := by
  rw [List.flatMap_eq_nil_iff]
  exact fun t ht => (h t ht).errors

theorem postedIn_isText (text : ∀ k, AllText (i.answer e k).events) (k n : Nat) :
    AllText (i.postedIn e k n) := by
  intro event h
  obtain ⟨j, -, h⟩ := List.mem_flatMap.mp h
  exact text (k + j) event h

/-- In its tenure an instance that posts only text has no error, or the one that tells of its
first failure. -/
theorem errors_of_plays (text : ∀ k, AllText (i.answer e k).events) {k : Nat}
    {turns : List (Turn σ)} (h : Plays e i k turns) (gives : i.Gives e k) :
    (turns.flatMap (·.errors) = [] ∧ ∀ t ∈ turns, t.done.driver.faulted = false) ∨
      ∃ m halt, i.FailsAt e m halt ∧
        turns.flatMap (·.errors) = [.error (Driver.trapMessage halt)] := by
  induction h with
  | nil => exact .inl ⟨rfl, by simp⟩
  | idle unable turn more ih =>
    simp only [List.flatMap_cons, turn.errors, List.nil_append, List.forall_mem_cons, turn.faulted,
      true_and]
    exact ih gives
  | full sampler frames more_samples turn more ih =>
    have none := turn.errors.trans (filter_eq_nil_of_allText (postedIn_isText text _ _))
    simp only [List.flatMap_cons, none, List.nil_append, List.forall_mem_cons, turn.faulted,
      true_and]
    exact ih (gives.add more_samples)
  | fails sampler frames lt fails turn silent =>
    have one := turn.errors
    rw [List.filter_append, filter_eq_nil_of_allText (postedIn_isText text _ _)] at one
    refine .inr ⟨_, _, fails.add gives, ?_⟩
    rw [List.flatMap_cons, one, errors_of_idle silent]
    rfl

/-! ## Whole runs -/

/-- The host is always asked to go on. Before anything is taken over nothing is played. After that
every instance has its tenure, and if it posts only text there is at most one error in it: that it
failed, if it did. -/
theorem every_tenure_plays (e : Engine μ σ) (sampleRate : Nat) (calls : List (Call σ)) :
    let turns := (Driver.fresh sampleRate).turns e calls
    (∀ t ∈ turns, t.done.goesOn = true) ∧
    (∀ early late, turns = early ++ late → (∀ t ∈ early, t.picked = none) →
      ∀ t ∈ early, t.Idle none false) ∧
    ∀ early t later late i, turns = early ++ t :: (later ++ late) → t.picked = some i →
      (∀ u ∈ later, u.picked = none) →
      Plays e i 0 (t :: later) ∧
      ((∀ k, AllText (i.answer e k).events) →
        ((t :: later).flatMap (·.errors) = [] ∧
          ∀ u ∈ t :: later, u.done.driver.faulted = false) ∨
        ∃ m halt, i.FailsAt e m halt ∧
          (t :: later).flatMap (·.errors) = [.error (Driver.trapMessage halt)]) := by
  intro turns
  refine ⟨fun t ht => Driver.goesOn_of_mem_turns ht, ?_, ?_⟩
  · intro early late split kept
    obtain ⟨front, -, -, rfl, -⟩ := Driver.turns_eq_append split
    exact Driver.idle_of_turns (.inl rfl) kept
  · intro early t later late i split picked kept
    obtain ⟨-, back, d, -, at_t⟩ := Driver.turns_eq_append split
    obtain ⟨c, back, rfl, after⟩ := Driver.turns_eq_cons at_t.symm
    obtain ⟨front, -, -, rfl, -⟩ := Driver.turns_eq_append after.symm
    have plays : Plays e i 0 (d.turn e c :: Driver.turns e (d.turn e c).done.driver front) := by
      refine Driver.plays_turn (by rw [picked]; rfl) (by rw [picked]; rfl) ?_ ?_
      · intro k now sound
        exact Driver.plays_of_turns now sound kept
      · intro j now faulted
        have idle := Driver.idle_of_turns (.inr faulted) kept
        rwa [now, faulted] at idle
    exact ⟨plays, fun text => errors_of_plays text plays fun k hk => by omega⟩

/-- An instance that fails at the third frame of its first buffer, is asked to fill another buffer
while the slot is in use, and is replaced. -/
theorem failed_instance_is_replaced :
    let first : Instance Nat := ⟨2, 1, .skipped, true⟩
    let second : Instance Nat := ⟨5, 2, .skipped, true⟩
    let turns := (Driver.fresh 48000).turns .countdown
      [⟨⟨some first, [], true⟩, false, 1, [[⟨9⟩, ⟨9⟩, ⟨9⟩], [⟨9⟩], [⟨9⟩, ⟨9⟩, ⟨9⟩, ⟨9⟩]]⟩,
        ⟨⟨some second, [], true⟩, true, 1, [[⟨9⟩, ⟨9⟩]]⟩,
        ⟨⟨some second, [], true⟩, false, 1, [[⟨9⟩, ⟨9⟩]]⟩]
    turns.map (·.done.buffer) =
        [[[⟨2⟩, ⟨1⟩, ⟨9⟩], [⟨2⟩], [⟨2⟩, ⟨1⟩, ⟨9⟩, ⟨9⟩]], [[⟨9⟩, ⟨9⟩]], [[⟨5⟩, ⟨4⟩]]] ∧
      turns.map (·.done.events) =
        [[.error "hear_c_next_sample trapped: no more samples"], [], []] ∧
      Plays .countdown first 0 (turns.take 2) ∧ Plays .countdown second 0 (turns.drop 2) := by
  intro first second turns
  have run := (every_tenure_plays .countdown 48000 (turns.map (·.call))).2.2
  refine ⟨by decide, by decide, ?_, ?_⟩
  · exact (run [] _ [_] [_] first rfl rfl (List.forall_mem_singleton.mpr rfl)).1
  · exact (run [_, _] _ [] [] second rfl rfl (by simp)).1

end Playback

end LiveSound
