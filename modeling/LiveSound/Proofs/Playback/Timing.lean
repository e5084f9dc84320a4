import LiveSound.Proofs.Numeric.Order
import LiveSound.Proofs.Playback.Tenures
import Mathlib.Algebra.Order.BigOperators.Group.List
import Mathlib.Algebra.Order.Field.Rat
import Mathlib.Data.List.Induction

/-!
# How buffers are timed

The driver counts the calls in which it asks the instance that plays for samples, and begins anew
whenever it takes an instance over. `counted` are these calls, told from the calls of a run alone:
those since the last takeover in which somebody was asked. What the driver has added up is told by
their times (`Perf.Sums`), and timing is reported in the calls that make their number a multiple of
500 and in no others (`timing_is_accounted`).
-/

namespace LiveSound.Playback

open Guest (AllText Engine Instance Halt)

/-! ## Since the last of a kind -/

section SinceLast

variable {α : Type} (p : α → Bool)

/-- A list from the last item of a kind on, that one included; all of it if there is none. -/
def sinceLast : List α → List α
  | [] => []
  | a :: l => if l.any p then sinceLast l else a :: l

variable {p} {a : α}

theorem sinceLast_concat_of_not (h : p a = false) (l : List α) :
    sinceLast p (l ++ [a]) = sinceLast p l ++ [a] := by
  induction l with
  | nil => rfl
  | cons b l ih =>
    have same : (l ++ [a]).any p = l.any p := by simp [h]
    rw [List.cons_append, sinceLast, same, ih, sinceLast]
    split <;> rfl

theorem sinceLast_concat_of (h : p a = true) (l : List α) : sinceLast p (l ++ [a]) = [a] := by
  induction l with
  | nil => rfl
  | cons b l ih =>
    have some : (l ++ [a]).any p = true := by simp [h]
    rw [List.cons_append, sinceLast, if_pos some, ih]

theorem mem_of_mem_sinceLast {l : List α} (h : a ∈ sinceLast p l) : a ∈ l := by
  induction l with
  | nil => exact h
  | cons b l ih =>
    rw [sinceLast] at h
    split at h
    · exact List.mem_cons_of_mem _ (ih h)
    · exact h

end SinceLast

variable {μ σ : Type} {e : Engine μ σ}

/-! ## Calls that are counted -/

/-- A call, and the driver as it finds it. -/
structure Beat (σ : Type) where
  driver : Driver σ
  call : Call σ

namespace Beat

/-- An instance is taken over. -/
def picks (b : Beat σ) : Bool := (Driver.taken? b.call.handoff b.call.contended).isSome

/-- The driver when it begins to fill the buffer. -/
def ready (b : Beat σ) : Driver σ := b.driver.ready (Driver.taken? b.call.handoff b.call.contended)

/-- The instance that is asked to fill the buffer, and the number of frames. There is one that has
not failed and gives samples, and there is a channel. -/
def asked? (b : Beat σ) : Option (Instance σ × Nat) :=
  match b.ready.active, b.call.buffer with
  | some i, first :: _ =>
    if !b.ready.faulted && i.hasSampler then some (i, first.length) else none
  | _, _ => none

def isCounted (b : Beat σ) : Bool := b.asked?.isSome

variable {b : Beat σ} {i : Instance σ} {n : Nat}

theorem asked?_eq_some : b.asked? = some (i, n) ↔ b.ready.Sounds b.call.buffer i n := by
  unfold asked?
  constructor
  · intro h
    split at h
    · rename_i j first rest active buffer
      split at h
      · rename_i going
        simp only [Option.some.injEq, Prod.mk.injEq] at h
        obtain ⟨rfl, rfl⟩ := h
        simp only [Bool.and_eq_true, Bool.not_eq_true'] at going
        exact ⟨active, going.1, going.2, by rw [buffer]; rfl⟩
      · cases h
    · cases h
  · rintro ⟨active, sound, sampler, frames⟩
    cases buffer : b.call.buffer with
    | nil =>
      rw [buffer] at frames
      cases frames
    | cons first rest =>
      rw [buffer] at frames
      simp only [List.head?_cons, Option.map_some, Option.some.injEq] at frames
      simp [active, sound, sampler, frames]

theorem asked?_eq_none : b.asked? = none ↔ ∀ i n, ¬ b.ready.Sounds b.call.buffer i n := by
  simp only [← asked?_eq_some, Option.eq_none_iff_forall_ne_some, Prod.forall, ne_eq]

end Beat

namespace Driver

def after (e : Engine μ σ) : Driver σ → List (Call σ) → Driver σ
  | d, [] => d
  | d, c :: calls => after e (d.turn e c).done.driver calls

def beats (e : Engine μ σ) : Driver σ → List (Call σ) → List (Beat σ)
  | _, [] => []
  | d, c :: calls => ⟨d, c⟩ :: beats e (d.turn e c).done.driver calls

theorem after_append (d : Driver σ) (calls more : List (Call σ)) :
    d.after e (calls ++ more) = (d.after e calls).after e more := by
  induction calls generalizing d with
  | nil => rfl
  | cons first calls ih => exact ih _

theorem after_concat (d : Driver σ) (calls : List (Call σ)) (c : Call σ) :
    d.after e (calls ++ [c]) = ((d.after e calls).turn e c).done.driver := after_append d calls [c]

theorem beats_concat (d : Driver σ) (calls : List (Call σ)) (c : Call σ) :
    d.beats e (calls ++ [c]) = d.beats e calls ++ [⟨d.after e calls, c⟩] := by
  induction calls generalizing d with
  | nil => rfl
  | cons first calls ih => exact congrArg (Beat.mk d first :: ·) (ih _)

theorem call_mem_of_mem_beats {d : Driver σ} {calls : List (Call σ)} {b : Beat σ}
    (h : b ∈ d.beats e calls) : b.call ∈ calls := by
  induction calls generalizing d with
  | nil => cases h
  | cons c calls ih =>
    rcases List.mem_cons.mp h with rfl | h
    · exact List.mem_cons_self
    · exact List.mem_cons_of_mem _ (ih h)

theorem after_sampleRate (d : Driver σ) (calls : List (Call σ)) :
    (d.after e calls).sampleRate = d.sampleRate := by
  induction calls generalizing d with
  | nil => rfl
  | cons c calls ih => exact (ih _).trans (process_sampleRate ..)

end Driver

/-- The calls since the last takeover, that one included, in which an instance was asked. -/
def counted (beats : List (Beat σ)) : List (Beat σ) :=
  (sinceLast Beat.picks beats).filter Beat.isCounted

/-- How long they took. -/
def times (beats : List (Beat σ)) : List Rat := (counted beats).map (·.call.elapsed)

theorem counted_concat (beats : List (Beat σ)) (b : Beat σ) :
    counted (beats ++ [b]) =
      (if b.picks then [] else counted beats) ++ (if b.isCounted then [b] else []) := by
  have one : [b].filter Beat.isCounted = if b.isCounted then [b] else [] := by
    cases counts : b.isCounted <;> simp [counts]
  unfold counted
  cases picks : b.picks with
  | true => simp [sinceLast_concat_of picks, one]
  | false => simp [sinceLast_concat_of_not picks, one]

theorem times_concat (beats : List (Beat σ)) (b : Beat σ) :
    times (beats ++ [b]) =
      (if b.picks then [] else times beats) ++
        (if b.isCounted then [b.call.elapsed] else []) := by
  unfold times
  rw [counted_concat, List.map_append]
  congr 1
  · split <;> rfl
  · split <;> rfl

/-! ## What is added up -/

/-- The totals of some times. -/
structure Perf.Sums (p : Perf) (times : List Rat) : Prop where
  calls : p.calls = times.length
  total : p.total = times.sum
  upper : ∀ t ∈ times, t ≤ p.longest
  attained : p.longest = 0 ∨ p.longest ∈ times
  nonneg : 0 ≤ p.longest

namespace Perf

variable {p : Perf} {ts : List Rat}

theorem sums_zero : Perf.zero.Sums [] := ⟨rfl, rfl, nofun, .inl rfl, le_refl 0⟩

theorem Sums.record (h : p.Sums ts) (t : Rat) : (p.record t).1.Sums (ts ++ [t]) where
  calls := by rw [List.length_append, ← h.calls]; rfl
  total := by rw [List.sum_append, ← h.total, List.sum_singleton]; rfl
  upper u hu := by
    have larger : p.longest ≤ (p.record t).1.longest ∧ t ≤ (p.record t).1.longest := by
      simp only [Perf.record]
      split
      · rename_i lt
        exact ⟨le_of_lt lt, le_refl t⟩
      · rename_i ge
        exact ⟨le_refl _, not_lt.mp ge⟩
    rcases List.mem_append.mp hu with old | new
    · exact (h.upper u old).trans larger.1
    · rw [List.mem_singleton.mp new]
      exact larger.2
  attained := by
    simp only [Perf.record]
    split
    · exact .inr (List.mem_append_right _ List.mem_cons_self)
    · exact h.attained.imp_right (List.mem_append_left _)
  nonneg := by
    simp only [Perf.record]
    split
    · rename_i lt
      exact h.nonneg.trans (le_of_lt lt)
    · exact h.nonneg

theorem record_due (t : Rat) : (p.record t).2 = true ↔ reportInterval ∣ (p.record t).1.calls := by
  simp only [Perf.record, beq_iff_eq]
  exact Nat.dvd_iff_mod_eq_zero.symm

theorem Sums.longest_mem (h : p.Sums ts) (positive : ∀ t ∈ ts, 0 ≤ t) (some : ts ≠ []) :
    p.longest ∈ ts := by
  rcases h.attained with zero | mem
  · obtain ⟨t, ht⟩ := List.exists_mem_of_ne_nil ts some
    have same : t = p.longest := le_antisymm (h.upper t ht) (zero ▸ positive t ht)
    exact same ▸ ht
  · exact mem

theorem Sums.average_nonneg (h : p.Sums ts) (positive : ∀ t ∈ ts, 0 ≤ t) : 0 ≤ p.average := by
  unfold average
  split
  · exact le_refl 0
  · rw [h.total]
    exact div_nonneg (List.sum_nonneg positive) (Nat.cast_nonneg _)

theorem Sums.average_le (h : p.Sums ts) : p.average ≤ p.longest := by
  unfold average
  split
  · exact h.nonneg
  · rename_i some
    have positive : (0 : Rat) < p.calls := Nat.cast_pos.mpr (Nat.pos_of_ne_zero some)
    have bound := List.sum_le_card_nsmul ts p.longest h.upper
    rw [div_le_iff₀ positive, h.total, mul_comm, h.calls, ← nsmul_eq_mul]
    exact bound

end Perf

/-! ## One call -/

namespace Beat

variable {b : Beat σ} {i : Instance σ} {n : Nat}

/-- What comes of the call. -/
def turn (e : Engine μ σ) (b : Beat σ) : Turn σ := b.driver.turn e b.call

theorem ready_perf : b.ready.perf = if b.picks then .zero else b.driver.perf := by
  unfold ready picks
  cases Driver.taken? b.call.handoff b.call.contended <;> rfl

theorem ready_sampleRate : b.ready.sampleRate = b.driver.sampleRate := by
  unfold ready
  cases Driver.taken? b.call.handoff b.call.contended <;> rfl

/-- What is reported after a call that is counted. -/
def report (e : Engine μ σ) (b : Beat σ) (frames : Nat) : List Event :=
  let perf := (b.turn e).done.driver.perf
  if reportInterval ∣ perf.calls then
    [.perf (.ofRat perf.average) (.ofRat perf.longest) frames b.driver.sampleRate]
  else []

theorem report_eq {frames : Nat}
    (perf : (b.turn e).done.driver.perf = (b.ready.perf.record b.call.elapsed).1) :
    b.ready.report b.call.elapsed frames = b.report e frames := by
  unfold Driver.report report
  simp only [perf, ready_sampleRate, Perf.record_due]

theorem turn_of_asked (h : b.asked? = some (i, n)) :
    (b.turn e).done.driver.perf = (b.ready.perf.record b.call.elapsed).1 ∧
      ((i.Gives e n ∧ (b.turn e).done.driver.active = some (i.after e n) ∧
          (b.turn e).done.events = i.postedIn e 0 n ++ b.report e n) ∨
        ∃ k < n, ∃ halt, i.FailsAt e k halt ∧
          (b.turn e).done.driver.active = some (i.after e (k + 1)) ∧
          (b.turn e).done.events =
            i.postedIn e 0 (k + 1) ++ .error (Driver.trapMessage halt) :: b.report e n) := by
  have sounds := asked?_eq_some.mp h
  have spec := Driver.turn_spec e b.driver b.call
  rcases i.gives_or_failsAt e n with gives | ⟨k, lt, halt, fails⟩
  · have played := spec.trans (Driver.play_of_gives sounds gives b.call.elapsed)
    obtain ⟨driver, -, events⟩ := by simpa only [Prod.mk.injEq] using played
    have perf := congrArg Driver.perf driver
    exact ⟨perf, .inl ⟨gives, congrArg Driver.active driver, report_eq perf ▸ events⟩⟩
  · have played := spec.trans (Driver.play_of_failsAt sounds fails lt b.call.elapsed)
    obtain ⟨driver, -, events⟩ := by simpa only [Prod.mk.injEq] using played
    have perf := congrArg Driver.perf driver
    exact ⟨perf, .inr ⟨k, lt, halt, fails, congrArg Driver.active driver,
      report_eq perf ▸ events⟩⟩

theorem turn_of_not_asked (h : b.asked? = none) :
    (b.turn e).done.driver = b.ready ∧ (b.turn e).done.events = [] := by
  obtain ⟨driver, idle⟩ := Driver.turn_of_not_sounds b.driver b.call (asked?_eq_none.mp h)
  exact ⟨driver, idle.events⟩

/-- A call adds its time if it is counted, to nothing if it takes an instance over. -/
theorem sums_turn {ts : List Rat} (h : b.driver.perf.Sums ts) :
    (b.turn e).done.driver.perf.Sums
      ((if b.picks then [] else ts) ++ (if b.isCounted then [b.call.elapsed] else [])) := by
  have ready : b.ready.perf.Sums (if b.picks then [] else ts) := by
    rw [ready_perf]
    split
    · exact Perf.sums_zero
    · exact h
  unfold isCounted
  cases asked : b.asked? with
  | none =>
    rw [(turn_of_not_asked asked).1, Option.isSome_none, if_neg Bool.false_ne_true,
      List.append_nil]
    exact ready
  | some x =>
    obtain ⟨i, n⟩ := x
    rw [(turn_of_asked asked).1, Option.isSome_some, if_pos rfl]
    exact ready.record b.call.elapsed

end Beat

/-! ## Whole runs -/

/-- What the driver has added up after a run is told by the calls of the run. -/
theorem sums_after (e : Engine μ σ) (sampleRate : Nat) (calls : List (Call σ)) :
    ((Driver.fresh sampleRate).after e calls).perf.Sums
      (times ((Driver.fresh sampleRate).beats e calls)) := by
  induction calls using List.reverseRecOn with
  | nil => exact Perf.sums_zero
  | append_singleton calls c ih =>
    rw [Driver.after_concat, Driver.beats_concat, times_concat]
    exact Beat.sums_turn (b := ⟨_, c⟩) ih

/-- However often the instance is asked, it posts text only. -/
def OnlyText (e : Engine μ σ) (i : Instance σ) : Prop := ∀ k, AllText (i.answer e k).events

theorem OnlyText.after {i : Instance σ} (h : OnlyText e i) (m : Nat) :
    OnlyText e (i.after e m) := by
  intro k
  rw [Guest.Instance.answer_after]
  exact h (m + k)

/-- What the calls offer posts text only. -/
def OffersText (e : Engine μ σ) (calls : List (Call σ)) : Prop :=
  ∀ c ∈ calls, ∀ i, c.handoff.pending = some i → OnlyText e i

/-- Instances that were bootstrapped post text only, if their engine lets them post nothing else. -/
theorem offersText_of_bootstraps (text : e.PostsText) {calls : List (Call σ)}
    (made : ∀ c ∈ calls, ∀ i, c.handoff.pending = some i →
      ∃ m generation, (Guest.Bootstrap.run e m generation).2 = .ok i) : OffersText e calls := by
  intro c hc i offered
  obtain ⟨m, generation, ran⟩ := made c hc i offered
  exact Guest.Instance.answers_isText text ran

theorem ready_onlyText {b : Beat σ} (before : ∀ i, b.driver.active = some i → OnlyText e i)
    (offered : ∀ i, b.call.handoff.pending = some i → OnlyText e i) :
    ∀ i, b.ready.active = some i → OnlyText e i := by
  intro i active
  unfold Beat.ready at active
  cases taken : Driver.taken? b.call.handoff b.call.contended with
  | none =>
    rw [taken] at active
    exact before i active
  | some next =>
    rw [taken] at active
    obtain rfl := Option.some.inj active
    exact offered next (Driver.pending_of_taken taken)

theorem active_onlyText (sampleRate : Nat) {calls : List (Call σ)} (text : OffersText e calls) :
    ∀ i, ((Driver.fresh sampleRate).after e calls).active = some i → OnlyText e i := by
  induction calls using List.reverseRecOn with
  | nil => exact fun i => nofun
  | append_singleton calls c ih =>
    have ready := ready_onlyText (b := ⟨_, c⟩)
      (ih fun c' hc => text c' (List.mem_append_left _ hc))
      (text c (List.mem_append_right _ List.mem_cons_self))
    rw [Driver.after_concat]
    intro j active
    cases asked : Beat.asked? ⟨(Driver.fresh sampleRate).after e calls, c⟩ with
    | none =>
      refine ready j ?_
      rw [← (Beat.turn_of_not_asked asked).1]
      exact active
    | some x =>
      obtain ⟨i, n⟩ := x
      have playing := ready i (Beat.asked?_eq_some.mp asked).active
      rcases (Beat.turn_of_asked asked).2 with ⟨-, left, -⟩ | ⟨k, -, halt, -, left, -⟩
      · obtain rfl := Option.some.inj (left.symm.trans active)
        exact playing.after n
      · obtain rfl := Option.some.inj (left.symm.trans active)
        exact playing.after (k + 1)

theorem filter_timing_of_allText {events : List Event} (h : AllText events) :
    events.filter (·.isTiming) = [] := by
  rw [List.filter_eq_nil_iff]
  intro event he
  have text := h event he
  cases event with
  | log => simp [Event.isTiming]
  | ready | error | perf => cases text

theorem filter_timing_report (e : Engine μ σ) (b : Beat σ) (frames : Nat) :
    (b.report e frames).filter (·.isTiming) = b.report e frames := by
  unfold Beat.report
  simp only
  split <;> rfl

/-- What can be told of a call and of the driver after it. `history` is the run up to this call. -/
structure Accounted (e : Engine μ σ) (sampleRate : Nat) (history : List (Beat σ)) (b : Beat σ) :
    Prop where
  calls : (b.turn e).done.driver.perf.calls = (counted history).length
  total : (b.turn e).done.driver.perf.total = (times history).sum
  upper : ∀ t ∈ times history, t ≤ (b.turn e).done.driver.perf.longest
  attained : times history ≠ [] → (b.turn e).done.driver.perf.longest ∈ times history
  untimed : times history = [] → (b.turn e).done.driver.perf.longest = 0
  average_le : (b.turn e).done.driver.perf.average ≤ (b.turn e).done.driver.perf.longest
  inOrder : (Binary64.ofRat (b.turn e).done.driver.perf.average).InOrder
    (.ofRat (b.turn e).done.driver.perf.longest)
  /-- There is a report if the call is counted and makes the number a multiple, and no other. -/
  timing : (b.turn e).done.events.filter (·.isTiming) =
    match b.asked? with
    | some (_, frames) =>
      if 500 ∣ (counted history).length then
        [.perf (.ofRat (b.turn e).done.driver.perf.average)
          (.ofRat (b.turn e).done.driver.perf.longest) frames sampleRate]
      else []
    | none => []
  /-- The report comes last, after the error if there is one. -/
  order : ∀ i n, b.asked? = some (i, n) →
    i.Gives e n ∧ (b.turn e).done.events =
        i.postedIn e 0 n ++ (b.turn e).done.events.filter (·.isTiming) ∨
      ∃ k < n, ∃ halt, i.FailsAt e k halt ∧ (b.turn e).done.events =
        i.postedIn e 0 (k + 1) ++ .error (Driver.trapMessage halt) ::
          (b.turn e).done.events.filter (·.isTiming)
  idle : b.asked? = none → (b.turn e).done.events = []

/-- The timing that is posted by a call in which an instance is asked that posts text only. -/
theorem filter_timing_turn {b : Beat σ} {i : Instance σ} {n : Nat} (asked : b.asked? = some (i, n))
    (text : OnlyText e i) : (b.turn e).done.events.filter (·.isTiming) = b.report e n := by
  rcases (Beat.turn_of_asked asked).2 with ⟨-, -, events⟩ | ⟨k, -, halt, -, -, events⟩
  · rw [events, List.filter_append, filter_timing_of_allText (postedIn_isText text 0 n),
      filter_timing_report, List.nil_append]
  · rw [events, List.filter_append, filter_timing_of_allText (postedIn_isText text 0 (k + 1)),
      List.nil_append, List.filter_cons_of_neg (by simp [Event.isTiming]), filter_timing_report]

theorem Perf.Sums.calls_eq {p : Perf} {history : List (Beat σ)} (h : p.Sums (times history)) :
    p.calls = (counted history).length := by
  rw [h.calls, times, List.length_map]

theorem accounted_of_sums {sampleRate : Nat} {history : List (Beat σ)} {b : Beat σ}
    (sums : (b.turn e).done.driver.perf.Sums (times history))
    (positive : ∀ t ∈ times history, 0 ≤ t) (rate : b.driver.sampleRate = sampleRate)
    (text : ∀ i, b.ready.active = some i → OnlyText e i) : Accounted e sampleRate history b where
  calls := sums.calls_eq
  total := sums.total
  upper := sums.upper
  attained := sums.longest_mem positive
  untimed none := sums.attained.resolve_right (none ▸ List.not_mem_nil)
  average_le := sums.average_le
  inOrder := Binary64.ofRat_inOrder (sums.average_nonneg positive) sums.average_le
  timing := by
    cases asked : b.asked? with
    | none => rw [(Beat.turn_of_not_asked asked).2]; rfl
    | some x =>
      obtain ⟨i, n⟩ := x
      have playing := text i (Beat.asked?_eq_some.mp asked).active
      rw [filter_timing_turn asked playing, Beat.report, sums.calls_eq, rate]
      rfl
  order i n asked := by
    rw [filter_timing_turn asked (text i (Beat.asked?_eq_some.mp asked).active)]
    rcases (Beat.turn_of_asked asked).2 with ⟨gives, -, events⟩ | ⟨k, lt, halt, fails, -, events⟩
    · exact .inl ⟨gives, events⟩
    · exact .inr ⟨k, lt, halt, fails, events⟩
  idle asked := (Beat.turn_of_not_asked asked).2

/-- After each call of a run the driver has counted the calls since the last takeover in which an
instance was asked, and timing is posted in exactly those that make their number a multiple of
500. If no time is negative, the longest is one of them and not below the average. -/
theorem timing_is_accounted (e : Engine μ σ) (sampleRate : Nat) (calls : List (Call σ)) (c : Call σ)
    (lasting : ∀ call ∈ calls ++ [c], 0 ≤ call.elapsed) (text : OffersText e (calls ++ [c])) :
    Accounted e sampleRate ((Driver.fresh sampleRate).beats e (calls ++ [c]))
      ⟨(Driver.fresh sampleRate).after e calls, c⟩ := by
  have sums := sums_after e sampleRate (calls ++ [c])
  rw [Driver.after_concat] at sums
  refine accounted_of_sums sums ?_ (Driver.after_sampleRate ..) ?_
  · intro t ht
    obtain ⟨b, hb, rfl⟩ := List.mem_map.mp ht
    exact lasting _ (Driver.call_mem_of_mem_beats
      (mem_of_mem_sinceLast (List.mem_of_mem_filter hb)))
  · exact ready_onlyText
      (active_onlyText sampleRate fun c' hc => text c' (List.mem_append_left _ hc))
      (text c (List.mem_append_right _ List.mem_cons_self))

theorem countdown_onlyText (i : Instance Nat) : OnlyText .countdown i := by
  intro k
  unfold Guest.Instance.answer Guest.Instance.nextSample
  cases (i.after .countdown k).state <;> exact AllText.nil

namespace Driver

theorem turn_frameless {d : Driver σ} {c : Call σ} {i : Instance σ}
    (kept : c.handoff.pending = none) (sounds : d.Sounds c.buffer i 0) :
    (d.turn e c).done.driver = { d with perf := (d.perf.record c.elapsed).1 } := by
  have picked : (d.turn e c).picked = none := by
    change taken? c.handoff c.contended = none
    simp [taken?, kept]
  have spec := turn_spec e d c
  simp only [picked, ready, play_of_gives (e := e) sounds (fun _ => nofun)] at spec
  have driver := congrArg Prod.fst spec
  rw [Guest.Instance.after, ← sounds.sound, ← sounds.active] at driver
  exact driver

/-- Such calls only add their times, if these are not longer than any before. -/
theorem after_frameless {d : Driver σ} {c : Call σ} {i : Instance σ}
    (kept : c.handoff.pending = none) (sounds : d.Sounds c.buffer i 0)
    (short : c.elapsed ≤ d.perf.longest) (n : Nat) :
    d.after e (List.replicate n c) = { d with
      perf := ⟨d.perf.calls + n, d.perf.total + n * c.elapsed, d.perf.longest⟩ } := by
  induction n generalizing d with
  | zero => simp [after]
  | succ n ih =>
    rw [List.replicate_succ, after, turn_frameless kept sounds]
    have longest : (d.perf.record c.elapsed).1.longest = d.perf.longest :=
      if_neg (not_lt.mpr short)
    have sounds' : Driver.Sounds { d with perf := (d.perf.record c.elapsed).1 } c.buffer i 0 :=
      ⟨sounds.active, sounds.sound, sounds.sampler, sounds.frames⟩
    rw [ih sounds' (short.trans_eq longest.symm), longest]
    simp only [Perf.record, Nat.cast_add, Nat.cast_one]
    congr 2
    · omega
    · ring

end Driver

/-- A buffer without frames counts, but not one without a channel. The buffer in which the instance
fails is the 500th and counts as well, and the timing is reported after the error. -/
theorem failing_buffer_is_reported :
    let first : Instance Nat := ⟨1, 1, .skipped, true⟩
    let quiet : Handoff Nat := ⟨none, [], true⟩
    let opening : List (Call Nat) :=
      [⟨⟨some first, [], true⟩, false, 3, [[]]⟩, ⟨quiet, false, 5, []⟩]
    let calls : List (Call Nat) := opening ++ List.replicate 498 ⟨quiet, false, 1, [[]]⟩
    let c : Call Nat := ⟨quiet, true, 2, [[⟨9⟩, ⟨9⟩]]⟩
    let d : Driver Nat := .fresh 48000
    let b : Beat Nat := ⟨d.after .countdown calls, c⟩
    (∀ call ∈ calls ++ [c], 0 ≤ call.elapsed) ∧ OffersText .countdown (calls ++ [c]) ∧
      Accounted .countdown 48000 (d.beats .countdown (calls ++ [c])) b ∧
      (b.turn .countdown).done.driver.perf.calls = 500 ∧
      (b.turn .countdown).done.events =
        [.error "hear_c_next_sample trapped: no more samples",
          .perf (.ofRat (503 / 500)) (.ofRat 3) 2 48000] := by
  intro first quiet opening calls c d b
  have lasting : ∀ call ∈ calls ++ [c], 0 ≤ call.elapsed := by decide +kernel
  have text : OffersText .countdown (calls ++ [c]) := fun _ _ i _ => countdown_onlyText i
  let begun : Driver Nat := d.after .countdown opening
  have played : d.after .countdown calls = { begun with
      perf := ⟨begun.perf.calls + 498, begun.perf.total + (498 : Nat) * 1, begun.perf.longest⟩ } :=
    (Driver.after_append d opening _).trans (Driver.after_frameless (d := begun) (i := first) rfl
      ⟨rfl, rfl, rfl, rfl⟩ (by decide +kernel) 498)
  refine ⟨lasting, text, timing_is_accounted .countdown 48000 calls c lasting text, ?_, ?_⟩ <;>
  · unfold Beat.turn b
    rw [played]
    decide +kernel

end LiveSound.Playback
