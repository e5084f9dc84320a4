import LiveSound.Processor.Basic
import LiveSound.Proofs.Guest.Posting
import LiveSound.Proofs.Playback.Filling
import Mathlib.Algebra.Order.Group.Multiset
import Mathlib.Tactic.Abel

/-!
# No instance is lost

An instance that comes into the slot moves from place to place: it is given back, or taken over;
when it is replaced it waits to be collected, or is dropped. An `Exchange` is a processor with a
history of these moves, and `Exchange.act` what either side does to it. The service collects one
instance at a time, so the audio side can come between. The audio side takes over and retires in
one go, because nobody else looks at both ends of that: what is offered meanwhile comes after it,
and what is collected meanwhile comes before it.
-/

namespace LiveSound

open Guest (Engine Instance)
open Guest.Instance (Becomes)
open Playback (Driver Handoff retireCapacity)

/-! ## Taking over -/

namespace Playback

variable {μ σ : Type}

/-- An instance that is replaced now can wait to be collected. -/
def Handoff.hasRoom (h : Handoff σ) : Bool := h.collecting && h.retired.length < retireCapacity

theorem Handoff.retire_eq (h : Handoff σ) (i : Instance σ) :
    h.retire i =
      ({ h with retired := h.retired ++ if h.hasRoom then [i] else [] }, h.hasRoom) := by
  unfold retire hasRoom
  by_cases room : h.collecting = true ∧ h.retired.length < retireCapacity
  · simp [room]
  · rw [if_neg room]
    have full : (h.collecting && decide (h.retired.length < retireCapacity)) = false := by
      simpa using room
    rw [full]
    simp

theorem Handoff.length_retire_le (h : Handoff σ) (room : h.retired.length ≤ retireCapacity)
    (old : Option (Instance σ)) :
    (h.retired ++ if h.hasRoom then old.toList else []).length ≤ retireCapacity := by
  have one : old.toList.length ≤ 1 := by cases old <;> simp
  rw [List.length_append]
  split
  · rename_i free
    unfold hasRoom at free
    simp only [Bool.and_eq_true, decide_eq_true_eq] at free
    omega
  · exact room

theorem Driver.pickup_eq {d : Driver σ} {h : Handoff σ} {next : Instance σ}
    (pending : h.pending = some next) :
    d.pickup h =
      (d.takeOver next,
        { h with
          pending := none
          retired := h.retired ++ if h.hasRoom then d.active.toList else [] },
        if h.hasRoom then none else d.active) := by
  have same : (⟨none, h.retired, h.collecting⟩ : Handoff σ).hasRoom = h.hasRoom := rfl
  unfold pickup
  simp only [Handoff.take, pending]
  cases active : d.active with
  | none => simp [takeOver]
  | some old =>
    simp only [Handoff.retire_eq, same]
    cases h.hasRoom <;> rfl

/-- What a call of the audio callback leaves when it takes over an instance. -/
theorem Driver.process_of_taken (e : Engine μ σ) (d : Driver σ) {h : Handoff σ} {contended : Bool}
    {next : Instance σ} (taken : taken? h contended = some next) (elapsed : Rat)
    (buffer : Buffer) :
    let done := d.process e h contended elapsed buffer
    done.handoff =
        { h with
          pending := none
          retired := h.retired ++ if h.hasRoom then d.active.toList else [] } ∧
      done.dropped = (if h.hasRoom then none else d.active) ∧
      ∃ j, done.driver.active = some j ∧ Becomes μ next j := by
  cases contended with
  | true => cases taken
  | false =>
    unfold process
    simp only [Bool.false_eq_true, ↓reduceIte, pickup_eq taken, true_and]
    exact play_active e rfl elapsed buffer

/-- To play is no reason for an instance to come or go. -/
theorem Driver.play_active_length (e : Engine μ σ) (d : Driver σ) (elapsed : Rat)
    (buffer : Buffer) :
    (d.play e elapsed buffer).1.active.toList.length = d.active.toList.length := by
  cases active : d.active with
  | none => rw [play_of_idle e active, active]
  | some i =>
    obtain ⟨j, now, -⟩ := play_active e active elapsed buffer
    rw [now]
    rfl

end Playback

/-! ## Places -/

/-- What is replaced waits if there is room for it, and is dropped if not. -/
theorem perm_of_room {α : Type} (room : Bool) (collected retired dropped old : List α) :
    (collected ++ (retired ++ if room then old else []) ++
      (dropped ++ if room then [] else old)).Perm (collected ++ retired ++ dropped ++ old) := by
  cases room <;>
    simp only [← Multiset.coe_eq_coe, ← Multiset.coe_add, Bool.false_eq_true, ↓reduceIte,
      Multiset.coe_nil] <;>
    abel

/-- Everything that is somewhere, by the place where it is. -/
structure Places (α : Type) where
  pending : Option α
  /-- Given back to whoever offered what came after it. -/
  returned : List α
  active : Option α
  retired : List α
  collected : List α
  /-- Dropped on the audio side. -/
  dropped : List α

namespace Places

variable {α β : Type}

def all (p : Places α) : List α :=
  p.pending.toList ++ (p.returned ++
    (p.active.toList ++ (p.retired ++ (p.collected ++ p.dropped))))

def map (f : α → β) (p : Places α) : Places β :=
  ⟨p.pending.map f, p.returned.map f, p.active.map f, p.retired.map f, p.collected.map f,
    p.dropped.map f⟩

/-- Something new is pending, and what was pending is given back. -/
def put (p : Places α) (x : α) : Places α :=
  { p with pending := some x, returned := p.returned ++ p.pending.toList }

/-- What is pending becomes active; what was active waits if there is room for it. -/
def pickup (p : Places α) (room : Bool) : Places α :=
  { p with
    pending := none
    active := p.pending
    retired := p.retired ++ if room then p.active.toList else []
    dropped := p.dropped ++ if room then [] else p.active.toList }

def collect (p : Places α) : Places α :=
  { p with
    retired := p.retired.tail
    collected := p.collected ++ p.retired.head?.toList }

theorem all_put (p : Places α) (x : α) : (p.put x).all.Perm (x :: p.all) := by
  show (p.put x).all.Perm ([x] ++ p.all)
  simp only [← Multiset.coe_eq_coe, all, put, ← Multiset.coe_add, Option.toList_some]
  abel

theorem all_pickup (p : Places α) (room : Bool) : (p.pickup room).all.Perm p.all := by
  cases room <;>
    simp only [← Multiset.coe_eq_coe, all, pickup, ← Multiset.coe_add, Option.toList_none,
      Bool.false_eq_true, ↓reduceIte, List.append_nil, List.nil_append] <;>
    abel

theorem all_collect (p : Places α) : p.collect.all.Perm p.all := by
  obtain ⟨pending, returned, active, retired, collected, dropped⟩ := p
  cases retired with
  | nil => simp [all, collect]
  | cons x rest =>
    show (collect _).all.Perm
      (pending.toList ++ (returned ++ (active.toList ++ (([x] ++ rest) ++ (collected ++ dropped)))))
    simp only [← Multiset.coe_eq_coe, all, collect, ← Multiset.coe_add, List.tail_cons,
      List.head?_cons, Option.toList_some]
    abel

theorem map_put (f : α → β) (p : Places α) (x : α) : (p.put x).map f = (p.map f).put (f x) := by
  simp [map, put, Option.toList_map]

theorem map_pickup (f : α → β) (p : Places α) (room : Bool) :
    (p.pickup room).map f = (p.map f).pickup room := by
  cases room <;> simp [map, pickup, Option.toList_map]

theorem map_collect (f : α → β) (p : Places α) : p.collect.map f = (p.map f).collect := by
  simp [map, collect, Option.toList_map]

end Places

variable {μ σ : Type}

/-- Each place holds instances together with their numbers among those that were put into the
slot. -/
structure Numbered (μ : Type) (put : List (Instance σ)) (p : Places (Nat × Instance σ)) :
    Prop where
  /-- Every number is somewhere, and nowhere else. -/
  once : (p.all.map (·.1)).Perm (List.range put.length)
  became : ∀ x ∈ p.all, ∃ i, put[x.1]? = some i ∧ Becomes μ i x.2
  /-- Nobody has asked these for samples. -/
  unheard : ∀ x ∈ p.pending.toList ++ p.returned, put[x.1]? = some x.2
  /-- Something else was put into the slot later. -/
  overtaken : ∀ x ∈ p.returned, x.1 + 1 < put.length

namespace Numbered

variable {put : List (Instance σ)} {p p' : Places (Nat × Instance σ)}

theorem lt (h : Numbered μ put p) {x : Nat × Instance σ} (hx : x ∈ p.all) : x.1 < put.length :=
  List.mem_range.mp (h.once.mem_iff.mp (List.mem_map_of_mem hx))

theorem next (h : Numbered μ put p) (i : Instance σ) :
    Numbered μ (put ++ [i]) (p.put (put.length, i)) := by
  have moved := p.all_put (put.length, i)
  have kept {x : Nat × Instance σ} (hx : x ∈ p.all) : (put ++ [i])[x.1]? = put[x.1]? :=
    List.getElem?_append_left (h.lt hx)
  have waits {x : Nat × Instance σ} (hx : x ∈ p.pending.toList ++ p.returned) : x ∈ p.all := by
    unfold Places.all
    rcases List.mem_append.mp hx with hx | hx <;> simp [hx]
  have given {x : Nat × Instance σ} (hx : x ∈ (p.put (put.length, i)).returned) :
      x ∈ p.pending.toList ++ p.returned := by
    rcases List.mem_append.mp hx with hx | hx <;> simp [hx]
  refine ⟨?_, ?_, ?_, ?_⟩
  · rw [List.length_append, List.length_singleton, List.range_succ]
    refine ((moved.map _).trans ?_).trans List.perm_append_comm
    exact h.once.cons _
  · intro x hx
    rcases List.mem_cons.mp (moved.mem_iff.mp hx) with rfl | hx
    · exact ⟨i, by simp, .refl⟩
    · rw [kept hx]
      exact h.became x hx
  · intro x hx
    rcases List.mem_append.mp hx with hx | hx
    · rw [List.mem_singleton.mp hx]
      simp
    · rw [kept (waits (given hx))]
      exact h.unheard x (given hx)
  · intro x hx
    have older := h.lt (waits (given hx))
    rw [List.length_append, List.length_singleton]
    omega

theorem pickup (h : Numbered μ put p) (room : Bool) : Numbered μ put (p.pickup room) where
  once := ((p.all_pickup room).map _).trans h.once
  became x hx := h.became x ((p.all_pickup room).mem_iff.mp hx)
  unheard x hx := h.unheard x (List.mem_append_right _ hx)
  overtaken := h.overtaken

theorem collect (h : Numbered μ put p) : Numbered μ put p.collect where
  once := (p.all_collect.map _).trans h.once
  became x hx := h.became x (p.all_collect.mem_iff.mp hx)
  unheard := h.unheard
  overtaken := h.overtaken

theorem asked (h : Numbered μ put p) {n : Nat} {i j : Instance σ} (active : p.active = some (n, i))
    (becomes : Becomes μ i j) : Numbered μ put { p with active := some (n, j) } := by
  have numbers : ({ p with active := some (n, j) } : Places _).all.map (·.1) = p.all.map (·.1) := by
    simp [Places.all, active]
  refine ⟨numbers ▸ h.once, ?_, h.unheard, h.overtaken⟩
  intro x hx
  by_cases new : x = (n, j)
  · subst new
    obtain ⟨i', found, became⟩ := h.became (n, i) (by simp [Places.all, active])
    exact ⟨i', found, became.trans becomes⟩
  · apply h.became
    unfold Places.all at hx ⊢
    simp only [List.mem_append, Option.toList_some, List.mem_singleton, new, false_or] at hx ⊢
    tauto

end Numbered

/-- Every instance that was put into the slot is in exactly one place, as whatever it has become
there, and nothing else is anywhere. -/
def Located (μ : Type) (put : List (Instance σ)) (places : Places (Instance σ)) : Prop :=
  ∃ p : Places (Nat × Instance σ), Numbered μ put p ∧ p.map (·.2) = places

namespace Located

variable {put : List (Instance σ)} {places : Places (Instance σ)}

theorem next (h : Located μ put places) (i : Instance σ) :
    Located μ (put ++ [i]) (places.put i) := by
  obtain ⟨p, numbered, rfl⟩ := h
  exact ⟨_, numbered.next i, p.map_put ..⟩

theorem pickup (h : Located μ put places) (room : Bool) :
    Located μ put (places.pickup room) := by
  obtain ⟨p, numbered, rfl⟩ := h
  exact ⟨_, numbered.pickup room, p.map_pickup ..⟩

theorem collect (h : Located μ put places) : Located μ put places.collect := by
  obtain ⟨p, numbered, rfl⟩ := h
  exact ⟨_, numbered.collect, p.map_collect _⟩

theorem asked (h : Located μ put places) {i j : Instance σ} (active : places.active = some i)
    (becomes : Becomes μ i j) : Located μ put { places with active := some j } := by
  obtain ⟨p, numbered, rfl⟩ := h
  obtain ⟨⟨n, i'⟩, at_n, rfl⟩ := Option.map_eq_some_iff.mp active
  exact ⟨_, numbered.asked at_n becomes, rfl⟩

/-- A driver plays, and the active instance is asked for samples. -/
theorem play (h : Located μ put places) (e : Engine μ σ) {d : Driver σ}
    (active : places.active = d.active) (elapsed : Rat) (buffer : Playback.Buffer) :
    Located μ put { places with active := (d.play e elapsed buffer).1.active } := by
  cases playing : d.active with
  | none =>
    rw [Driver.play_of_idle e playing, ← active]
    exact h
  | some i =>
    obtain ⟨j, now, becomes⟩ := Driver.play_active e playing elapsed buffer
    rw [now]
    exact h.asked (active.trans playing) becomes

end Located

/-! ## Exchanges -/

namespace Processor

/-- A processor at work, and where instances went. -/
structure Exchange (σ : Type) where
  processor : Processor σ
  /-- What was put into the slot, oldest first. -/
  put : List (Instance σ)
  returned : List (Instance σ)
  /-- What was replaced by taking over another, oldest first. -/
  replaced : List (Instance σ)
  collected : List (Instance σ)
  dropped : List (Instance σ)
  /-- How often an instance was taken over. -/
  pickups : Nat
  /-- How many were collected since the last time that they were counted. -/
  uncounted : Nat

namespace Exchange

/-- What can happen to an exchange. -/
inductive Action (σ : Type) where
  | offer (i : Instance σ)
  | offerIfLatest (i : Instance σ) (latest : Nat)
  | process (contended : Bool) (elapsed : Rat) (buffer : Playback.Buffer)
  /-- The service takes one instance out of the queue, if there is one. -/
  | collect
  /-- The service has seen the queue empty, and counts what it took out. -/
  | count

def fresh (sampleRate : Nat) : Exchange σ := ⟨.fresh sampleRate, [], [], [], [], [], 0, 0⟩

def driver (s : Exchange σ) : Driver σ := s.processor.deck.driver

def handoff (s : Exchange σ) : Handoff σ := s.processor.deck.handoff

def places (s : Exchange σ) : Places (Instance σ) :=
  ⟨s.handoff.pending, s.returned, s.driver.active, s.handoff.retired, s.collected, s.dropped⟩

def setDeck (s : Exchange σ) (driver : Driver σ) (handoff : Handoff σ) : Exchange σ :=
  { s with processor := { s.processor with deck := ⟨driver, handoff⟩ } }

def act (e : Engine μ σ) (s : Exchange σ) : Action σ → Exchange σ
  | .offer i =>
    let (handoff, replaced) := s.handoff.offer i
    { s.setDeck s.driver handoff with
      put := s.put ++ [i]
      returned := s.returned ++ replaced.toList }
  | .offerIfLatest i latest =>
    match s.handoff.offerIfLatest i latest with
    | (handoff, .ok replaced) =>
      { s.setDeck s.driver handoff with
        put := s.put ++ [i]
        returned := s.returned ++ replaced.toList }
    | (handoff, .error _) => s.setDeck s.driver handoff
  | .process contended elapsed buffer =>
    let done := s.driver.process e s.handoff contended elapsed buffer
    let taken := Driver.taken? s.handoff contended
    { s.setDeck done.driver done.handoff with
      replaced := s.replaced ++ if taken.isSome then s.driver.active.toList else []
      dropped := s.dropped ++ done.dropped.toList
      pickups := s.pickups + taken.toList.length }
  | .collect =>
    match s.handoff.retired with
    | [] => s
    | i :: rest =>
      { s.setDeck s.driver { s.handoff with retired := rest } with
        collected := s.collected ++ [i]
        uncounted := s.uncounted + 1 }
  | .count =>
    let p := s.processor
    { s with processor := { p with collected := p.collected + s.uncounted }, uncounted := 0 }

def run (e : Engine μ σ) (s : Exchange σ) (actions : List (Action σ)) : Exchange σ :=
  actions.foldl (act e) s

/-- A stale instance changes nothing; any other is offered. -/
theorem act_offerIfLatest (e : Engine μ σ) (s : Exchange σ) (i : Instance σ) (latest : Nat) :
    s.act e (.offerIfLatest i latest) =
      if i.generation = latest then s.act e (.offer i) else s := by
  simp only [act, Handoff.offerIfLatest]
  by_cases same : i.generation = latest
  · simp only [if_pos same]
  · simp only [if_neg same]
    rfl

theorem act_collect_of_nil (e : Engine μ σ) {s : Exchange σ} (none : s.handoff.retired = []) :
    s.act e .collect = s := by
  simp only [act, none]

theorem act_collect_of_cons (e : Engine μ σ) {s : Exchange σ} {i : Instance σ}
    {rest : List (Instance σ)} (some : s.handoff.retired = i :: rest) :
    s.act e .collect =
      { s.setDeck s.driver { s.handoff with retired := rest } with
        collected := s.collected ++ [i]
        uncounted := s.uncounted + 1 } := by
  simp only [act, some]

theorem act_process_of_none (e : Engine μ σ) {s : Exchange σ} {contended : Bool}
    (none : Driver.taken? s.handoff contended = none) (elapsed : Rat)
    (buffer : Playback.Buffer) :
    s.act e (.process contended elapsed buffer) =
      s.setDeck (s.driver.play e elapsed buffer).1 s.handoff := by
  simp [act, Driver.process_of_none e s.driver none, none, setDeck]

theorem act_process_of_taken (e : Engine μ σ) {s : Exchange σ} {contended : Bool}
    {next : Instance σ} (taken : Driver.taken? s.handoff contended = some next) (elapsed : Rat)
    (buffer : Playback.Buffer) :
    ∃ d : Driver σ, (∃ j, d.active = some j ∧ Becomes μ next j) ∧
      s.act e (.process contended elapsed buffer) =
        { s.setDeck d { s.handoff with
            pending := none
            retired := s.handoff.retired ++
              if s.handoff.hasRoom then s.driver.active.toList else [] } with
          replaced := s.replaced ++ s.driver.active.toList
          dropped := s.dropped ++ if s.handoff.hasRoom then [] else s.driver.active.toList
          pickups := s.pickups + 1 } := by
  obtain ⟨left, dropped, active⟩ := Driver.process_of_taken e s.driver taken elapsed buffer
  refine ⟨_, active, ?_⟩
  simp only [act, left, dropped, taken]
  cases s.handoff.hasRoom <;> rfl

theorem collect_steps (e : Engine μ σ) {s : Exchange σ} {queue : List (Instance σ)}
    (retired : s.handoff.retired = queue) :
    s.run e (List.replicate queue.length .collect) =
      { s.setDeck s.driver { s.handoff with retired := [] } with
        collected := s.collected ++ queue
        uncounted := s.uncounted + queue.length } := by
  induction queue generalizing s with
  | nil =>
    have same : s.setDeck s.driver { s.handoff with retired := [] } = s := by
      rw [← retired]
      rfl
    rw [List.append_nil, same]
    rfl
  | cons i rest ih =>
    show (s.act e .collect).run e (List.replicate rest.length .collect) = _
    rw [act_collect_of_cons e retired, ih rfl]
    simp only [setDeck, driver, handoff, List.append_assoc, List.singleton_append,
      List.length_cons, Exchange.mk.injEq, true_and]
    omega

/-- To collect until the queue is empty, and then to count, is what a processor does in one go. -/
theorem sweep_eq_collect (e : Engine μ σ) {s : Exchange σ} (counted : s.uncounted = 0) :
    (s.run e (List.replicate s.handoff.retired.length .collect ++ [.count])).processor =
      s.processor.collect := by
  unfold run
  rw [List.foldl_append]
  show (act e (s.run e _) .count).processor = _
  rw [collect_steps e rfl]
  simp only [act, counted, Nat.zero_add]
  rfl

/-- What is known of an exchange at any time. -/
structure Conserved (μ : Type) (s : Exchange σ) : Prop where
  located : Located μ s.put s.places
  collecting : s.handoff.collecting = true
  room : s.handoff.retired.length ≤ retireCapacity
  inOrder : (s.collected ++ s.handoff.retired).Sublist s.replaced
  replaced : (s.collected ++ s.handoff.retired ++ s.dropped).Perm s.replaced
  pickups : s.pickups = s.driver.active.toList.length + s.replaced.length
  counted : s.collected.length = s.processor.collected + s.uncounted

namespace Conserved

variable {s : Exchange σ}

theorem fresh (sampleRate : Nat) : Conserved μ (.fresh sampleRate : Exchange σ) where
  located := ⟨⟨none, [], none, [], [], []⟩, ⟨.refl _, by simp [Places.all], by simp, by simp⟩, rfl⟩
  collecting := rfl
  room := Nat.zero_le _
  inOrder := .refl _
  replaced := .refl _
  pickups := rfl
  counted := rfl

theorem offer (h : Conserved μ s) (e : Engine μ σ) (i : Instance σ) :
    Conserved μ (s.act e (.offer i)) :=
  { h with located := h.located.next i }

theorem collect (h : Conserved μ s) (e : Engine μ σ) : Conserved μ (s.act e .collect) := by
  cases retired : s.handoff.retired with
  | nil => rwa [act_collect_of_nil e retired]
  | cons i rest =>
    have located := h.located.collect
    have room := h.room
    have inOrder := h.inOrder
    have replaced := h.replaced
    simp only [Places.collect, places, retired, List.tail_cons, List.head?_cons,
      Option.toList_some] at located
    rw [retired] at room inOrder replaced
    rw [act_collect_of_cons e retired]
    exact {
      located
      collecting := h.collecting
      room := Nat.le_of_succ_le room
      inOrder := by simpa [handoff, setDeck] using inOrder
      replaced := by simpa [handoff, setDeck] using replaced
      pickups := h.pickups
      counted := by simp [setDeck, h.counted, Nat.add_assoc] }

theorem count (h : Conserved μ s) (e : Engine μ σ) : Conserved μ (s.act e .count) :=
  { h with counted := h.counted }

theorem process (h : Conserved μ s) (e : Engine μ σ) (contended : Bool) (elapsed : Rat)
    (buffer : Playback.Buffer) : Conserved μ (s.act e (.process contended elapsed buffer)) := by
  cases taken : Driver.taken? s.handoff contended with
  | none =>
    rw [act_process_of_none e taken]
    exact { h with
      located := h.located.play e rfl elapsed buffer
      pickups := h.pickups.trans
        (congrArg (· + _) (Driver.play_active_length e s.driver elapsed buffer).symm) }
  | some next =>
    obtain ⟨d, ⟨j, active, becomes⟩, acted⟩ := act_process_of_taken e taken elapsed buffer
    have pending := Driver.pending_of_taken taken
    have kept : (if s.handoff.hasRoom then s.driver.active.toList else []).Sublist
        s.driver.active.toList := by
      split
      · exact .refl _
      · exact List.nil_sublist _
    rw [acted]
    exact {
      located := by
        have located := (h.located.pickup s.handoff.hasRoom).asked pending becomes
        rwa [← active] at located
      collecting := h.collecting
      room := s.handoff.length_retire_le h.room _
      inOrder := by
        have inOrder := h.inOrder.append kept
        rwa [List.append_assoc] at inOrder
      replaced := by
        have moved := h.replaced.append_right s.driver.active.toList
        exact (perm_of_room s.handoff.hasRoom ..).trans moved
      pickups := by
        have pickups := h.pickups
        simp only [driver, setDeck, active, Option.toList_some, List.length_singleton,
          List.length_append]
        unfold driver at pickups
        omega
      counted := h.counted }

theorem act (h : Conserved μ s) (e : Engine μ σ) (a : Action σ) : Conserved μ (s.act e a) := by
  cases a with
  | offer i => exact h.offer e i
  | offerIfLatest i latest =>
    rw [act_offerIfLatest]
    split
    · exact h.offer e i
    · exact h
  | process contended elapsed buffer => exact h.process e contended elapsed buffer
  | collect => exact h.collect e
  | count => exact h.count e

theorem run (h : Conserved μ s) (e : Engine μ σ) (actions : List (Action σ)) :
    Conserved μ (s.run e actions) := by
  induction actions generalizing s with
  | nil => exact h
  | cons a actions ih => exact ih (h.act e a)

end Conserved

/-- Something is dropped only by taking over an instance while as many as may wait already do. -/
theorem dropped_act (e : Engine μ σ) {s : Exchange σ} (collecting : s.handoff.collecting = true)
    (room : s.handoff.retired.length ≤ retireCapacity) (a : Action σ) :
    (s.act e a).dropped = s.dropped ∨
      ∃ elapsed buffer next old, a = .process false elapsed buffer ∧
        s.handoff.pending = some next ∧ s.driver.active = some old ∧
        s.handoff.retired.length = retireCapacity ∧ (s.act e a).dropped = s.dropped ++ [old] := by
  cases a with
  | offer i => exact .inl rfl
  | offerIfLatest i latest =>
    rw [act_offerIfLatest]
    split <;> exact .inl rfl
  | collect =>
    cases retired : s.handoff.retired with
    | nil =>
      rw [act_collect_of_nil e retired]
      exact .inl rfl
    | cons i rest =>
      rw [act_collect_of_cons e retired]
      exact .inl rfl
  | count => exact .inl rfl
  | process contended elapsed buffer =>
    cases taken : Driver.taken? s.handoff contended with
    | none =>
      rw [act_process_of_none e taken]
      exact .inl rfl
    | some next =>
      obtain ⟨d, -, acted⟩ := act_process_of_taken e taken elapsed buffer
      rw [acted]
      cases active : s.driver.active with
      | none => exact .inl (by simp)
      | some old =>
        cases room : s.handoff.hasRoom with
        | true => exact .inl (by simp)
        | false =>
          have waiting : s.handoff.retired.length = retireCapacity := by
            simp only [Handoff.hasRoom, collecting, Bool.true_and, decide_eq_false_iff_not] at room
            omega
          cases contended with
          | true => cases taken
          | false => exact .inr ⟨elapsed, buffer, next, old, rfl, taken, rfl, waiting, rfl⟩

end Exchange

/-- However offers, calls of the audio callback and collecting follow one another, every instance
that was put into the slot is in one place. At most four wait to be collected, and they are
collected in the order in which they were replaced. One is dropped on the audio side only when it
is replaced while four wait. Each time that an instance was taken over accounts for one that plays,
waits, was collected or was dropped. -/
theorem instances_are_conserved (e : Engine μ σ) (sampleRate : Nat)
    (actions : List (Exchange.Action σ)) :
    let s := (Exchange.fresh sampleRate).run e actions
    Located μ s.put s.places ∧
    s.handoff.retired.length ≤ 4 ∧
    (s.collected ++ s.handoff.retired).Sublist s.replaced ∧
    s.collected.length = s.processor.collected + s.uncounted ∧
    s.pickups = s.driver.active.toList.length + s.handoff.retired.length +
      (s.processor.collected + s.uncounted) + s.dropped.length ∧
    ∀ a, (s.act e a).dropped = s.dropped ∨
      ∃ elapsed buffer next old, a = .process false elapsed buffer ∧
        s.handoff.pending = some next ∧ s.driver.active = some old ∧
        s.handoff.retired.length = 4 ∧
        (s.act e a).dropped = s.dropped ++ [old] := by
  intro s
  have conserved : Exchange.Conserved μ s := (Exchange.Conserved.fresh sampleRate).run e actions
  refine ⟨conserved.located, conserved.room, conserved.inOrder, conserved.counted, ?_,
    Exchange.dropped_act e conserved.collecting conserved.room⟩
  have lengths := conserved.replaced.length_eq
  rw [List.length_append, List.length_append, conserved.counted] at lengths
  have pickups := conserved.pickups
  omega

/-- Six instances are taken over one after the other, and nobody collects: four wait, and the fifth
is dropped. -/
theorem fifth_replaced_instance_is_dropped :
    let actions := (List.range 6).flatMap fun n =>
      [.offer ⟨(), n, .skipped, true⟩, .process false 0 [[.zero]]]
    let s : Exchange Unit := (Exchange.fresh 48000).run .quiet actions
    Located Unit s.put s.places ∧ s.handoff.retired.map (·.generation) = [0, 1, 2, 3] ∧
      s.handoff.retired.length ≤ 4 ∧ s.dropped.map (·.generation) = [4] ∧
      s.driver.activeGeneration = some 5 := by
  intro actions s
  obtain ⟨located, room, -⟩ := instances_are_conserved Engine.quiet 48000 actions
  exact ⟨located, by decide, room, by decide, by decide⟩

end Processor

end LiveSound
