import LiveSound.Processor.Basic
import LiveSound.Proofs.Guest.Posting
import LiveSound.Proofs.Playback.Succession

/-!
# Interleavings of a processor

Senders, the service, one task for each bootstrap and the audio side work on a processor at the
same time. `Step` says what each of them can do next, in pieces as small as the others can come
between: a task posts its events one by one, locks the slot and reads the generation issued last,
offers its instance while it holds the lock, and only after that says what came of it. The audio
side finds the slot contended while a task holds it, and may find it so at any time.

A `Run` is a state together with what happened so far. `Reachable` are the states of all runs from
a fresh processor, with every order of steps and every result of the bootstraps. The pieces of a
bootstrap put together are `Processor.finish` (`finish_steps`).
-/

namespace LiveSound

open Guest (Engine Instance InitFault)
open Guest.Instance (Becomes)
open Playback (Driver Handoff)

def InstallOutcome.events : InstallOutcome → List Event
  | .installed => [.ready]
  | .stale => []
  | .failed fault => [.error fault.message]

namespace Processor

/-- How far the task of a bootstrap has come. -/
inductive Stage where
  /-- It has these events to post before its result is there. -/
  | starting (rest : List Event)
  /-- It holds the slot and has read this as the generation issued last. -/
  | offering (seen : Nat)
  /-- Its instance is in the slot; nobody was told yet. -/
  | offered
  | ended (outcome : InstallOutcome)

/-- A bootstrap that was begun. -/
structure Task (σ : Type) where
  generation : Nat
  module : Module
  /-- What the bootstrap posts, and what comes of it. -/
  events : List Event
  result : Except InitFault (Instance σ)
  stage : Stage

namespace Task

variable {μ σ : Type}

def begin (e : Engine μ σ) (m : Module) (generation : Nat) : Task σ :=
  let (events, result) := Guest.Bootstrap.run e m generation
  ⟨generation, m, events, result, .starting events⟩

def HasEnded (t : Task σ) : Prop := ∃ outcome, t.stage = .ended outcome

/-- Its instance was put into the slot. -/
def Installed (t : Task σ) : Prop := t.stage = .offered ∨ t.stage = .ended .installed

def HoldsSlot (t : Task σ) : Prop := ∃ seen, t.stage = .offering seen

instance (t : Task σ) : Decidable t.HasEnded :=
  match h : t.stage with
  | .ended outcome => .isTrue ⟨outcome, h⟩
  | .starting _ | .offering _ | .offered => .isFalse (by rintro ⟨_, hs⟩; rw [h] at hs; cases hs)

instance (t : Task σ) : Decidable t.HoldsSlot :=
  match h : t.stage with
  | .offering seen => .isTrue ⟨seen, h⟩
  | .starting _ | .offered | .ended _ => .isFalse (by rintro ⟨_, hs⟩; rw [h] at hs; cases hs)

end Task

/-- Where an event comes from. -/
inductive Origin where
  | bootstrap (generation : Nat)
  | driver
  deriving DecidableEq, Repr

/-- Who takes a step. -/
inductive Actor where
  | sender
  | service
  | bootstrap (generation : Nat)
  | driver

/-- A processor at work, and what happened so far. -/
structure Run (σ : Type) where
  processor : Processor σ
  /-- All bootstraps that were begun, in the order of their generations. -/
  tasks : List (Task σ)
  /-- Somebody is left who can send. -/
  senders : Bool
  /-- The modules that were accepted, oldest first. -/
  sent : List Module
  posted : List (Origin × Event)
  /-- The generations that the driver took over, oldest first. -/
  taken : List Nat

namespace Run

variable {μ σ : Type}

def fresh (sampleRate : Nat) : Run σ := ⟨.fresh sampleRate, [], true, [], [], []⟩

def pending (s : Run σ) : Option (Instance σ) := s.processor.deck.handoff.pending

def active (s : Run σ) : Option (Instance σ) := s.processor.deck.driver.active

/-- What a bootstrap has posted, oldest first. -/
def postedBy (s : Run σ) (generation : Nat) : List Event :=
  (s.posted.filter (·.1 = .bootstrap generation)).map (·.2)

/-- The slot is not locked. -/
def SlotFree (s : Run σ) : Prop := ∀ t ∈ s.tasks, ¬ t.HoldsSlot

instance (s : Run σ) : Decidable s.SlotFree :=
  inferInstanceAs (Decidable (∀ t ∈ s.tasks, ¬ t.HoldsSlot))

def send (s : Run σ) (m : Module) : Run σ :=
  let (accepted, p) := s.processor.send m
  { s with processor := p, sent := if accepted then s.sent ++ [m] else s.sent }

/-- The service takes a message, which gets the next generation, and begins its bootstrap. -/
def receive (s : Run σ) (e : Engine μ σ) (m : Module) : Run σ :=
  { s with
    processor := s.processor.receive,
    tasks := s.tasks ++ [.begin e m (s.processor.latest + 1)] }

def post (s : Run σ) (origin : Origin) (events : List Event) : Run σ :=
  { s with posted := s.posted ++ events.map (origin, ·) }

def setStage (s : Run σ) (k : Nat) (t : Task σ) (stage : Stage) : Run σ :=
  { s with tasks := s.tasks.set k { t with stage := stage } }

/-- The task of a bootstrap comes to its end. -/
def close (s : Run σ) (k : Nat) (t : Task σ) (outcome : InstallOutcome) : Run σ :=
  let p := s.processor
  let starting := p.starting.filter (·.1 != t.generation)
  ({ s with processor := { p with starting := starting } }.post (.bootstrap t.generation)
    outcome.events).setStage k t (.ended outcome)

def put (s : Run σ) (i : Instance σ) : Run σ :=
  let p := s.processor
  { s with processor := { p with deck := { p.deck with handoff := (p.deck.handoff.offer i).1 } } }

/-- Offers an instance, with `seen` as the generation issued last. -/
def offer (s : Run σ) (k : Nat) (t : Task σ) (i : Instance σ) (seen : Nat) : Run σ :=
  let p := s.processor
  match p.deck.handoff.offerIfLatest i seen with
  | (handoff, .ok _) =>
    { s with processor := { p with deck := { p.deck with handoff := handoff } } }.setStage k t
      .offered
  | (_, .error _) => s.close k t .stale

/-- One call of the audio callback. -/
def process (s : Run σ) (e : Engine μ σ) (contended : Bool) (elapsed : Rat)
    (buffer : Playback.Buffer) : Run σ :=
  let p := s.processor
  let done := p.deck.driver.process e p.deck.handoff contended elapsed buffer
  { s with
    processor := { p with deck := ⟨done.driver, done.handoff⟩ },
    posted := s.posted ++ done.events.map (.driver, ·),
    taken := s.taken ++
      ((Driver.taken? p.deck.handoff contended).map (·.generation)).toList }

theorem offer_of_latest (s : Run σ) (k : Nat) (t : Task σ) {i : Instance σ} {seen : Nat}
    (latest : i.generation = seen) :
    s.offer k t i seen = (s.put i).setStage k t .offered := by
  simp only [offer, Handoff.offerIfLatest, latest, ↓reduceIte]
  rfl

theorem offer_of_stale (s : Run σ) (k : Nat) (t : Task σ) {i : Instance σ} {seen : Nat}
    (stale : i.generation ≠ seen) : s.offer k t i seen = s.close k t .stale := by
  simp only [offer, Handoff.offerIfLatest, stale, ↓reduceIte]

/-- A buffer without an instance to take over. -/
theorem process_of_none (s : Run σ) (e : Engine μ σ) {contended : Bool}
    (ht : Driver.taken? s.processor.deck.handoff contended = none) (elapsed : Rat)
    (buffer : Playback.Buffer) :
    let s' := s.process e contended elapsed buffer
    s'.pending = s.pending ∧ s'.taken = s.taken ∧ (s.active = none → s'.active = none) ∧
      ∀ i, s.active = some i → ∃ j, s'.active = some j ∧ Becomes μ i j := by
  have done := Driver.process_of_none e s.processor.deck.driver ht elapsed buffer
  simp only [process, pending, active, done, ht, Option.map_none, Option.toList_none,
    List.append_nil, true_and]
  constructor
  · intro ha
    rw [Driver.play_of_idle e ha, ha]
  · intro i ha
    exact Driver.play_active e ha elapsed buffer

theorem process_of_some (s : Run σ) (e : Engine μ σ) {contended : Bool} {next : Instance σ}
    (ht : Driver.taken? s.processor.deck.handoff contended = some next) (elapsed : Rat)
    (buffer : Playback.Buffer) :
    let s' := s.process e contended elapsed buffer
    s.pending = some next ∧ s'.pending = none ∧ s'.taken = s.taken ++ [next.generation] ∧
      ∃ j, s'.active = some j ∧ Becomes μ next j := by
  obtain ⟨driver, -, -, empty⟩ := Driver.process_of_some e s.processor.deck.driver ht elapsed buffer
  refine ⟨Driver.pending_of_taken ht, empty, ?_, ?_⟩
  · simp [process, ht]
  · simp only [process, active, driver]
    exact Driver.play_active e rfl elapsed buffer

end Run

/-- What can happen next. Guests post nothing but text. -/
inductive Step (μ : Type) {σ : Type} : Actor → Run σ → Run σ → Prop where
  | send {s : Run σ} (m : Module) (left : s.senders = true) : Step μ .sender s (s.send m)
  | leave {s : Run σ} : Step μ .sender s { s with senders := false }
  | receive {s : Run σ} (e : Engine μ σ) {m : Module} {rest : List Module} (text : e.PostsText)
      (serving : s.processor.accepting = true) (waiting : s.processor.waiting = m :: rest) :
      Step μ .service s (s.receive e m)
  | collect {s : Run σ} (serving : s.processor.accepting = true) :
      Step μ .service s { s with processor := s.processor.collect }
  | stop {s : Run σ} (serving : s.processor.accepting = true) (left : s.senders = false)
      (waiting : s.processor.waiting = []) (ended : ∀ t ∈ s.tasks, t.HasEnded) :
      Step μ .service s { s with processor := s.processor.collect.abandon }
  | post {s : Run σ} {k : Nat} {t : Task σ} {event : Event} {rest : List Event}
      (task : s.tasks[k]? = some t) (stage : t.stage = .starting (event :: rest)) :
      Step μ (.bootstrap t.generation) s
        ((s.post (.bootstrap t.generation) [event]).setStage k t (.starting rest))
  | fail {s : Run σ} {k : Nat} {t : Task σ} {fault : InitFault}
      (task : s.tasks[k]? = some t) (stage : t.stage = .starting [])
      (result : t.result = .error fault) :
      Step μ (.bootstrap t.generation) s (s.close k t (.failed fault))
  | lock {s : Run σ} {k : Nat} {t : Task σ} {i : Instance σ}
      (task : s.tasks[k]? = some t) (stage : t.stage = .starting []) (result : t.result = .ok i)
      (free : s.SlotFree) :
      Step μ (.bootstrap t.generation) s (s.setStage k t (.offering s.processor.latest))
  | offer {s : Run σ} {k : Nat} {t : Task σ} {i : Instance σ} {seen : Nat}
      (task : s.tasks[k]? = some t) (stage : t.stage = .offering seen) (result : t.result = .ok i) :
      Step μ (.bootstrap t.generation) s (s.offer k t i seen)
  | announce {s : Run σ} {k : Nat} {t : Task σ}
      (task : s.tasks[k]? = some t) (stage : t.stage = .offered) :
      Step μ (.bootstrap t.generation) s (s.close k t .installed)
  | process {s : Run σ} (e : Engine μ σ) (contended : Bool) (elapsed : Rat)
      (buffer : Playback.Buffer) (free : contended = false → s.SlotFree) :
      Step μ .driver s (s.process e contended elapsed buffer)

/-- Any number of steps. -/
inductive Steps (μ : Type) {σ : Type} (s : Run σ) : Run σ → Prop where
  | refl : Steps μ s s
  | tail {s' s'' : Run σ} {a : Actor} : Steps μ s s' → Step μ a s' s'' → Steps μ s s''

/-- The states of the runs of a processor. -/
def Reachable (μ : Type) {σ : Type} (sampleRate : Nat) (s : Run σ) : Prop :=
  Steps μ (.fresh sampleRate) s

section Steps

variable {μ σ : Type} {s s' s'' : Run σ}

theorem Steps.trans (h : Steps μ s s') (h' : Steps μ s' s'') : Steps μ s s'' := by
  induction h' with
  | refl => exact h
  | tail _ hs ih => exact .tail ih hs

theorem Step.steps {a : Actor} (h : Step μ a s s') : Steps μ s s' := .tail .refl h

/-! ## A bootstrap without interruption -/

theorem Run.getElem?_setStage {k : Nat} {t : Task σ} (hk : s.tasks[k]? = some t) (stage : Stage) :
    (s.setStage k t stage).tasks[k]? = some { t with stage := stage } := by
  have lt := (List.getElem?_eq_some_iff.mp hk).1
  simp only [setStage, List.getElem?_set_self lt]

theorem Run.setStage_self {k : Nat} {t : Task σ} (hk : s.tasks[k]? = some t) :
    s.setStage k t t.stage = s := by
  obtain ⟨lt, ht⟩ := List.getElem?_eq_some_iff.mp hk
  show { s with tasks := s.tasks.set k t } = s
  rw [← ht, List.set_getElem_self lt]

theorem post_steps {k : Nat} {t : Task σ} {events : List Event} (hk : s.tasks[k]? = some t)
    (stage : t.stage = .starting events) :
    Steps μ s ((s.post (.bootstrap t.generation) events).setStage k t (.starting [])) := by
  induction events generalizing s t with
  | nil =>
    have same : (s.post (.bootstrap t.generation) []).setStage k t (.starting []) = s := by
      rw [← stage]
      simpa [Run.post] using Run.setStage_self hk
    rw [same]
    exact .refl
  | cons event rest ih =>
    have first : Steps μ s _ := (Step.post hk stage).steps
    have others := ih
      (s := (s.post (.bootstrap t.generation) [event]).setStage k t (.starting rest))
      (Run.getElem?_setStage hk (.starting rest)) rfl
    refine first.trans ?_
    simpa [Run.post, Run.setStage, List.set_set] using others

theorem Run.SlotFree.setStage (free : s.SlotFree) (k : Nat) (t : Task σ) {stage : Stage}
    (idle : ∀ seen, stage ≠ .offering seen) : (s.setStage k t stage).SlotFree := by
  intro u hu
  rcases List.mem_or_eq_of_mem_set hu with hu | rfl
  · exact free u hu
  · rintro ⟨seen, hs⟩
    exact idle seen hs

/-- The steps of one bootstrap, from its first event to the collection after its end, with nobody
else between them: that is what `finish` does. -/
theorem finish_steps {e : Engine μ σ} {k : Nat} {t : Task σ} (hk : s.tasks[k]? = some t)
    (stage : t.stage = .starting t.events)
    (ran : Guest.Bootstrap.run e t.module t.generation = (t.events, t.result))
    (going : s.processor.starting.lookup t.generation = some t.module) (free : s.SlotFree)
    (serving : s.processor.accepting = true) :
    ∃ s', Steps μ s s' ∧ s'.processor = (s.processor.finish e t.generation).1 ∧
      s'.posted = s.posted ++
        (s.processor.finish e t.generation).2.map (.bootstrap t.generation, ·) := by
  have posts : Steps μ s _ := post_steps hk stage
  have at1 := Run.getElem?_setStage (s := s.post (.bootstrap t.generation) t.events) hk
    (.starting [])
  have collect {s' : Run σ} (h : s'.processor.accepting = true) :
      Steps μ s' { s' with processor := s'.processor.collect } := (Step.collect h).steps
  cases result : t.result with
  | error fault =>
    have failed : Steps μ _ _ := (Step.fail at1 rfl result).steps
    refine ⟨_, (posts.trans failed).trans (collect serving), ?_, ?_⟩ <;>
      simp [finish, going, install, ran, result, conclude, Run.close, Run.setStage, Run.post,
        InstallOutcome.events]
  | ok i =>
    have free1 : ((s.post (.bootstrap t.generation) t.events).setStage k t
        (.starting [])).SlotFree :=
      Run.SlotFree.setStage free k t (fun seen hs => by cases hs)
    have locked : Steps μ _ _ := (Step.lock at1 rfl result free1).steps
    have at2 := Run.getElem?_setStage at1 (.offering s.processor.latest)
    have offered : Steps μ _ _ := (Step.offer at2 rfl result).steps
    by_cases latest : i.generation = s.processor.latest
    · rw [Run.offer_of_latest _ _ _ latest] at offered
      have announced := ((posts.trans locked).trans offered).trans
        (Step.announce (k := k) (t := { t with stage := .offered })
          (by exact Run.getElem?_setStage at2 _) rfl).steps
      refine ⟨_, announced.trans (collect serving), ?_, ?_⟩ <;>
        simp [finish, going, install, ran, result, conclude, Run.close, Run.setStage, Run.post,
          InstallOutcome.events, Handoff.offerIfLatest, Handoff.offer, latest, Run.put]
    · refine ⟨_, ((posts.trans locked).trans offered).trans (collect ?_), ?_, ?_⟩ <;>
        simp [finish, going, install, ran, result, conclude, Run.offer, Run.close, Run.setStage,
          Run.post, InstallOutcome.events, Handoff.offerIfLatest, latest, serving]

end Steps

end Processor

end LiveSound
