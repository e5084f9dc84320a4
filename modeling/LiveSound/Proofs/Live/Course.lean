import LiveSound.Proofs.Data.Keyed
import LiveSound.Proofs.Guest.Posting
import LiveSound.Proofs.Live.Loading
import LiveSound.Proofs.Processor.Renumbering

/-!
# The course of a live session

In a live session loads, the service that receives their modules, a bootstrap for each of these and
the audio side all move on by turns. A `Move` is what one of them does next, and a `Course` what
has come of all moves so far. Each load has a number, so that it is known whose doing a move is.

A bootstrap posts its events one by one, offers its result, and posts what came of that. The offer
is one move: the slot is locked for it, so the audio side can only find the slot contended then,
which it may at any time. All moves of a bootstrap together are what the processor does when it
finishes one (`finish_moves`).
-/

namespace LiveSound.Live

open Guest (Engine Instance InitFault)
open Playback (Buffer Driver Handoff)

/-- A bootstrap that was begun: the events that it posts next, and what it offers after them. When
it has made its offer, the events are those that tell what came of it. -/
structure Task (σ : Type) where
  generation : Nat
  events : List Event
  result : Option (Except InitFault (Instance σ))

/-- What a session shows. -/
inductive Entry where
  | event (event : Event)
  /-- A line that a load prints. -/
  | line (text : String)
  deriving DecidableEq

/-- A call of the audio callback: the instance that was taken over, the buffer as it was filled,
and the driver after it. -/
structure Heard (σ : Type) where
  picked : Option (Instance σ)
  buffer : Buffer
  driver : Driver σ

/-- A session so far. -/
structure Course (σ : Type) where
  processor : Processor σ
  /-- The modules that were sent and not received, with the numbers of their loads. -/
  queued : List (Nat × Module)
  /-- The bootstraps that were begun, with the numbers of their loads. -/
  tasks : List (Nat × Task σ)
  heard : List (Heard σ)
  /-- What was shown, with the number of the load that it is from, if it is from one. -/
  journal : List (Option Nat × Entry)

inductive Move where
  /-- Load `n` reads and compiles its source with this result, prints these lines, and sends the
  module if there is one. -/
  | load (n : Nat) (lines : List String) (result : Option Compile.Result)
  /-- The service receives the module of load `n` and begins its bootstrap. -/
  | receive (n : Nat)
  /-- The bootstrap of load `n` goes on. -/
  | advance (n : Nat)
  /-- The service collects replaced instances, because the bootstrap of load `n` is over or because
  it is time to. -/
  | collect (n : Option Nat)
  | process (contended : Bool) (elapsed : Rat) (buffer : Buffer)

def Move.load? : Move → Option Nat
  | .load n _ _ | .receive n | .advance n => some n
  | .collect n => n
  | .process .. => none

def Move.issued : Move → Nat
  | .receive _ => 1
  | _ => 0

variable {μ σ : Type}

def Task.begin (e : Engine μ σ) (m : Module) (generation : Nat) : Task σ :=
  let (events, result) := Guest.Bootstrap.run e m generation
  ⟨generation, events, some result⟩

/-- It has made its offer. -/
def Task.isOver (t : Task σ) : Bool := t.result.isNone

namespace Course

def fresh (sampleRate : Nat) : Course σ := ⟨.fresh sampleRate, [], [], [], []⟩

def driver (s : Course σ) : Driver σ := s.processor.deck.driver

def pending (s : Course σ) : Option (Instance σ) := s.processor.deck.handoff.pending

/-- The number is in use. -/
def knows (s : Course σ) (n : Nat) : Bool :=
  s.queued.any (·.1 = n) || s.tasks.any (·.1 = n)

def setProcessor (s : Course σ) (p : Processor σ) : Course σ := { s with processor := p }

def enter (s : Course σ) (load? : Option Nat) (entries : List Entry) : Course σ :=
  { s with journal := s.journal ++ entries.map (load?, ·) }

def setTask (s : Course σ) (n : Nat) (t : Task σ) : Course σ :=
  { s with tasks := Keyed.replace n t s.tasks }

def posted (s : Course σ) (n : Nat) (t : Task σ) (event : Event) (rest : List Event) : Course σ :=
  (s.enter (some n) [.event event]).setTask n { t with events := rest }

/-- A bootstrap makes its offer. -/
def offered (s : Course σ) (n : Nat) (t : Task σ) (result : Except InitFault (Instance σ)) :
    Course σ :=
  let p := s.processor
  let (p, _, events) :=
    { p with starting := p.starting.filter (·.1 != t.generation) }.conclude result
  (s.setProcessor p).setTask n { t with events := events, result := none }

/-- A bootstrap goes on, unless there is nothing left to do. -/
def advance (s : Course σ) (n : Nat) (t : Task σ) : Option (Course σ) :=
  match t.events, t.result with
  | event :: rest, _ => some (s.posted n t event rest)
  | [], some result => some (s.offered n t result)
  | [], none => none

/-- One call of the audio callback. -/
def process (s : Course σ) (e : Engine μ σ) (contended : Bool) (elapsed : Rat) (buffer : Buffer) :
    Course σ :=
  let p := s.processor
  let done := p.deck.driver.process e p.deck.handoff contended elapsed buffer
  let heard := ⟨Driver.taken? p.deck.handoff contended, done.buffer, done.driver⟩
  let played : Course σ :=
    { s with
      processor := { p with deck := ⟨done.driver, done.handoff⟩ }
      heard := s.heard ++ [heard] }
  played.enter none (done.events.map .event)

def loaded (s : Course σ) (n : Nat) (lines : List String) (result : Option Compile.Result) :
    Course σ :=
  let sent : Course σ :=
    { s with
      processor := s.processor.deliver result
      queued := s.queued ++ (artifact? result).toList.map (n, ·) }
  sent.enter (some n) (lines.map .line)

/-- The service takes a message, which gets the next generation, and begins its bootstrap. -/
def received (s : Course σ) (e : Engine μ σ) (n : Nat) (m : Module) (rest : List (Nat × Module)) :
    Course σ :=
  { s with
    processor := s.processor.receive
    queued := rest
    tasks := s.tasks ++ [(n, .begin e m (s.processor.latest + 1))] }

def step (e : Engine μ σ) (s : Course σ) : Move → Option (Course σ)
  | .load n lines result => if s.knows n then none else some (s.loaded n lines result)
  | .receive n =>
    match s.queued with
    | [] => none
    | (n', m) :: rest => if n' = n then some (s.received e n m rest) else none
  | .advance n => (s.tasks.lookup n).bind fun t => s.advance n t
  | .collect _ => some (s.setProcessor s.processor.collect)
  | .process contended elapsed buffer => some (s.process e contended elapsed buffer)

/-- A session after a number of moves, if all of them can be made. -/
def run (e : Engine μ σ) : Course σ → List Move → Option (Course σ)
  | s, [] => some s
  | s, move :: moves => (s.step e move).bind fun s' => s'.run e moves

theorem run_append (e : Engine μ σ) (s : Course σ) (moves moves' : List Move) :
    s.run e (moves ++ moves') = (s.run e moves).bind fun s' => s'.run e moves' := by
  induction moves generalizing s with
  | nil => rfl
  | cons move moves ih =>
    show (s.step e move).bind _ = ((s.step e move).bind _).bind _
    rw [Option.bind_assoc]
    congr 1
    funext s'
    exact ih s'

theorem step_load {e : Engine μ σ} {s s' : Course σ} {n : Nat} {lines : List String}
    {result : Option Compile.Result} (h : s.step e (.load n lines result) = some s') :
    s.knows n = false ∧ s' = s.loaded n lines result := by
  simp only [step] at h
  split at h
  · cases h
  · rename_i new
    exact ⟨by simpa using new, (Option.some.inj h).symm⟩

theorem step_receive {e : Engine μ σ} {s s' : Course σ} {n : Nat}
    (h : s.step e (.receive n) = some s') :
    ∃ m rest, s.queued = (n, m) :: rest ∧ s' = s.received e n m rest := by
  simp only [step] at h
  split at h
  · cases h
  · rename_i n' m rest queued
    split at h
    · rename_i same
      subst same
      exact ⟨m, rest, queued, (Option.some.inj h).symm⟩
    · cases h

/-- How a bootstrap goes on: it posts an event, or it makes its offer. -/
theorem step_advance {e : Engine μ σ} {s s' : Course σ} {n : Nat}
    (h : s.step e (.advance n) = some s') :
    ∃ t, s.tasks.lookup n = some t ∧
      ((∃ event rest, t.events = event :: rest ∧ s' = s.posted n t event rest) ∨
        ∃ result, t.events = [] ∧ t.result = some result ∧ s' = s.offered n t result) := by
  obtain ⟨t, task, made⟩ := Option.bind_eq_some_iff.mp h
  refine ⟨t, task, ?_⟩
  unfold advance at made
  split at made
  · rename_i event rest events
    exact .inl ⟨event, rest, events, (Option.some.inj made).symm⟩
  · rename_i result events offers
    exact .inr ⟨result, events, offers, (Option.some.inj made).symm⟩
  · cases made

theorem advance_of_cons {s : Course σ} {n : Nat} {t : Task σ} {event : Event}
    {rest : List Event} (events : t.events = event :: rest) :
    s.advance n t = some (s.posted n t event rest) := by
  unfold advance
  rw [events]

theorem advance_of_nil {s : Course σ} {n : Nat} {t : Task σ}
    {result : Except InitFault (Instance σ)} (events : t.events = [])
    (offers : t.result = some result) : s.advance n t = some (s.offered n t result) := by
  unfold advance
  rw [events, offers]

/-- An offer changes the slot, if anything. -/
theorem offered_eq (s : Course σ) (n : Nat) (t : Task σ)
    (result : Except InitFault (Instance σ)) :
    s.offered n t result =
      (s.setProcessor { s.processor with
        starting := s.processor.starting.filter (·.1 != t.generation)
        deck := { s.processor.deck with handoff := { s.processor.deck.handoff with
          pending := s.processor.pendingAfter result } } }).setTask n
        { t with events := s.processor.tidings result, result := none } := by
  obtain ⟨left, events⟩ := Processor.conclude_eq
    { s.processor with starting := s.processor.starting.filter (·.1 != t.generation) } result
  unfold offered
  simp only [left, events]
  rfl

/-- Messages are taken, and those that wait are the ones with numbers. -/
structure Sound (s : Course σ) : Prop where
  accepting : s.processor.accepting = true
  waiting : s.processor.waiting = s.queued.map (·.2)

theorem Sound.fresh (sampleRate : Nat) : (fresh sampleRate : Course σ).Sound := ⟨rfl, rfl⟩

theorem Sound.loaded {s : Course σ} (h : s.Sound) (n : Nat) (lines : List String)
    (result : Option Compile.Result) : (s.loaded n lines result).Sound := by
  have sent := Processor.deliver_of_accepting h.accepting result
  refine ⟨?_, ?_⟩
  · show (s.processor.deliver result).accepting = true
    rw [sent]
    exact h.accepting
  · show (s.processor.deliver result).waiting = _
    rw [sent, h.waiting]
    simp [Course.loaded, enter, List.map_map, Function.comp_def]

/-- The service issues a generation for the message that has waited longest. -/
theorem Sound.receive {s : Course σ} (h : s.Sound) {n : Nat} {m : Module}
    {rest : List (Nat × Module)} (queued : s.queued = (n, m) :: rest) :
    s.processor.receive =
      { s.processor with
        latest := s.processor.latest + 1
        waiting := rest.map (·.2)
        starting := s.processor.starting ++ [(s.processor.latest + 1, m)] } := by
  have waiting : s.processor.waiting = m :: rest.map (·.2) := by
    rw [h.waiting, queued]
    rfl
  unfold Processor.receive
  rw [waiting]
  rfl

theorem Sound.received {s : Course σ} (h : s.Sound) (e : Engine μ σ) {n : Nat} {m : Module}
    {rest : List (Nat × Module)} (queued : s.queued = (n, m) :: rest) :
    (s.received e n m rest).Sound := by
  have received := h.receive queued
  refine ⟨?_, ?_⟩
  · show s.processor.receive.accepting = true
    rw [received]
    exact h.accepting
  · show s.processor.receive.waiting = _
    rw [received]
    rfl

theorem Sound.step {s s' : Course σ} (h : s.Sound) {e : Engine μ σ} {move : Move}
    (made : s.step e move = some s') : s'.Sound := by
  cases move with
  | load n lines result =>
    obtain ⟨-, rfl⟩ := step_load made
    exact h.loaded n lines result
  | receive n =>
    obtain ⟨m, rest, queued, rfl⟩ := step_receive made
    exact h.received e queued
  | advance n =>
    obtain ⟨t, -, ⟨event, rest, -, rfl⟩ | ⟨result, -, -, rfl⟩⟩ := step_advance made
    · exact ⟨h.accepting, h.waiting⟩
    · rw [offered_eq]
      exact ⟨h.accepting, h.waiting⟩
  | collect n =>
    cases made
    exact ⟨h.accepting, h.waiting⟩
  | process contended elapsed buffer =>
    cases made
    exact ⟨h.accepting, h.waiting⟩

/-- A generation is issued when a message is received, and at no other time. -/
theorem Sound.latest_step {s s' : Course σ} (h : s.Sound) {e : Engine μ σ} {move : Move}
    (made : s.step e move = some s') :
    s'.processor.latest = s.processor.latest + move.issued := by
  cases move with
  | load n lines result =>
    obtain ⟨-, rfl⟩ := step_load made
    show (s.processor.deliver result).latest = _
    rw [Processor.deliver_of_accepting h.accepting]
    rfl
  | receive n =>
    obtain ⟨m, rest, queued, rfl⟩ := step_receive made
    show s.processor.receive.latest = _
    rw [h.receive queued]
    rfl
  | advance n =>
    obtain ⟨t, -, ⟨event, rest, -, rfl⟩ | ⟨result, -, -, rfl⟩⟩ := step_advance made
    · rfl
    · rw [offered_eq]
      rfl
  | collect n =>
    cases made
    rfl
  | process contended elapsed buffer =>
    cases made
    rfl

/-! ## A bootstrap without interruption -/

theorem post_moves (e : Engine μ σ) {s : Course σ} {n : Nat} {t : Task σ}
    (task : s.tasks.lookup n = some t) :
    ∃ s', s.run e (List.replicate t.events.length (.advance n)) = some s' ∧
      s'.processor = s.processor ∧
      s'.journal = s.journal ++ t.events.map (fun event => (some n, .event event)) ∧
      s'.tasks.lookup n = some { t with events := [] } := by
  generalize all : t.events = events
  induction events generalizing s t with
  | nil =>
    refine ⟨s, rfl, rfl, by simp, ?_⟩
    rw [task, ← all]
  | cons event rest ih =>
    have posts : s.step e (.advance n) = some (s.posted n t event rest) := by
      show (s.tasks.lookup n).bind _ = _
      rw [task]
      exact advance_of_cons all
    obtain ⟨s', ran, processor, journal, next⟩ :=
      ih (s := s.posted n t event rest) (Keyed.lookup_replace task) rfl
    refine ⟨s', ?_, processor, ?_, next⟩
    · show (s.step e (.advance n)).bind _ = _
      rw [posts]
      exact ran
    · rw [journal]
      simp [posted, enter, setTask]

/-- The moves of one bootstrap, from its first event to the collection after its end, with nobody
else between them: that is what `finish` does. -/
theorem finish_moves (e : Engine μ σ) {s : Course σ} {n generation : Nat} {m : Module}
    (task : s.tasks.lookup n = some (.begin e m generation))
    (going : s.processor.starting.lookup generation = some m) :
    ∃ moves s', (∀ move ∈ moves, move.load? = some n) ∧ s.run e moves = some s' ∧
      s'.processor = (s.processor.finish e generation).1 ∧
      s'.journal = s.journal ++
        (s.processor.finish e generation).2.map fun event => (some n, .event event) := by
  rcases ran : Guest.Bootstrap.run e m generation with ⟨events, result⟩
  rcases concluded : Processor.conclude
    { s.processor with starting := s.processor.starting.filter (·.1 != generation) } result
    with ⟨p, outcome, tidings⟩
  have finished : s.processor.finish e generation = (p.collect, events ++ tidings) := by
    simp only [Processor.finish, going, Processor.install, ran, concluded]
  have begun : (Task.begin e m generation : Task σ) = ⟨generation, events, some result⟩ := by
    unfold Task.begin
    rw [ran]
  rw [begun] at task
  obtain ⟨s₁, ran₁, processor₁, journal₁, task₁⟩ := post_moves e task
  let s₂ : Course σ := (s₁.setProcessor p).setTask n ⟨generation, tidings, none⟩
  have offers : s₁.step e (.advance n) = some s₂ := by
    show (s₁.tasks.lookup n).bind _ = _
    rw [task₁]
    unfold advance offered
    simp only [Option.bind_some, processor₁, concluded]
    rfl
  obtain ⟨s₃, ran₃, processor₃, journal₃, -⟩ :=
    post_moves e (s := s₂) (Keyed.lookup_replace task₁)
  refine ⟨.replicate events.length (.advance n) ++
    (.advance n :: (.replicate tidings.length (.advance n) ++ [.collect (some n)])),
    s₃.setProcessor p.collect, ?_, ?_, ?_, ?_⟩
  · intro move hm
    simp only [List.mem_append, List.mem_replicate, List.mem_cons, List.not_mem_nil,
      or_false] at hm
    rcases hm with ⟨-, rfl⟩ | rfl | ⟨-, rfl⟩ | rfl <;> rfl
  · rw [run_append, ran₁]
    show (s₁.step e (.advance n)).bind _ = _
    rw [offers]
    show s₂.run e _ = _
    rw [run_append, ran₃]
    show some (s₃.setProcessor s₃.processor.collect) = _
    rw [processor₃]
    rfl
  · rw [finished]
    rfl
  · rw [finished]
    show s₃.journal = _
    rw [journal₃]
    show s₁.journal ++ _ = _
    rw [journal₁, List.map_append, List.append_assoc]

end Course

end LiveSound.Live
