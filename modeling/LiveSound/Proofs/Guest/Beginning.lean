import LiveSound.Proofs.Guest.Posting

/-!
# How an instance begins

A bootstrap runs guest code at most three times: it instantiates the module, calls the start
function and calls the init function. `attempt?` is what comes of such a call, and each one goes on
from the state that the one before it left, also when that one failed (`run_of_made`). What became
of the start function is told by `Startup.Fits`, and `Refuses` has the reasons for which the init
function refuses the module.

Which guest code was run does not show in the result of a bootstrap. `Engine.announcing` makes it
show: its guests do as those of the engine it is made from, but all that they post is that they
run, and `Bootstrap.ran` reads that off the events.
-/

namespace LiveSound.Guest

variable {μ σ : Type}

/-! ## Making and calling -/

namespace Engine

/-- The state of a new instance, or why there is none. -/
def made (e : Engine μ σ) (m : Module) : Except String σ :=
  match e.compile m.bytes with
  | .error text => .error text
  | .ok compiled => (e.instantiate compiled).2

/-- What is posted while an instance is made. -/
def early (e : Engine μ σ) (m : Module) : List Event :=
  match e.compile m.bytes with
  | .error _ => []
  | .ok compiled => (e.instantiate compiled).1

/-- The answer of the function of that name, if there is one without arguments and results. -/
def attempt? (e : Engine μ σ) (s : σ) (name : String) : Option (Reply σ Unit) :=
  match e.procedure s name with
  | .present => some (e.callProcedure s name)
  | _ => none

/-- The state after the function of that name was called, if there is one. -/
def after (e : Engine μ σ) (s : σ) (name : String) : σ := (e.attempt? s name).elim s (·.state)

/-- What is posted while the function of that name runs, if there is one. -/
def said (e : Engine μ σ) (s : σ) (name : String) : List Event :=
  (e.attempt? s name).elim [] (·.events)

/-- The init function refuses an instance in the state `s`: it has another signature, or its call
does not return. -/
def Refuses (e : Engine μ σ) (s : σ) (text : String) : Prop :=
  (∃ summary, e.procedure s initName = .mismatched summary text) ∨
    ∃ halt, e.procedure s initName = .present ∧
      (e.callProcedure s initName).outcome = .error halt ∧ text = halt.message

end Engine

/-- What became of the start function of an instance in the state `s`. -/
def Startup.Fits (e : Engine μ σ) (s : σ) : Startup → Prop
  | .skipped => e.procedure s startName = .absent
  | .completed =>
    e.procedure s startName = .present ∧ (e.callProcedure s startName).outcome = .ok ()
  | .exited =>
    e.procedure s startName = .present ∧ (e.callProcedure s startName).outcome = .error (.exit 0)
  | .warned message =>
    (∃ full, e.procedure s startName = .mismatched message full) ∨
      ∃ halt, e.procedure s startName = .present ∧
        (e.callProcedure s startName).outcome = .error halt ∧ halt ≠ .exit 0 ∧
        message = halt.message

namespace Bootstrap

variable {e : Engine μ σ} {m : Module} {s : σ} {generation : Nat}

theorem start_eq (e : Engine μ σ) (s : σ) :
    start e s = (e.after s startName, e.said s startName, (start e s).2.2) := by
  unfold start Engine.after Engine.said Engine.attempt?
  cases e.procedure s startName with
  | absent => rfl
  | mismatched summary full => rfl
  | present =>
    rcases e.callProcedure s startName with ⟨s', events, halt | _⟩
    · simp only [Option.elim_some]
      split <;> simp_all
    · rfl

/-- Exactly one thing became of the start function. -/
theorem startup_eq_iff (e : Engine μ σ) (s : σ) (startup : Startup) :
    (start e s).2.2 = startup ↔ startup.Fits e s := by
  unfold start
  cases looked : e.procedure s startName with
  | absent => cases startup <;> simp [Startup.Fits, looked]
  | mismatched summary full => cases startup <;> simp [Startup.Fits, looked, eq_comm]
  | present =>
    rcases called : e.callProcedure s startName with ⟨s', events, halt | _⟩
    · by_cases exit : halt = .exit 0
      · cases startup <;> simp [Startup.Fits, looked, called, exit]
      · cases startup <;> simp [Startup.Fits, looked, called, exit, eq_comm]
    · cases startup <;> simp [Startup.Fits, looked, called]

theorem init_eq (e : Engine μ σ) (s : σ) :
    init e s = (e.after s initName, e.said s initName, (init e s).2.2) := by
  unfold init Engine.after Engine.said Engine.attempt?
  cases e.procedure s initName with
  | absent => rfl
  | mismatched summary full => rfl
  | present => rcases e.callProcedure s initName with ⟨s', events, halt | _⟩ <;> rfl

theorem init_eq_error_iff (e : Engine μ σ) (s : σ) (fault : InitFault) :
    (init e s).2.2 = .error fault ↔ ∃ text, fault = .userInit text ∧ e.Refuses s text := by
  unfold init Engine.Refuses
  cases looked : e.procedure s initName with
  | absent => simp
  | mismatched summary full => simp [eq_comm]
  | present =>
    rcases called : e.callProcedure s initName with ⟨s', events, halt | _⟩ <;> simp [eq_comm]

theorem sampler_eq_true_iff (e : Engine μ σ) (s : σ) :
    (sampler e s).2 = true ↔ e.sampler s sampleName = .present := by
  unfold sampler
  cases e.sampler s sampleName <;> simp

/-! ## The whole bootstrap -/

/-- Without an instance nothing comes after the attempt to make one. -/
theorem run_of_not_made {text : String} (h : e.made m = .error text) :
    run e m generation = (e.early m, .error (.instantiation text)) := by
  unfold Engine.made at h
  unfold run Engine.early
  cases compiled : e.compile m.bytes with
  | error fault =>
    rw [compiled] at h
    cases h
    rfl
  | ok c =>
    rcases instantiated : e.instantiate c with ⟨early, fault | s⟩ <;>
      simp only [compiled, instantiated] at h <;> cases h
    simp only [instantiated]

/-- The start function is called in the state that instantiating left, the init function in the one
that the start function left, and the function for samples is looked up after that. -/
theorem run_of_made (h : e.made m = .ok s) :
    run e m generation =
      let ready := e.after (e.after s startName) initName
      let soFar := e.early m ++ e.said s startName ++ remarks (start e s).2.2 ++
        e.said (e.after s startName) initName
      match (init e (e.after s startName)).2.2 with
      | .error fault => (soFar, .error fault)
      | .ok () =>
        (soFar ++ (sampler e ready).1,
          .ok ⟨ready, generation, (start e s).2.2, (sampler e ready).2⟩) := by
  unfold Engine.made at h
  unfold run Engine.early
  cases compiled : e.compile m.bytes with
  | error fault =>
    rw [compiled] at h
    cases h
  | ok c =>
    rcases instantiated : e.instantiate c with ⟨early, fault | s⟩ <;>
      simp only [compiled, instantiated] at h <;> cases h
    simp only [instantiated]
    rw [start_eq]
    simp only
    rw [init_eq]
    cases (init e (e.after s startName)).2.2 <;> rfl

theorem run_eq_error_iff (h : e.made m = .ok s) (fault : InitFault) :
    (run e m generation).2 = .error fault ↔
      ∃ text, fault = .userInit text ∧ e.Refuses (e.after s startName) text := by
  rw [← init_eq_error_iff, run_of_made h]
  cases (init e (e.after s startName)).2.2 <;> simp

theorem run_eq_ok_iff (h : e.made m = .ok s) (i : Instance σ) :
    (run e m generation).2 = .ok i ↔
      (∀ text, ¬ e.Refuses (e.after s startName) text) ∧
        i.state = e.after (e.after s startName) initName ∧ i.generation = generation ∧
        i.startup.Fits e s ∧ (i.hasSampler = true ↔ e.sampler i.state sampleName = .present) := by
  have verdict := init_eq_error_iff e (e.after s startName)
  rw [run_of_made h]
  cases said : (init e (e.after s startName)).2.2 with
  | error fault =>
    obtain ⟨text, -, refuses⟩ := (verdict fault).mp said
    simp only [reduceCtorEq, false_iff, not_and]
    intro agrees
    exact absurd refuses (agrees text)
  | ok _ =>
    have agrees : ∀ text, ¬ e.Refuses (e.after s startName) text := by
      intro text refuses
      have refused := (verdict (.userInit text)).mpr ⟨text, rfl, refuses⟩
      rw [said] at refused
      cases refused
    obtain ⟨state, number, startup, hasSampler⟩ := i
    simp only [Except.ok.injEq, Instance.mk.injEq, startup_eq_iff]
    constructor
    · rintro ⟨rfl, rfl, fits, rfl⟩
      exact ⟨agrees, rfl, rfl, fits, sampler_eq_true_iff e _⟩
    · rintro ⟨-, rfl, rfl, fits, samples⟩
      exact ⟨rfl, rfl, fits, Bool.eq_iff_iff.mpr ((sampler_eq_true_iff e _).trans samples.symm)⟩

/-- Text comes in the order in which guest code ran, with the remarks about a function right after
it. -/
theorem run_events (h : e.made m = .ok s) :
    ∃ startup : Startup, startup.Fits e s ∧
      (run e m generation).1 =
        e.early m ++ e.said s startName ++ remarks startup ++ e.said (e.after s startName) initName ++
          match (run e m generation).2 with
          | .ok i => (sampler e i.state).1
          | .error _ => [] := by
  refine ⟨_, (startup_eq_iff e s _).mp rfl, ?_⟩
  rw [run_of_made h]
  cases (init e (e.after s startName)).2.2 with
  | error fault => simp
  | ok _ => simp

end Bootstrap

/-! ## The guest code that runs -/

/-- A piece of guest code that runs in one go. -/
inductive Part where
  /-- What a module does when it is instantiated. -/
  | instantiation
  | procedure (name : String)
  | sampler
  deriving DecidableEq, Repr

namespace Part

/-- An event that is posted for no other piece of guest code, and is no text. -/
def event : Part → Event
  | .instantiation => .ready
  | .procedure name => .error name
  | .sampler => .perf .zero .zero 0 0

def ofEvent? : Event → Option Part
  | .ready => some .instantiation
  | .error name => some (.procedure name)
  | .perf _ _ _ _ => some .sampler
  | .log _ => none

@[simp] theorem ofEvent?_event (p : Part) : ofEvent? p.event = some p := by cases p <;> rfl

theorem filterMap_of_allText {events : List Event} (h : AllText events) :
    events.filterMap ofEvent? = [] := by
  refine List.filterMap_eq_nil_iff.mpr fun event he => ?_
  have text := h event he
  cases event with
  | log text => rfl
  | _ => cases text

end Part

namespace Engine

/-- The engine whose guests do as those of `e` and post that they run, and nothing else. -/
def announcing (e : Engine μ σ) : Engine μ σ :=
  { e with
    instantiate := fun compiled => ([Part.instantiation.event], (e.instantiate compiled).2)
    callProcedure := fun s name =>
      { e.callProcedure s name with events := [(Part.procedure name).event] }
    callSampler := fun s name =>
      { e.callSampler s name with events := [Part.sampler.event] } }

/-- The attempt to make an instance, if it comes to running guest code. -/
def making (e : Engine μ σ) (m : Module) : List Part :=
  match e.compile m.bytes with
  | .error _ => []
  | .ok _ => [.instantiation]

/-- The function of that name, if there is one without arguments and results. -/
def named (e : Engine μ σ) (s : σ) (name : String) : List Part :=
  if e.procedure s name = .present then [.procedure name] else []

theorem announcing_made (e : Engine μ σ) (m : Module) : e.announcing.made m = e.made m := rfl

theorem announcing_early (e : Engine μ σ) (m : Module) :
    (e.announcing.early m).filterMap Part.ofEvent? = e.making m := by
  unfold early making announcing
  cases e.compile m.bytes <;> simp

theorem announcing_attempt? (e : Engine μ σ) (s : σ) (name : String) :
    e.announcing.attempt? s name = (e.attempt? s name).map fun r =>
      { r with events := [(Part.procedure name).event] } := by
  unfold attempt? announcing
  simp only
  cases e.procedure s name <;> rfl

theorem announcing_after (e : Engine μ σ) (s : σ) (name : String) :
    e.announcing.after s name = e.after s name := by
  unfold after
  rw [announcing_attempt?]
  cases e.attempt? s name <;> rfl

theorem announcing_said (e : Engine μ σ) (s : σ) (name : String) :
    (e.announcing.said s name).filterMap Part.ofEvent? = e.named s name := by
  unfold said named
  rw [announcing_attempt?]
  unfold attempt?
  cases e.procedure s name <;> simp

end Engine

namespace Bootstrap

variable {e : Engine μ σ} {m : Module} {s : σ} {generation : Nat}

/-- The guest code that a bootstrap runs, in its order. -/
def ran (e : Engine μ σ) (m : Module) (generation : Nat) : List Part :=
  (run e.announcing m generation).1.filterMap Part.ofEvent?

theorem announcing_startup (e : Engine μ σ) (s : σ) :
    (start e.announcing s).2.2 = (start e s).2.2 :=
  (startup_eq_iff e.announcing s _).mpr ((startup_eq_iff e s _).mp rfl)

theorem announcing_init (e : Engine μ σ) (s : σ) :
    (init e.announcing s).2.2 = (init e s).2.2 := by
  unfold init Engine.announcing
  simp only
  cases e.procedure s initName with
  | absent => rfl
  | mismatched summary full => rfl
  | present => rcases e.callProcedure s initName with ⟨s', events, halt | _⟩ <;> rfl

/-- Nothing comes of a bootstrap in another way because guests announce themselves. -/
theorem announcing_run (e : Engine μ σ) (m : Module) (generation : Nat) :
    (run e.announcing m generation).2 = (run e m generation).2 := by
  cases made : e.made m with
  | error text => rw [run_of_not_made made, run_of_not_made ((e.announcing_made m).trans made)]
  | ok s =>
    rw [run_of_made made, run_of_made ((e.announcing_made m).trans made)]
    simp only [Engine.announcing_after, announcing_startup, announcing_init]
    cases (init e (e.after s startName)).2.2 <;> rfl

theorem ran_of_not_made {text : String} (h : e.made m = .error text) :
    ran e m generation = e.making m := by
  unfold ran
  rw [run_of_not_made ((e.announcing_made m).trans h), Engine.announcing_early]

theorem ran_of_made (h : e.made m = .ok s) :
    ran e m generation =
      e.making m ++ e.named s startName ++ e.named (e.after s startName) initName := by
  unfold ran
  rw [run_of_made ((e.announcing_made m).trans h)]
  simp only [Engine.announcing_after, announcing_startup, announcing_init]
  have remarked := Part.filterMap_of_allText (remarks_isText (start e s).2.2)
  cases (init e (e.after s startName)).2.2 with
  | error fault =>
    simp [List.filterMap_append, Engine.announcing_early, Engine.announcing_said, remarked]
  | ok _ =>
    simp [List.filterMap_append, Engine.announcing_early, Engine.announcing_said, remarked,
      Part.filterMap_of_allText (sampler_isText _ _)]

/-! ## Order and verdict -/

/-- A bootstrap instantiates, then calls the start function if there is one, then the init function
if there is one, each once and in the state that the one before it left, and no other guest code.
It fails for want of an instance, or if the init function refuses, and for no other reason. -/
theorem bootstrap_in_order (e : Engine μ σ) (m : Module) (generation : Nat) :
    (run e.announcing m generation).2 = (run e m generation).2 ∧
    (∀ text, (run e m generation).2 = .error (.instantiation text) ↔ e.made m = .error text) ∧
    (∀ text, (run e m generation).2 = .error (.userInit text) ↔
      ∃ s, e.made m = .ok s ∧ e.Refuses (e.after s startName) text) ∧
    (∀ text, e.made m = .error text →
      ran e m generation = e.making m ∧ (run e m generation).1 = e.early m) ∧
    ∀ s, e.made m = .ok s →
      ran e m generation =
        .instantiation :: (e.named s startName ++ e.named (e.after s startName) initName) ∧
      (∀ i, (run e m generation).2 = .ok i ↔
        (∀ text, ¬ e.Refuses (e.after s startName) text) ∧
          i.state = e.after (e.after s startName) initName ∧ i.generation = generation ∧
          i.startup.Fits e s ∧ (i.hasSampler = true ↔ e.sampler i.state sampleName = .present)) ∧
      ∃ startup : Startup, startup.Fits e s ∧
        (run e m generation).1 =
          e.early m ++ e.said s startName ++ remarks startup ++
            e.said (e.after s startName) initName ++
            match (run e m generation).2 with
            | .ok i => (sampler e i.state).1
            | .error _ => [] := by
  refine ⟨announcing_run e m generation, fun text => ?_, fun text => ?_, fun text h => ?_,
    fun s h => ⟨?_, run_eq_ok_iff h, run_events h⟩⟩
  · cases made : e.made m with
    | error fault => simp [run_of_not_made made]
    | ok s => simp [run_eq_error_iff made]
  · cases made : e.made m with
    | error fault => simp [run_of_not_made made]
    | ok s => simp [run_eq_error_iff made]
  · rw [ran_of_not_made h, run_of_not_made h]
    exact ⟨rfl, rfl⟩
  · have making : e.making m = [.instantiation] := by
      unfold Engine.made at h
      unfold Engine.making
      cases compiled : e.compile m.bytes with
      | error text => rw [compiled] at h; cases h
      | ok c => rfl
    rw [ran_of_made h, making, List.append_assoc, List.singleton_append]

/-- The engine of guests that count their calls. The start function traps, the init function
returns. -/
def counting : Engine Unit Nat where
  compile _ := .ok ()
  instantiate _ := ([], .ok 0)
  memorySize _ := 0
  procedure _ name := if name = startName ∨ name = initName then .present else .absent
  callProcedure s name :=
    ⟨s + 1, [.log s!"call {s}"], if name = startName then .error (.trap "trapped") else .ok ()⟩
  sampler _ _ := .present
  callSampler s _ := ⟨s + 1, [], .ok .zero⟩

/-- The init function is called in the state that a start function which trapped has left. -/
theorem init_after_trapped_start :
    counting.made emptyModule = .ok 0 ∧
      ran counting emptyModule 7 = [.instantiation, .procedure "_start", .procedure "hear_c_init"] ∧
      (run counting emptyModule 7).2 = .ok ⟨2, 7, .warned "trapped", true⟩ := by
  have made : counting.made emptyModule = .ok 0 := rfl
  obtain ⟨order, ready, -⟩ := (bootstrap_in_order counting emptyModule 7).2.2.2.2 0 made
  refine ⟨made, order, (ready _).mpr ⟨fun text => ?_, rfl, rfl, ?_, by decide⟩⟩
  · rintro (⟨summary, looked⟩ | ⟨halt, -, outcome, -⟩)
    · cases looked
    · cases outcome
  · exact .inr ⟨.trap "trapped", rfl, rfl, by decide, rfl⟩

end Bootstrap

end LiveSound.Guest
