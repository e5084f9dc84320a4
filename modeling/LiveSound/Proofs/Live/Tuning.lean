import LiveSound.Cli.Build
import LiveSound.Live.Session
import LiveSound.Proofs.Live.Loading
import LiveSound.Proofs.Playback.Filling
import LiveSound.Proofs.Settings.RateFlags
import LiveSound.Proofs.World.Runs

/-!
# The rate that is compiled for and the rate that is played

A module is told by a flag at which rate it is compiled, and the processor that plays it is made for
a rate. Both come from the settings and neither changes: not while a session plays and loads again
what was saved, and not while a module is rendered.
-/

namespace LiveSound

open Guest (Engine)

variable {μ σ : Type}

/-! ## Processors keep their rate -/

namespace Playback

theorem Deck.render_sampleRate (e : Engine μ σ) (channels frames blocks : Nat) (d : Deck σ) :
    (d.render e channels frames blocks).1.driver.sampleRate = d.driver.sampleRate := by
  induction blocks generalizing d with
  | zero => rfl
  | succ blocks ih =>
    exact (ih _).trans (Driver.process_sampleRate e d.driver d.handoff false 0 _)

end Playback

namespace Processor

theorem conclude_driver (p : Processor σ) (result : Except Guest.InitFault (Guest.Instance σ)) :
    (p.conclude result).1.deck.driver = p.deck.driver := by
  unfold conclude
  cases result with
  | error fault => rfl
  | ok i =>
    simp only
    split <;> rfl

theorem install_driver (e : Engine μ σ) (p : Processor σ) (m : Module) (generation : Nat) :
    (p.install e m generation).1.deck.driver = p.deck.driver := conclude_driver ..

theorem finish_driver (e : Engine μ σ) (p : Processor σ) (generation : Nat) :
    (p.finish e generation).1.deck.driver = p.deck.driver := by
  unfold finish
  split
  · rfl
  · exact install_driver ..

theorem finishAll_driver (e : Engine μ σ) (generations : List Nat) (p : Processor σ) :
    (finishAll e generations p).1.deck.driver = p.deck.driver := by
  induction generations generalizing p with
  | nil => rfl
  | cons generation rest ih => exact (ih _).trans (finish_driver ..)

theorem receiveAll_driver (n : Nat) (p : Processor σ) :
    (receiveAll n p).deck.driver = p.deck.driver := by
  induction n generalizing p with
  | zero => rfl
  | succ n ih =>
    refine (ih _).trans ?_
    unfold receive
    split <;> rfl

theorem serve_driver (e : Engine μ σ) (p : Processor σ) :
    (p.serve e).1.deck.driver = p.deck.driver :=
  (finishAll_driver ..).trans (receiveAll_driver ..)

theorem deliver_driver (p : Processor σ) (result : Option Compile.Result) :
    (p.deliver result).deck.driver = p.deck.driver := by
  unfold deliver
  split
  · unfold send
    split <;> rfl
  · rfl

end Processor

/-! ## Sessions -/

namespace Live

namespace Loader

/-- What a load does to the processor is to deliver a result to it, if anything. -/
theorem load_processor (logger : Log.Logger) (options : Compile.Options)
    (report : String → StateM World Unit) (path : String) (l : Loader σ) (w : World) :
    ∃ result, (l.load logger options report path w).1.1.processor = l.processor.deliver result := by
  rw [load_eq]
  exact ⟨_, rfl⟩

end Loader

namespace Session

/-- What a session meets with. -/
inductive Happening where
  /-- The device plays some blocks. -/
  | blocks (channels frames count : Nat)
  /-- The watcher gets notices. -/
  | notices (seen : Watch.Watcher → List Watch.Notice)

def meets (e : Engine μ σ) (s : Session σ) : Happening → StateM World (Session σ)
  | .blocks channels frames count => s.play e channels frames count
  | .notices seen => s.saved e seen

def runs (e : Engine μ σ) : List Happening → Session σ → StateM World (Session σ)
  | [], s => pure s
  | happening :: later, s => do runs e later (← s.meets e happening)

/-- It compiles with the options of the settings, and plays at their rate. -/
structure Tuned (settings : Settings) (s : Session σ) : Prop where
  options : s.options = settings.compileOptions
  rate : s.loader.processor.deck.driver.sampleRate = settings.sampleRate

variable {settings : Settings} {s : Session σ} {w : World}

theorem Tuned.load (h : s.Tuned settings) (e : Engine μ σ) (path : String) :
    (s.load (m := StateM World) e path w).1.1.Tuned settings := by
  obtain ⟨result, delivered⟩ := s.loader.load_processor s.logger s.options
    (Session.report s.logger) path w
  refine ⟨h.options, ?_⟩
  refine Eq.trans (congrArg Playback.Driver.sampleRate (Processor.serve_driver e _)) ?_
  refine Eq.trans (congrArg (fun p => p.deck.driver.sampleRate) delivered) ?_
  rw [Processor.deliver_driver, h.rate]

theorem Tuned.play (h : s.Tuned settings) (e : Engine μ σ) (channels frames count : Nat) :
    (s.play (m := StateM World) e channels frames count w).1.Tuned settings :=
  ⟨h.options, (Playback.Deck.render_sampleRate e channels frames count _).trans h.rate⟩

theorem Tuned.reload (h : s.Tuned settings) (e : Engine μ σ) (path : String) :
    (s.reload (m := StateM World) e path w).1.Tuned settings :=
  h.load e path

theorem Tuned.saved (h : s.Tuned settings) (e : Engine μ σ)
    (seen : Watch.Watcher → List Watch.Notice) :
    (s.saved (m := StateM World) e seen w).1.Tuned settings := by
  unfold Session.saved
  cases s.watcher with
  | none => exact h
  | some watcher =>
    simp only
    rcases watcher.next 0 (seen watcher) with ⟨watcher, none | path⟩
    all_goals
      have kept : Tuned settings { s with watcher := some watcher } := ⟨h.options, h.rate⟩
    · exact kept
    · exact kept.reload (w := w) e path

theorem Tuned.runs (e : Engine μ σ) (happenings : List Happening) (h : s.Tuned settings) :
    (s.runs e happenings w).1.Tuned settings := by
  induction happenings generalizing s w with
  | nil => exact h
  | cons happening later ih =>
    cases happening with
    | blocks channels frames count => exact ih (h.play (w := w) e channels frames count)
    | notices seen => exact ih (h.saved (w := w) e seen)

open World (Yields yields_any yields_pure yields_throw yields_inquire)

theorem Tuned.await (h : s.Tuned settings) (entry : String) (watch : Bool) :
    Yields (Tuned settings) (s.await settings entry watch) := by
  unfold Session.await
  split
  · refine yields_any.bind fun watcher _ => ?_
    exact yields_any.bind fun _ _ => yields_pure ⟨h.options, h.rate⟩
  · exact yields_any.bind fun _ _ => yields_pure h

theorem tuned_start (e : Engine μ σ) (logger : Log.Logger) (settings : Settings)
    (entry : String) (watch : Bool) :
    Yields (Tuned settings) (start e logger settings entry watch) := by
  unfold start
  refine yields_any.bind fun cache _ => ?_
  refine yields_any.bind fun opened _ => ?_
  have loaded : Yields (fun x => x.1.Tuned settings) (inquire (load (m := StateM World) e entry
      ⟨logger, settings.compileOptions, ⟨.start (settings.dispatcherConfig cache),
        .fresh settings.sampleRate⟩, none⟩)) :=
    yields_inquire fun w => Tuned.load ⟨rfl, rfl⟩ e entry
  simp only
  split
  · exact Yields.bind (yields_throw (P := fun _ => False)) nofun
  · refine yields_any.bind fun _ _ => loaded.bind fun ⟨s, outcome⟩ tuned => ?_
    have waits := tuned.await entry watch
    cases outcome with
    | ok => exact waits
    | error fault =>
      simp only
      split
      · exact Yields.bind (yields_throw (P := fun _ => False)) nofun
      · exact yields_any.bind fun _ _ => waits

end Session

end Live

/-! ## Renderings -/

namespace Cli

open World (Yields yields_any yields_pure yields_throw)

/-- A processor plays at the rate of the settings. -/
def PlaysAtRate (settings : Settings) (p : Processor σ) : Prop :=
  p.deck.driver.sampleRate = settings.sampleRate

theorem installed_rate (e : Engine μ σ) (logger : Log.Logger) (settings : Settings)
    (artifact : Module) :
    Yields (PlaysAtRate settings) (installed (m := StateM World) e logger settings artifact) := by
  have kept := Processor.install_driver e
    { Processor.fresh settings.sampleRate with latest := 1 } artifact 1
  unfold installed
  refine yields_any.bind fun _ _ => ?_
  split
  · exact yields_throw
  · exact yields_pure (congrArg Playback.Driver.sampleRate kept)

end Cli

/-! ## Settings -/

/-- What compilers are told of the sample rate, and the rate of the processors. -/
structure Settings.TellsRate (e : Engine μ σ) (settings : Settings) : Prop where
  own_first : settings.ownFlags <+: settings.flags
  /-- A project that defines the macro has it as it was defined. -/
  own_kept : (∃ flag ∈ settings.ownFlags, definesRate flag = true) →
    settings.flags = settings.ownFlags
  /-- A flag that only looks as if it defined the macro keeps it undefined. -/
  defined_iff : (∃ flag ∈ settings.flags, definesRate flag = true) ↔
    (∃ flag ∈ settings.ownFlags, definesRate flag = true) ∨
      ∀ flag ∈ settings.ownFlags, resemblesRate flag = false
  only : (∀ flag ∈ settings.ownFlags, definesRate flag = false) →
    ∀ flag ∈ settings.flags, definesRate flag = true → flag = settings.rateFlag
  value : ∃ value, settings.rateFlag = "-DSAMPLE_RATE=" ++ value ∧
    (∀ c ∈ value.toList, c.isDigit = true) ∧
    Nat.ofDigitChars 10 value.toList 0 = settings.sampleRate
  bounds : 8000 ≤ settings.sampleRate ∧ settings.sampleRate ≤ 192000
  /-- A session that was started, whatever it met with since. -/
  live : ∀ logger entry watch happenings, World.Yields
    (fun s => ∀ w, (Live.Session.runs e happenings s w).1.Tuned settings)
    (Live.Session.start e logger settings entry watch)
  /-- A processor that has installed a module, whatever was rendered since. -/
  rendered : ∀ logger artifact, World.Yields
    (fun p => ∀ channels frames blocks, Cli.PlaysAtRate settings
      { p with deck := (p.deck.render e channels frames blocks).1 })
    (Cli.installed e logger settings artifact)

/-- The flags of a project come first. The macro of the sample rate is defined, unless a flag of the
project looks as if it defined it and none does. If the project does not define it, its value can
only be the rate at which sessions and renderings play. -/
theorem Settings.compiled_rate_is_played (e : Engine μ σ) (settings : Settings) :
    settings.TellsRate e where
  own_first := List.prefix_append _ _
  own_kept := flags_of_defined
  defined_iff := Settings.defined_iff
  only none _ hf defines := eq_rateFlag_of_defines none hf defines
  value := exists_value
  bounds := sampleRate_bounds
  live logger entry watch happenings w s w' ran _ :=
    (Live.Session.tuned_start e logger settings entry watch w s w' ran).runs e happenings
  rendered logger artifact w p w' ran channels frames blocks :=
    (Playback.Deck.render_sampleRate e channels frames blocks p.deck).trans
      (Cli.installed_rate e logger settings artifact w p w' ran)

/-- The flag only begins like the one that defines the macro, and still nothing is added to it. -/
theorem Settings.lookalike_keeps_rate_undefined :
    let own := ["-DSAMPLE_RATE_HINT=1"]
    let settings : Settings := { Settings.default with
      compilation := { Settings.default.compilation with
        options := { Settings.default.compilation.options with additionalFlags := own } } }
    settings.flags = own ∧ ¬ ∃ flag ∈ settings.flags, definesRate flag = true := by
  intro own settings
  have begins : givesRate "-DSAMPLE_RATE_HINT=1" = true := by
    rw [givesRate_iff]
    decide
  have lacks : definesRate "-DSAMPLE_RATE_HINT=1" = false := by
    rw [Bool.eq_false_iff, Ne, definesRate_iff]
    decide
  refine ⟨?_, ?_⟩
  · rw [flags_eq, rateFlags_of_given List.mem_cons_self begins]
    rfl
  · rw [(compiled_rate_is_played .countdown settings).defined_iff]
    rintro (⟨flag, own, defines⟩ | unlike)
    · rw [List.mem_singleton.mp own, lacks] at defines
      cases defines
    · have same := unlike _ List.mem_cons_self
      rw [resemblesRate, begins, lacks] at same
      cases same

end LiveSound
