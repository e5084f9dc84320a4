import LiveSound.Cli.Run
import LiveSound.Guest.WebAssembly
import LiveSound.Proofs.Cli.NewProject
import LiveSound.Proofs.Compile.Footprint
import LiveSound.Proofs.Compile.Resuming

/-!
# Outputs of commands

`compile`, `render` and `pull` touch their output only when they have something to write. What fails
before that leaves it as it was, with the directories above it; all that may have changed is what a
compile writes for itself. `CompileFails` and `RenderFails` are the ways of having nothing to write.
-/

namespace LiveSound.Cli

open Compile (SourceClient)
open Files (destination)
open Guest (Engine)
open World (Differs Confined Fails confined_pure confined_run_pure confined_run_bind
  confined_inquire confined_attempt confined_question confined_given confined_of_kept
  fails_bind_ok run_bind run_bind_ok run_bind_eq_ok)

variable {μ σ : Type} {logger : Log.Logger} {settings : Settings} {root input : String}
  {places : Footprint} {w₀ w w₁ : World}

/-! ## Settings -/

theorem confined_say (logger : Log.Logger) (level : Log.Level) (message : String) :
    Confined places w₀ (say (m := StateM World) logger level message).run :=
  confined_inquire (World.confined_print _)

theorem confined_firstFile (paths : List String) :
    Confined places w₀ (Settings.firstFile (m := StateM World) paths) := by
  induction paths with
  | nil => exact confined_pure _
  | cons path rest ih =>
    refine Confined.bind (confined_of_kept fun _ => ⟨rfl, rfl, rfl, rfl⟩) fun there _ => ?_
    cases there with
    | true => exact confined_pure _
    | false => exact ih

theorem confined_load (root : String) :
    Confined places w₀ (Settings.load (m := StateM World) root).run := by
  unfold Settings.load
  refine confined_run_bind (confined_inquire (confined_firstFile _)) fun found => ?_
  split
  · exact confined_run_pure _
  · refine confined_run_bind (confined_attempt (confined_of_kept fun _ => ⟨rfl, rfl, rfl, rfl⟩) _)
      fun content => ?_
    exact confined_given _

/-- Settings are only read. -/
theorem confined_project (logger : Log.Logger) :
    Confined places w₀ (project (m := StateM World) logger).run := by
  unfold project
  refine confined_run_bind (confined_question fun _ => rfl) fun root => ?_
  refine confined_run_bind (confined_load root) fun settings => ?_
  refine confined_run_bind (confined_inquire (confined_firstFile _)) fun found => ?_
  split
  · exact confined_run_bind (confined_say _ _ _) fun _ => confined_run_pure _
  · exact confined_run_pure _

theorem differs_of_loaded (loaded : (project (m := StateM World) logger).run w =
    (.ok (root, settings), w₁)) : Differs places w w₁ :=
  (confined_project logger).differs (.refl places w) loaded

theorem firstFile_none {paths : List String}
    (absent : ∀ path ∈ paths, (FileSystem.isFile (m := StateM World) path w).1 = false) :
    Settings.firstFile (m := StateM World) paths w = (none, w) := by
  induction paths with
  | nil => rfl
  | cons path rest ih =>
    have here : FileSystem.isFile (m := StateM World) path w = (false, w) :=
      Prod.ext (absent path List.mem_cons_self) rfl
    unfold Settings.firstFile
    simp only [bind, StateT.bind, here]
    exact ih fun path mem => absent path (List.mem_cons_of_mem _ mem)

theorem project_run_default (logger : Log.Logger)
    (absent : ∀ name ∈ Settings.fileNames,
      (FileSystem.isFile (m := StateM World) (Path.join w.here name) w).1 = false) :
    (project (m := StateM World) logger).run w = (.ok (w.here, .default), w) := by
  have current : (inquire (FileSystem.currentDirectory (m := StateM World))).run w =
      (.ok w.here, w) := rfl
  have none : (inquire (Settings.find (m := StateM World) w.here)).run w = (.ok none, w) := by
    rw [World.inquire_run, Settings.find, firstFile_none (by simpa using absent)]
  have defaults : (Settings.load (m := StateM World) w.here).run w = (.ok .default, w) := by
    unfold Settings.load
    rw [run_bind_ok none]
    rfl
  unfold project
  rw [run_bind_ok current, run_bind_ok defaults, run_bind_ok none]
  rfl

/-! ## Compiling -/

/-- What the backend makes of a source, when it is asked for the module of an input. -/
def delivery (logger : Log.Logger) (settings : Settings) (input source : String) (w : World) :
    Compile.Result :=
  ((Compile.Dispatcher.ofConfig (settings.dispatcherConfig w.cache)).compile
    (m := StateM World) (report logger) ⟨source, settings.compileOptions⟩
    { w with printed := w.printed ++ logger.log .action s!"Compiling {input}" }).1.2

/-- There is no module of an input. -/
inductive CompileFails (logger : Log.Logger) (settings : Settings) (input : String) (w : World) :
    Prop where
  | unreadable (h : (FileSystem.readText (m := StateM World) input w).1 = none)
  | failed {source : String} {f : Compile.Failure}
    (readable : (FileSystem.readText (m := StateM World) input w).1 = some source)
    (h : delivery logger settings input source w = .failure f)

theorem CompileFails.of_refused (source : String)
    (readable : (FileSystem.readText (m := StateM World) input w).1 = some source)
    (refused : (delivery logger settings input source w).isSuccess = false) :
    CompileFails logger settings input w := by
  cases h : delivery logger settings input source w with
  | success s =>
    rw [h] at refused
    cases refused
  | failure f => exact .failed readable h

theorem readText_run (path : String) (w : World) :
    (inquire (FileSystem.readText (m := StateM World) path)).run w =
      (.ok (FileSystem.readText (m := StateM World) path w).1, w) := by
  rw [World.inquire_run]
  have read : FileSystem.readText (m := StateM World) path w =
      ((w.files.read w.directory path).toOption.bind Utf8.decode?, w) := by
    unfold FileSystem.readText
    simp only [bind, StateT.bind, FileSystem.readFile]
    cases w.files.read w.directory path <;> rfl
  rw [read]

/-- What comes of the module of an input is told by the text and by the backend. -/
theorem compileFile_result (logger : Log.Logger) (settings : Settings) (input : String)
    (w : World) :
    ((compileFile (m := StateM World) logger settings input).run w).1 =
      match (FileSystem.readText (m := StateM World) input w).1 with
      | none => .error s!"failed to read {input}"
      | some source =>
        match delivery logger settings input source w with
        | .success s => .ok s.artifact
        | .failure f => .error f.message := by
  unfold compileFile
  rw [run_bind_ok (readText_run input w)]
  cases (FileSystem.readText (m := StateM World) input w).1 with
  | none => rfl
  | some source =>
    have cache : (inquire (FileSystem.cacheDirectory (m := StateM World))).run w =
        (.ok w.cache, w) := rfl
    simp only
    rw [run_bind_ok cache, run_bind_ok (say_run logger .action _ w),
      run_bind_ok (World.inquire_run _), run_bind_ok (World.inquire_run _)]
    unfold delivery
    split <;> rename_i result <;> rw [result] <;> rfl

theorem confined_report (logger : Log.Logger) (line : String) :
    Confined places w₀ (report (m := StateM World) logger line) := World.confined_print _

section Compiling

variable (contained : w₀.unpacker.Contained)
  (covered : ((settings.dispatcherConfig w₀.cache).footprint w₀).Within places)

include contained covered

theorem confined_compileFile (logger : Log.Logger) (input : String) :
    Confined places w₀ (compileFile (m := StateM World) logger settings input).run := by
  intro w same
  unfold compileFile
  rw [run_bind_ok (readText_run input w)]
  cases (FileSystem.readText (m := StateM World) input w).1 with
  | none => exact same
  | some source =>
    have cache : (inquire (FileSystem.cacheDirectory (m := StateM World))).run w =
        (.ok w₀.cache, w) := by
      rw [← same.cache]
      rfl
    simp only
    rw [run_bind_ok cache]
    refine confined_run_bind (confined_say _ _ _) (fun _ => ?_) w same
    have compiled := Compile.Dispatcher.confined_compile contained covered (confined_report logger)
    refine confined_run_bind (confined_inquire (compiled _)) fun answer => ?_
    refine confined_run_bind (confined_inquire (World.confined_print _)) fun _ => ?_
    split
    · exact confined_run_pure _
    · exact confined_pure _

theorem CompileFails.fails (h : CompileFails logger settings input w)
    (same : Differs places w₀ w) :
    Fails places w₀ w (compileFile (m := StateM World) logger settings input) := by
  have result := compileFile_result logger settings input w
  have confined := confined_compileFile contained covered logger input
  cases h with
  | unreadable h =>
    rw [h] at result
    exact confined.fails same ⟨_, result⟩
  | failed readable h =>
    rw [readable] at result
    simp only [h] at result
    exact confined.fails same ⟨_, result⟩

end Compiling

theorem delivered_of_compileFile {artifact : Module} {w' : World}
    (ran : (compileFile (m := StateM World) logger settings input).run w = (.ok artifact, w')) :
    ∃ source s, (FileSystem.readText (m := StateM World) input w).1 = some source ∧
      delivery logger settings input source w = .success s ∧ artifact = s.artifact := by
  have result := compileFile_result logger settings input w
  rw [ran] at result
  split at result
  · cases result
  · rename_i source readable
    split at result
    · rename_i s delivered
      cases result
      exact ⟨source, s, readable, delivered, rfl⟩
    · cases result

/-! ## Outputs -/

/-- The command fails. Its output and all directories above it are as they were, but those that
were missing may have been made where the footprint has directories made. -/
def FailsLeaving (places : Footprint) (command : ExceptT String (StateM World) Unit) (out : String)
    (w : World) : Prop :=
  ∃ message w', command.run w = (.error message, w') ∧ ∀ q, q <+: destination w.directory out →
    w'.files.entry? q = w.files.entry? q ∨ places.made q ∧ World.Made w w' q

theorem failsLeaving_of_fails {command : ExceptT String (StateM World) Unit} {out : String}
    (h : Fails places w w command)
    (apart : ∀ q, places.written q → ¬ q <+: destination w.directory out) :
    FailsLeaving places command out w := by
  obtain ⟨message, w', ran, same⟩ := h
  exact ⟨message, w', ran, fun q above => same.entries q fun written => apart q written above⟩

/-- The last steps of a command that has something to write. -/
theorem read_of_output {out message : String} {bytes : Bytes} {words : String → OsFault → String}
    {words' : OsFault → String} {level : Log.Level} {w' : World}
    (ran : (makeParent (m := StateM World) out words >>= fun _ =>
      attempt (FileSystem.writeFile out bytes) words' >>= fun _ =>
      say logger level message).run w = (.ok (), w')) :
    w'.files.read w.directory out = .ok bytes := by
  obtain ⟨_, w₁, made, ran⟩ := run_bind_eq_ok ran
  obtain ⟨_, w₂, wrote, told⟩ := run_bind_eq_ok ran
  have builds : World.Builds (fun _ _ => True) (makeParent (m := StateM World) out words) :=
    World.builds_makeParent out words
  have same := (builds w).1
  rw [made] at same
  obtain ⟨files, written, rfl⟩ := World.attempt_writeFile_eq_ok wrote
  rw [say_run] at told
  cases told
  rw [← same]
  exact (Files.read_of_write written).1

/-! ### Compile -/

theorem compile_fails (contained : w.unpacker.Contained) (logger : Log.Logger) (o : CompileOptions)
    (loaded : (project (m := StateM World) logger).run w = (.ok (root, settings), w₁))
    (h : CompileFails logger (withMode settings o.mode)
      (o.input.getD ((withMode settings o.mode).entryPath root)) w₁) :
    Fails (((withMode settings o.mode).dispatcherConfig w.cache).footprint w) w w
      (compile (m := StateM World) logger o) := by
  unfold compile
  exact fails_bind_ok loaded ((h.fails contained (.refl _) (differs_of_loaded loaded)).bind _)

theorem read_of_compile {o : CompileOptions} {w' : World} (contained : w.unpacker.Contained)
    (loaded : (project (m := StateM World) logger).run w = (.ok (root, settings), w₁))
    (ran : (compile (m := StateM World) logger o).run w = (.ok (), w')) :
    ∃ source s, (FileSystem.readText (m := StateM World)
        (o.input.getD ((withMode settings o.mode).entryPath root)) w₁).1 = some source ∧
      delivery logger (withMode settings o.mode)
        (o.input.getD ((withMode settings o.mode).entryPath root)) source w₁ = .success s ∧
      w'.files.read w.directory (o.out.getD ((withMode settings o.mode).outputPath root)) =
        .ok s.artifact.bytes := by
  unfold compile at ran
  rw [run_bind_ok loaded] at ran
  obtain ⟨artifact, w₂, made, ran⟩ := run_bind_eq_ok ran
  have same := (confined_compileFile contained (.refl _) logger _).differs
    (differs_of_loaded loaded) made
  obtain ⟨source, s, readable, delivered, rfl⟩ := delivered_of_compileFile made
  rw [← same.directory]
  exact ⟨source, s, readable, delivered, read_of_output ran⟩

/-! ### Render -/

/-- There is nothing to render: no module, or none that starts. -/
inductive RenderFails (e : Engine μ σ) (logger : Log.Logger) (o : RenderOptions) (root : String)
    (settings : Settings) (w : World) : Prop where
  | source (none : o.module = none)
    (h : CompileFails logger settings (o.input.getD (settings.entryPath root)) w)
  | unreadable {path : String} {fault : OsFault} (given : o.module = some path)
    (h : w.files.read w.directory path = .error fault)
  | header {path : String} {bytes : Bytes} {fault : ModuleFault} (given : o.module = some path)
    (readable : w.files.read w.directory path = .ok bytes)
    (h : Module.ofBytes bytes = .error fault)
  /-- The first module of a processor has the generation 1. -/
  | start {artifact : Module} {w' : World} {fault : Guest.InitFault}
    (made : (renderedModule (m := StateM World) logger o root settings).run w = (.ok artifact, w'))
    (h : (Guest.Bootstrap.run e artifact 1).2 = .error fault)

theorem attempt_readFile_run (path : String) (words : OsFault → String) (w : World) :
    (attempt (FileSystem.readFile (m := StateM World) path) words).run w =
      ((w.files.read w.directory path).mapError words, w) := rfl

/-- Where files change when a module is made or read to be rendered. -/
def RenderOptions.footprint (o : RenderOptions) (settings : Settings) (w : World) : Footprint :=
  ((settings.dispatcherConfig w.cache).footprint w).given (o.module = none)

theorem confined_renderedModule (contained : w₀.unpacker.Contained) (logger : Log.Logger)
    (o : RenderOptions) (root : String) (covered : (o.footprint settings w₀).Within places) :
    Confined places w₀ (renderedModule (m := StateM World) logger o root settings).run := by
  unfold renderedModule
  split
  · rename_i none
    have tried := ((Footprint.Within.refl _).given none).trans covered
    exact confined_compileFile contained tried logger _
  · refine confined_run_bind (confined_attempt (confined_of_kept fun _ => ⟨rfl, rfl, rfl, rfl⟩) _)
      fun bytes => ?_
    split
    · exact confined_run_pure _
    · exact confined_pure _

theorem installed_fails {e : Engine μ σ} {artifact : Module} {fault : Guest.InitFault}
    (same : Differs places w₀ w) (h : (Guest.Bootstrap.run e artifact 1).2 = .error fault) :
    Fails places w₀ w (installed (m := StateM World) e logger settings artifact) := by
  have issued : (Processor.fresh settings.sampleRate : Processor σ).issue =
      (1, { Processor.fresh settings.sampleRate with latest := 1 }) := rfl
  have outcome (p : Processor σ) : p.install e artifact 1 = (p, .failed fault,
      (Guest.Bootstrap.run e artifact 1).1 ++ [.error fault.message]) := by
    unfold Processor.install
    rcases ran : Guest.Bootstrap.run e artifact 1 with ⟨posted, result⟩
    rw [ran] at h
    obtain rfl : result = .error fault := h
    rfl
  unfold installed
  rw [issued]
  simp only [outcome]
  exact fails_bind_ok (World.inquire_run _) ⟨_, _, rfl, World.confined_print _ w same⟩

theorem render_fails {e : Engine μ σ} {o : RenderOptions} (contained : w.unpacker.Contained)
    (loaded : (project (m := StateM World) logger).run w = (.ok (root, settings), w₁))
    (h : RenderFails e logger o root settings w₁) :
    Fails (o.footprint settings w) w w (render (m := StateM World) e logger o) := by
  have same : Differs (o.footprint settings w) w w₁ := differs_of_loaded loaded
  have confined := confined_renderedModule contained logger o root
    (Footprint.Within.refl (o.footprint settings w))
  unfold render
  refine fails_bind_ok loaded ?_
  cases h with
  | source none h =>
    refine Fails.bind ?_ _
    unfold renderedModule
    rw [none]
    exact h.fails contained ((Footprint.Within.refl _).given none) same
  | unreadable given h =>
    refine (confined.fails same ?_).bind _
    unfold renderedModule
    rw [given]
    simp only
    rw [run_bind, attempt_readFile_run, h]
    exact ⟨_, rfl⟩
  | header given readable h =>
    refine (confined.fails same ?_).bind _
    unfold renderedModule
    rw [given]
    simp only
    rw [run_bind, attempt_readFile_run, readable]
    simp only [Except.mapError, h]
    exact ⟨_, rfl⟩
  | start made h =>
    exact fails_bind_ok made ((installed_fails (confined.differs same made) h).bind _)

/-! ### Pull -/

theorem confined_fetchSource (client : SourceClient) :
    Confined places w₀ (client.fetch (m := StateM World)) := by
  unfold SourceClient.fetch
  refine (World.confined_fetch _ _ _ _).bind fun answer _ => ?_
  split <;> exact confined_pure _

theorem pull_fails {out : Option String} {message : String} {w₂ : World}
    (loaded : (project (m := StateM World) logger).run w = (.ok (root, settings), w₁))
    (h : (sourceClient settings).fetch (m := StateM World) w₁ = (.error message, w₂)) :
    Fails .nowhere w w (pull (m := StateM World) logger out) := by
  have same : Differs .nowhere w w₂ :=
    (confined_fetchSource (sourceClient settings)).differs (differs_of_loaded loaded) h
  unfold pull
  exact fails_bind_ok loaded (Fails.bind ⟨message, w₂, h, same⟩ _)

theorem read_of_pull {out : Option String} {w' : World}
    (loaded : (project (m := StateM World) logger).run w = (.ok (root, settings), w₁))
    (ran : (pull (m := StateM World) logger out).run w = (.ok (), w')) :
    ∃ text w₂, (sourceClient settings).fetch (m := StateM World) w₁ = (.ok text, w₂) ∧
      w'.files.read w.directory (out.getD (settings.entryPath root)) =
        .ok (Utf8.encode text) := by
  unfold pull at ran
  rw [run_bind_ok loaded] at ran
  obtain ⟨text, w₂, fetched, ran⟩ := run_bind_eq_ok ran
  have same : Differs .nowhere w w₂ :=
    (confined_fetchSource (sourceClient settings)).differs (differs_of_loaded loaded) fetched
  rw [← same.directory]
  exact ⟨text, w₂, fetched, read_of_output ran⟩

/-! ## All commands -/

/-- A command that has nothing to write leaves its output alone: `compile` and `render` if there is
no module, or none that can be read or that starts, and `pull` if the source does not come. Their
output and all directories above it are as they were, if nothing that is fetched or unpacked for the
compile is among them, except that directories which were missing on the way to the cache directory
may have been made. If `compile` succeeds its output holds the module that the backend delivered,
and if `pull` does, the text that was fetched. -/
theorem output_is_kept_or_whole (e : Engine μ σ) (contained : w.unpacker.Contained)
    (loaded : (project (m := StateM World) logger).run w = (.ok (root, settings), w₁)) :
    (∀ o : CompileOptions,
      let settings := withMode settings o.mode
      let input := o.input.getD (settings.entryPath root)
      let out := o.out.getD (settings.outputPath root)
      let config := settings.dispatcherConfig w.cache
      (config.LeavesAlone w out → CompileFails logger settings input w₁ →
        FailsLeaving (config.footprint w) (compile logger o) out w) ∧
      ∀ w', (compile (m := StateM World) logger o).run w = (.ok (), w') →
        ∃ source s, (FileSystem.readText (m := StateM World) input w₁).1 = some source ∧
          delivery logger settings input source w₁ = .success s ∧
          w'.files.read w.directory out = .ok s.artifact.bytes) ∧
    (∀ o : RenderOptions,
      (o.module = none → (settings.dispatcherConfig w.cache).LeavesAlone w o.out) →
      RenderFails e logger o root settings w₁ →
      FailsLeaving (o.footprint settings w) (render e logger o) o.out w) ∧
    ∀ out : Option String,
      let out' := out.getD (settings.entryPath root)
      (∀ message w₂, (sourceClient settings).fetch (m := StateM World) w₁ = (.error message, w₂) →
        FailsLeaving .nowhere (pull logger out) out' w) ∧
      ∀ w', (pull (m := StateM World) logger out).run w = (.ok (), w') →
        ∃ text w₂, (sourceClient settings).fetch (m := StateM World) w₁ = (.ok text, w₂) ∧
          w'.files.read w.directory out' = .ok (Utf8.encode text) := by
  refine ⟨fun o => ⟨fun apart h => ?_, fun w' ran => read_of_compile contained loaded ran⟩,
    fun o apart h => ?_, fun out => ⟨fun message w₂ h => ?_, fun w' ran => read_of_pull loaded ran⟩⟩
  · exact failsLeaving_of_fails (compile_fails contained logger o loaded h) apart
  · exact failsLeaving_of_fails (render_fails contained loaded h)
      fun q written => apart written.1 q written.2
  · exact failsLeaving_of_fails (pull_fails loaded h) fun _ => False.elim

/-- A project with a module that was built before, and an empty cache. -/
def builtProject : Files :=
  ⟨[(["src"], .directory), (["src", "user.h"], .file [0x2f] 0o644), (["build"], .directory),
    (["build", "module.wasm"], .file [7] 0o644), (["cache"], .directory),
    (["cache", "hear-c"], .directory), (["cache", "hear-c", "toolchain"], .directory)]⟩

/-- A development server that has the same module for every source. -/
def serving (_ : List Net.Request) (r : Net.Request) : Net.Exchange :=
  match r.method with
  | .get => .answered ⟨200, none, Module.magic ++ Module.version, .whole⟩
  | .post => .answered ⟨200, none, Utf8.encode "\x7b\"success\":true\x7d", .whole⟩

/-- Where nothing can be reached the module that was built and the source stay as they are, and
where there is a server its module is written. -/
theorem built_module_is_kept :
    let away := Compile.Toolchain.hosting builtProject fun _ _ => .unreachable
    let near := Compile.Toolchain.hosting builtProject serving
    let order : Option Compile.Mode → CompileOptions :=
      (⟨some "/src/user.h", some "/build/module.wasm", ·⟩)
    let tried := (withMode .default (some .toolchain)).dispatcherConfig "/cache"
    FailsLeaving (tried.footprint away) (compile ⟨false⟩ (order (some .toolchain)))
        "/build/module.wasm" away ∧
      FailsLeaving .nowhere (pull ⟨false⟩ (some "/src/user.h")) "/src/user.h" away ∧
      ∃ source s, delivery ⟨false⟩ .default "/src/user.h" source near = .success s ∧
        ((compile (m := StateM World) ⟨false⟩ (order none)).run near).2.files.read []
          "/build/module.wasm" = .ok s.artifact.bytes := by
  intro away near order tried
  have contained : away.unpacker.Contained := Archive.contained_unpacker
  have contained' : near.unpacker.Contained := Archive.contained_unpacker
  have loaded := project_run_default (w := away) ⟨false⟩ (by decide +kernel)
  have loaded' := project_run_default (w := near) ⟨false⟩ (by decide +kernel)
  obtain ⟨compiled, -, pulled⟩ := output_is_kept_or_whole (Guest.webAssembly 0 0) contained loaded
  obtain ⟨compiled', -, -⟩ := output_is_kept_or_whole (Guest.webAssembly 0 0) contained' loaded'
  refine ⟨(compiled (order (some .toolchain))).1 ?_ ?_, (pulled (some "/src/user.h")).1
    "failed to reach http://localhost:3000/source" _ (Prod.ext (by decide +kernel) rfl), ?_⟩
  · exact Compile.DispatcherConfig.leavesAlone_of_cache (by decide +kernel) (by decide +kernel)
  · exact .of_refused "/" (by decide +kernel) (by decide +kernel)
  · obtain ⟨source, s, -, delivered, written⟩ :=
      (compiled' (order none)).2 _ (Prod.ext (by decide +kernel) rfl)
    exact ⟨source, s, delivered, written⟩

/-- A project that was never built and keeps its toolchain where its output is to be. -/
def unbuiltProject : Files :=
  let settings := "\x7b\"toolchain\":\x7b\"cache_dir\":\"build/toolchain\"\x7d\x7d"
  ⟨[(["hearc.json"], .file (Utf8.encode settings) 0o644), (["src"], .directory),
    (["src", "user.h"], .file [0x2f] 0o644)]⟩

/-- A directory above the output is made before the compile fails, if the way to the cache directory
leads through it. -/
theorem output_directory_is_made_for_the_cache :
    let w := Compile.Toolchain.hosting unbuiltProject fun _ _ => .unreachable
    let settings : Settings := { Settings.default with
      toolchain := { LocalToolchainSettings.default with
        cacheDirectory := some "build/toolchain" } }
    let tried := withMode settings (some .toolchain)
    let cache := (tried.dispatcherConfig w.cache).toolchain
    ∃ w₁, (project (m := StateM World) ⟨false⟩).run w = (.ok ("/", settings), w₁) ∧
      CompileFails ⟨false⟩ tried "/src/user.h" w₁ ∧ cache.WellNamed ∧
      ¬ destination w.directory cache.cacheDirectory <+:
        destination w.directory "/build/module.wasm" ∧
      ¬ FailsLeaving .nowhere (compile ⟨false⟩ ⟨none, none, some .toolchain⟩)
        "/build/module.wasm" w := by
  intro w settings tried cache
  have loaded : (project (m := StateM World) ⟨false⟩).run w = (.ok ("/", settings), _) :=
    Prod.ext (by decide +kernel) rfl
  refine ⟨_, loaded, ?_, by decide +kernel, by decide +kernel, ?_⟩
  · exact .of_refused "/" (by decide +kernel) (by decide +kernel)
  · rintro ⟨message, w', ran, same⟩
    let after := ((compile (m := StateM World) ⟨false⟩ ⟨none, none, some .toolchain⟩).run w).2
    have made : after.files.entry? ["build"] = some .directory := by decide +kernel
    have before : w.files.entry? ["build"] = none := by decide +kernel
    unfold after at made
    rw [ran] at made
    rcases same ["build"] (by decide +kernel) with kept | ⟨never, -⟩
    · rw [kept, before] at made
      cases made
    · exact never

end LiveSound.Cli
