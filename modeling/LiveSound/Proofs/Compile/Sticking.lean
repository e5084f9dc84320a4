import LiveSound.Proofs.Compile.Eras

/-!
# A session sticks to its backend

What the eras of a session come to: one call at a time looks for a backend, the backend that was
found is the one of all later calls, and what was told goes by these steps
(`backend_is_chosen_once`). A toolchain that cannot be made ready is left for its fallback, but one
whose compiler cannot be started is not (`asset_trouble_is_unstarted_compiler`).
-/

namespace LiveSound.Compile

open Dialog (told)

namespace Shared

variable {c : DispatcherConfig} {s s' : Shared} {k : Nat} {u : Visit} {failed : List Failed}

/-! ## What a session tells -/

/-- The lines that were told, oldest first. -/
def lines (s : Shared) : List String := linesOf (s.history.map (·.2))

theorem linesOf_failed (attempts : ∀ t ∈ failed, Attempt c t.asked (.error t.failure)) :
    linesOf ((failed.flatMap Failed.events).map (·.2)) =
      List.replicate failed.length (beginLine c) := by
  induction failed with
  | nil => rfl
  | cons t rest ih =>
    obtain ⟨first, others⟩ := List.forall_mem_cons.mp attempts
    have own : (Failed.events t).map (·.2) = t.asked := by
      simp [Failed.events, Function.comp_def]
    rw [List.flatMap_cons, List.map_append, linesOf_append, own, first.of_error.2.2, ih others]
    rfl

/-- A session without a backend has told the beginnings of its attempts, and some lines of the one
that is being made. -/
theorem Seeking.attempting_lines (h : Seeking c s failed) :
    ∃ k asked more r, Attempt c (asked ++ more) r ∧
      s.history = failed.flatMap Failed.events ++ asked.map (k, ·) := by
  cases turn : s.turn with
  | none =>
    obtain ⟨asked, ⟨d, r⟩, ends⟩ :=
      Dialog.exists_ends (Dispatcher.establish Dialog.tell ⟨c, none⟩)
    exact ⟨0, [], asked, r, (establish_ends ends).1, by simpa using h.between turn⟩
  | some k =>
    obtain ⟨-, rest, asked, -, -, leads, history⟩ := h.attempting k turn
    obtain ⟨more, ⟨d, r⟩, ends⟩ := Dialog.exists_ends rest
    exact ⟨k, asked, more, r, (establish_ends (leads.trans ends)).1, history⟩

/-- Since it was found nothing but the backend is asked anything. -/
theorem Settled.kind {v : Serving} {p : Past} (h : Settled c v s p) :
    ∀ e ∈ p.since, e.2 = told compilingLine ∨ v.Serves e.2.question := by
  intro e mem
  have ready := h.found.of_ok.1
  have lt := h.owner e mem
  have own : e.2 ∈ askedBy e.1 p.since := List.mem_filterMap.mpr ⟨e, mem, by simp⟩
  rcases (h.stages e.1 _ (List.getElem?_eq_getElem lt)).asked with none | ⟨answers, t, asked, leads⟩
  · rw [none] at own
    cases own
  · rw [asked] at own
    exact (List.mem_cons.mp own).imp_right
      (((Serving.asks_compile ready _).of_leads leads).1 e.2)

/-- It is the turn of a call. -/
def Chooses (s : Shared) (k : Nat) : Prop :=
  ∃ u rest, s.visits[k]? = some u ∧ u.stage = .choosing rest

theorem turn_of_chooses (reached : Reachable c s) (h : s.Chooses k) : s.turn = some k := by
  obtain ⟨u, rest, visit, stage⟩ := h
  rcases era_of_reachable reached with ⟨failed, seeking⟩ | ⟨v, p, settled⟩
  · exact (seeking.attempt_of visit stage).1
  · exact settled.turn k u rest visit stage

theorem settled_of_active (reached : Reachable c s) {v : Serving}
    (active : s.dispatcher.active = some v) : ∃ p, Settled c v s p := by
  rcases era_of_reachable reached with ⟨failed, seeking⟩ | ⟨v', p, settled⟩
  · rw [seeking.dispatcher] at active
    cases active
  · rw [settled.dispatcher] at active
    cases active
    exact ⟨p, settled⟩

theorem Settled.lines_eq {v : Serving} {p : Past} (h : Settled c v s p) :
    s.lines = List.replicate p.failed.length (beginLine c) ++ linesOf p.asked ++
      List.replicate (s.visits.countP fun u : Visit => u.stage.started) compilingLine := by
  have own : (p.asked.map (p.finder, ·)).map (·.2) = p.asked := by simp [Function.comp_def]
  rw [Shared.lines, h.history, Past.history, List.map_append, List.map_append, linesOf_append,
    linesOf_append, linesOf_failed h.failures.attempt, own, h.started]

theorem count_ready (c : DispatcherConfig) {n m : Nat} {asked : List Answered} {v : Serving}
    (found : Attempt c asked (.ok v)) :
    (List.replicate n (beginLine c) ++ linesOf asked ++ List.replicate m compilingLine).count
      readyLine = 1 := by
  have compiling : compilingLine ≠ readyLine := by decide
  obtain ⟨fallback, lines, kind⟩ := found.course_of_ok
  have none : fallback.count readyLine = 0 := by
    rcases kind with rfl | ⟨failure, b, -, rfl⟩
    · rfl
    · exact List.count_eq_zero.mpr (by simpa using (fallbackLine_ne failure b).symm)
  rw [lines]
  simp [List.count_replicate, beginLine_ne, compiling, none]

/-- A call that comes back without a backend does so with a failure, and there is none then. -/
theorem active_of_unserved (reached : Reachable c s) (step : Step s s') {result : Result}
    (after : Unserved s'.visits k result) (before : ¬ Unserved s.visits k result) :
    s'.dispatcher.active = none ∧ ∃ failure, result = .failure failure := by
  -- With a backend no call fails any more.
  have settled_eq {v : Serving} {p : Past} {failed : List Failed} (settled : Settled c v s' p)
      (same : p.failed = failed) (failures : Failures c s.visits failed) : False :=
    before ((failures.ended k result).mpr (same ▸ (settled.failures.ended k result).mp after))
  rcases era_of_reachable reached with ⟨failed, seeking⟩ | ⟨v, p, settled⟩
  · rcases seeking.step step with ⟨more, seeking'⟩ | ⟨v, p, settled', same⟩
    · obtain ⟨t, -, -, same⟩ := (seeking'.failures.ended k result).mp after
      exact ⟨by rw [seeking'.dispatcher], t.failure, same⟩
    · exact (settled_eq settled' same seeking.failures).elim
  · obtain ⟨more, settled'⟩ := settled.step step
    exact (settled_eq settled' rfl settled.failures).elim

/-- However many calls come in, whatever comes between them and whatever is answered: one call at a
time looks for a backend. A backend that was found stays, and from then on nothing but it is asked
anything. It is the selected one or, if that is a toolchain that could not be made ready, its
fallback.

A call that comes back without a backend fails and leaves the session without one. As long as there
is none, the calls that came back did so with the failures of their attempts, and the attempts were
made one after the other, each from the beginning. What was told are the beginnings of these
attempts and then the lines of one more attempt, as far as it has come. When there is a backend
these are the lines of the attempt that found it, the last of which says so and is told once in the
session; after them each call that compiles tells it once. -/
theorem backend_is_chosen_once (reached : Reachable c s) :
    (∀ j k, s.Chooses j → s.Chooses k → j = k) ∧
    (∀ v s', s.dispatcher.active = some v → Steps s s' →
      s'.dispatcher.active = some v ∧ ∃ later, s'.history = s.history ++ later ∧
        ∀ e ∈ later, e.2 = told compilingLine ∨ v.Serves e.2.question) ∧
    (∀ v, s.dispatcher.active = some v → v.backend = c.selected ∨
      (c.selected = .toolchain ∧
        some v.backend = (if c.remoteEnabled then some .remote
          else if c.localEnabled then some .local else none) ∧
        ∃ k failure preparing, preparing.map (k, ·) <:+: s.history ∧
          ((Serving.ofBackend c .toolchain).prepare (m := Dialog)).Ends preparing
            (.error failure))) ∧
    (∀ s' k result, Step s s' → Unserved s'.visits k result → ¬ Unserved s.visits k result →
      s'.dispatcher.active = none ∧ ∃ failure, result = .failure failure) ∧
    ∃ failed, Failures c s.visits failed ∧
      match s.dispatcher.active with
      | none =>
        (∀ (k : Nat) (u : Visit), s.visits[k]? = some u → u.stage = .waiting ∨
          (∃ rest, u.stage = .choosing rest) ∨ ∃ result, u.stage = .ended none result) ∧
        ∃ k asked more r, Attempt c (asked ++ more) r ∧ IsCourse c (linesOf (asked ++ more)) ∧
          s.history = failed.flatMap Failed.events ++ asked.map (k, ·) ∧
          s.lines = List.replicate failed.length (beginLine c) ++ linesOf asked
      | some v =>
        ∃ k asked since, Attempt c asked (.ok v) ∧ IsCourse c (linesOf asked) ∧
          s.history = failed.flatMap Failed.events ++ asked.map (k, ·) ++ since ∧
          (∀ (j : Nat) (u : Visit), s.visits[j]? = some u →
            u.stage.Fits c v u.request (askedBy j since) ∧
            linesOf (askedBy j since) = if u.stage.started then [compilingLine] else []) ∧
          s.lines = List.replicate failed.length (beginLine c) ++ linesOf asked ++
            List.replicate (s.visits.countP fun u : Visit => u.stage.started) compilingLine ∧
          s.lines.count readyLine = 1 := by
  refine ⟨fun j k first second => ?_, fun v s' active steps => ?_, fun v active => ?_,
    fun s' k result step => active_of_unserved reached step, ?_⟩
  · exact Option.some.inj
      ((turn_of_chooses reached first).symm.trans (turn_of_chooses reached second))
  · obtain ⟨p, settled⟩ := settled_of_active reached active
    obtain ⟨more, settled'⟩ := settled.steps steps
    refine ⟨by rw [settled'.dispatcher], more, ?_, fun e mem => ?_⟩
    · rw [settled'.history, settled.history]
      simp [Past.history]
    · exact settled'.kind e (List.mem_append_right _ mem)
  · obtain ⟨p, settled⟩ := settled_of_active reached active
    refine settled.found.of_ok.2.imp_right ?_
    rintro ⟨selected, fallback, failure, preparing, ⟨before, after, within⟩, ends⟩
    refine ⟨selected, fallback.symm, p.finder, failure, preparing, ?_, ends⟩
    rw [settled.history, Past.history, ← within]
    exact ⟨p.failed.flatMap Failed.events ++ before.map (p.finder, ·),
      after.map (p.finder, ·) ++ p.since, by simp⟩
  · rcases era_of_reachable reached with ⟨failed, seeking⟩ | ⟨v, p, settled⟩
    · refine ⟨failed, seeking.failures, ?_⟩
      simp only [seeking.dispatcher]
      obtain ⟨k, asked, more, r, attempt, history⟩ := seeking.attempting_lines
      refine ⟨fun k u visit => seeking.unserved visit, k, asked, more, r, attempt, attempt.course,
        history, ?_⟩
      have own : (asked.map (k, ·)).map (·.2) = asked := by simp [Function.comp_def]
      rw [Shared.lines, history, List.map_append, linesOf_append,
        linesOf_failed seeking.failures.attempt, own]
    · refine ⟨p.failed, settled.failures, ?_⟩
      simp only [settled.dispatcher]
      refine ⟨p.finder, p.asked, p.since, settled.found, settled.found.course, settled.history,
        fun j u visit => ?_, settled.lines_eq, ?_⟩
      · have fits := settled.stages j u visit
        exact ⟨fits, fits.lines settled.found.of_ok.1⟩
      · rw [settled.lines_eq]
        exact count_ready c settled.found

/-- A session with a toolchain that has nowhere to be downloaded from. -/
def unconfigured : DispatcherConfig where
  mode := .toolchain
  toolchainEnabled := true
  remoteEnabled := false
  localEnabled := true
  toolchain := .ofUrl "" "/cache"
  remote := ⟨"", none, 60000⟩
  localUrl := "http://localhost:3000"
  localArtifactPath := none
  localTimeout := 60000
  options := .default

/-- Two calls at the same time, of which the first one finds the fallback. -/
theorem second_call_keeps_the_fallback :
    ∃ s, Reachable unconfigured s ∧ s.visits.length = 2 ∧
      s.lines = [beginLine unconfigured,
        fallbackLine (.plain .assetLoad "toolchain CDN URL not configured") .local, readyLine,
        compilingLine, compilingLine] ∧
      ∀ s', Steps s s' → s'.dispatcher.active = some (.local unconfigured.localSettings) := by
  let r : Request := ⟨"", .default⟩
  let v : Serving := .local unconfigured.localSettings
  have found : (Dispatcher.establish Dialog.tell ⟨unconfigured, none⟩).Ends
      [told (beginLine unconfigured),
        told (fallbackLine (.plain .assetLoad "toolchain CDN URL not configured") .local),
        told readyLine] (⟨unconfigured, some v⟩, .ok v) := .ask (.ask (.ask (.refl _)))
  have chosen := establish_steps (s := .start unconfigured) (r := r) found rfl
  -- The second call comes in while the first one has its turn.
  have received := chosen.tail (.receive r)
  have obtained := received.tail (.obtain (k := 0) rfl rfl)
  have taken := obtained.tail (.take (k := 1) rfl rfl rfl)
  have obtained₂ := taken.tail (.obtain (k := 1) (d := ⟨unconfigured, some v⟩) rfl rfl)
  have announced := obtained₂.tail (.announce (k := 1) rfl rfl)
  have reached := announced.tail (.announce (k := 0) rfl rfl)
  exact ⟨_, reached, rfl, rfl, fun s' steps =>
    ((backend_is_chosen_once reached).2.1 v s' rfl steps).1⟩

/-! ## Trouble with assets -/

/-- With a fallback every attempt finds a backend. -/
theorem Failures.eq_nil {visits : List Visit} (h : Failures c visits failed)
    (fallback : c.fallback? ≠ none) : failed = [] := by
  refine List.eq_nil_iff_forall_not_mem.mpr fun t mem => ?_
  exact fallback (h.attempt t mem).of_error.2.1

theorem mem_askedBy {history : List (Nat × Answered)} {a : Answered} :
    a ∈ askedBy k history ↔ (k, a) ∈ history := by
  constructor
  · intro mem
    obtain ⟨e, there, same⟩ := List.mem_filterMap.mp mem
    split at same
    · rename_i own
      cases same
      rwa [← own]
    · cases same
  · intro mem
    exact List.mem_filterMap.mpr ⟨(k, a), mem, by simp⟩

theorem Settled.mem_run {v : Serving} {p : Past} (h : Settled c v s p)
    (fallback : c.fallback? ≠ none) {i : Invocation} {timeout : Nat} {run : Run} :
    (k, ⟨.run i timeout, run⟩) ∈ s.history ↔
      (⟨.run i timeout, run⟩ : Answered) ∈ askedBy k p.since := by
  rw [mem_askedBy, h.history, Past.history, h.failures.eq_nil fallback, List.flatMap_nil,
    List.nil_append, List.mem_append]
  refine ⟨fun mem => mem.resolve_left fun attempt => ?_, .inr⟩
  obtain ⟨a, asked, same⟩ := List.mem_map.mp attempt
  cases same
  rcases h.found.asks _ asked with ⟨line, same⟩ | fetches
  · cases same
  · exact Serving.not_fetches_run _ i timeout fetches

/-- Where there is a fallback, a toolchain that cannot be made ready is no trouble for a call: each
call that comes back had a backend. What a call can come back with is that the compiler of a ready
toolchain could not be started. It does so exactly then, and the session stays with this toolchain. -/
theorem asset_trouble_is_unstarted_compiler (reached : Reachable c s)
    (fallback : c.fallback? ≠ none) {v? : Option Serving} {result : Result}
    (visit : s.visits[k]? = some u) (ended : u.stage = .ended v? result) :
    s.dispatcher.active = v? ∧ v? ≠ none ∧
    (result.failureKind? = some .assetLoad ↔
      ∃ i timeout f, (k, ⟨.run i timeout, Run.notStarted f⟩) ∈ s.history) ∧
    (result.failureKind? = some .assetLoad → ∀ s', Steps s s' →
      s'.dispatcher.activeBackend? = some .toolchain) := by
  rcases era_of_reachable reached with ⟨failed, seeking⟩ | ⟨v, p, settled⟩
  · rcases seeking.unserved visit with waiting | ⟨rest, choosing⟩ | ⟨result', failure⟩
    · cases ended.symm.trans waiting
    · cases ended.symm.trans choosing
    · obtain ⟨t, mem, -⟩ := (seeking.failures.ended k result').mp ⟨u, visit, failure⟩
      rw [seeking.failures.eq_nil fallback] at mem
      cases mem
  have ready := settled.found.of_ok.1
  have fits := settled.stages k u visit
  rw [ended] at fits
  cases v? with
  | none =>
    obtain ⟨t, mem, -⟩ := (settled.failures.ended k result).mp ⟨u, visit, ended⟩
    rw [settled.failures.eq_nil fallback] at mem
    cases mem
  | some v' =>
    obtain ⟨rfl, answers, asked, ends⟩ := fits
    have kind := Serving.compile_kind ready ends
    refine ⟨by rw [settled.dispatcher], Option.some_ne_none _, kind.trans ?_,
      fun trouble s' steps => ?_⟩
    · have own {i : Invocation} {timeout : Nat} {run : Run} :
          (⟨.run i timeout, run⟩ : Answered) ∈ answers ↔
            (k, ⟨.run i timeout, run⟩) ∈ s.history := by
        rw [settled.mem_run fallback, asked, List.mem_cons]
        exact ⟨.inr, fun mem => mem.resolve_left nofun⟩
      simp only [own]
    · obtain ⟨i, timeout, f, mem⟩ := kind.mp trouble
      have toolchain := Serving.backend_of_serves_run
        ((Serving.asks_compile ready _).of_ends ends _ mem)
      obtain ⟨more, settled'⟩ := settled.steps steps
      rw [Dispatcher.activeBackend?, settled'.dispatcher, Option.map_some, toolchain]

/-- A session with a toolchain in its cache and the development server. -/
def cached : DispatcherConfig :=
  { unconfigured with toolchain := .ofUrl "x" "/cache" }

/-- Its compiler is there and cannot be started. -/
theorem unstarted_compiler_is_no_reason_to_fall_back :
    cached.fallback? ≠ none ∧ ∃ s u result, Reachable cached s ∧ s.visits[0]? = some u ∧
      u.stage = .ended s.dispatcher.active result ∧ result.failureKind? = some .assetLoad ∧
      ∀ s', Steps s s' → s'.dispatcher.activeBackend? = some .toolchain := by
  have fallback : cached.fallback? ≠ none := by decide
  let r : Request := ⟨"", .default⟩
  let a : Assets := Toolchain.assetsOf cached.toolchain
  let t : Toolchain := ⟨cached.toolchain, some a⟩
  have found : (Dispatcher.establish Dialog.tell ⟨cached, none⟩).Ends
      [told (beginLine cached), ⟨.makeDirectories "/cache", Except.ok ()⟩, ⟨.isFile a.clang, true⟩,
        ⟨.isFile a.linker, true⟩, ⟨.isDirectory a.sysroot, true⟩, told readyLine]
      (⟨cached, some (.toolchain t)⟩, .ok (.toolchain t)) :=
    .ask (.ask (.ask (.ask (.ask (.ask (.refl _))))))
  have chosen := establish_steps (s := .start cached) (r := r) found rfl
  have obtained := chosen.tail (.obtain (k := 0) rfl rfl)
  have announced := obtained.tail (.announce (k := 0) rfl rfl)
  have asked := announced.tail (.compile (k := 0)
    (q := .run (Toolchain.invocation a r) t.settings.timeout) rfl rfl (Run.notStarted .denied))
  have reached := asked.tail (.finish (k := 0) rfl rfl)
  obtain ⟨active, -, trouble, stays⟩ :=
    asset_trouble_is_unstarted_compiler (k := 0) reached fallback rfl rfl
  have failed := trouble.mpr ⟨_, _, .denied, List.mem_append_right _ (List.mem_singleton_self _)⟩
  exact ⟨fallback, _, _, _, reached, rfl, by rw [active], failed, stays failed⟩

end Shared

end LiveSound.Compile
