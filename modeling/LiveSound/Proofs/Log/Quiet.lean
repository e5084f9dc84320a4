import LiveSound.Log.Logger

/-!
# A quiet logger

A logger is called again and again (`Call`), and `Logger.printed` is the text that comes of it. A
quiet logger holds back the message of a debug call, but not the details that were passed with it,
which do not go through the same gate. So debug calls leave no trace exactly if none of them has
details (`quiet_log_keeps_debug_details`). All other calls print the same whether the logger is
quiet or not, but for the output of a compiler, which has a gate of its own (`print_of_not_debug`).
-/

namespace LiveSound

namespace Log

/-- A call of a logger. -/
inductive Call where
  | log (level : Level) (message : String)
  | withDetails (level : Level) (message : String) (details : List String)
  | event (e : Event)
  | compileFailure (f : Compile.Failure)
  | compileResult (r : Compile.Result)

namespace Call

def print (logger : Logger) : Call → String
  | .log level message => logger.log level message
  | .withDetails level message details => logger.withDetails level message details
  | .event e => logger.event e
  | .compileFailure f => logger.compileFailure f
  | .compileResult r => logger.compileResult r

def isDebug : Call → Bool
  | .log level _ => level = .debug
  | .withDetails level _ _ => level = .debug
  | .event e => e.lines.any (·.1 = .debug)
  | .compileFailure _ => false
  | .compileResult _ => false

def details : Call → List String
  | .withDetails _ _ details => details
  | _ => []

/-- The call without the output of a compiler, which is only for verbose loggers. -/
def muted : Call → Call
  | .compileFailure f => .compileFailure { f with stderr := none }
  | .compileResult (.failure f) => .compileResult (.failure { f with stderr := none })
  | c => c

end Call

def Logger.printed (logger : Logger) (calls : List Call) : String :=
  String.join (calls.map (·.print logger))

def shownDetails (details : List String) : String := String.join (details.map Logger.detail)

theorem shownDetails_eq_empty_iff {details : List String} :
    shownDetails details = "" ↔ details = [] := by
  constructor
  · intro h
    cases details with
    | nil => rfl
    | cons first rest =>
      have length := congrArg String.length h
      simp [shownDetails, Logger.detail] at length
  · rintro rfl
    rfl

/-! ## One call -/

section Gate

variable {logger : Logger} {level : Level}

theorem log_of_debug (quiet : logger.verbose = false) (message : String) :
    logger.log .debug message = "" := by
  simp [Logger.log, quiet]

theorem log_of_ne_debug (logger : Logger) (h : level ≠ .debug) (message : String) :
    logger.log level message = level.line message ++ "\n" := by
  simp [Logger.log, h]

/-- The lines of an event are all for debugging, or none of them is. -/
theorem levels_of_event (e : Event) :
    (∀ line ∈ e.lines, line.1 = .debug) ∨ ∀ line ∈ e.lines, line.1 ≠ .debug := by
  cases e with
  | ready => exact .inr (by simp [Event.lines])
  | error message => exact .inr (by simp [Event.lines])
  | perf average longest frames rate => exact .inl (by simp [Event.lines])
  | log text =>
    refine .inr fun line h => ?_
    obtain ⟨_, _, rfl⟩ := List.mem_map.mp h
    simp only
    split <;> decide

theorem event_eq (logger : Logger) (e : Event) :
    logger.event e = String.join (e.lines.map fun line => logger.log line.1 line.2) := rfl

theorem event_of_debug (quiet : logger.verbose = false) {e : Event}
    (h : ∀ line ∈ e.lines, line.1 = .debug) : logger.event e = "" := by
  have silent : e.lines.map (fun line => logger.log line.1 line.2) = e.lines.map fun _ => "" :=
    List.map_congr_left fun line mem => by rw [h line mem, log_of_debug quiet]
  rw [event_eq, silent]
  generalize e.lines = lines
  induction lines with
  | nil => rfl
  | cons _ _ ih => simpa using ih

theorem event_of_ne_debug (logger other : Logger) {e : Event}
    (h : ∀ line ∈ e.lines, line.1 ≠ .debug) : logger.event e = other.event e := by
  rw [event_eq, event_eq]
  refine congrArg String.join (List.map_congr_left fun line mem => ?_)
  exact (log_of_ne_debug logger (h line mem) line.2).trans
    (log_of_ne_debug other (h line mem) line.2).symm

/-- The gate for the output of a compiler. -/
theorem compileFailure_of_quiet (quiet : logger.verbose = false) (other : Logger)
    (f : Compile.Failure) :
    logger.compileFailure f = other.compileFailure { f with stderr := none } := by
  have error : ∀ message, logger.log .error message = other.log .error message := fun message =>
    (log_of_ne_debug logger (by decide) message).trans
      (log_of_ne_debug other (by decide) message).symm
  unfold Logger.compileFailure Logger.withDetails
  simp only [quiet, Bool.false_and, error]
  cases f.stderr <;> rfl

/-- A quiet logger holds back the message of a debug call and prints its details. -/
theorem print_of_debug (quiet : logger.verbose = false) {c : Call} (h : c.isDebug = true) :
    c.print logger = shownDetails c.details := by
  cases c with
  | log level message =>
    obtain rfl : level = .debug := by simpa [Call.isDebug] using h
    exact log_of_debug quiet message
  | withDetails level message details =>
    obtain rfl : level = .debug := by simpa [Call.isDebug] using h
    rw [Call.print, Logger.withDetails, log_of_debug quiet, String.empty_append]
    rfl
  | event e =>
    rcases levels_of_event e with all | none
    · exact event_of_debug quiet all
    · obtain ⟨line, mem, debug⟩ := List.any_eq_true.mp h
      exact absurd (of_decide_eq_true debug) (none line mem)
  | compileFailure f => cases h
  | compileResult r => cases h

/-- Any other call prints on a quiet logger what it prints on every logger, a compiler's output
left out. -/
theorem print_of_not_debug (quiet : logger.verbose = false) (other : Logger) {c : Call}
    (h : c.isDebug = false) : c.print logger = c.muted.print other := by
  have same : ∀ level ≠ Level.debug, logger.log level = other.log level := fun level ne =>
    funext fun message => (log_of_ne_debug logger ne message).trans
      (log_of_ne_debug other ne message).symm
  cases c with
  | log level message =>
    have ne : level ≠ .debug := by simpa [Call.isDebug] using h
    exact congrFun (same level ne) message
  | withDetails level message details =>
    have ne : level ≠ .debug := by simpa [Call.isDebug] using h
    show logger.withDetails level message details = other.withDetails level message details
    rw [Logger.withDetails, Logger.withDetails, same level ne]
  | event e =>
    refine event_of_ne_debug logger other fun line mem => ?_
    simpa using List.any_eq_false.mp h line mem
  | compileFailure f => exact compileFailure_of_quiet quiet other f
  | compileResult r =>
    cases r with
    | failure f => exact compileFailure_of_quiet quiet other f
    | success s =>
      show logger.compileResult (.success s) = other.compileResult (.success s)
      simp only [Logger.compileResult, same .warning (by decide), same .success (by decide)]

end Gate

/-! ## One call after the other -/

/-- What remains of a call on a quiet logger: the details of a debug call, or what a verbose logger
prints for any other, a compiler's output left out. -/
def Call.remains (c : Call) : String :=
  if c.isDebug then shownDetails c.details else c.muted.print ⟨true⟩

theorem printed_of_quiet {logger : Logger} (quiet : logger.verbose = false) (calls : List Call) :
    logger.printed calls = String.join (calls.map Call.remains) := by
  refine congrArg String.join (List.map_congr_left fun c _ => ?_)
  unfold Call.remains
  split
  case isTrue debug => exact print_of_debug quiet debug
  case isFalse other => exact print_of_not_debug quiet ⟨true⟩ (by simpa using other)

theorem printed_cons (logger : Logger) (c : Call) (calls : List Call) :
    logger.printed (c :: calls) = c.print logger ++ logger.printed calls := by
  rw [Logger.printed, List.map_cons, String.join_cons, Logger.printed]

theorem length_printed_filter_le (logger : Logger) (p : Call → Bool) (calls : List Call) :
    (logger.printed (calls.filter p)).length ≤ (logger.printed calls).length := by
  induction calls with
  | nil => exact Nat.le_refl _
  | cons c calls ih =>
    rw [List.filter_cons, printed_cons, String.length_append]
    split
    · rw [printed_cons, String.length_append]
      omega
    · omega

/-- Leaving the debug calls out takes their details away and nothing else. -/
theorem printed_filter_iff {logger : Logger} (quiet : logger.verbose = false) (calls : List Call) :
    logger.printed calls = logger.printed (calls.filter fun c => !c.isDebug) ↔
      ∀ c ∈ calls, c.isDebug = true → c.details = [] := by
  induction calls with
  | nil => simp
  | cons c calls ih =>
    rw [List.forall_mem_cons, ← ih, printed_cons]
    cases debug : c.isDebug with
    | false =>
      rw [List.filter_cons_of_pos (by simp [debug]), printed_cons, String.append_right_inj]
      simp
    | true =>
      rw [List.filter_cons_of_neg (by simp [debug]), print_of_debug quiet debug]
      have shorter := length_printed_filter_le logger (fun c => !c.isDebug) calls
      constructor
      · intro same
        have lengths := congrArg String.length same
        rw [String.length_append] at lengths
        have nothing : shownDetails c.details = "" := String.length_eq_zero_iff.mp (by omega)
        rw [nothing, String.empty_append] at same
        exact ⟨fun _ => shownDetails_eq_empty_iff.mp nothing, same⟩
      · rintro ⟨plain, same⟩
        rw [shownDetails_eq_empty_iff.mpr (plain rfl), String.empty_append, same]

/-- Of a debug call a quiet logger prints the details, and of any other call what a verbose one
prints, a compiler's output left out. So the text is what it would be without the debug calls
exactly if none of them has details. -/
theorem quiet_log_keeps_debug_details {logger : Logger} (quiet : logger.verbose = false)
    (calls : List Call) :
    logger.printed calls = String.join (calls.map Call.remains) ∧
      (logger.printed calls = logger.printed (calls.filter fun c => !c.isDebug) ↔
        ∀ c ∈ calls, c.isDebug = true → c.details = []) :=
  ⟨printed_of_quiet quiet calls, printed_filter_iff quiet calls⟩

/-- The detail of a message that is held back is printed between two other lines. -/
theorem detail_of_hidden_message :
    let calls : List Call :=
      [.log .debug "unseen", .withDetails .debug "hidden" ["still shown"],
        .event (.perf .zero .zero 128 48000)]
    (⟨false⟩ : Logger).verbose = false ∧
      (⟨false⟩ : Logger).printed calls = "   ↳ still shown\n" ∧
      (⟨false⟩ : Logger).printed calls ≠
        (⟨false⟩ : Logger).printed (calls.filter fun c => !c.isDebug) := by
  intro calls
  have quiet : (⟨false⟩ : Logger).verbose = false := rfl
  obtain ⟨text, kept⟩ := quiet_log_keeps_debug_details quiet calls
  refine ⟨quiet, ?_, fun same => ?_⟩
  · rw [text]
    decide
  · have plain := kept.mp same (.withDetails .debug "hidden" ["still shown"]) (by simp [calls]) rfl
    cases plain

end Log

end LiveSound
