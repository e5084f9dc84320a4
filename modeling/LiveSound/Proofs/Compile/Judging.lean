import LiveSound.Compile.Toolchain
import LiveSound.Proofs.Compile.DiagnosticLines
import LiveSound.Proofs.Compile.Reading
import LiveSound.Proofs.Text.Lines
import LiveSound.Proofs.World.Processes

/-!
# What comes of a run of the compiler

The compiler is run once for a request. Every way in which that can go is a cause of one kind of
failure, or it delivers a module. What a refusal has to say is what the compiler reported, and it
says nothing only if the compiler did not either.
-/

namespace LiveSound.Compile

open LiveSound.Module (HasHeader fault?_eq_none_iff ofBytes_bytes ofBytes_badHeader)

/-! ## What a refusal says -/

/-- The diagnostics of one severity in what the compiler printed, printed again. -/
def reported (severity : Severity) (stderr : String) : List String :=
  ((Diagnostic.parse stderr).filter (·.severity = severity)).map Diagnostic.text

/-- The details of a refusal are the errors that the compiler reported, or all it printed if there
were none. -/
structure Explains (details : List String) (stderr : String) : Prop where
  errors : reported .error stderr ≠ [] → details = reported .error stderr
  lines : reported .error stderr = [] → details = (Text.lines stderr).filter (!Text.allBlank ·)
  nothing_iff : details = [] ↔ Text.allBlank stderr = true

theorem Diagnostic.parse_blank {stderr : String} (blank : Text.allBlank stderr = true) :
    Diagnostic.parse stderr = [] := by
  have newline : Text.isBlank '\n' = true := rfl
  rw [Text.allBlank, ← Text.all_pieces newline, List.all_eq_true] at blank
  refine List.filterMap_eq_nil_iff.mpr fun line mem => Option.eq_none_iff_forall_ne_some.mpr ?_
  intro d read
  -- A line that tells a diagnostic has a colon in it, which is not blank.
  obtain ⟨f, chars, -⟩ := Diagnostic.ofLine?_eq_some.mp read
  have blankLine := blank line mem
  rw [← Text.all_dropReturn rfl, chars, List.all_eq_true] at blankLine
  have colon : ':' ∈ f.chars := by simp [Diagnostic.Fields.chars]
  exact absurd (blankLine ':' colon) (by decide)

theorem nonblank_lines_eq_nil_iff (stderr : String) :
    (Text.lines stderr).filter (!Text.allBlank ·) = [] ↔ Text.allBlank stderr = true := by
  rw [Text.allBlank_iff_lines, List.filter_eq_nil_iff]
  simp only [Bool.not_eq_true', Bool.not_eq_false]

theorem explains_details (stderr : String) :
    Explains (Toolchain.details (Diagnostic.parse stderr) stderr) stderr := by
  unfold Toolchain.details
  split
  next none =>
    exact ⟨fun some => absurd none some, fun _ => rfl, nonblank_lines_eq_nil_iff stderr⟩
  next present =>
    refine ⟨fun _ => rfl, fun none => absurd none present, fun none => absurd none present, ?_⟩
    intro blank
    rw [Diagnostic.parse_blank blank]
    rfl

/-- A compile with a toolchain that is ready, and the programs as it finds them. -/
structure Commission where
  settings : ToolchainSettings
  assets : Assets
  request : Request
  workshop : Workshop

namespace Commission

variable (c : Commission)

def run : Result × Workshop :=
  Toolchain.runCompiler (m := StateM Workshop) c.settings c.assets c.request c.workshop

/-- What is run for it. -/
def order : Invocation := Toolchain.invocation c.assets c.request

/-- How that goes. -/
def process : Process := c.workshop.behave c.workshop.runs c.order

/-- The compiler ended in time. -/
def Leaves (r : Remains) : Prop := ∃ after ≤ c.settings.timeout, c.process = .ended r after

/-- The compiler ended well, and what it left is a module as far as its header tells. -/
structure Builds (r : Remains) (bytes : Bytes) : Prop where
  left : c.Leaves r
  status : r.status = .code 0
  product : r.product = .file bytes
  header : HasHeader bytes

structure Delivers (x : Success) (r : Remains) : Prop where
  built : c.Builds r x.artifact.bytes
  output : x.output = if Text.allBlank (Utf8.lossy r.stdout) then
    s!"Compiled {x.artifact.bytes.length} bytes" else Utf8.lossy r.stdout
  warnings : x.warnings = reported .warning (Utf8.lossy r.stderr)

/-- The compiler did not end well, or left nothing. -/
structure Refuses (r : Remains) : Prop where
  left : c.Leaves r
  cause : r.status ≠ .code 0 ∨ r.product = .missing

/-- The causes of failures, and their kinds. -/
inductive Fails : FailureKind → Prop where
  | noDirectory {trouble : String} (goes : c.process = .noDirectory trouble) : Fails .compile
  | noInputs {f : OsFault} (goes : c.process = .noInputs f) : Fails .compile
  | refused {r : Remains} (refused : c.Refuses r) : Fails .compile
  | unreadable {r : Remains} {path : String} {f : OsFault} (left : c.Leaves r)
      (status : r.status = .code 0) (product : r.product = .unreadable path f) : Fails .compile
  | badHeader {r : Remains} {bytes : Bytes} (left : c.Leaves r) (status : r.status = .code 0)
      (product : r.product = .file bytes) (header : ¬ HasHeader bytes) : Fails .compile
  | endless (goes : c.process = .endless) : Fails .timeout
  | late {r : Remains} {after : Nat} (goes : c.process = .ended r after)
      (late : c.settings.timeout < after) : Fails .timeout
  | notStarted {f : OsFault} (goes : c.process = .notStarted f) : Fails .assetLoad

variable {c}

/-! ## The result for each way -/

theorem run_eq :
    c.run = (Toolchain.verdict c.assets c.settings.timeout (c.process.within c.settings.timeout),
      { c.workshop with runs := c.workshop.runs ++ [c.order] }) := rfl

theorem run_of_leaves {r : Remains} (left : c.Leaves r) : c.run.1 = Toolchain.judge r.finished := by
  obtain ⟨after, inTime, goes⟩ := left
  rw [run_eq, goes, Process.within, if_pos inTime]
  rfl

/-- A refusal says what the compiler printed. -/
theorem run_of_refuses {r : Remains} (refused : c.Refuses r) :
    c.run.1 = .failure ⟨.compile, "Compilation failed",
      Toolchain.details (Diagnostic.parse (Utf8.lossy r.stderr)) (Utf8.lossy r.stderr),
      some (Utf8.lossy r.stdout), some (Utf8.lossy r.stderr)⟩ := by
  rw [run_of_leaves refused.left, Toolchain.judge]
  rcases refused.cause with status | product
  · simp [Remains.finished, status]
  · simp [Remains.finished, product]

theorem run_of_unreadable {r : Remains} {path : String} {f : OsFault} (left : c.Leaves r)
    (status : r.status = .code 0) (product : r.product = .unreadable path f) :
    c.run.1 = .fail .compile s!"failed to read {path}: {f.message}" := by
  rw [run_of_leaves left, Toolchain.judge]
  simp [Remains.finished, status, product]

theorem run_of_badHeader {r : Remains} {bytes : Bytes} (left : c.Leaves r)
    (status : r.status = .code 0) (product : r.product = .file bytes)
    (header : ¬ HasHeader bytes) : ∃ message, c.run.1 = .fail .compile message := by
  rw [run_of_leaves left, Toolchain.judge]
  simp only [Remains.finished, status, product, decide_true]
  obtain ⟨fault, faulty⟩ := ofBytes_badHeader header
  rw [faulty]
  exact ⟨_, rfl⟩

theorem run_of_delivers {x : Success} {r : Remains} (delivers : c.Delivers x r) :
    c.run.1 = .success x := by
  have built := delivers.built
  have output := delivers.output
  have warnings := delivers.warnings
  rw [run_of_leaves built.left, Toolchain.judge]
  simp only [Remains.finished, built.status, built.product, decide_true, ofBytes_bytes]
  cases x
  simp only at output warnings
  rw [output, warnings]
  rfl

theorem run_of_fails {kind : FailureKind} (fails : c.Fails kind) :
    c.run.1.failureKind? = some kind := by
  cases fails with
  | noDirectory goes | noInputs goes | endless goes | notStarted goes =>
    rw [run_eq, goes]
    rfl
  | late goes late =>
    rw [run_eq, goes, Process.within, if_neg (Nat.not_le.mpr late)]
    rfl
  | refused refused =>
    rw [run_of_refuses refused]
    rfl
  | unreadable left status product =>
    rw [run_of_unreadable left status product]
    rfl
  | badHeader left status product header =>
    obtain ⟨message, run⟩ := run_of_badHeader left status product header
    rw [run]
    rfl

theorem Builds.exists_delivers {r : Remains} {bytes : Bytes} (built : c.Builds r bytes) :
    ∃ x, c.Delivers x r :=
  let output := if Text.allBlank (Utf8.lossy r.stdout) then s!"Compiled {bytes.length} bytes"
    else Utf8.lossy r.stdout
  ⟨⟨⟨bytes, fault?_eq_none_iff.mpr built.header⟩, output, _⟩, built, rfl, rfl⟩

/-- A module is delivered, or there is a cause not to. -/
theorem settled (c : Commission) : (∃ x r, c.Delivers x r) ∨ ∃ kind, c.Fails kind := by
  cases goes : c.process with
  | noDirectory trouble => exact .inr ⟨_, .noDirectory goes⟩
  | noInputs f => exact .inr ⟨_, .noInputs goes⟩
  | notStarted f => exact .inr ⟨_, .notStarted goes⟩
  | endless => exact .inr ⟨_, .endless goes⟩
  | ended r after =>
    by_cases inTime : after ≤ c.settings.timeout
    case neg => exact .inr ⟨_, .late goes (Nat.not_le.mp inTime)⟩
    have left : c.Leaves r := ⟨after, inTime, goes⟩
    by_cases status : r.status = .code 0
    case neg => exact .inr ⟨_, .refused ⟨left, .inl status⟩⟩
    cases product : r.product with
    | missing => exact .inr ⟨_, .refused ⟨left, .inr product⟩⟩
    | unreadable path f => exact .inr ⟨_, .unreadable left status product⟩
    | file bytes =>
      by_cases header : HasHeader bytes
      · have built : c.Builds r bytes := ⟨left, status, product, header⟩
        obtain ⟨x, delivers⟩ := built.exists_delivers
        exact .inl ⟨x, r, delivers⟩
      · exact .inr ⟨_, .badHeader left status product header⟩

/-! ## Results -/

theorem caused (c : Commission) : c.run.1.CausedBy (fun x => ∃ r, c.Delivers x r) c.Fails where
  of_delivers _ := fun ⟨_, delivers⟩ => run_of_delivers delivers
  of_fails _ := run_of_fails
  settled := c.settled

theorem isSuccess_run_iff : c.run.1.isSuccess = true ↔ ∃ r bytes, c.Builds r bytes := by
  rw [c.caused.isSuccess_iff]
  constructor
  · rintro ⟨x, r, delivers⟩
    exact ⟨r, _, delivers.built⟩
  · rintro ⟨r, bytes, built⟩
    obtain ⟨x, delivers⟩ := built.exists_delivers
    exact ⟨x, r, delivers⟩

theorem run_of_timeout (fails : c.Fails .timeout) :
    c.run.1 = .failure (.timeout c.settings.timeout) := by
  cases fails with
  | endless goes =>
    rw [run_eq, goes]
    rfl
  | late goes late =>
    rw [run_eq, goes, Process.within, if_neg (Nat.not_le.mpr late)]
    rfl

/-- All that can be told of a run of the compiler from how it goes. -/
structure Judged (c : Commission) (result : Result) (after : Workshop) : Prop where
  isSuccess_iff : result.isSuccess = true ↔ ∃ r bytes, c.Builds r bytes
  success_iff : ∀ x, result = .success x ↔ ∃ r, c.Delivers x r
  failure_iff : ∀ kind, result.failureKind? = some kind ↔ c.Fails kind
  refusal : ∀ r, c.Refuses r → ∃ details, Explains details (Utf8.lossy r.stderr) ∧
    result = .failure ⟨.compile, "Compilation failed", details, some (Utf8.lossy r.stdout),
      some (Utf8.lossy r.stderr)⟩
  timeout : c.Fails .timeout → result = .failure (.timeout c.settings.timeout)
  /-- One thing is asked to be run, and the source that it finds is the request's. -/
  runs : after.runs = c.workshop.runs ++ [c.order]
  source : c.order.inputs.lookup "user.h" = some (Utf8.encode c.request.source)

/-- The compiler is run once for a request, on its source, and the result is told by how that
goes. -/
theorem compiler_runs_are_judged (c : Commission) : c.Judged c.run.1 c.run.2 where
  isSuccess_iff := isSuccess_run_iff
  success_iff _ := c.caused.eq_success_iff
  failure_iff _ := c.caused.failureKind?_iff
  refusal _ refused := ⟨_, explains_details _, run_of_refuses refused⟩
  timeout := run_of_timeout
  runs := rfl
  source := rfl

/-- A module that is there at the last moment. -/
example (a : Assets) (r : Request) :
    let left : Remains := ⟨.code 0, [], [], .file (Module.magic ++ Module.version)⟩
    let c : Commission :=
      ⟨.ofUrl "" "", a, r, ⟨fun _ _ => .ended left Backend.toolchain.deadline, []⟩⟩
    c.run.1.isSuccess = true := rfl

end Commission

end LiveSound.Compile
