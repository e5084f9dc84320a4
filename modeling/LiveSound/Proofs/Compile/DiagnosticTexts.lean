import LiveSound.Proofs.Compile.DiagnosticSearch
import LiveSound.Proofs.Numeric.Decimal

/-!
# Diagnostics printed and read back

A diagnostic is printed as a line of the grammar that is read (`fields`). As long as its file name
can stand in such a line and its message ends with the line, nothing is lost; and since no such line
has a newline of its own, that holds for as many of them as are joined.
-/

namespace LiveSound.Compile.Diagnostic

open Text (dropReturn)

/-- The line that is printed tells the diagnostic and nothing else. -/
structure Printable (d : Diagnostic) : Prop where
  file_ne : d.file ≠ ""
  no_colon : ':' ∉ d.file.toList
  no_return : '\r' ∉ d.file.toList
  no_newline : '\n' ∉ d.file.toList
  trimmed : Text.trim d.file = d.file
  line : d.line < UInt32.size
  column : d.column < UInt32.size
  message : '\n' ∉ d.message.toList
  ending : d.message.toList.getLast? ≠ some '\r'

instance (d : Diagnostic) : Decidable d.Printable :=
  decidable_of_iff (d.file ≠ "" ∧ ':' ∉ d.file.toList ∧ '\r' ∉ d.file.toList ∧
      '\n' ∉ d.file.toList ∧ Text.trim d.file = d.file ∧ d.line < UInt32.size ∧
      d.column < UInt32.size ∧ '\n' ∉ d.message.toList ∧ d.message.toList.getLast? ≠ some '\r')
    ⟨fun ⟨named, colon, cr, newline, trimmed, line, column, message, ending⟩ =>
        ⟨named, colon, cr, newline, trimmed, line, column, message, ending⟩,
      fun h => ⟨h.file_ne, h.no_colon, h.no_return, h.no_newline, h.trimmed, h.line, h.column,
        h.message, h.ending⟩⟩

/-! ## The line of a diagnostic -/

def wordOf : Severity → Word
  | .error => .error
  | .warning => .warning
  | .note => .note

theorem severity_wordOf (severity : Severity) : (wordOf severity).severity = severity := by
  cases severity <;> rfl

theorem toList_label (severity : Severity) : severity.label.toList = (wordOf severity).chars := by
  cases severity <;> rfl

/-- The parts of the line that is printed. -/
def fields (d : Diagnostic) : Fields :=
  ⟨d.file.toList, digitsOf d.line, digitsOf d.column, wordOf d.severity, d.message.toList⟩

theorem toList_text (d : Diagnostic) : d.text.toList = d.fields.chars := by
  simp [text, fields, Fields.chars, toList_label]

theorem spells_digitsOf {n : Nat} (fits : n < UInt32.size) : Spells (digitsOf n) n :=
  ⟨digitsOf_ne_nil n, fun _ digit => isDigit_of_mem_digitsOf digit, value_digitsOf n, fits⟩

variable {d : Diagnostic}

namespace Printable

theorem file_chars (h : d.Printable) : ∀ c ∈ d.file.toList, c ≠ ':' ∧ c ≠ '\r' ∧ c ≠ '\n' :=
  fun _ there => ⟨fun same => h.no_colon (same ▸ there), fun same => h.no_return (same ▸ there),
    fun same => h.no_newline (same ▸ there)⟩

theorem tells (h : d.Printable) : d.fields.Tells d := by
  refine ⟨?_, h.no_colon, h.no_return, ?_, spells_digitsOf h.line, spells_digitsOf h.column,
    (severity_wordOf d.severity).symm, ?_⟩
  · simpa [fields] using h.file_ne
  · exact h.trimmed.symm
  · simp [fields]

theorem newline_notMem (h : d.Printable) : '\n' ∉ d.text.toList := by
  have formed : d.fields.Formed default :=
    ⟨h.tells.file_ne, h.file_chars,
      digitsOf_ne_nil _, fun _ digit => isDigit_of_mem_digitsOf digit,
      digitsOf_ne_nil _, fun _ digit => isDigit_of_mem_digitsOf digit, h.message⟩
  rw [toList_text]
  exact formed.newline_notMem

/-- The line ends with the message, which has no carriage return to lose. -/
theorem dropReturn_text (h : d.Printable) : dropReturn d.text.toList = d.fields.chars := by
  have kept : dropReturn d.fields.message = d.fields.message := by
    rw [Text.dropReturn_eq]
    exact if_neg h.ending
  rw [toList_text, Fields.dropReturn_chars, Fields.told, kept]

theorem ofLine?_text (h : d.Printable) : ofLine? d.text.toList = some d :=
  ofLine?_eq_some.mpr ⟨d.fields, h.dropReturn_text, h.tells⟩

end Printable

/-! ## Several diagnostics -/

/-- Lines that are joined are the lines that are read; without any there is one, which is empty. -/
theorem splitLines_join {ds : List Diagnostic} (printable : ∀ d ∈ ds, d.Printable)
    (some : ds ≠ []) :
    Text.splitLines (String.intercalate "\n" (ds.map text)).toList =
      ds.map fun d => d.text.toList := by
  have whole : ∀ line ∈ ds.map fun d => d.text.toList, '\n' ∉ line := by
    intro line mem
    obtain ⟨d, there, rfl⟩ := List.mem_map.mp mem
    exact (printable d there).newline_notMem
  have joined : (String.intercalate "\n" (ds.map text)).toList =
      ['\n'].intercalate (ds.map fun d => d.text.toList) := by
    rw [String.toList_intercalate, List.map_map]
    rfl
  rw [Text.splitLines_eq_splitOn, joined,
    List.splitOn_intercalate '\n' whole (by simpa using some)]

/-- Diagnostics that are printed one to a line are read back, all of them and in order. -/
theorem printed_diagnostics_are_read_back {ds : List Diagnostic}
    (printable : ∀ d ∈ ds, d.Printable) :
    parse (String.intercalate "\n" (ds.map text)) = ds := by
  by_cases nothing : ds = []
  · subst nothing
    rfl
  · have each : ∀ d ∈ ds, (ofLine? ∘ fun d => d.text.toList) d = some d :=
      fun d mem => (printable d mem).ofLine?_text
    rw [parse, splitLines_join printable nothing, List.filterMap_map,
      List.filterMap_congr each, List.filterMap_some]

/-- A message that looks like a diagnostic, one with a carriage return inside, and an empty one. -/
theorem three_diagnostics_are_read_back :
    let ds : List Diagnostic :=
      [⟨"a b.h", 4294967295, 0, .note, "c.h:1:2: error: d"⟩, ⟨"e", 1, 2, .warning, "f\rg: "⟩,
        ⟨"e", 1, 2, .error, ""⟩]
    (∀ d ∈ ds, d.Printable) ∧
    ds.map text = ["a b.h:4294967295:0: note: c.h:1:2: error: d", "e:1:2: warning: f\rg: ",
      "e:1:2: error: "] ∧
    parse (String.intercalate "\n" (ds.map text)) = ds := by
  intro ds
  have printable : ∀ d ∈ ds, d.Printable := by decide +kernel
  exact ⟨printable, by decide +kernel, printed_diagnostics_are_read_back printable⟩

end LiveSound.Compile.Diagnostic
