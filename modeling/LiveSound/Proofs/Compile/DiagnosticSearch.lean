import LiveSound.Proofs.Compile.DiagnosticLines
import LiveSound.Proofs.Text.Pattern

/-!
# Diagnostics found by a search

The lines that tell a diagnostic are those a search of the whole output finds with the pattern of
such a line: a line of the grammar is matched as a whole, and nothing else is matched. Which
characters beyond the ten digits the pattern takes for digits makes no difference, because a number
in them cannot be read.
-/

namespace LiveSound.Compile.Diagnostic

open Text (dropReturn Match Pattern)

/-! ## The pattern -/

/-- The characters taken for digits by the pattern: of the first 128 the ten digits, of the others
perhaps those of other scripts. -/
structure DigitClass where
  has : Char → Bool
  ascii : ∀ c : Char, c.toNat < 128 → has c = c.isDigit

instance : Inhabited DigitClass := ⟨⟨Char.isDigit, fun _ _ => rfl⟩⟩

def severityWord : Pattern :=
  .group "severity" (.alt (.literal Word.fatal.chars) (.alt (.literal Word.error.chars)
    (.alt (.literal Word.warning.chars) (.literal Word.note.chars))))

/-- `^file:line:col: severity: message$`, each line by itself, a carriage return at its end left
out. -/
def linePattern (digits : DigitClass) : Pattern :=
  .all [.lineStart, .atLeastOne "file" fun c => c ≠ ':' ∧ c ≠ '\r' ∧ c ≠ '\n', .literal [':'],
    .atLeastOne "line" digits.has, .literal [':'], .atLeastOne "col" digits.has,
    .literal [':', ' '], severityWord, .literal [':', ' '], .restOfLine "message"]

/-- A whole number of 32 bits, perhaps with a plus sign before it. -/
def readNumber? (cs : List Char) : Option Nat :=
  let digits := if cs.head? = some '+' then cs.tail else cs
  let value := Nat.ofDigitChars 10 digits 0
  if digits ≠ [] ∧ digits.all Char.isDigit ∧ value < UInt32.size then some value else none

def severityOf (word : List Char) : Severity :=
  if word = "warning".toList then .warning else if word = "note".toList then .note else .error

/-- The diagnostic that a match tells, if its numbers can be read. -/
def ofMatch? (m : Match) : Option Diagnostic := do
  let file ← m.group? "file"
  let row ← readNumber? (← m.group? "line")
  let column ← readNumber? (← m.group? "col")
  let severity ← m.group? "severity"
  let message ← m.group? "message"
  return ⟨String.ofList (Text.trimChars file), row, column, severityOf severity,
    String.ofList message⟩

namespace Fields

/-- The parts of a line that the pattern matches. -/
structure Formed (f : Fields) (digits : DigitClass) : Prop where
  file_ne : f.file ≠ []
  file : ∀ c ∈ f.file, c ≠ ':' ∧ c ≠ '\r' ∧ c ≠ '\n'
  row_ne : f.row ≠ []
  row : ∀ c ∈ f.row, digits.has c
  column_ne : f.column ≠ []
  column : ∀ c ∈ f.column, digits.has c
  message : '\n' ∉ f.message

/-- What the named groups of the pattern take of such a line. -/
def groups (f : Fields) : List (String × List Char) :=
  [("file", f.file), ("line", f.row), ("col", f.column), ("severity", f.word.chars),
    ("message", dropReturn f.message)]

end Fields

section Search

open Text.Pattern (atLineStart atLineEnd first?_seq_of_single first?_atLeastOne_seq
  first?_literal_seq first?_restOfLine shuns_literal)

variable {digits : DigitClass} {f : Fields} {prev : Option Char}

theorem DigitClass.has_colon (digits : DigitClass) : digits.has ':' = false :=
  digits.ascii ':' (by decide)

theorem DigitClass.has_of_isDigit (digits : DigitClass) {c : Char} (hc : c.isDigit) :
    digits.has c := by
  have hrange : 48 ≤ c.toNat ∧ c.toNat ≤ 57 := by
    simpa [Char.isDigit, UInt32.le_iff_toNat_le] using hc
  rw [digits.ascii c (by omega), hc]

theorem DigitClass.ne_newline (digits : DigitClass) {c : Char} (hc : digits.has c) : c ≠ '\n' := by
  rintro rfl
  rw [digits.ascii '\n' (by decide)] at hc
  exact absurd hc (by decide)

theorem Word.newline_notMem (word : Word) : '\n' ∉ word.chars := by
  cases word <;> decide

theorem Fields.Formed.newline_notMem (hf : f.Formed digits) : '\n' ∉ f.chars := by
  have hfile : '\n' ∉ f.file := fun hmem => (hf.file _ hmem).2.2 rfl
  have hrow : '\n' ∉ f.row := fun hmem => digits.ne_newline (hf.row _ hmem) rfl
  have hcolumn : '\n' ∉ f.column := fun hmem => digits.ne_newline (hf.column _ hmem) rfl
  simp [Fields.chars, hfile, hrow, hcolumn, hf.message, f.word.newline_notMem]

theorem ways_severityWord (word : Word) (rest : List Char) :
    severityWord.ways prev (word.chars ++ ([':', ' '] ++ rest)) =
      [⟨word.chars, [("severity", word.chars)]⟩] := by
  cases word <;> rfl

theorem first?_linePattern (hf : f.Formed digits) {after : List Char} (hafter : atLineEnd after)
    (hprev : atLineStart prev) :
    (linePattern digits).first? prev (f.chars ++ after) = some ⟨f.chars, f.groups⟩ := by
  have hstart : Pattern.lineStart.ways prev ([] ++ (f.chars ++ after)) = [⟨[], []⟩] := by
    simp [Pattern.ways, hprev]
  have hchars : f.chars ++ after = f.file ++ ([':'] ++ (f.row ++ ([':'] ++ (f.column ++
      ([':', ' '] ++ (f.word.chars ++ ([':', ' '] ++ (f.message ++ after)))))))) := by
    simp [Fields.chars]
  have hfile : ∀ c ∈ f.file, decide (c ≠ ':' ∧ c ≠ '\r' ∧ c ≠ '\n') = true :=
    fun c hc => decide_eq_true (hf.file c hc)
  have hcolon := digits.has_colon
  have hsearch := first?_seq_of_single hstart
  simp only [List.nil_append] at hsearch
  simp only [linePattern, Pattern.all]
  rw [hsearch, hchars,
    first?_atLeastOne_seq (shuns_literal (by simp) _ _) hf.file_ne hfile (by simp),
    first?_literal_seq,
    first?_atLeastOne_seq (shuns_literal hcolon _ _) hf.row_ne hf.row (by simp [hcolon]),
    first?_literal_seq,
    first?_atLeastOne_seq (shuns_literal hcolon _ _) hf.column_ne hf.column (by simp [hcolon]),
    first?_literal_seq, first?_seq_of_single (ways_severityWord f.word _), first?_literal_seq,
    first?_restOfLine _ hf.message hafter]
  simp [Match.andThen, Fields.chars, Fields.groups]

theorem takes_severityWord {text after : List Char} (h : severityWord.Takes text after) :
    ∃ word : Word, text = word.chars := by
  rcases h.group.alt with h | h
  · exact ⟨.fatal, h.literal⟩
  rcases h.alt with h | h
  · exact ⟨.error, h.literal⟩
  rcases h.alt with h | h
  · exact ⟨.warning, h.literal⟩
  · exact ⟨.note, h.literal⟩

theorem takes_linePattern {text after : List Char} (h : (linePattern digits).Takes text after) :
    ∃ f : Fields, f.Formed digits ∧ text = f.chars ∧ atLineEnd after := by
  obtain ⟨start, fromFile, rfl, hstart, h₁⟩ := h.seq
  obtain ⟨file, fromColon, rfl, hfile, h₂⟩ := h₁.seq
  obtain ⟨colon, fromRow, rfl, hcolon, h₃⟩ := h₂.seq
  obtain ⟨row, fromColon, rfl, hrow, h₄⟩ := h₃.seq
  obtain ⟨colon', fromColumn, rfl, hcolon', h₅⟩ := h₄.seq
  obtain ⟨column, fromMark, rfl, hcolumn, h₆⟩ := h₅.seq
  obtain ⟨mark, fromWord, rfl, hmark, h₇⟩ := h₆.seq
  obtain ⟨text, fromMark, rfl, htext, h₈⟩ := h₇.seq
  obtain ⟨mark', message, rfl, hmark', h₉⟩ := h₈.seq
  obtain ⟨word, rfl⟩ := takes_severityWord htext
  obtain ⟨hmessage, hafter⟩ := h₉.restOfLine
  cases hstart.lineStart
  cases hcolon.literal
  cases hcolon'.literal
  cases hmark.literal
  cases hmark'.literal
  refine ⟨⟨file, row, column, word, message⟩, ?_, rfl, hafter⟩
  exact ⟨hfile.atLeastOne.1, fun c hc => of_decide_eq_true (hfile.atLeastOne.2 c hc),
    hrow.atLeastOne.1, hrow.atLeastOne.2, hcolumn.atLeastOne.1, hcolumn.atLeastOne.2, hmessage⟩

/-! ## Search and reading agree -/

theorem fields_of_first? {line after : List Char} {m : Match} (hline : '\n' ∉ line)
    (hafter : atLineEnd after)
    (hm : (linePattern digits).first? prev (line ++ after) = some m) :
    ∃ f : Fields, f.Formed digits ∧ line = f.chars ∧ m.text = line := by
  have hways := List.mem_of_mem_head? hm
  obtain ⟨rest, hrest⟩ := Pattern.prefix_of_mem_ways hways
  rw [← hrest] at hways
  obtain ⟨f, hf, htext, hend⟩ := takes_linePattern ⟨prev, m, hways, rfl⟩
  have hnone : '\n' ∉ m.text := htext ▸ hf.newline_notMem
  have hmatch : m.text = line := by
    rw [← Pattern.takeWhile_line hnone hend, hrest, Pattern.takeWhile_line hline hafter]
  exact ⟨f, hf, hmatch ▸ htext, hmatch⟩

theorem first?_alone (hf : f.Formed digits) :
    (linePattern digits).first? none f.chars = some ⟨f.chars, f.groups⟩ := by
  have hfirst :=
    first?_linePattern hf (show atLineEnd [] from rfl) (show atLineStart none from rfl)
  rwa [List.append_nil] at hfirst

theorem byLine_linePattern (digits : DigitClass) : (linePattern digits).ByLine := by
  refine ⟨?_, ?_, ?_⟩
  · intro prev cs hprev
    simp [linePattern, Pattern.all, Pattern.first?, Pattern.ways, hprev]
  · intro prev line after hprev hline hafter
    by_cases hform : ∃ f : Fields, f.Formed digits ∧ line = f.chars
    · obtain ⟨f, hf, rfl⟩ := hform
      rw [first?_linePattern hf hafter hprev, first?_alone hf]
    · have hnone : ∀ {prev after}, atLineEnd after →
          (linePattern digits).first? prev (line ++ after) = none := by
        intro prev after hafter
        rw [Option.eq_none_iff_forall_ne_some]
        intro m hm
        obtain ⟨f, hf, hchars, -⟩ := fields_of_first? hline hafter hm
        exact hform ⟨f, hf, hchars⟩
      have halone := @hnone none [] rfl
      rw [List.append_nil] at halone
      rw [hnone hafter, halone]
  · intro line m hline hm
    obtain ⟨f, hf, hchars, htext⟩ :=
      fields_of_first? hline (show atLineEnd [] from rfl) (by rwa [List.append_nil])
    refine ⟨htext, ?_⟩
    rw [hchars, Fields.chars]
    simp

/-! ## Search and reading agree -/

theorem readNumber?_eq_some {cs : List Char} (hne : cs ≠ []) (hcs : ∀ c ∈ cs, digits.has c)
    {n : Nat} : readNumber? cs = some n ↔ Spells cs n := by
  have hplus : cs.head? ≠ some '+' := by
    intro heq
    have := hcs '+' (List.mem_of_mem_head? heq)
    rw [digits.ascii '+' (by decide)] at this
    exact absurd this (by decide)
  simp only [readNumber?, if_neg hplus]
  constructor
  · intro h
    split at h
    · rename_i hfits
      cases h
      exact ⟨hne, List.all_eq_true.mp hfits.2.1, rfl, hfits.2.2⟩
    · cases h
  · intro h
    have hfits := h.fits
    rw [← h.value] at hfits
    rw [if_pos ⟨hne, List.all_eq_true.mpr h.digit, hfits⟩, h.value]

theorem severityOf_chars (word : Word) : severityOf word.chars = word.severity := by
  cases word <;> rfl

/-- The parts without the carriage return at the end of the message. -/
def Fields.told (f : Fields) : Fields := { f with message := dropReturn f.message }

theorem ofMatch?_eq_some (hf : f.Formed digits) {d : Diagnostic} :
    ofMatch? ⟨f.chars, f.groups⟩ = some d ↔ f.told.Tells d := by
  have hcolon : ':' ∉ f.file := fun hmem => (hf.file _ hmem).1 rfl
  have hreturn : '\r' ∉ f.file := fun hmem => (hf.file _ hmem).2.1 rfl
  have hmatch : ofMatch? ⟨f.chars, f.groups⟩ = do
      let row ← readNumber? f.row
      let column ← readNumber? f.column
      return ⟨String.ofList (Text.trimChars f.file), row, column, severityOf f.word.chars,
        String.ofList (dropReturn f.message)⟩ := rfl
  simp only [hmatch, Option.bind_eq_bind, Option.pure_def, Option.bind_eq_some_iff,
    readNumber?_eq_some hf.row_ne hf.row, readNumber?_eq_some hf.column_ne hf.column,
    severityOf_chars]
  constructor
  · rintro ⟨row, hrow, column, hcolumn, hd⟩
    cases hd
    exact ⟨hf.file_ne, hcolon, hreturn, rfl, hrow, hcolumn, rfl, rfl⟩
  · intro h
    refine ⟨d.line, h.row, d.column, h.column, ?_⟩
    have hseverity : f.word.severity = d.severity := h.severity.symm
    have hmessage : String.ofList (dropReturn f.message) = d.message := h.message.symm
    have hname : String.ofList (Text.trimChars f.file) = d.file := h.file.symm
    rw [hname, hseverity, hmessage]

theorem dropReturn_append {c : Char} (hc : c ≠ '\r') (start line : List Char) :
    dropReturn (start ++ c :: line) = start ++ c :: dropReturn line := by
  induction start with
  | nil => simp [Pattern.dropReturn_cons, Pattern.spent, hc]
  | cons x start ih => simp [Pattern.dropReturn_cons x, Pattern.spent, ih]

theorem Fields.dropReturn_chars (f : Fields) : dropReturn f.chars = f.told.chars := by
  have h := @dropReturn_append ' ' (by decide) (f.file ++ ':' :: (f.row ++ ':' ::
    (f.column ++ ':' :: ' ' :: (f.word.chars ++ [':'])))) f.message
  simpa [Fields.chars, Fields.told] using h

/-- A line is its text with the carriage return that was left out. -/
theorem exists_told {line : List Char} {g : Fields} (hg : dropReturn line = g.chars) :
    ∃ f : Fields, line = f.chars ∧ f.told = g := by
  have hline := Text.dropReturn_eq line
  by_cases hreturn : line.getLast? = some '\r'
  · have hends : line = g.chars ++ ['\r'] := by
      rw [← hg, hline, if_pos hreturn]
      exact (List.dropLast_append_getLast? _ hreturn).symm
    refine ⟨{ g with message := g.message ++ ['\r'] }, ?_, ?_⟩
    · rw [hends]
      simp [Fields.chars]
    · simp [Fields.told, dropReturn]
  · rw [if_neg hreturn] at hline
    have hsame : g.told.chars = g.chars := by
      rw [← g.dropReturn_chars, ← hg, hline, hline]
    refine ⟨g, by rw [← hg, hline], ?_⟩
    have hmessage : dropReturn g.message = g.message := by
      simpa [Fields.chars, Fields.told] using hsame
    rw [Fields.told, hmessage]

theorem ofLine?_eq_some_told {line : List Char} (hline : '\n' ∉ line) (digits : DigitClass)
    {d : Diagnostic} :
    ofLine? line = some d ↔ ∃ f : Fields, f.Formed digits ∧ line = f.chars ∧ f.told.Tells d := by
  rw [ofLine?_eq_some]
  constructor
  · rintro ⟨g, hg, htells⟩
    obtain ⟨f, hchars, htold⟩ := exists_told hg
    have hf : f.Formed digits := by
      have hg : f.told.Tells d := htold ▸ htells
      have hfile : '\n' ∉ f.file := fun hmem => hline (by simp [hchars, Fields.chars, hmem])
      have hmessage : '\n' ∉ f.message :=
        fun hmem => hline (by simp [hchars, Fields.chars, hmem])
      exact ⟨hg.file_ne,
        fun c hc => ⟨fun heq => hg.no_colon (heq ▸ hc), fun heq => hg.no_return (heq ▸ hc),
          fun heq => hfile (heq ▸ hc)⟩,
        hg.row.ne_nil, fun c hc => digits.has_of_isDigit (hg.row.digit c hc),
        hg.column.ne_nil, fun c hc => digits.has_of_isDigit (hg.column.digit c hc), hmessage⟩
    exact ⟨f, hf, hchars, htold ▸ htells⟩
  · rintro ⟨f, hf, rfl, htells⟩
    exact ⟨f.told, f.dropReturn_chars, htells⟩

theorem first?_bind_ofMatch? {line : List Char} (hline : '\n' ∉ line) (digits : DigitClass) :
    ((linePattern digits).first? none line).bind ofMatch? = ofLine? line := by
  ext d
  rw [Option.bind_eq_some_iff, ofLine?_eq_some_told hline digits]
  constructor
  · rintro ⟨m, hm, hd⟩
    obtain ⟨f, hf, rfl, -⟩ :=
      fields_of_first? hline (show atLineEnd [] from rfl) (by rwa [List.append_nil])
    rw [first?_alone hf, Option.some_inj] at hm
    exact ⟨f, hf, rfl, (ofMatch?_eq_some hf).mp (hm ▸ hd)⟩
  · rintro ⟨f, hf, rfl, htells⟩
    exact ⟨_, first?_alone hf, (ofMatch?_eq_some hf).mpr htells⟩

/-- Reading a compiler's output finds, line by line, exactly what its grammar tells, and so does a
search of the whole output for the pattern of such a line. -/
theorem diagnostics_are_the_lines_of_the_grammar (digits : DigitClass) :
    (∀ output, parse output = (output.toList.splitOn '\n').filterMap ofLine?) ∧
    (∀ line d, ofLine? line = some d ↔ ∃ f : Fields, dropReturn line = f.chars ∧ f.Tells d) ∧
    (∀ output, parse output =
      ((linePattern digits).scan false none output.toList).filterMap ofMatch?) ∧
    ∀ a b, parse (a ++ "\n" ++ b) = parse a ++ parse b := by
  refine ⟨fun output => ?_, fun line d => ofLine?_eq_some, fun output => ?_, fun a b => ?_⟩
  · rw [parse, Text.splitLines_eq_splitOn]
  · rw [(byLine_linePattern digits).scan_eq_lines rfl, List.filterMap_filterMap, parse]
    refine List.filterMap_congr fun line hline => ?_
    exact (first?_bind_ofMatch? (Text.newline_notMem_of_mem_splitLines hline) digits).symm
  · have hpieces : Text.splitLines (a ++ "\n" ++ b).toList =
        Text.splitLines a.toList ++ Text.splitLines b.toList := by
      rw [String.toList_append, String.toList_append, List.append_assoc]
      exact Text.pieces_append '\n' a.toList b.toList
    rw [parse, hpieces, List.filterMap_append]
    rfl

example :
    parse "a.h:1:2: note: b: error: c\r\nd\nd.h:4294967296:1: error: e\n:1:1: error: f" =
      [⟨"a.h", 1, 2, .note, "b: error: c"⟩] := by
  decide +kernel

end Search

end LiveSound.Compile.Diagnostic
