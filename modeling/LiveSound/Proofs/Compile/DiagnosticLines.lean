import Mathlib.Data.List.TakeWhile
import Mathlib.Data.Option.Basic
import LiveSound.Compile.Diagnostic

/-!
# The lines that tell a diagnostic

A line tells a diagnostic if it is `file:row:column: word: message`, a carriage return at its end
left out. The lines of that grammar are the ones that are read.
-/

namespace LiveSound.Compile.Diagnostic

open Text (dropReturn)

/-! ## The grammar -/

/-- The words for severities. -/
inductive Word where
  | fatal
  | error
  | warning
  | note
  deriving DecidableEq, Repr

def Word.chars : Word → List Char
  | .fatal => "fatal error".toList
  | .error => "error".toList
  | .warning => "warning".toList
  | .note => "note".toList

def Word.severity : Word → Severity
  | .fatal | .error => .error
  | .warning => .warning
  | .note => .note

/-- The parts of a line that tells a diagnostic, as they stand in it. -/
structure Fields where
  file : List Char
  row : List Char
  column : List Char
  word : Word
  message : List Char

/-- A number that fits in 32 bits, in decimal digits. -/
structure Spells (digits : List Char) (n : Nat) : Prop where
  ne_nil : digits ≠ []
  digit : ∀ c ∈ digits, c.isDigit
  value : Nat.ofDigitChars 10 digits 0 = n
  fits : n < UInt32.size

namespace Fields

def chars (f : Fields) : List Char :=
  f.file ++ ':' :: (f.row ++ ':' :: (f.column ++ ':' :: ' ' ::
    (f.word.chars ++ ':' :: ' ' :: f.message)))

/-- What the parts of a line tell. -/
structure Tells (f : Fields) (d : Diagnostic) : Prop where
  file_ne : f.file ≠ []
  no_colon : ':' ∉ f.file
  no_return : '\r' ∉ f.file
  file : d.file = String.ofList (Text.trimChars f.file)
  row : Spells f.row d.line
  column : Spells f.column d.column
  severity : d.severity = f.word.severity
  message : d.message = String.ofList f.message

end Fields

/-! ## What is read by hand -/

theorem after?_eq_some {word cs rest : List Char} :
    after? word cs = some rest ↔ cs = word ++ rest := by
  induction word generalizing cs with
  | nil => simp [after?]
  | cons c word ih =>
    cases cs with
    | nil => simp [after?]
    | cons d cs =>
      by_cases hc : c = d
      · simp [after?, hc, ih]
      · simp [after?, hc, Ne.symm hc]

theorem value_eq (digits : List Char) :
    digits.foldl (fun n c => n * 10 + (c.toNat - '0'.toNat)) 0 = Nat.ofDigitChars 10 digits 0 := by
  unfold Nat.ofDigitChars
  congr 1
  funext n c
  rw [Nat.mul_comm]

theorem number?_eq_some {cs rest : List Char} {n : Nat} :
    number? cs = some (n, rest) ↔
      ∃ digits, cs = digits ++ rest ∧ Spells digits n ∧ ∀ c ∈ rest.head?, c.isDigit = false := by
  simp only [number?, value_eq]
  constructor
  · intro h
    split at h
    · cases h
    · rename_i hsome
      rw [not_or, List.isEmpty_iff, Nat.not_le] at hsome
      cases h
      refine ⟨_, (List.takeWhile_append_dropWhile).symm,
        ⟨hsome.1, fun c hc => List.mem_takeWhile_imp hc, rfl, hsome.2⟩, ?_⟩
      intro c hc
      have := List.head?_dropWhile_not Char.isDigit cs
      rw [hc] at this
      simpa using this
  · rintro ⟨digits, rfl, hdigits, hrest⟩
    have hstop : rest.takeWhile Char.isDigit = [] ∧ rest.dropWhile Char.isDigit = rest := by
      cases rest with
      | nil => exact ⟨rfl, rfl⟩
      | cons c rest => simp [hrest c rfl]
    have hfits : ¬ 0x100000000 ≤ n := Nat.not_le.mpr hdigits.fits
    rw [List.takeWhile_append_of_pos hdigits.digit, List.dropWhile_append_of_pos hdigits.digit,
      hstop.1, hstop.2, List.append_nil, hdigits.value]
    simp [hdigits.ne_nil, hfits]

theorem severity?_eq_some {cs rest : List Char} {severity : Severity} :
    severity? cs = some (severity, rest) ↔
      ∃ word : Word, cs = word.chars ++ ':' :: ' ' :: rest ∧ severity = word.severity := by
  constructor
  · intro h
    obtain ⟨⟨text, s⟩, hmem, htext⟩ := List.exists_of_findSome?_eq_some h
    obtain ⟨rest', hrest, heq⟩ := Option.map_eq_some_iff.mp htext
    cases heq
    rw [after?_eq_some] at hrest
    simp only [severities, List.mem_cons, Prod.mk.injEq, List.not_mem_nil, or_false] at hmem
    rcases hmem with ⟨rfl, rfl⟩ | ⟨rfl, rfl⟩ | ⟨rfl, rfl⟩ | ⟨rfl, rfl⟩
    · exact ⟨.fatal, hrest, rfl⟩
    · exact ⟨.error, hrest, rfl⟩
    · exact ⟨.warning, hrest, rfl⟩
    · exact ⟨.note, hrest, rfl⟩
  · rintro ⟨word, rfl, rfl⟩
    -- the words begin with different letters
    cases word <;> rfl

theorem takeWhile_file {file : List Char} (hcolon : ':' ∉ file) (hreturn : '\r' ∉ file)
    (rest : List Char) :
    (file ++ ':' :: rest).takeWhile isFileChar = file ∧
      (file ++ ':' :: rest).dropWhile isFileChar = ':' :: rest := by
  have hall : ∀ c ∈ file, isFileChar c = true := by
    intro c hc
    have h1 : c ≠ ':' := fun heq => hcolon (heq ▸ hc)
    have h2 : c ≠ '\r' := fun heq => hreturn (heq ▸ hc)
    simp [isFileChar, h1, h2]
  rw [List.takeWhile_append_of_pos hall, List.dropWhile_append_of_pos hall]
  simp [isFileChar]

/-- The lines that are read are those of the grammar. -/
theorem ofLine?_eq_some {line : List Char} {d : Diagnostic} :
    ofLine? line = some d ↔ ∃ f : Fields, dropReturn line = f.chars ∧ f.Tells d := by
  simp only [ofLine?, Option.bind_eq_bind, Option.bind_eq_some_iff, Option.guard_eq_some',
    Option.pure_def, Prod.exists, after?_eq_some, number?_eq_some, severity?_eq_some]
  constructor
  · rintro ⟨-, hfile, afterFile, hafterFile, row, afterRow, ⟨rowDigits, rfl, hrow, -⟩,
      afterColon, rfl, column, afterColumn, ⟨columnDigits, rfl, hcolumn, -⟩, afterMark, rfl,
      severity, message, ⟨word, rfl, rfl⟩, hd⟩
    cases hd
    have hsplit := List.takeWhile_append_dropWhile (p := isFileChar) (l := dropReturn line)
    have hname : ∀ c ∈ (dropReturn line).takeWhile isFileChar, c ≠ ':' ∧ c ≠ '\r' :=
      fun c hc => by simpa [isFileChar] using List.mem_takeWhile_imp hc
    rw [hafterFile] at hsplit
    refine ⟨⟨_, rowDigits, columnDigits, word, message⟩, hsplit.symm,
      by simpa using hfile, fun hmem => (hname _ hmem).1 rfl, fun hmem => (hname _ hmem).2 rfl,
      rfl, hrow, hcolumn, rfl, rfl⟩
  · rintro ⟨f, hline, hf⟩
    obtain ⟨htake, hdrop⟩ := takeWhile_file hf.no_colon hf.no_return
      (f.row ++ ':' :: (f.column ++ ':' :: ' ' :: (f.word.chars ++ ':' :: ' ' :: f.message)))
    rw [hline, Fields.chars, htake, hdrop]
    have hcolon : ∀ c ∈ (':' :: (f.column ++ ':' :: ' ' ::
        (f.word.chars ++ ':' :: ' ' :: f.message))).head?, c.isDigit = false := by simp
    have hmark : ∀ c ∈ (':' :: ' ' :: (f.word.chars ++ ':' :: ' ' :: f.message)).head?,
        c.isDigit = false := by simp
    refine ⟨(), by simpa using hf.file_ne, _, rfl, d.line, _, ⟨f.row, rfl, hf.row, hcolon⟩, _,
      rfl, d.column, _, ⟨f.column, rfl, hf.column, hmark⟩, _, rfl, f.word.severity, f.message,
      ⟨f.word, rfl, rfl⟩, ?_⟩
    rw [← hf.file, ← hf.severity, ← hf.message]

end LiveSound.Compile.Diagnostic
