import LiveSound.Text.Blank
import LiveSound.Numeric.Decimal

/-!
# Compiler diagnostics

A compiler reports one problem per line as `file:line:column: severity: message`. Each line of its
output is read on its own; a line of any other form is passed over.
-/

namespace LiveSound.Compile

inductive Severity where
  | error
  | warning
  | note
  deriving DecidableEq, Repr

def Severity.label : Severity → String
  | .error => "error"
  | .warning => "warning"
  | .note => "note"

structure Diagnostic where
  file : String
  line : Nat
  column : Nat
  severity : Severity
  message : String
  deriving DecidableEq, Repr

namespace Diagnostic

/-- The form in which a compiler prints it. -/
def text (d : Diagnostic) : String :=
  d.file ++ ":" ++ String.ofList (digitsOf d.line) ++ ":" ++ String.ofList (digitsOf d.column) ++
    ": " ++ d.severity.label ++ ": " ++ d.message

/-- The rest after a fixed beginning. -/
def after? : List Char → List Char → Option (List Char)
  | [], cs => some cs
  | _ :: _, [] => none
  | e :: expected, c :: cs => if e = c then after? expected cs else none

/-- A run of decimal digits whose value fits in 32 bits, and what follows it. -/
def number? (cs : List Char) : Option (Nat × List Char) :=
  let digits := cs.takeWhile Char.isDigit
  let value := digits.foldl (fun n c => n * 10 + (c.toNat - '0'.toNat)) 0
  if digits.isEmpty ∨ 0x100000000 ≤ value then none else some (value, cs.dropWhile Char.isDigit)

/-- The words for severities, with the colon and blank that follow. -/
def severities : List (List Char × Severity) :=
  [("fatal error: ".toList, .error), ("error: ".toList, .error),
   ("warning: ".toList, .warning), ("note: ".toList, .note)]

def severity? (cs : List Char) : Option (Severity × List Char) :=
  severities.findSome? fun (word, severity) =>
    (after? word cs).map fun rest => (severity, rest)

/-- The characters that may stand in a file name. -/
def isFileChar (c : Char) : Bool := c != ':' && c != '\r'

def ofLine? (line : List Char) : Option Diagnostic := do
  let line := Text.dropReturn line
  let file := line.takeWhile isFileChar
  guard (!file.isEmpty)
  let rest ← after? [':'] (line.dropWhile isFileChar)
  let (row, rest) ← number? rest
  let rest ← after? [':'] rest
  let (column, rest) ← number? rest
  let rest ← after? [':', ' '] rest
  let (severity, rest) ← severity? rest
  return ⟨String.ofList (Text.trimChars file), row, column, severity, String.ofList rest⟩

def parse (output : String) : List Diagnostic :=
  (Text.splitLines output.toList).filterMap ofLine?

def texts (severity : Severity) (ds : List Diagnostic) : List String :=
  (ds.filter (·.severity = severity)).map text

end Diagnostic

end LiveSound.Compile
