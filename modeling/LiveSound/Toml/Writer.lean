import LiveSound.Data.Basic
import LiveSound.Text.Hex

/-!
# Writing TOML

A document of sections: each has a header and its members on lines of their own. Members without
a value are left out. A text is quoted in the way that needs the fewest escapes; of several such
ways the first of `"…"`, `'…'` and their forms in three quotes is taken.
-/

namespace LiveSound.Toml

/-! ## Texts -/

inductive Quoting where
  | basic
  | literal
  | longBasic
  | longLiteral
  deriving DecidableEq, Repr

/-- Control characters that only an escape can show. -/
def isControl (c : Char) : Bool := (c < ' ' && c != '\t' && c != '\n') || c == '\x7f'

/-- The length of the longest run of a character, after a run of `current`. -/
def longestRun (q : Char) (current : Nat) : List Char → Nat
  | [] => current
  | c :: cs => if c = q then longestRun q (current + 1) cs else max current (longestRun q 0 cs)

namespace Quoting

def choose (cs : List Char) : Quoting :=
  let clean := !cs.any isControl
  let single := !cs.contains '\n'
  let unescaped := clean && !cs.contains '\\'
  if unescaped && single && !cs.contains '"' then .basic
  else if clean && single && !cs.contains '\'' then .literal
  else if unescaped && longestRun '"' 0 cs ≤ 2 then .longBasic
  else if clean && longestRun '\'' 0 cs ≤ 2 then .longLiteral
  else if single then .basic
  else .longBasic

def delimiter : Quoting → List Char
  | .basic => ['"']
  | .literal => ['\'']
  | .longBasic => ['"', '"', '"']
  | .longLiteral => ['\'', '\'', '\'']

end Quoting

/-- A character inside double quotes; quotes and newlines are looked after elsewhere. -/
def escape (c : Char) : List Char :=
  match c with
  | '\x08' => ['\\', 'b']
  | '\t' => ['\\', 't']
  | '\x0c' => ['\\', 'f']
  | '\r' => ['\\', 'r']
  | '\\' => ['\\', '\\']
  | c =>
    if isControl c then '\\' :: 'u' :: (hexText 4 c.toNat).toList.map Char.toUpper else [c]

def basicChars : List Char → List Char
  | [] => []
  | '"' :: cs => '\\' :: '"' :: basicChars cs
  | '\n' :: cs => '\\' :: 'n' :: basicChars cs
  | c :: cs => escape c ++ basicChars cs

/-- Inside three double quotes, after so many quotes in a row: the third one is escaped. -/
def longBasicChars : Nat → List Char → List Char
  | _, [] => []
  | quotes, '"' :: cs =>
    if quotes < 2 then '"' :: longBasicChars (quotes + 1) cs
    else '\\' :: '"' :: longBasicChars 0 cs
  | _, '\n' :: cs => '\n' :: longBasicChars 0 cs
  | _, c :: cs => escape c ++ longBasicChars 0 cs

def quotedBody (q : Quoting) (cs : List Char) : List Char :=
  match q with
  | .basic => basicChars cs
  | .longBasic => longBasicChars 0 cs
  | _ => cs

/-- Three quotes are followed by a line end if the text has lines. -/
def quote (cs : List Char) : List Char :=
  let q := Quoting.choose cs
  let long := q = .longBasic ∨ q = .longLiteral
  q.delimiter ++ (if long ∧ cs.contains '\n' then ['\n'] else []) ++ quotedBody q cs ++
    q.delimiter

/-! ## Values -/

/-- Floating point numbers are positional, with the fewest digits that read back. -/
def floatChars (x : Binary64) : List Char :=
  if x.isNaN then ['n', 'a', 'n']
  else if x.isFinite then (FloatStyle.write ⟨none, none⟩ x.shortest).toList
  else if x.isNegative then ['-', 'i', 'n', 'f'] else ['i', 'n', 'f']

def listChars : List (List Char) → List Char
  | [] => ['[', ']']
  | [item] => '[' :: item ++ [']']
  | items =>
    ['[', '\n'] ++ items.flatMap (fun item => "    ".toList ++ item ++ [',', '\n']) ++ [']']

/-- A value that can stand in a line, or a list of such. -/
def scalarChars : Data → List Char
  | .bool b => (if b then "true" else "false").toList
  | .integer n => (toString n).toList
  | .float x => floatChars x
  | .text s => quote s.toList
  | _ => []

def valueChars : Data → List Char
  | .list items => listChars (items.map scalarChars)
  | d => scalarChars d

/-! ## Documents -/

structure Section where
  name : String
  members : List (String × Data)

def memberChars : String × Data → List Char
  | (_, .null) => []
  | (name, d) => name.toList ++ " = ".toList ++ valueChars d ++ ['\n']

def Section.chars (s : Section) : List Char :=
  '[' :: s.name.toList ++ [']', '\n'] ++ s.members.flatMap memberChars

/-- Sections with an empty line between them. -/
def documentChars : List Section → List Char
  | [] => []
  | [s] => s.chars
  | s :: rest => s.chars ++ '\n' :: documentChars rest

/-- Whole numbers have 64 bits with a sign. -/
def fits : Data → Bool
  | .integer n => -0x8000000000000000 ≤ n && n < 0x8000000000000000
  | _ => true

/-- The text of a document; none if one of its numbers is too large. -/
def write? (document : List Section) : Option String :=
  if document.all fun s => s.members.all fun m => fits m.2 then
    some (String.ofList (documentChars document))
  else none

end LiveSound.Toml
