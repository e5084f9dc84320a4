import LiveSound.Data.Basic
import LiveSound.Text.Hex

/-!
# Reading JSON

`Json.read?` reads a whole text. `Json.document` reads one that may break off: the members or
items that came before the damage are kept, so that a reader that works through them in order
meets the faults of a text in the order in which they stand there.

A number is first taken as the whole number of its leading digits, as many as fit in 64 bits, and
then multiplied or divided by a power of ten; both steps round. One that is too large is
unreadable, and so are what is nested too deep, a string that stands for no text, and a record with
such a name in it. A reader that passes over them does not mind.
-/

namespace LiveSound.Json

/-- A product of non-negative finite numbers. -/
def product (x y : Binary64) : Binary64 :=
  .ofRatio false (x.units * y.units) (Nat.pow 2 (2 * Layout.double.lowest))

/-- A quotient of non-negative finite numbers. -/
def quotient (x y : Binary64) : Binary64 := .ofRatio false x.units y.units

/-- The power of ten nearest to `10 ^ n`. -/
def power (n : Nat) : Binary64 := .ofNat (Nat.pow 10 n)

/-- The leading digits that form a number of 64 bits; the others only count as places. -/
def leading : Nat → Nat → Int → Nat × Int
  | 0, coefficient, exponent => (coefficient, exponent)
  | fuel + 1, coefficient, exponent =>
    if coefficient < 0x10000000000000000 then (coefficient, exponent)
    else leading fuel (coefficient / 10) (exponent + 1)

/-- The number for decimal text, rounded once for the digits and once for each power of ten. -/
def scaled (d : Decimal) : Binary64 :=
  let (digits, exponent) := leading (digitsOf d.coefficient).length d.coefficient d.exponent
  let start := Binary64.ofNat digits
  let size :=
    if digits = 0 then start
    else if 308 < exponent then .infinity
    else if 0 ≤ exponent then product start (power exponent.toNat)
    else if -308 ≤ exponent then quotient start (power (-exponent).toNat)
    else if -616 ≤ exponent then
      quotient (quotient start (power 308)) (power (-(exponent + 308)).toNat)
    else .zero
  if d.negative then size.neg else size

/-- The number for a literal: whole if it has no point and no exponent and fits in 64 bits. -/
def numberOf (d : Decimal) (whole : Bool) : Data :=
  if whole && !d.negative && d.coefficient < 0x10000000000000000 then .integer d.coefficient
  else if whole && d.negative && 0 < d.coefficient && d.coefficient ≤ 0x8000000000000000 then
    .integer (-(d.coefficient : Int))
  else
    let x := scaled d
    if x.isFinite then .float x else .unreadable

def isSpace (c : Char) : Bool := c == ' ' || c == '\n' || c == '\t' || c == '\r'

def skip (cs : List Char) : List Char := cs.dropWhile isSpace

def valueOf (digits : List Char) : Nat :=
  digits.foldl (fun n c => n * 10 + (c.toNat - '0'.toNat)) 0

def exponentPart : List Char → Option (Option Int × List Char)
  | e :: rest =>
    if e = 'e' ∨ e = 'E' then
      let (negative, rest) := match rest with
        | '-' :: rest => (true, rest)
        | '+' :: rest => (false, rest)
        | rest => (false, rest)
      let digits := rest.takeWhile Char.isDigit
      if digits.isEmpty then none
      else
        let n : Int := valueOf digits
        some (some (if negative then -n else n), rest.dropWhile Char.isDigit)
    else some (none, e :: rest)
  | [] => some (none, [])

def fractionPart : List Char → Option (Option (List Char) × List Char)
  | '.' :: rest =>
    let digits := rest.takeWhile Char.isDigit
    if digits.isEmpty then none else some (some digits, rest.dropWhile Char.isDigit)
  | rest => some (none, rest)

/-- The part before the point: a zero, or digits that do not begin with one. -/
def wholePart : List Char → Option (List Char × List Char)
  | '0' :: rest => some (['0'], rest)
  | cs =>
    let digits := cs.takeWhile Char.isDigit
    if digits.isEmpty then none else some (digits, cs.dropWhile Char.isDigit)

def number (cs : List Char) : Option (Data × List Char) := do
  let (negative, cs) := match cs with
    | '-' :: rest => (true, rest)
    | cs => (false, cs)
  let (whole, cs) ← wholePart cs
  let (fraction, cs) ← fractionPart cs
  let (exponent, cs) ← exponentPart cs
  let places := fraction.getD []
  let d : Decimal :=
    ⟨negative, valueOf (whole ++ places), exponent.getD 0 - (places.length : Int)⟩
  return (numberOf d (fraction.isNone && exponent.isNone), cs)

/-- The 16-bit unit that four digits name. -/
def unit? (a b c d : Char) : Option Nat := do
  return (((← hexValue? a) * 16 + (← hexValue? b)) * 16 + (← hexValue? c)) * 16 + (← hexValue? d)

/-- The character that a letter after a backslash stands for. -/
def escaped? : Char → Option Char
  | '"' => some '"'
  | '\\' => some '\\'
  | '/' => some '/'
  | 'b' => some '\x08'
  | 'f' => some '\x0c'
  | 'n' => some '\n'
  | 'r' => some '\r'
  | 't' => some '\t'
  | _ => none

/-- The character of two units that form a surrogate pair; the first is known to begin one. -/
def pair? (high low : Nat) : Option Char :=
  if 0xDC00 ≤ low ∧ low < 0xE000 then
    some (Char.ofNat (0x10000 + (high - 0xD800) * 1024 + (low - 0xDC00)))
  else none

/-- The character of a unit that stands alone. -/
def alone? (n : Nat) : Option Char :=
  if n < 0xD800 ∨ 0xE000 ≤ n then some (Char.ofNat n) else none

/-- The text of a string up to its closing quote, and what follows. Two escapes that form a
surrogate pair are one character; a single one of them is refused. -/
def stringBody : List Char → Option (List Char × List Char)
  | [] => none
  | '"' :: rest => some ([], rest)
  | '\\' :: 'u' :: a :: b :: c :: d :: rest => do
    let n ← unit? a b c d
    if 0xD800 ≤ n ∧ n < 0xDC00 then
      match rest with
      | '\\' :: 'u' :: e :: f :: g :: h :: rest =>
        let found ← pair? n (← unit? e f g h)
        let (body, rest) ← stringBody rest
        return (found :: body, rest)
      | _ => none
    else
      let found ← alone? n
      let (body, rest) ← stringBody rest
      return (found :: body, rest)
  | '\\' :: c :: rest => do
    let found ← escaped? c
    let (body, rest) ← stringBody rest
    return (found :: body, rest)
  | c :: rest =>
    if ' ' ≤ c ∧ c ≠ '\\' then do
      let (body, rest) ← stringBody rest
      return (c :: body, rest)
    else none
termination_by cs => cs.length

/-- What follows a string, whether or not its escapes stand for characters. -/
def stringEnd : List Char → Option (List Char)
  | [] => none
  | '"' :: rest => some rest
  | '\\' :: 'u' :: a :: b :: c :: d :: rest => do
    let _ ← unit? a b c d
    stringEnd rest
  | '\\' :: c :: rest => do
    let _ ← escaped? c
    stringEnd rest
  | c :: rest => if ' ' ≤ c ∧ c ≠ '\\' then stringEnd rest else none

/-- The text of a string, if it stands for one, and what follows it. -/
def string (cs : List Char) : Option (Option (List Char) × List Char) :=
  match stringBody cs with
  | some (body, rest) => some (some body, rest)
  | none => (stringEnd cs).map (none, ·)

/-- Where a record ends. -/
inductive Closing where
  /-- The text breaks off before. -/
  | broken
  | closed (rest : List Char)
  /-- It is closed, but a name in it stands for no text. -/
  | spoiled (rest : List Char)

namespace Closing

def spoil : Closing → Closing
  | broken => broken
  | closed rest | spoiled rest => spoiled rest

/-- What follows a record that can be read to its end. -/
def rest? : Closing → Option (List Char)
  | closed rest => some rest
  | broken | spoiled _ => none

end Closing

/-- A member and those that follow it. A name that stands for no text ends what can be read. -/
def addMember (name : Option (List Char)) (d : Data) :
    List (String × Data) × Closing → List (String × Data) × Closing
  | (others, closing) =>
    match name with
    | some name => ((String.ofList name, d) :: others, closing)
    | none => ([], closing.spoil)

mutual

/-- A value; `fuel` bounds the number of values and is taken from the length of the text. -/
def value : Nat → List Char → Option (Data × List Char)
  | 0, _ => none
  | fuel + 1, cs =>
    match skip cs with
    | '\x7b' :: rest =>
      match members fuel rest with
      | (entries, .closed rest) => some (.record entries, rest)
      | (_, .spoiled rest) => some (.unreadable, rest)
      | (_, .broken) => none
    | '[' :: rest =>
      match items fuel rest with
      | (entries, some rest) => some (.list entries, rest)
      | (_, none) => none
    | '"' :: rest =>
      (string rest).map fun (text, rest) =>
        (text.elim .unreadable fun cs => .text (String.ofList cs), rest)
    | 'n' :: 'u' :: 'l' :: 'l' :: rest => some (.null, rest)
    | 't' :: 'r' :: 'u' :: 'e' :: rest => some (.bool true, rest)
    | 'f' :: 'a' :: 'l' :: 's' :: 'e' :: rest => some (.bool false, rest)
    | cs => number cs

/-- What follows `[`: the items read, and the rest of the text if the list was closed. -/
def items : Nat → List Char → List Data × Option (List Char)
  | 0, _ => ([], none)
  | fuel + 1, cs =>
    match skip cs with
    | ']' :: rest => ([], some rest)
    | cs => itemsFrom fuel cs

def itemsFrom : Nat → List Char → List Data × Option (List Char)
  | 0, _ => ([], none)
  | fuel + 1, cs =>
    match value fuel cs with
    | none => ([], none)
    | some (d, rest) =>
      match skip rest with
      | ']' :: rest => ([d], some rest)
      | ',' :: rest =>
        let (others, rest) := itemsFrom fuel rest
        (d :: others, rest)
      | _ => ([d], none)

/-- What follows the opening brace: the members that can be read, and where the record ends. -/
def members : Nat → List Char → List (String × Data) × Closing
  | 0, _ => ([], .broken)
  | fuel + 1, cs =>
    match skip cs with
    | '\x7d' :: rest => ([], .closed rest)
    | cs => membersFrom fuel cs

def membersFrom : Nat → List Char → List (String × Data) × Closing
  | 0, _ => ([], .broken)
  | fuel + 1, cs =>
    match skip cs with
    | '"' :: rest =>
      match string rest with
      | none => ([], .broken)
      | some (name, rest) =>
        match skip rest with
        | ':' :: rest =>
          match value fuel rest with
          | none => ([], .broken)
          | some (d, rest) =>
            match skip rest with
            | '\x7d' :: rest => addMember name d ([], .closed rest)
            | ',' :: rest => addMember name d (membersFrom fuel rest)
            | _ => addMember name d ([], .broken)
        | _ => ([], .broken)
    | _ => ([], .broken)

end

/-- The deepest nesting of lists and records that is read. -/
def maxNesting : Nat := 127

/-- A text as a sequence of members or items, perhaps broken off. -/
inductive Document where
  | record (members : List (String × Data)) (complete : Bool)
  | list (items : List Data) (complete : Bool)
  | other (d : Data)
  | broken

/-- Enough for every value of a text: each takes at least one character and at most three
steps. -/
private def fuelFor (cs : List Char) : Nat := 3 * cs.length + 3

/-- Closed, and nothing but white space after it. -/
private def ended : Option (List Char) → Bool
  | some rest => (skip rest).isEmpty
  | none => false

def document (text : String) : Document :=
  let cs := text.toList
  match skip cs with
  | '\x7b' :: rest =>
    let (entries, closing) := members (fuelFor cs) rest
    .record (Data.cutMembers (maxNesting - 1) entries) (ended closing.rest?)
  | '[' :: rest =>
    let (entries, rest) := items (fuelFor cs) rest
    .list (Data.cutItems (maxNesting - 1) entries) (ended rest)
  | _ =>
    match value (fuelFor cs) cs with
    | some (d, rest) => if ended (some rest) then .other d else .broken
    | none => .broken

/-- The tree of a whole text; parts of it may be unreadable. -/
def tree? (text : String) : Option Data :=
  let cs := text.toList
  match value (fuelFor cs) cs with
  | some (d, rest) => if ended (some rest) then some (d.cut maxNesting) else none
  | none => none

def read? (text : String) : Option Data := (tree? text).filter (·.isReadable)

end LiveSound.Json
