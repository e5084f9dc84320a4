import LiveSound.Text.Hex
import LiveSound.Toml.Moment
import LiveSound.Toml.Table

/-!
# Reading TOML

`Toml.read?` reads the statements of a text and builds their record. Whole numbers have 64 bits
with a sign. A date or a time is read as a record whose only member is its text, so that it is
taken neither for a text nor for a number.
-/

namespace LiveSound.Toml

/-! ## Blanks, comments and line ends -/

def isBlank (c : Char) : Bool := c == ' ' || c == '\t'

/-- All but control characters; of these the tab is let in. -/
def isPlain (c : Char) : Bool := c == '\t' || (' ' ≤ c && c != '\x7f')

def skipBlank (cs : List Char) : List Char := cs.dropWhile isBlank

def newline? : List Char → Option (List Char)
  | '\n' :: rest => some rest
  | '\r' :: '\n' :: rest => some rest
  | _ => none

def skipComment : List Char → List Char
  | '#' :: rest => rest.dropWhile isPlain
  | cs => cs

/-- The text after the rest of a line that holds nothing more. -/
def lineEnd? (cs : List Char) : Option (List Char) :=
  match skipComment (skipBlank cs) with
  | [] => some []
  | rest => newline? rest

/-- Skips blanks, line ends and comments; a comment has to be followed by a line end. -/
def skipLines : Nat → List Char → Option (List Char)
  | 0, _ => none
  | fuel + 1, cs =>
    match skipBlank cs with
    | '#' :: rest => do skipLines fuel (← newline? (rest.dropWhile isPlain))
    | rest =>
      match newline? rest with
      | some rest => skipLines fuel rest
      | none => some rest

/-! ## Strings -/

/-- The character that a letter after a backslash stands for. -/
def escaped? : Char → Option Char
  | 'b' => some '\x08'
  | 't' => some '\t'
  | 'n' => some '\n'
  | 'f' => some '\x0c'
  | 'r' => some '\r'
  | '"' => some '"'
  | '\\' => some '\\'
  | _ => none

/-- The character of a number in hexadecimal digits. -/
def numbered? (digits : List Char) : Option Char := do
  let n ← digits.foldlM (fun n c => do return n * 16 + (← hexValue? c)) 0
  if n.isValidChar then some (Char.ofNat n) else none

/-- The rest of a string in double quotes. -/
def basicBody? : List Char → Option (List Char × List Char)
  | [] => none
  | '"' :: rest => some ([], rest)
  | '\\' :: 'u' :: a :: b :: c :: d :: rest => do
    let found ← numbered? [a, b, c, d]
    let (body, rest) ← basicBody? rest
    return (found :: body, rest)
  | '\\' :: 'U' :: a :: b :: c :: d :: e :: f :: g :: h :: rest => do
    let found ← numbered? [a, b, c, d, e, f, g, h]
    let (body, rest) ← basicBody? rest
    return (found :: body, rest)
  | '\\' :: c :: rest => do
    let found ← escaped? c
    let (body, rest) ← basicBody? rest
    return (found :: body, rest)
  | c :: rest =>
    if isPlain c && c != '\\' then do
      let (body, rest) ← basicBody? rest
      return (c :: body, rest)
    else none
termination_by cs => cs.length

/-- The rest of a string in single quotes, where nothing is escaped. -/
def literalBody? : List Char → Option (List Char × List Char)
  | [] => none
  | '\'' :: rest => some ([], rest)
  | c :: rest =>
    if isPlain c then do
      let (body, rest) ← literalBody? rest
      return (c :: body, rest)
    else none

/-- The end of a string in three quotes, of which the first three have been read: up to two more
belong to the text. -/
def longEnd (quote : Char) (cs : List Char) : List Char × List Char :=
  let extra := (cs.take 2).takeWhile (· == quote)
  (extra, cs.drop extra.length)

/-- A backslash before this is followed by nothing but blanks on its line. -/
def endsLine (cs : List Char) : Bool := (newline? (skipBlank cs)).isSome

/-- The rest of a string in three double quotes. While `skipping`, blanks and line ends are passed
over: a backslash at the end of a line says so. -/
def longBasicBody? : Bool → List Char → Option (List Char × List Char)
  | _, [] => none
  | true, ' ' :: rest => longBasicBody? true rest
  | true, '\t' :: rest => longBasicBody? true rest
  | true, '\n' :: rest => longBasicBody? true rest
  | skipping, '\r' :: '\n' :: rest => do
    if skipping then longBasicBody? true rest
    else
      let (body, rest) ← longBasicBody? false rest
      return ('\n' :: body, rest)
  | _, '"' :: '"' :: '"' :: rest => some (longEnd '"' rest)
  | _, '\\' :: 'u' :: a :: b :: c :: d :: rest => do
    let found ← numbered? [a, b, c, d]
    let (body, rest) ← longBasicBody? false rest
    return (found :: body, rest)
  | _, '\\' :: 'U' :: a :: b :: c :: d :: e :: f :: g :: h :: rest => do
    let found ← numbered? [a, b, c, d, e, f, g, h]
    let (body, rest) ← longBasicBody? false rest
    return (found :: body, rest)
  | _, '\\' :: c :: rest => do
    if endsLine (c :: rest) then longBasicBody? true (c :: rest)
    else
      let found ← escaped? c
      let (body, rest) ← longBasicBody? false rest
      return (found :: body, rest)
  | _, c :: rest =>
    if (isPlain c && c != '\\') || c == '\n' then do
      let (body, rest) ← longBasicBody? false rest
      return (c :: body, rest)
    else none
termination_by _ cs => cs.length

def longLiteralBody? : List Char → Option (List Char × List Char)
  | [] => none
  | '\r' :: '\n' :: rest => do
    let (body, rest) ← longLiteralBody? rest
    return ('\n' :: body, rest)
  | '\'' :: '\'' :: '\'' :: rest => some (longEnd '\'' rest)
  | c :: rest =>
    if isPlain c || c == '\n' then do
      let (body, rest) ← longLiteralBody? rest
      return (c :: body, rest)
    else none
termination_by cs => cs.length

/-- A line end just after three opening quotes is no part of the text. -/
def dropNewline (cs : List Char) : List Char := (newline? cs).getD cs

def string? : List Char → Option (List Char × List Char)
  | '"' :: '"' :: '"' :: rest => longBasicBody? false (dropNewline rest)
  | '\'' :: '\'' :: '\'' :: rest => longLiteralBody? (dropNewline rest)
  | '"' :: rest => basicBody? rest
  | '\'' :: rest => literalBody? rest
  | _ => none

/-! ## Keys -/

def isBare (c : Char) : Bool := c.isAlphanum || c == '-' || c == '_'

/-- One part of a dotted key. -/
def name? (cs : List Char) : Option (String × List Char) :=
  match cs with
  | '"' :: rest => (basicBody? rest).map fun (body, rest) => (String.ofList body, rest)
  | '\'' :: rest => (literalBody? rest).map fun (body, rest) => (String.ofList body, rest)
  | _ =>
    let bare := cs.takeWhile isBare
    if bare.isEmpty then none else some (String.ofList bare, cs.dropWhile isBare)

def names? : Nat → List Char → Option (List String × List Char)
  | 0, _ => none
  | fuel + 1, cs => do
    let (name, rest) ← name? (skipBlank cs)
    match skipBlank rest with
    | '.' :: rest =>
      let (others, rest) ← names? fuel rest
      return (name :: others, rest)
    | rest => return ([name], rest)

/-- A key has fewer parts than this, and values are nested less deep. -/
def nestingLimit : Nat := 80

def key? (cs : List Char) : Option (Key × List Char) := do
  let (names, rest) ← names? (nestingLimit - 1) cs
  return (⟨names.dropLast, ← names.getLast?⟩, rest)

/-! ## Numbers -/

/-- Digits after a first one; single underscores may stand between them. -/
def moreDigits (isDigit : Char → Bool) : List Char → List Char × List Char
  | [] => ([], [])
  | '_' :: c :: rest =>
    if isDigit c then
      let (digits, rest) := moreDigits isDigit rest
      (c :: digits, rest)
    else ([], '_' :: c :: rest)
  | c :: rest =>
    if isDigit c then
      let (digits, rest) := moreDigits isDigit rest
      (c :: digits, rest)
    else ([], c :: rest)

def digits? (isDigit : Char → Bool) : List Char → Option (List Char × List Char)
  | c :: rest =>
    if isDigit c then
      let (digits, rest) := moreDigits isDigit rest
      some (c :: digits, rest)
    else none
  | [] => none

/-- Decimal digits that do not begin with a zero, or a zero. -/
def whole? : List Char → Option (List Char × List Char)
  | '0' :: rest => some (['0'], rest)
  | cs => digits? Char.isDigit cs

def sign : List Char → Bool × List Char
  | '-' :: rest => (true, rest)
  | '+' :: rest => (false, rest)
  | rest => (false, rest)

def valueIn (base : Nat) (digits : List Char) : Nat :=
  digits.foldl (fun n c => n * base + (hexValue? c).getD 0) 0

/-- The whole numbers that are read. -/
def integer? (negative : Bool) (n : Nat) : Option Data :=
  if negative then if n ≤ 0x8000000000000000 then some (.integer (-(n : Int))) else none
  else if n < 0x8000000000000000 then some (.integer n) else none

def exponent? : List Char → Option (Option Int × List Char)
  | c :: rest =>
    if c = 'e' ∨ c = 'E' then do
      let (negative, rest) := sign rest
      let (digits, rest) ← digits? Char.isDigit rest
      let n : Int := valueIn 10 digits
      return (some (if negative then -n else n), rest)
    else some (none, c :: rest)
  | [] => some (none, [])

def places? : List Char → Option (Option (List Char) × List Char)
  | '.' :: rest => do
    let (digits, rest) ← digits? Char.isDigit rest
    return (some digits, rest)
  | rest => some (none, rest)

/-- The nearest number of 64 bits; one that is too large is refused if it is positive. -/
def float? (d : Decimal) : Option Data :=
  let x := d.toBinary64
  if x = .infinity then none else some (.float x)

def decimal? (cs : List Char) : Option (Data × List Char) := do
  let (negative, cs) := sign cs
  match cs with
  | 'i' :: 'n' :: 'f' :: rest =>
    return (.float (if negative then Binary64.infinity.neg else .infinity), rest)
  | 'n' :: 'a' :: 'n' :: rest =>
    return (.float (if negative then Binary64.nan.neg else .nan), rest)
  | _ =>
    let (whole, cs) ← whole? cs
    let (places, cs) ← places? cs
    let (exponent, cs) ← exponent? cs
    if places.isNone && exponent.isNone then
      return (← integer? negative (valueIn 10 whole), cs)
    let places := places.getD []
    let d : Decimal :=
      ⟨negative, valueIn 10 (whole ++ places), exponent.getD 0 - (places.length : Int)⟩
    return (← float? d, cs)

def based? (base : Nat) (isDigit : Char → Bool) (cs : List Char) : Option (Data × List Char) := do
  let (digits, rest) ← digits? isDigit cs
  return (← integer? false (valueIn base digits), rest)

def number? : List Char → Option (Data × List Char)
  | '0' :: 'x' :: rest => based? 16 (fun c => (hexValue? c).isSome) rest
  | '0' :: 'o' :: rest => based? 8 (fun c => '0' ≤ c && c ≤ '7') rest
  | '0' :: 'b' :: rest => based? 2 (fun c => c == '0' || c == '1') rest
  | cs => decimal? cs

/-! ## Values -/

/-- A date or a time. -/
def moment? (cs : List Char) : Option (Data × List Char) := do
  let rest ← Moment.rest? cs
  let text := cs.take (cs.length - rest.length)
  return (.record [("$moment", .text (String.ofList text))], rest)

/-- A value that holds no others. -/
def scalar? (cs : List Char) : Option (Data × List Char) :=
  match cs with
  | 't' :: 'r' :: 'u' :: 'e' :: rest => some (.bool true, rest)
  | 'f' :: 'a' :: 'l' :: 's' :: 'e' :: rest => some (.bool false, rest)
  | _ =>
    match string? cs with
    | some (body, rest) => some (.text (String.ofList body), rest)
    | none => (moment? cs).orElse fun _ => number? cs

mutual

/-- A value in which lists and tables are nested less than `depth` deep. -/
def value? : Nat → Nat → List Char → Option (Data × List Char)
  | 0, _, _ => none
  | fuel + 1, depth, cs =>
    match cs with
    | '[' :: rest =>
      if 1 < depth then do
        let (items, rest) ← items? fuel (depth - 1) rest
        return (.list items, rest)
      else none
    | '\x7b' :: rest =>
      if 1 < depth then do
        let (statements, rest) ← pairs? fuel (depth - 1) rest
        return (← build? statements, rest)
      else none
    | _ => scalar? cs

/-- What follows the opening bracket of a list, or a comma in it. -/
def items? : Nat → Nat → List Char → Option (List Data × List Char)
  | 0, _, _ => none
  | fuel + 1, depth, cs => do
    match ← skipLines (cs.length + 1) cs with
    | ']' :: rest => return ([], rest)
    | cs =>
      let (d, rest) ← value? fuel depth cs
      match ← skipLines (rest.length + 1) rest with
      | ']' :: rest => return ([d], rest)
      | ',' :: rest =>
        let (others, rest) ← items? fuel depth rest
        return (d :: others, rest)
      | _ => none

/-- What follows the opening brace of a table. -/
def pairs? : Nat → Nat → List Char → Option (List Statement × List Char)
  | 0, _, _ => none
  | fuel + 1, depth, cs =>
    match skipBlank cs with
    | '\x7d' :: rest => some ([], rest)
    | cs => pairsFrom? fuel depth cs

/-- Pairs up to the closing brace, of which there is at least one. -/
def pairsFrom? : Nat → Nat → List Char → Option (List Statement × List Char)
  | 0, _, _ => none
  | fuel + 1, depth, cs => do
    let (k, rest) ← key? cs
    match rest with
    | '=' :: rest =>
      let (d, rest) ← value? fuel depth (skipBlank rest)
      match skipBlank rest with
      | '\x7d' :: rest => return ([.assign k d], rest)
      | ',' :: rest =>
        let (others, rest) ← pairsFrom? fuel depth rest
        return (.assign k d :: others, rest)
      | _ => none
    | _ => none

end

/-! ## Documents -/

def header? (cs : List Char) : Option (Statement × List Char) := do
  match cs with
  | '[' :: rest =>
    match ← key? rest with
    | (k, ']' :: ']' :: rest) => return (.item k, ← lineEnd? rest)
    | _ => none
  | _ =>
    match ← key? cs with
    | (k, ']' :: rest) => return (.table k, ← lineEnd? rest)
    | _ => none

/-- An assignment up to the end of its line. Each value takes at least one character and three
steps. -/
def assignment? (cs : List Char) : Option (Statement × List Char) := do
  match ← key? cs with
  | (k, '=' :: rest) =>
    let (d, rest) ← value? (3 * rest.length + 3) nestingLimit (skipBlank rest)
    return (.assign k d, ← lineEnd? rest)
  | _ => none

def statements? : Nat → List Char → Option (List Statement)
  | 0, _ => none
  | fuel + 1, cs =>
    match skipBlank cs with
    | [] => some []
    | '#' :: rest => do statements? fuel (← lineEnd? ('#' :: rest))
    | '\n' :: rest => statements? fuel rest
    | '\r' :: rest => do statements? fuel (← newline? ('\r' :: rest))
    | '[' :: rest => do
      let (s, rest) ← header? rest
      return s :: (← statements? fuel rest)
    | cs => do
      let (s, rest) ← assignment? cs
      return s :: (← statements? fuel rest)

/-- A byte order mark may come first. -/
def dropMark : List Char → List Char
  | '\uFEFF' :: rest => rest
  | cs => cs

def read? (text : String) : Option Data := do
  let cs := dropMark text.toList
  build? (← statements? (cs.length + 1) cs)

end LiveSound.Toml
