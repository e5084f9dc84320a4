import LiveSound.Numeric.Decimal

/-!
# Numbers as people type them

Digits with an optional sign, point and exponent, or one of the words `inf`, `infinity` and `nan` in
any case.
-/

namespace LiveSound

inductive NumberLiteral where
  | decimal (d : Decimal)
  | infinite (negative : Bool)
  | nan
  deriving DecidableEq, Repr

namespace NumberLiteral

def digitsValue (digits : List Char) : Nat :=
  digits.foldl (fun n c => n * 10 + (c.toNat - '0'.toNat)) 0

/-- A sign, which may be missing, and what follows it. -/
def signed : List Char → Bool × List Char
  | '-' :: rest => (true, rest)
  | '+' :: rest => (false, rest)
  | rest => (false, rest)

/-- The exponent that a text consists of; an empty text is none. -/
def exponent? : List Char → Option Int
  | [] => some 0
  | e :: rest =>
    if e = 'e' ∨ e = 'E' then
      let (negative, digits) := signed rest
      if digits.isEmpty || !digits.all Char.isDigit then none
      else some (if negative then -(digitsValue digits : Int) else digitsValue digits)
    else none

/-- A number without its sign. -/
def decimal? (negative : Bool) (cs : List Char) : Option Decimal := do
  let whole := cs.takeWhile Char.isDigit
  let (places, rest) := match cs.dropWhile Char.isDigit with
    | '.' :: rest => (rest.takeWhile Char.isDigit, rest.dropWhile Char.isDigit)
    | rest => ([], rest)
  if whole.isEmpty && places.isEmpty then none
  let exponent ← exponent? rest
  return ⟨negative, digitsValue (whole ++ places), exponent - (places.length : Int)⟩

def read? (text : String) : Option NumberLiteral :=
  let (negative, cs) := signed text.toList
  let word := String.ofList (cs.map Char.toLower)
  if word = "inf" ∨ word = "infinity" then some (.infinite negative)
  else if word = "nan" then some .nan
  else (decimal? negative cs).map .decimal

def toBinary64 : NumberLiteral → Binary64
  | .decimal d => d.toBinary64
  | .infinite negative => if negative then Binary64.infinity.neg else .infinity
  | .nan => .nan

/-- The nearest number of 32 bits, rounded once. -/
def toBinary32 : NumberLiteral → Binary32
  | .decimal d => d.toBinary32
  | n => n.toBinary64.toBinary32

end NumberLiteral

/-- A whole number below `limit`; a plus sign may come first. -/
def natural? (limit : Nat) (text : String) : Option Nat :=
  let digits := match text.toList with
    | '+' :: rest => rest
    | cs => cs
  if digits.isEmpty || !digits.all Char.isDigit then none
  else
    let n := NumberLiteral.digitsValue digits
    if n < limit then some n else none

end LiveSound
