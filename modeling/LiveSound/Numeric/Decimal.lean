import LiveSound.Numeric.Binary

/-!
# Decimal text of numbers

`Decimal` is an exact decimal fraction, as a reader of number text finds it. `Binary64.shortest`
gives the fewest digits that read back as the same number and, among those, the nearest; how
they are laid out is a `FloatStyle`. `Binary64.fixed` prints a number of places of the exact
value, ties to even.
-/

namespace LiveSound

/-- The number `± coefficient · 10 ^ exponent`. -/
structure Decimal where
  negative : Bool
  coefficient : Nat
  exponent : Int
  deriving DecidableEq, Repr

/-- The decimal digits of a natural number. -/
def digitsOf (n : Nat) : List Char := Nat.toDigits 10 n

namespace Decimal

/-- The magnitude as a fraction. -/
def ratio (d : Decimal) : Nat × Nat :=
  if 0 ≤ d.exponent then (d.coefficient * Nat.pow 10 d.exponent.toNat, 1)
  else (d.coefficient, Nat.pow 10 (-d.exponent).toNat)

/-- The nearest 64-bit number. Exponents far outside the format are cut off first, so that
no huge power is formed. -/
def toBinary64 (d : Decimal) : Binary64 :=
  let top : Int := (digitsOf d.coefficient).length + d.exponent
  if d.coefficient = 0 ∨ top < -400 then .ofRatio d.negative 0 1
  else if 400 < top then ⟨if d.negative then 0xfff0000000000000 else 0x7ff0000000000000⟩
  else .ofRatio d.negative d.ratio.1 d.ratio.2

/-- The nearest 32-bit number. -/
def toBinary32 (d : Decimal) : Binary32 :=
  let top : Int := (digitsOf d.coefficient).length + d.exponent
  if d.coefficient = 0 ∨ top < -100 then .ofRatio d.negative 0 1
  else if 100 < top then ⟨if d.negative then 0xff800000 else 0x7f800000⟩
  else .ofRatio d.negative d.ratio.1 d.ratio.2

/-- The same number without trailing zeros in the coefficient. -/
def normalize : Nat → Decimal → Decimal
  | 0, d => d
  | fuel + 1, d =>
    if d.coefficient % 10 = 0 ∧ d.coefficient ≠ 0 then
      normalize fuel { d with coefficient := d.coefficient / 10, exponent := d.exponent + 1 }
    else d

end Decimal

namespace Binary64

/-- The decimal exponent just above `num / den`, up to one. -/
def topExponent (num den : Nat) : Int :=
  if den ≤ num then ((digitsOf (num / den)).length : Int)
  else 1 - ((digitsOf (den / num)).length : Int)

/-- The nearer of the two neighbours of `num / den` on the grid of `10 ^ exponent` that reads
back as `target`; the even one on a tie. -/
def onGrid (target : Binary64) (num den : Nat) (exponent : Int) : Option Decimal :=
  let (n, d) := if 0 ≤ exponent then (num, den * Nat.pow 10 exponent.toNat)
    else (num * Nat.pow 10 (-exponent).toNat, den)
  let near := roundHalfEven n d
  let far := if near = n / d then near + 1 else n / d
  [near, far].findSome? fun c =>
    let x : Decimal := ⟨target.isNegative, c, exponent⟩
    if x.toBinary64 = target then some x else none

/-- The fewest digits that read back as this finite number, and of these the nearest. -/
def shortest (x : Binary64) : Decimal :=
  if x.units = 0 then ⟨x.isNegative, 0, 0⟩
  else
    let num := x.units
    let den := Layout.double.one
    let top := topExponent num den
    let found := (List.range 17).findSome? fun n => onGrid x num den (top - (n + 1 : Nat))
    match found with
    | some d => d.normalize 400
    | none =>
      -- every finite number is a decimal fraction, so the exact value always reads back
      Decimal.normalize 1100
        ⟨x.isNegative, num * Nat.pow 5 Layout.double.lowest, -(Layout.double.lowest : Int)⟩

/-- The value with the given number of places, rounded from the exact value, ties to even. -/
def fixed (places : Nat) (x : Binary64) : String :=
  let sign := if x.isNegative then "-" else ""
  if x.isNaN then "NaN"
  else if !x.isFinite then sign ++ "inf"
  else
    let n := roundHalfEven (x.units * Nat.pow 10 places) Layout.double.one
    let fraction := digitsOf (n % Nat.pow 10 places)
    let padding := List.replicate (places - fraction.length) '0'
    let point := if places = 0 then [] else '.' :: (padding ++ fraction)
    sign ++ String.ofList (digitsOf (n / Nat.pow 10 places) ++ point)

end Binary64

/-- How a finite number is laid out: the range of point positions (counted from the first
digit) that are written without an exponent. A whole number keeps a `.0`. -/
structure FloatStyle where
  lowest : Option Int
  highest : Option Int

namespace FloatStyle

/-- Digits with the point after the first `position` of them. -/
def positional (digits : List Char) (position : Int) : List Char :=
  if position ≤ 0 then
    '0' :: '.' :: (List.replicate (-position).toNat '0' ++ digits)
  else
    let before := position.toNat
    let whole := digits.take before ++ List.replicate (before - digits.length) '0'
    let rest := digits.drop before
    whole ++ '.' :: (if rest.isEmpty then ['0'] else rest)

def scientific (digits : List Char) (position : Int) : List Char :=
  let exponent := position - 1
  let mantissa := match digits with
    | first :: next :: rest => first :: '.' :: next :: rest
    | short => short
  let sign := if exponent < 0 then '-' else '+'
  mantissa ++ 'e' :: sign :: digitsOf exponent.natAbs

def write (style : FloatStyle) (d : Decimal) : String :=
  let digits := digitsOf d.coefficient
  let position : Int := if d.coefficient = 0 then 1 else digits.length + d.exponent
  let inside := style.lowest.all (· ≤ position) && style.highest.all (position ≤ ·)
  let body := if inside then positional digits position else scientific digits position
  String.ofList (if d.negative then '-' :: body else body)

end FloatStyle

end LiveSound
