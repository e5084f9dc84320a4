/-!
# Binary floating point, exactly

A binary interchange format is a `Layout`: the widths of its fraction and exponent fields.
Every finite magnitude is a whole number of `units`, the smallest positive number of the format,
so values are exact fractions of natural numbers and rounding (`Layout.round`) is one division
with ties to even. `Binary32` and `Binary64` are the bit patterns of the two common formats; a
pattern is kept as it is, payloads of NaNs included.
-/

namespace LiveSound

/-- The natural number nearest to `num / den`; a half goes to the even neighbour. -/
def roundHalfEven (num den : Nat) : Nat :=
  let q := num / den
  let r := num % den
  if 2 * r < den ∨ (2 * r = den ∧ q % 2 = 0) then q else q + 1

/-- Field widths of a binary interchange format. -/
structure Layout where
  fractionBits : Nat
  exponentBits : Nat
  deriving DecidableEq, Repr

namespace Layout

/-- The 32-bit format. -/
def single : Layout := ⟨23, 8⟩

/-- The 64-bit format. -/
def double : Layout := ⟨52, 11⟩

/-- The smallest positive number of the format is `2 ^ -(l.lowest)`. -/
def lowest (l : Layout) : Nat := Nat.pow 2 (l.exponentBits - 1) - 2 + l.fractionBits

/-- How many of the smallest positive number make one. -/
def one (l : Layout) : Nat := Nat.pow 2 l.lowest

def exponentWeight (l : Layout) : Nat := Nat.pow 2 l.fractionBits

/-- The pattern of positive infinity; larger magnitudes are NaNs. -/
def infinity (l : Layout) : Nat := (Nat.pow 2 l.exponentBits - 1) * l.exponentWeight

def signWeight (l : Layout) : Nat := Nat.pow 2 (l.fractionBits + l.exponentBits)

/-- A finite magnitude as a multiple of the smallest positive number. -/
def units (l : Layout) (magnitude : Nat) : Nat :=
  let exponent := magnitude / l.exponentWeight
  let fraction := magnitude % l.exponentWeight
  if exponent = 0 then fraction
  else (l.exponentWeight + fraction) * Nat.pow 2 (exponent - 1)

/-- The magnitude nearest to `num / den`, a tie going to the even pattern; what is too large
becomes infinity. -/
def round (l : Layout) (num den : Nat) : Nat :=
  let scaled := num * l.one
  let shift := Nat.log2 (scaled / den) - l.fractionBits
  min l.infinity (shift * l.exponentWeight + roundHalfEven scaled (den * Nat.pow 2 shift))

end Layout

/-- A number of the 32-bit binary format, by its bit pattern. -/
structure Binary32 where
  bits : UInt32
  deriving DecidableEq, Inhabited

/-- A number of the 64-bit binary format, by its bit pattern. -/
structure Binary64 where
  bits : UInt64
  deriving DecidableEq, Inhabited

namespace Binary32

def zero : Binary32 := ⟨0⟩

def one : Binary32 := ⟨0x3f800000⟩

def isNegative (x : Binary32) : Bool := x.bits &&& 0x80000000 != 0

/-- The pattern without its sign. -/
def magnitude (x : Binary32) : UInt32 := x.bits &&& 0x7fffffff

def isNaN (x : Binary32) : Bool := x.magnitude > 0x7f800000

def isFinite (x : Binary32) : Bool := x.magnitude < 0x7f800000

/-- Equal as numbers: both zeros are, and nothing is equal to what is no number. -/
def equals (x y : Binary32) : Bool :=
  !x.isNaN && !y.isNaN && (x.bits == y.bits || (x.magnitude == 0 && y.magnitude == 0))

/-- The number of magnitude nearest to `num / den` with the given sign. -/
def ofRatio (negative : Bool) (num den : Nat) : Binary32 :=
  let magnitude := Layout.single.round num den
  ⟨UInt32.ofNat (if negative then Layout.single.signWeight + magnitude else magnitude)⟩

end Binary32

namespace Binary64

def zero : Binary64 := ⟨0⟩

def isNegative (x : Binary64) : Bool := x.bits &&& 0x8000000000000000 != 0

/-- The pattern without its sign. -/
def magnitude (x : Binary64) : UInt64 := x.bits &&& 0x7fffffffffffffff

def isNaN (x : Binary64) : Bool := x.magnitude > 0x7ff0000000000000

def isFinite (x : Binary64) : Bool := x.magnitude < 0x7ff0000000000000

def infinity : Binary64 := ⟨0x7ff0000000000000⟩

def nan : Binary64 := ⟨0x7ff8000000000000⟩

def neg (x : Binary64) : Binary64 := ⟨x.bits ^^^ 0x8000000000000000⟩

/-- The numerator of a finite magnitude over `Layout.double.one`. -/
def units (x : Binary64) : Nat := Layout.double.units x.magnitude.toNat

/-- The number of magnitude nearest to `num / den` with the given sign. -/
def ofRatio (negative : Bool) (num den : Nat) : Binary64 :=
  let magnitude := Layout.double.round num den
  ⟨UInt64.ofNat (if negative then Layout.double.signWeight + magnitude else magnitude)⟩

/-- The number nearest to a natural number. -/
def ofNat (n : Nat) : Binary64 := ofRatio false n 1

/-- The number nearest to a fraction. -/
def ofRat (x : Rat) : Binary64 := ofRatio (x < 0) x.num.natAbs x.den

/-- Narrowed to 32 bits, to nearest. A NaN stays one. -/
def toBinary32 (x : Binary64) : Binary32 :=
  if x.isFinite then .ofRatio x.isNegative x.units Layout.double.one
  else
    let sign : UInt32 := if x.isNegative then 0x80000000 else 0
    let payload : UInt32 := (x.bits >>> 29).toUInt32 &&& 0x3fffff
    let rest : UInt32 := if x.isNaN then 0x7fc00000 ||| payload else 0x7f800000
    ⟨sign ||| rest⟩

end Binary64

namespace Binary32

/-- Widened to 64 bits, without loss. -/
def toBinary64 (x : Binary32) : Binary64 :=
  if x.isFinite then
    .ofRatio x.isNegative (Layout.single.units x.magnitude.toNat) Layout.single.one
  else
    let sign : UInt64 := if x.isNegative then 0x8000000000000000 else 0
    let payload : UInt64 := (x.bits &&& 0x3fffff).toUInt64 <<< 29
    let rest : UInt64 :=
      if x.isNaN then 0x7ff8000000000000 ||| payload else 0x7ff0000000000000
    ⟨sign ||| rest⟩

end Binary32

end LiveSound
