import LiveSound.Text.Blank
import LiveSound.Text.Utf8

/-!
# Text of reply bodies

A body is decoded by the character set that its content type names, UTF-8 if it names none. A byte
order mark at the start counts for more than the name, and is dropped.
-/

namespace LiveSound.Net

inductive Charset where
  | utf8
  | utf16 (bigEndian : Bool)
  | windows1252
  deriving DecidableEq, Repr

namespace Charset

/-- The characters of the bytes from 0x80 to 0x9F in Windows-1252. -/
def upperControls : List Nat :=
  [0x20AC, 0x81, 0x201A, 0x192, 0x201E, 0x2026, 0x2020, 0x2021, 0x2C6, 0x2030, 0x160, 0x2039,
   0x152, 0x8D, 0x17D, 0x8F, 0x90, 0x2018, 0x2019, 0x201C, 0x201D, 0x2022, 0x2013, 0x2014, 0x2DC,
   0x2122, 0x161, 0x203A, 0x153, 0x9D, 0x17E, 0x178]

def ofWindows1252 (b : UInt8) : Char :=
  if 0x80 ≤ b ∧ b < 0xA0 then Char.ofNat (upperControls.getD (b.toNat - 0x80) 0xFFFD)
  else Char.ofNat b.toNat

/-- Units of 16 bits; `none` for a byte that is left over. -/
def units (bigEndian : Bool) : Bytes → List (Option Nat)
  | a :: b :: rest =>
    let unit := if bigEndian then a.toNat * 256 + b.toNat else b.toNat * 256 + a.toNat
    some unit :: units bigEndian rest
  | [_] => [none]
  | [] => []

/-- Pairs of surrogates are one character; a surrogate alone is damage. -/
def ofUnits : List (Option Nat) → List Char
  | [] => []
  | none :: rest => '\uFFFD' :: ofUnits rest
  | some u :: some v :: rest =>
    if 0xD800 ≤ u ∧ u < 0xDC00 ∧ 0xDC00 ≤ v ∧ v < 0xE000 then
      Char.ofNat (0x10000 + (u - 0xD800) * 0x400 + (v - 0xDC00)) :: ofUnits rest
    else if 0xD800 ≤ u ∧ u < 0xE000 then '\uFFFD' :: ofUnits (some v :: rest)
    else Char.ofNat u :: ofUnits (some v :: rest)
  | some u :: rest =>
    (if 0xD800 ≤ u ∧ u < 0xE000 then '\uFFFD' else Char.ofNat u) :: ofUnits rest

def decode : Charset → Bytes → String
  | .utf8, bytes => Utf8.lossy bytes
  | .utf16 bigEndian, bytes => String.ofList (ofUnits (units bigEndian bytes))
  | .windows1252, bytes => String.ofList (bytes.map ofWindows1252)

/-- The charset of that name; the names of ASCII and Latin 1 mean Windows-1252. -/
def ofName? (name : String) : Option Charset :=
  match Text.lowerAscii (Text.trim name) with
  | "utf-8" => some .utf8
  | "utf8" => some .utf8
  | "unicode-1-1-utf-8" => some .utf8
  | "iso-8859-1" => some .windows1252
  | "iso8859-1" => some .windows1252
  | "iso88591" => some .windows1252
  | "iso_8859-1" => some .windows1252
  | "latin1" => some .windows1252
  | "l1" => some .windows1252
  | "ascii" => some .windows1252
  | "us-ascii" => some .windows1252
  | "cp1252" => some .windows1252
  | "windows-1252" => some .windows1252
  | "x-cp1252" => some .windows1252
  | "utf-16" => some (.utf16 false)
  | "utf-16le" => some (.utf16 false)
  | "unicode" => some (.utf16 false)
  | "utf-16be" => some (.utf16 true)
  | _ => none

/-- The pieces between semicolons. -/
def parameters : List Char → List (List Char)
  | [] => [[]]
  | c :: cs =>
    if c = ';' then [] :: parameters cs
    else
      match parameters cs with
      | p :: rest => (c :: p) :: rest
      | [] => [[c]]

/-- The value of a parameter `charset=value`, perhaps in quotes. -/
def ofParameter? (p : List Char) : Option Charset :=
  let name := String.ofList (Text.trimChars (p.takeWhile (· != '=')))
  if Text.lowerAscii name = "charset" then
    ofName? (String.ofList (((p.dropWhile (· != '=')).drop 1).filter (· != '"')))
  else none

def ofContentType (contentType : Option String) : Charset :=
  match contentType with
  | none => .utf8
  | some t => ((parameters t.toList).drop 1).findSome? ofParameter? |>.getD .utf8

end Charset

def textOf (contentType : Option String) : Bytes → String
  | 0xEF :: 0xBB :: 0xBF :: rest => Charset.utf8.decode rest
  | 0xFF :: 0xFE :: rest => (Charset.utf16 false).decode rest
  | 0xFE :: 0xFF :: rest => (Charset.utf16 true).decode rest
  | bytes => (Charset.ofContentType contentType).decode bytes

end LiveSound.Net
