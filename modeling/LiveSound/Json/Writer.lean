import LiveSound.Data.Basic
import LiveSound.Text.Hex

/-!
# Writing JSON

`Json.write` gives the compact text of a value: members in their order, no spaces, strings escaped
only where the format demands it.
-/

namespace LiveSound.Json

/-- Whole numbers keep `.0`; there is an exponent below 1e-5 and from 1e16 on. -/
def floatStyle : FloatStyle := ⟨some (-4), some 16⟩

def floatText (x : Binary64) : String :=
  if x.isFinite then floatStyle.write x.shortest else "null"

def integerText (n : Int) : String :=
  String.ofList (if n < 0 then '-' :: digitsOf n.natAbs else digitsOf n.natAbs)

/-- How one character is written inside a string. -/
def escape (c : Char) : List Char :=
  if c = '"' then ['\\', '"']
  else if c = '\\' then ['\\', '\\']
  else if c = '\n' then ['\\', 'n']
  else if c = '\r' then ['\\', 'r']
  else if c = '\t' then ['\\', 't']
  else if c = '\x08' then ['\\', 'b']
  else if c = '\x0c' then ['\\', 'f']
  else if c < ' ' then
    ['\\', 'u', '0', '0', hexDigit (c.toNat / 16), hexDigit (c.toNat % 16)]
  else [c]

def stringChars (cs : List Char) : List Char := '"' :: (cs.flatMap escape ++ ['"'])

def stringText (s : String) : String := String.ofList (stringChars s.toList)

mutual

def writeChars : Data → List Char
  | .null => ['n', 'u', 'l', 'l']
  | .unreadable => ['n', 'u', 'l', 'l']
  | .bool true => ['t', 'r', 'u', 'e']
  | .bool false => ['f', 'a', 'l', 's', 'e']
  | .integer n => (integerText n).toList
  | .float x => (floatText x).toList
  | .text s => stringChars s.toList
  | .list items => '[' :: (writeItems items ++ [']'])
  | .record members => '\x7b' :: (writeMembers members ++ ['\x7d'])

def writeItems : List Data → List Char
  | [] => []
  | [d] => writeChars d
  | d :: e :: rest => writeChars d ++ ',' :: writeItems (e :: rest)

def writeMembers : List (String × Data) → List Char
  | [] => []
  | [(name, d)] => stringChars name.toList ++ ':' :: writeChars d
  | (name, d) :: e :: rest =>
    stringChars name.toList ++ ':' :: (writeChars d ++ ',' :: writeMembers (e :: rest))

end

def write (d : Data) : String := String.ofList (writeChars d)

end LiveSound.Json
