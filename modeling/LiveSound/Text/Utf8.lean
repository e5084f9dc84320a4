/-!
# UTF-8

Text as bytes and back. `Utf8.decode?` accepts exactly well-formed input; `Utf8.lossy` also reads
damaged input, writing U+FFFD once for each maximal piece that begins a character and cannot be
completed.
-/

namespace LiveSound

/-- Raw data: a file, a module, a reply body. -/
abbrev Bytes := List UInt8

namespace Utf8

def encodeChars : List Char → Bytes
  | [] => []
  | c :: rest => String.utf8EncodeChar c ++ encodeChars rest

def encode (text : String) : Bytes := encodeChars text.toList

/-- What the bytes after a first byte have to be: how many follow, the range of the next one,
and the bits that the first byte gives. -/
structure Lead where
  following : Nat
  low : UInt8
  high : UInt8
  bits : Nat
  deriving DecidableEq, Repr

/-- The shapes of a first byte. Overlong forms, surrogates and numbers past U+10FFFF are excluded
by the range of the second byte. -/
def lead? (b : UInt8) : Option Lead :=
  if b < 0x80 then some ⟨0, 0x80, 0xBF, b.toNat⟩
  else if b < 0xC2 then none
  else if b < 0xE0 then some ⟨1, 0x80, 0xBF, b.toNat - 0xC0⟩
  else if b = 0xE0 then some ⟨2, 0xA0, 0xBF, 0⟩
  else if b = 0xED then some ⟨2, 0x80, 0x9F, 13⟩
  else if b < 0xF0 then some ⟨2, 0x80, 0xBF, b.toNat - 0xE0⟩
  else if b = 0xF0 then some ⟨3, 0x90, 0xBF, 0⟩
  else if b < 0xF4 then some ⟨3, 0x80, 0xBF, b.toNat - 0xF0⟩
  else if b = 0xF4 then some ⟨3, 0x80, 0x8F, 4⟩
  else none

/-- Reads the bytes that follow a first byte: the code point and how many were used, or
how many belong to a piece that breaks off. -/
def follow : Nat → UInt8 → UInt8 → Nat → Bytes → Nat → Except Nat (Nat × Nat)
  | 0, _, _, value, _, used => .ok (value, used)
  | _ + 1, _, _, _, [], used => .error used
  | n + 1, low, high, value, b :: rest, used =>
    if low ≤ b ∧ b ≤ high then
      follow n 0x80 0xBF (value * 64 + (b.toNat - 0x80)) rest (used + 1)
    else .error used

/-- The first character of `b :: rest` and how many bytes of `rest` it takes; when it is damaged,
how many bytes of `rest` belong to the damaged piece. -/
def next (b : UInt8) (rest : Bytes) : Except Nat (Char × Nat) :=
  match lead? b with
  | none => .error 0
  | some l =>
    match follow l.following l.low l.high l.bits rest 0 with
    | .ok (value, used) => .ok (Char.ofNat value, used)
    | .error used => .error used

def lossyChars : Bytes → List Char
  | [] => []
  | b :: rest =>
    match next b rest with
    | .ok (c, used) => c :: lossyChars (rest.drop used)
    | .error used => '\uFFFD' :: lossyChars (rest.drop used)
termination_by bytes => bytes.length
decreasing_by all_goals simp only [List.length_drop, List.length_cons]; omega

/-- The text of possibly damaged input. -/
def lossy (bytes : Bytes) : String := String.ofList (lossyChars bytes)

def decodeChars? : Bytes → Option (List Char)
  | [] => some []
  | b :: rest =>
    match next b rest with
    | .ok (c, used) => (decodeChars? (rest.drop used)).map (c :: ·)
    | .error _ => none
termination_by bytes => bytes.length
decreasing_by all_goals simp only [List.length_drop, List.length_cons]; omega

/-- The text of well-formed input. -/
def decode? (bytes : Bytes) : Option String := (decodeChars? bytes).map String.ofList

/-- The input without a leading byte order mark. -/
def dropMark : Bytes → Bytes
  | 0xEF :: 0xBB :: 0xBF :: rest => rest
  | bytes => bytes

end Utf8

end LiveSound
