/-!
# White space and lines

White space is the Unicode property of that name. `Text.trim` removes it at both ends;
`Text.lines` are the pieces between newlines, with one carriage return before a newline dropped.
-/

namespace LiveSound.Text

/-- White space in the sense of Unicode. -/
def isBlank (c : Char) : Bool :=
  let n := c.toNat
  (9 ≤ n && n ≤ 13) || n == 0x20 || n == 0x85 || n == 0xA0 || n == 0x1680 ||
    (0x2000 ≤ n && n ≤ 0x200A) || n == 0x2028 || n == 0x2029 || n == 0x202F ||
    n == 0x205F || n == 0x3000

/-- Without the characters at the end that satisfy `p`. -/
def dropWhileEnd (p : Char → Bool) (cs : List Char) : List Char :=
  (cs.reverse.dropWhile p).reverse

def trimChars (cs : List Char) : List Char := dropWhileEnd isBlank (cs.dropWhile isBlank)

/-- Without white space at both ends. -/
def trim (s : String) : String := String.ofList (trimChars s.toList)

/-- Without white space at the start. -/
def trimStart (s : String) : String := String.ofList (s.toList.dropWhile isBlank)

/-- Without any copies of `c` at the end. -/
def trimEndOf (c : Char) (s : String) : String :=
  String.ofList (dropWhileEnd (· == c) s.toList)

/-- Without any copies of `c` at the start. -/
def trimStartOf (c : Char) (s : String) : String :=
  String.ofList (s.toList.dropWhile (· == c))

/-- Nothing but white space. -/
def allBlank (s : String) : Bool := s.toList.all isBlank

def lowerAscii (s : String) : String := String.ofList (s.toList.map Char.toLower)

/-- The pieces between copies of a character; there is always at least one. -/
def pieces (mark : Char) : List Char → List (List Char)
  | [] => [[]]
  | c :: cs =>
    if c = mark then [] :: pieces mark cs
    else
      match pieces mark cs with
      | piece :: rest => (c :: piece) :: rest
      | [] => [[c]]

/-- The pieces between newlines. -/
def splitLines (cs : List Char) : List (List Char) := pieces '\n' cs

/-- Without one carriage return at the end. -/
def dropReturn (line : List Char) : List Char :=
  match line.reverse with
  | '\r' :: rest => rest.reverse
  | _ => line

/-- Lines of a text: each ends at a newline, which is not part of it, nor is a carriage return
just before it. What follows the last newline is a line unless it is empty. -/
def lineChars (cs : List Char) : List (List Char) :=
  match (splitLines cs).reverse with
  | [] => []
  | last :: ended =>
    let complete := ended.reverse.map dropReturn
    if last.isEmpty then complete else complete ++ [last]

def lines (s : String) : List String := (lineChars s.toList).map String.ofList

end LiveSound.Text
