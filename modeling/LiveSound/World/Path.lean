import LiveSound.Text.Blank

/-!
# Path names

Names of files as texts. A path is absolute if it starts with a slash; doubled slashes, slashes at
the end and parts that are a single dot have no meaning of their own.
-/

namespace LiveSound.Path

def isAbsolute (p : String) : Bool := p.startsWith "/"

/-- `p` as seen from `base`. -/
def join (base p : String) : String :=
  if isAbsolute p || base.isEmpty then p
  else if base.endsWith "/" then base ++ p
  else base ++ "/" ++ p

/-- Takes slashes and single dots off the end of a reversed path. -/
def trimReversed : List Char → List Char
  | ['/'] => ['/']
  | '/' :: rest => trimReversed rest
  | ['.', '/'] => ['/']
  | '.' :: '/' :: rest => trimReversed rest
  | cs => cs

/-- The last part of a path and what stands before it. -/
structure Last where
  /-- With the slash, if there is one. -/
  before : List Char
  name : List Char

/-- The last part; a root and an empty path have none. -/
def last? (p : String) : Option Last :=
  match trimReversed p.toList.reverse with
  | [] => none
  | ['/'] => none
  | cs => some ⟨(cs.dropWhile (· != '/')).reverse, (cs.takeWhile (· != '/')).reverse⟩

/-- The last part if it is a name. -/
def fileName? (p : String) : Option String :=
  match last? p with
  | some l => if l.name = ['.'] ∨ l.name = ['.', '.'] then none else some (String.ofList l.name)
  | none => none

/-- The path without its last part. -/
def parent? (p : String) : Option String :=
  (last? p).map fun l => String.ofList (trimReversed l.before.reverse).reverse

/-- A name without its extension; a dot at its start begins no extension. -/
def stem (name : List Char) : List Char :=
  match (name.reverse.dropWhile (· != '.')).reverse with
  | [] => name
  | ['.'] => name
  | upTo => upTo.dropLast

/-- What follows the last dot of a name; a dot at its start begins no extension. -/
def extension? (p : String) : Option String :=
  match last? p with
  | none => none
  | some l =>
    if l.name = ['.'] ∨ l.name = ['.', '.'] ∨ stem l.name = l.name then none
    else some (String.ofList (l.name.drop ((stem l.name).length + 1)))

/-- The path with another extension in place of its own. -/
def withExtension (p extension : String) : String :=
  match last? p with
  | none => p
  | some l =>
    if l.name = ['.'] ∨ l.name = ['.', '.'] then p
    else String.ofList (l.before ++ stem l.name) ++ "." ++ extension

/-- The texts between slashes; there is always at least one. -/
def pieces (p : String) : List String := (Text.pieces '/' p.toList).map String.ofList

/-- The texts between slashes that are not empty. -/
def parts (p : String) : List String := (pieces p).filter (· != "")

/-- The parts that count: a single dot counts only where a path begins with it. -/
def components (p : String) : List String :=
  let named := (parts p).filter (· != ".")
  if isAbsolute p then "/" :: named
  else if (pieces p).head? = some "." then "." :: named
  else named

/-- Both are written for one path. -/
def same (p q : String) : Bool := components p == components q

end LiveSound.Path
