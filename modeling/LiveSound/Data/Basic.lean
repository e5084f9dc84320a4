import LiveSound.Numeric.Decimal

/-!
# Untyped data

`Data` is the tree that a settings file or a message on the wire holds before its fields are
given types. Numbers are either whole or 64-bit floating point; members of a record keep the
order of the text, and a name may occur twice.
-/

namespace LiveSound

inductive Data where
  | null
  | bool (b : Bool)
  | integer (n : Int)
  | float (x : Binary64)
  | text (s : String)
  | list (items : List Data)
  | record (members : List (String × Data))
  /-- Something of the right shape that stands for no value, such as a number that is too large.
  A reader that passes over it does not mind. -/
  | unreadable
  deriving Inhabited

namespace Data

mutual

/-- Lists and records may be nested `depth` deep; what is deeper becomes unreadable. -/
def cut : Nat → Data → Data
  | 0, .list _ => .unreadable
  | 0, .record _ => .unreadable
  | depth + 1, .list items => .list (cutItems depth items)
  | depth + 1, .record members => .record (cutMembers depth members)
  | _, d => d

def cutItems (depth : Nat) : List Data → List Data
  | [] => []
  | d :: rest => cut depth d :: cutItems depth rest

def cutMembers (depth : Nat) : List (String × Data) → List (String × Data)
  | [] => []
  | (name, d) :: rest => (name, cut depth d) :: cutMembers depth rest

end

mutual

def isReadable : Data → Bool
  | .unreadable => false
  | .list items => readableItems items
  | .record members => readableMembers members
  | _ => true

def readableItems : List Data → Bool
  | [] => true
  | d :: rest => d.isReadable && readableItems rest

def readableMembers : List (String × Data) → Bool
  | [] => true
  | (_, d) :: rest => d.isReadable && readableMembers rest

end

/-- Inserts a member at its place in the order of names, in place of one of the same name. -/
def insertMember (name : String) (d : Data) : List (String × Data) → List (String × Data)
  | [] => [(name, d)]
  | (other, e) :: rest =>
    if name = other then (name, d) :: rest
    else if name < other then (name, d) :: (other, e) :: rest
    else (other, e) :: insertMember name d rest

mutual

/-- Members in the order of their names, the last of equal names kept. -/
def sorted : Data → Data
  | .list items => .list (sortedItems items)
  | .record members => .record (sortedMembers members [])
  | d => d

def sortedItems : List Data → List Data
  | [] => []
  | d :: rest => d.sorted :: sortedItems rest

def sortedMembers : List (String × Data) → List (String × Data) → List (String × Data)
  | [], done => done
  | (name, d) :: rest, done => sortedMembers rest (insertMember name d.sorted done)

end

mutual

/-- Every text, the names of members too, replaced by what `f` makes of it. -/
def mapTexts (f : String → String) : Data → Data
  | .text s => .text (f s)
  | .list items => .list (mapItems f items)
  | .record members => .record (mapMembers f members)
  | d => d

def mapItems (f : String → String) : List Data → List Data
  | [] => []
  | d :: rest => mapTexts f d :: mapItems f rest

def mapMembers (f : String → String) : List (String × Data) → List (String × Data)
  | [] => []
  | (name, d) :: rest => (f name, mapTexts f d) :: mapMembers f rest

end

def member? (name : String) : Data → Option Data
  | .record members => (members.reverse.find? (·.1 == name)).map (·.2)
  | _ => none

end Data

end LiveSound
