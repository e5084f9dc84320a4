import LiveSound.Data.Basic
import LiveSound.Text.Hex

/-!
# Looking into data

Members of a record by their names, for readers that take what is missing, or of another kind, for
a default.
-/

namespace LiveSound.Data

def get (d : Data) (name : String) : Data := (d.member? name).getD .null

def isNull : Data → Bool
  | .null => true
  | _ => false

def text? : Data → Option String
  | .text s => some s
  | _ => none

def int? : Data → Option Int
  | .integer n => some n
  | _ => none

def nat? (d : Data) : Option Nat := d.int?.bind fun n => if 0 ≤ n then some n.toNat else none

def items : Data → List Data
  | .list items => items
  | _ => []

def members : Data → List (String × Data)
  | .record members => members
  | _ => []

def texts (d : Data) : List String := d.items.filterMap text?

def textAt? (d : Data) (name : String) : Option String := (d.get name).text?

def textAt (d : Data) (name : String) : String := (d.textAt? name).getD ""

def natAt (d : Data) (name : String) (start : Nat) : Nat := (d.get name).nat?.getD start

def boolAt (d : Data) (name : String) (start : Bool) : Bool :=
  match d.get name with
  | .bool b => b
  | _ => start

def itemsAt (d : Data) (name : String) : List Data := (d.get name).items

def bytesAt (d : Data) (name : String) : Bytes := ((d.textAt? name).bind bytesOfHex?).getD []

end LiveSound.Data
