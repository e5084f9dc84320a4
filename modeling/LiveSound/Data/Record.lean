import LiveSound.Data.Basic

/-!
# Reading records

A record type is read through a list of `Field`s. The text may name the fields, in any order,
with unknown names passed over and no name given twice; or it may list their values in the order
of declaration, where values at the end may be missing. Fields that are not given keep the value
of the start record.
-/

namespace LiveSound

/-- A field of the record type `σ`: its name and how a value is put into it. -/
structure Field (ε σ : Type) where
  name : String
  read : Data → σ → Except ε σ

namespace Field

variable {ε σ : Type}

/-- Members in order. `seen` are the known names that occurred before. -/
def readMembers (fields : List (Field ε σ)) (fault : ε) :
    List String → σ → List (String × Data) → Except ε σ
  | _, record, [] => .ok record
  | seen, record, (name, d) :: rest =>
    match fields.find? (·.name == name) with
    | none => readMembers fields fault seen record rest
    | some field =>
      if seen.contains name then .error fault
      else
        match field.read d record with
        | .ok record => readMembers fields fault (name :: seen) record rest
        | .error e => .error e

def readItems (fault : ε) : List (Field ε σ) → σ → List Data → Except ε σ
  | _, record, [] => .ok record
  | [], _, _ :: _ => .error fault
  | field :: fields, record, d :: rest =>
    match field.read d record with
    | .ok record => readItems fault fields record rest
    | .error e => .error e

def readRecord (fields : List (Field ε σ)) (fault : ε) (start : σ) : Data → Except ε σ
  | .record members => readMembers fields fault [] start members
  | .list items => readItems fault fields start items
  | _ => .error fault

end Field

namespace Data

def asBool? : Data → Option Bool
  | .bool b => some b
  | _ => none

def asText? : Data → Option String
  | .text s => some s
  | _ => none

/-- A whole number below `limit`. -/
def asNat? (limit : Nat) : Data → Option Nat
  | .integer n => if 0 ≤ n ∧ n.toNat < limit then some n.toNat else none
  | _ => none

/-- Any finite number. -/
def asFloat? : Data → Option Binary64
  | .float x => some x
  | .integer n => some (.ofRatio (n < 0) n.natAbs 1)
  | _ => none

def asTexts? : Data → Option (List String)
  | .list items => items.mapM asText?
  | _ => none

/-- Absent and `null` are both `none`. -/
def asOptional? {α : Type} (read : Data → Option α) : Data → Option (Option α)
  | .null => some none
  | d => (read d).map some

end Data

end LiveSound
