import LiveSound.Data.Basic

/-!
# Tables from statements

A TOML text is a sequence of statements: headers, which say to which table the following values
belong, and assignments. `Toml.build?` puts them together. A table may be spread over headers only
if none of them names it twice, and dotted keys may only reach into tables that dotted keys made,
so that no table is changed after its end.
-/

namespace LiveSound.Toml

/-- A dotted key: the last name and those before it. -/
structure Key where
  path : List String
  name : String
  deriving DecidableEq, Repr

inductive Statement where
  /-- `[key]`: a table. -/
  | table (k : Key)
  /-- `[[key]]`: one more table of a list. -/
  | item (k : Key)
  | assign (k : Key) (d : Data)

/-- How a table came to be. -/
inductive Origin where
  /-- It has a header of its own. -/
  | header
  /-- A header named a table inside it. -/
  | above
  /-- A dotted key named a member of it. -/
  | dotted
  deriving DecidableEq, Repr

inductive Item where
  | value (d : Data)
  | table (origin : Origin) (members : List (String × Item))
  /-- Tables that each have a header, the last one first. -/
  | tables (ts : List (List (String × Item)))

abbrev Members := List (String × Item)

namespace Members

/-- Puts an item in place of that of the same name, or at the end. -/
def set (name : String) (i : Item) : Members → Members
  | [] => [(name, i)]
  | (other, j) :: rest => if other = name then (name, i) :: rest else (other, j) :: set name i rest

/-- Changes the table that a path leads to. Tables that are missing on the way are made; a list of
tables stands for its last one. -/
def within? (dotted : Bool) (change : Origin → Members → Option Members) :
    List String → Origin → Members → Option Members
  | [], origin, ms => change origin ms
  | name :: path, _, ms => do
    match ms.lookup name with
    | none =>
      let origin := if dotted then .dotted else .above
      return ms.set name (.table origin (← within? dotted change path origin []))
    | some (.table origin inner) =>
      guard (!dotted || origin != .header)
      return ms.set name (.table origin (← within? dotted change path origin inner))
    | some (.tables (last :: others)) =>
      return ms.set name (.tables ((← within? dotted change path .header last) :: others))
    | some _ => none

def openTable? (name : String) (ms : Members) : Option Members :=
  match ms.lookup name with
  | none => some (ms.set name (.table .header []))
  | some (.table .above inner) => some (ms.set name (.table .header inner))
  | some _ => none

/-- Opens one more table of a list at its header. -/
def openItem? (name : String) (ms : Members) : Option Members :=
  match ms.lookup name with
  | none => some (ms.set name (.tables [[]]))
  | some (.tables ts) => some (ms.set name (.tables ([] :: ts)))
  | some _ => none

/-- Gives a name a value that it does not have yet. -/
def define? (name : String) (d : Data) (ms : Members) : Option Members :=
  if (ms.lookup name).isSome then none else some (ms.set name (.value d))

def assign? (k : Key) (d : Data) (origin : Origin) (ms : Members) : Option Members :=
  within? true (fun reached ms => do
    guard (k.path.isEmpty || reached == .dotted)
    define? k.name d ms) k.path origin ms

end Members

/-- What the statements so far have built. -/
structure Draft where
  /-- The path of the current table. -/
  current : List String
  root : Members

namespace Draft

def empty : Draft := ⟨[], []⟩

def add? (b : Draft) : Statement → Option Draft
  | .table k => do
    return ⟨k.path ++ [k.name],
      ← b.root.within? false (fun _ ms => ms.openTable? k.name) k.path .header⟩
  | .item k => do
    return ⟨k.path ++ [k.name],
      ← b.root.within? false (fun _ ms => ms.openItem? k.name) k.path .header⟩
  | .assign k d => do
    return { b with root := ← b.root.within? false (Members.assign? k d) b.current .header }

end Draft

mutual

def Item.toData : Item → Data
  | .value d => d
  | .table _ members => .record (membersData members)
  | .tables ts => .list (tablesData ts [])

def membersData : List (String × Item) → List (String × Data)
  | [] => []
  | (name, i) :: rest => (name, i.toData) :: membersData rest

/-- In the order of their headers. -/
def tablesData : List (List (String × Item)) → List Data → List Data
  | [], done => done
  | members :: rest, done => tablesData rest (.record (membersData members) :: done)

end

def build? (statements : List Statement) : Option Data := do
  return .record (membersData (← statements.foldlM Draft.add? .empty).root)

end LiveSound.Toml
