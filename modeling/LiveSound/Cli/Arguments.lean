import LiveSound.Text.Utf8

/-!
# Command line arguments

A `Shape` says which switches and commands a command takes. Arguments are read from left to right;
a switch that takes a value is settled when the next switch comes or the arguments end, and only
then its value is checked. So an argument that nothing is known of is told before a bad value just
before it.
-/

namespace LiveSound.Cli

/-- Why arguments are not followed. -/
inductive UsageFault where
  /-- The help was asked for. -/
  | help
  /-- The version was asked for. -/
  | version
  /-- A command is missing and nothing else was given either, so the help is shown. -/
  | helpForNothing
  | missingCommand
  | unknownCommand
  | unknownArgument
  /-- A switch that takes no value was given one. -/
  | needlessValue
  /-- A value is missing or none of those that are possible. -/
  | invalidValue
  /-- A value could not be read; for some values there is more to say. -/
  | unreadableValue (reason : Option String)
  /-- A switch was given twice, or with one that it excludes. -/
  | conflict
  deriving DecidableEq, Repr

def UsageFault.exitCode : UsageFault → Nat
  | .help => 0
  | .version => 0
  | _ => 2

/-- What there is to say about a value that could not be read. -/
def UsageFault.reason? : UsageFault → Option String
  | .unreadableValue reason => reason
  | _ => none

inductive Role where
  | flag
  /-- Takes a value, which has to pass a check. -/
  | value (check : String → Option UsageFault)
  | help
  | version

structure Switch where
  /-- Given after two dashes. -/
  name : String
  /-- Given after one dash. -/
  short : Option Char
  role : Role

structure Shape where
  name : String
  switches : List Switch
  /-- Switches that exclude each other. -/
  exclusive : List (String × String)
  /-- If there are any, one of them has to be given. -/
  commands : List Shape

/-- What was read: the names of the commands, and the values of the switches; a flag has the value
`true`. -/
structure Given where
  commands : List String
  values : List (String × String)
  deriving DecidableEq, Repr

/-- How far the reading of a command has come. -/
structure Progress where
  given : List (String × String)
  /-- The last switch that takes a value, with the value if it has come. -/
  pending : Option (Switch × Option String)
  /-- Two dashes have come, after which there are no switches. -/
  trailing : Bool

namespace Progress

def empty : Progress := ⟨[], none, false⟩

/-- The next argument is a value unless it looks like a switch. -/
def awaiting (p : Progress) : Bool :=
  match p.pending with
  | some (_, none) => true
  | _ => false

def add (p : Progress) (name value : String) : Except UsageFault Progress :=
  if (p.given.lookup name).isSome then .error .conflict
  else .ok { p with given := p.given ++ [(name, value)] }

def accept (p : Progress) (w : Switch) (value : String) : Except UsageFault Progress := do
  let p ← p.add w.name value
  match w.role with
  | .value check =>
    match check value with
    | some fault => throw fault
    | none => return p
  | _ => return p

/-- Settles the switch that waits. -/
def settle (p : Progress) : Except UsageFault Progress :=
  match p.pending with
  | none => .ok p
  | some (_, none) => .error .invalidValue
  | some (w, some value) => { p with pending := none }.accept w value

/-- A switch comes, perhaps with a value in the same argument. -/
def switch (p : Progress) (w : Switch) (attached : Option String) : Except UsageFault Progress := do
  match w.role, attached with
  | .value _, none => return { ← p.settle with pending := some (w, none) }
  | .value _, some value => (← p.settle).accept w value
  | _, some _ => throw .needlessValue
  | .flag, none => (← p.settle).add w.name "true"
  | .help, none => do let _ ← p.settle; throw .help
  | .version, none => do let _ ← p.settle; throw .version

end Progress

namespace Shape

def helpSwitch : Switch := ⟨"help", some 'h', .help⟩

def allSwitches (s : Shape) : List Switch := s.switches ++ [helpSwitch]

def command? (s : Shape) (name : String) : Option Shape := s.commands.find? (·.name == name)

/-- Every shape with commands has one that shows the help. -/
def helpCommand : String := "help"

def hasHelp (s : Shape) (name : String) : Bool := !s.commands.isEmpty && name == helpCommand

/-- What stands where neither a switch nor a value can stand. -/
def strayFault (s : Shape) (trailing : Bool) (argument : String) : UsageFault :=
  if trailing && ((s.command? argument).isSome || s.hasHelp argument) then .unknownArgument
  else if s.commands.isEmpty then .unknownArgument
  else .unknownCommand

/-- The help for a command inside a command; what follows has to name one. -/
def helpFault : Shape → List String → UsageFault
  | _, [] => .help
  | s, name :: rest =>
    match s.command? name with
    | some inner => helpFault inner rest
    | none => if s.hasHelp name && rest.isEmpty then .help else .unknownCommand

/-- An argument with two dashes: a name, and a value after an equals sign. -/
def long (s : Shape) (p : Progress) (text : List Char) : Except UsageFault Progress :=
  let name := String.ofList (text.takeWhile (· != '='))
  let attached := match text.dropWhile (· != '=') with
    | _ :: value => some (String.ofList value)
    | [] => none
  match s.allSwitches.find? (·.name == name) with
  | some w => p.switch w attached
  | none => .error .unknownArgument

/-- An argument with one dash: flags, of which the last one may be a switch with its value. -/
def cluster (s : Shape) : Progress → List Char → Except UsageFault Progress
  | p, [] => .ok p
  | p, c :: rest =>
    match s.allSwitches.find? (·.short == some c) with
    | none => .error .unknownArgument
    | some w =>
      match w.role, rest with
      | .value _, [] => p.switch w none
      | .value _, '=' :: value => p.switch w (some (String.ofList value))
      | .value _, value => p.switch w (some (String.ofList value))
      | _, _ =>
        match p.switch w none with
        | .ok p => cluster s p rest
        | .error f => .error f

def step (s : Shape) (p : Progress) (argument : String) : Except UsageFault Progress :=
  if p.trailing then .error (s.strayFault true argument)
  else
    match argument.toList with
    | ['-', '-'] => .ok { p with trailing := true }
    | '-' :: '-' :: text => s.long p text
    | '-' :: c :: rest => s.cluster p (c :: rest)
    | _ =>
      match p.pending with
      | some (w, none) => .ok { p with pending := some (w, some argument) }
      | _ => .error (s.strayFault false argument)

/-- The end of the arguments of a command. -/
def finish (s : Shape) (p : Progress) : Except UsageFault Given := do
  let p ← p.settle
  let has (name : String) : Bool := (p.given.lookup name).isSome
  if !s.commands.isEmpty then
    throw (if p.given.isEmpty then .helpForNothing else .missingCommand)
  if s.exclusive.any fun (a, b) => has a && has b then throw .conflict
  return ⟨[], p.given⟩

def readFrom : Shape → Progress → List String → Except UsageFault Given
  | s, p, [] => s.finish p
  | s, p, argument :: rest =>
    let name := if p.trailing || p.awaiting then none else some argument
    match name.bind s.command? with
    | some inner => do
      let p ← p.settle
      let g ← readFrom inner .empty rest
      return ⟨inner.name :: g.commands, p.given ++ g.values⟩
    | none =>
      if name.any s.hasHelp then .error (s.helpFault rest)
      else do readFrom s (← s.step p argument) rest

def read (s : Shape) (arguments : List String) : Except UsageFault Given :=
  readFrom s .empty arguments

end Shape

end LiveSound.Cli
