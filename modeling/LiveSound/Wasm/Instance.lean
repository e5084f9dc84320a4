import LiveSound.Wasm.Decode
import LiveSound.Wasm.Validate
import LiveSound.Wasm.Machine

/-!
# Instances

A valid program is linked with the functions of a host and its memory, globals and table are set
up; then its start function runs. What the start function did to the host is kept even when the
instance does not come about.
-/

namespace LiveSound.Wasm

/-- Why there is no instance. -/
inductive LinkFault where
  /-- The host has nothing of that name. -/
  | unknownImport (space name : String)
  | importMismatch
  | segmentOutOfBounds
  | start (why : Stop)
  deriving DecidableEq, Repr

def LinkFault.message : LinkFault → String
  | .unknownImport space name =>
    "unknown import: \x60" ++ space ++ "::" ++ name ++ "\x60 has not been defined"
  | .importMismatch => "incompatible import type"
  | .segmentOutOfBounds => "segment does not fit"
  | .start why => why.message

structure Instance (η : Type) where
  linked : Linked η
  store : Store η

namespace Instance

variable {η : Type}

/-- The functions that a program imports. All names are looked up before any type is compared. -/
def resolve (offer : String → String → Option (HostFunction η)) (p : Program) :
    Except LinkFault (List (Function η)) := do
  let found ← p.imports.mapM fun i =>
    match offer i.space i.name with
    | some f => Except.ok (i, f)
    | none => Except.error (.unknownImport i.space i.name)
  found.mapM fun (i, f) =>
    match i.type with
    | .function type =>
      if p.types[type]? = some f.signature then .ok (.host f) else .error .importMismatch
    | _ => .error .importMismatch

def memoryName : String := "memory"

def ownFunctions (p : Program) : List (Function η) :=
  (p.functions.zip p.codes).map fun (type, c) =>
    .code ((p.types[type]?).getD ⟨[], []⟩) c.locals c.body

def evaluate : List Instr → Value
  | [.const v] => v
  | _ => .i32 0

def offset (instrs : List Instr) : Nat :=
  match evaluate instrs with
  | .i32 n => n.toNat
  | _ => 0

def placeElements (table : Array (Option Nat)) (e : ElementSegment) :
    Except LinkFault (Array (Option Nat)) :=
  match e.placement with
  | .passive => .ok table
  | .active _ instrs =>
    let start := offset instrs
    if start + e.functions.length ≤ table.size then
      .ok <| (e.functions.zipIdx).foldl
        (fun table (f, i) => table.setIfInBounds (start + i) (some f)) table
    else .error .segmentOutOfBounds

def placeData (memory : Option Memory) (d : DataSegment) : Except LinkFault (Option Memory) :=
  match d.placement, memory with
  | .passive, memory => .ok memory
  | .active _ _, none => .error .segmentOutOfBounds
  | .active _ instrs, some memory =>
    match memory.write? (offset instrs) d.bytes with
    | some memory => .ok (some memory)
    | none => .error .segmentOutOfBounds

def allocate (offer : String → String → Option (HostFunction η)) (p : Program) (host : η) :
    Except LinkFault (Instance η) := do
  let imported ← resolve offer p
  let linked : Linked η :=
    { functions := (imported ++ ownFunctions p).toArray
      signatures := p.types.toArray
      exports := p.exports
      memoryVisible := (p.export? memoryName).any (·.kind == .memory) }
  let table ← p.elements.foldlM placeElements
    (Array.replicate ((p.tables.head?).elim 0 (·.low)) none)
  let memory ← p.data.foldlM placeData ((p.memories.head?).map Memory.ofLimits)
  return ⟨linked, ⟨memory, (p.globals.map fun g => evaluate g.init).toArray, table, host⟩⟩

def invoke (i : Instance η) (index : Nat) (args : List Value) :
    Instance η × Except Stop (List Value) :=
  let (store, outcome) := Machine.invoke i.linked i.store index args
  (⟨i.linked, store⟩, outcome)

/-- The state of the host after the attempt, and the instance if there is one. -/
def instantiate (offer : String → String → Option (HostFunction η)) (p : Program) (host : η) :
    η × Except LinkFault (Instance η) :=
  match allocate offer p host with
  | .error fault => (host, .error fault)
  | .ok i =>
    match p.start with
    | none => (host, .ok i)
    | some index =>
      match i.invoke index [] with
      | (i, .ok _) => (i.store.host, .ok i)
      | (i, .error why) => (i.store.host, .error (.start why))

def function? (i : Instance η) (name : String) : Option (Nat × Signature) := do
  let e ← i.linked.exports.find? (·.name == name)
  guard (e.kind = .function)
  let f ← i.linked.functions[e.index]?
  return (e.index, f.signature)

/-- The memory, if it is exported under the usual name. -/
def memory? (i : Instance η) : Option Memory :=
  if i.linked.memoryVisible then i.store.memory else none

end Instance

/-- The program in a binary, if it is a valid module. -/
def compile? (bytes : Bytes) : Option Program := (Decode.program? bytes).filter (·.isValid)

end LiveSound.Wasm
