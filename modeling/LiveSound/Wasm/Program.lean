import LiveSound.Wasm.Instruction
import LiveSound.Numeric.LittleEndian

/-!
# Decoded WebAssembly modules

A `Program` is a module with its sections read but nothing checked and nothing allocated.
-/

namespace LiveSound.Wasm

/-- A size with an upper bound, in pages or entries. -/
structure Limits where
  low : Nat
  high : Option Nat
  deriving DecidableEq, Repr, Inhabited

structure GlobalType where
  kind : Kind
  isMutable : Bool
  deriving DecidableEq, Repr

/-- What an import asks for. -/
inductive ImportType where
  | function (type : Nat)
  | table (limits : Limits)
  | memory (limits : Limits)
  | global (type : GlobalType)
  deriving DecidableEq, Repr

structure Import where
  space : String
  name : String
  type : ImportType
  deriving DecidableEq, Repr

inductive ExportKind where
  | function
  | table
  | memory
  | global
  deriving DecidableEq, Repr

structure Export where
  name : String
  kind : ExportKind
  index : Nat
  deriving DecidableEq, Repr

structure Global where
  type : GlobalType
  init : List Instr

/-- Where a segment goes when the module is instantiated. -/
inductive Placement where
  | active (index : Nat) (offset : List Instr)
  | passive

/-- Functions for a table. -/
structure ElementSegment where
  placement : Placement
  functions : List Nat

/-- Bytes for the memory. -/
structure DataSegment where
  placement : Placement
  bytes : Bytes

structure Code where
  locals : List Kind
  body : List Instr
  deriving Inhabited

structure Program where
  types : List Signature
  imports : List Import
  functions : List Nat
  tables : List Limits
  memories : List Limits
  globals : List Global
  exports : List Export
  start : Option Nat
  elements : List ElementSegment
  codes : List Code
  data : List DataSegment
  dataCount : Option Nat

namespace Program

def empty : Program := ⟨[], [], [], [], [], [], [], none, [], [], [], none⟩

/-- The signature indices of all functions, imported ones first. -/
def functionTypes (p : Program) : List Nat :=
  (p.imports.filterMap fun i => match i.type with
    | .function type => some type
    | _ => none) ++ p.functions

def tableLimits (p : Program) : List Limits :=
  (p.imports.filterMap fun i => match i.type with
    | .table limits => some limits
    | _ => none) ++ p.tables

def memoryLimits (p : Program) : List Limits :=
  (p.imports.filterMap fun i => match i.type with
    | .memory limits => some limits
    | _ => none) ++ p.memories

def importedGlobals (p : Program) : List GlobalType :=
  p.imports.filterMap fun i => match i.type with
    | .global type => some type
    | _ => none

def globalTypes (p : Program) : List GlobalType :=
  p.importedGlobals ++ p.globals.map (·.type)

def export? (p : Program) (name : String) : Option Export := p.exports.find? (·.name == name)

end Program

end LiveSound.Wasm
