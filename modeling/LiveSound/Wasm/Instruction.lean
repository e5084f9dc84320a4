import LiveSound.Numeric.Binary

/-!
# WebAssembly instructions

The instructions of the first version of the format, with blocks as trees, and the two later
groups that compilers use by default: sign extension and saturating truncation.
-/

namespace LiveSound.Wasm

/-- The types of values. -/
inductive Kind where
  | i32
  | i64
  | f32
  | f64
  deriving DecidableEq, Repr, Inhabited

/-- What a function takes and gives. -/
structure Signature where
  params : List Kind
  results : List Kind
  deriving DecidableEq, Repr, Inhabited

inductive Value where
  | i32 (n : UInt32)
  | i64 (n : UInt64)
  | f32 (x : Binary32)
  | f64 (x : Binary64)
  deriving DecidableEq, Inhabited

namespace Value

def kind : Value → Kind
  | .i32 _ => .i32
  | .i64 _ => .i64
  | .f32 _ => .f32
  | .f64 _ => .f64

def zero : Kind → Value
  | .i32 => .i32 0
  | .i64 => .i64 0
  | .f32 => .f32 .zero
  | .f64 => .f64 .zero

end Value

inductive IntUnary where
  | clz | ctz | popcnt | extend8 | extend16 | extend32
  deriving DecidableEq, Repr

inductive IntBinary where
  | add | sub | mul | divS | divU | remS | remU | and | or | xor | shl | shrS | shrU | rotl | rotr
  deriving DecidableEq, Repr

inductive IntRelation where
  | eq | ne | ltS | ltU | gtS | gtU | leS | leU | geS | geU
  deriving DecidableEq, Repr

inductive FloatUnary where
  | abs | neg | ceil | floor | trunc | nearest | sqrt
  deriving DecidableEq, Repr

inductive FloatBinary where
  | add | sub | mul | div | min | max | copysign
  deriving DecidableEq, Repr

inductive FloatRelation where
  | eq | ne | lt | gt | le | ge
  deriving DecidableEq, Repr

/-- Instructions that turn one value into one of another kind. -/
inductive Conversion where
  | wrap
  | extend (signed : Bool)
  /-- A float to an integer; out of range it traps, or saturates. -/
  | truncate (source target : Kind) (signed saturating : Bool)
  | convert (source target : Kind) (signed : Bool)
  | demote
  | promote
  | reinterpret (source target : Kind)
  deriving DecidableEq, Repr

/-- A load or store: the kind of the value, how many bytes, and how a short load is extended. -/
structure Access where
  kind : Kind
  width : Nat
  signed : Bool
  align : Nat
  offset : Nat
  deriving DecidableEq, Repr

/-- The type of a block: nothing, one result, or a signature of the module. -/
inductive BlockType where
  | none
  | one (kind : Kind)
  | indexed (index : Nat)
  deriving DecidableEq, Repr

inductive Instr where
  | unreachable
  | nop
  | block (type : BlockType) (body : List Instr)
  | loop (type : BlockType) (body : List Instr)
  | branchOn (type : BlockType) (yes no : List Instr)
  | br (label : Nat)
  | brIf (label : Nat)
  | brTable (labels : List Nat) (otherwise : Nat)
  | ret
  | call (function : Nat)
  | callIndirect (type table : Nat)
  | drop
  | select (kind : Option Kind)
  | localGet (index : Nat)
  | localSet (index : Nat)
  | localTee (index : Nat)
  | globalGet (index : Nat)
  | globalSet (index : Nat)
  | load (access : Access)
  | store (access : Access)
  | memorySize
  | memoryGrow
  | const (value : Value)
  | isZero (kind : Kind)
  | intUnary (kind : Kind) (op : IntUnary)
  | intBinary (kind : Kind) (op : IntBinary)
  | intRelation (kind : Kind) (op : IntRelation)
  | floatUnary (kind : Kind) (op : FloatUnary)
  | floatBinary (kind : Kind) (op : FloatBinary)
  | floatRelation (kind : Kind) (op : FloatRelation)
  | conversion (op : Conversion)
  deriving Inhabited

end LiveSound.Wasm
