import LiveSound.Wasm.Memory

/-!
# Validation

`Program.isValid` checks a decoded module: indices are in range and every body leaves the values
that its type promises. The stack of a body is tracked as kinds, where code that cannot be reached
may take any value.
-/

namespace LiveSound.Wasm

/-- What a body may refer to. -/
structure Scope where
  types : Array Signature
  functions : Array Nat
  globals : Array GlobalType
  tables : Nat
  memories : Nat
  locals : Array Kind
  results : List Kind

/-- The kinds on the stack of a block, the top first; `none` is a value of any kind. Below them an
open stack holds as many more values as are taken. -/
structure Stack where
  kinds : List (Option Kind)
  isOpen : Bool

namespace Stack

def pop (s : Stack) : Option (Option Kind × Stack) :=
  match s.kinds with
  | k :: rest => some (k, { s with kinds := rest })
  | [] => if s.isOpen then some (none, s) else none

def popKind (k : Kind) (s : Stack) : Option Stack := do
  let (found, s) ← s.pop
  match found with
  | none => return s
  | some other => if other = k then return s else none

/-- Takes values of these kinds, the last one on top. -/
def popAll (ks : List Kind) (s : Stack) : Option Stack :=
  ks.reverse.foldlM (fun s k => s.popKind k) s

def push (k : Kind) (s : Stack) : Stack := { s with kinds := some k :: s.kinds }

def pushAll (ks : List Kind) (s : Stack) : Stack := ks.foldl (fun s k => s.push k) s

/-- After an instruction that does not continue. -/
def unreachable : Stack := ⟨[], true⟩

/-- Exactly these values are left. -/
def endsWith (ks : List Kind) (s : Stack) : Bool :=
  match s.popAll ks with
  | some rest => rest.kinds.isEmpty
  | none => false

end Stack

namespace Validate

def blockSignature (scope : Scope) : BlockType → Option Signature
  | .none => some ⟨[], []⟩
  | .one k => some ⟨[], [k]⟩
  | .indexed n => scope.types[n]?

def conversionKinds : Conversion → Kind × Kind
  | .wrap => (.i64, .i32)
  | .extend _ => (.i32, .i64)
  | .truncate source target _ _ => (source, target)
  | .convert source target _ => (source, target)
  | .demote => (.f64, .f32)
  | .promote => (.f32, .f64)
  | .reinterpret source target => (source, target)

/-- Takes values of the first kinds and gives values of the second. -/
def effect (taken given : List Kind) (s : Stack) : Option Stack :=
  (s.popAll taken).map (·.pushAll given)

/-- An access may be aligned at most to its own width. -/
def accessAllowed (scope : Scope) (a : Access) : Bool :=
  decide (0 < scope.memories) && decide (Nat.pow 2 a.align ≤ a.width)

/-- A branch to a label takes the values that the label takes; a conditional one leaves them. -/
def plain (scope : Scope) (labels : List (List Kind)) (instr : Instr) (s : Stack) :
    Option Stack :=
  match instr with
  | .unreachable => some .unreachable
  | .nop => some s
  | .br n => do
    let _ ← s.popAll (← labels[n]?)
    return .unreachable
  | .brIf n => do
    let ks ← labels[n]?
    effect ks ks (← s.popKind .i32)
  | .brTable ns otherwise => do
    let s ← s.popKind .i32
    let ks ← labels[otherwise]?
    let _ ← s.popAll ks
    for n in ns do
      let other ← labels[n]?
      guard (other.length = ks.length)
      let _ ← s.popAll other
    return .unreachable
  | .ret => do
    let _ ← s.popAll scope.results
    return .unreachable
  | .call n => do
    let t ← scope.types[← scope.functions[n]?]?
    effect t.params t.results s
  | .callIndirect type table => do
    guard (table < scope.tables)
    let t ← scope.types[type]?
    effect t.params t.results (← s.popKind .i32)
  | .drop => s.pop.map (·.2)
  | .select none => do
    let (a, s) ← (← s.popKind .i32).pop
    let (b, s) ← s.pop
    guard (a.isNone ∨ b.isNone ∨ a = b)
    return { s with kinds := (if a.isNone then b else a) :: s.kinds }
  | .select (some k) => effect [k, k, .i32] [k] s
  | .localGet n => do return s.push (← scope.locals[n]?)
  | .localSet n => do s.popKind (← scope.locals[n]?)
  | .localTee n => do
    let k ← scope.locals[n]?
    effect [k] [k] s
  | .globalGet n => do return s.push (← scope.globals[n]?).kind
  | .globalSet n => do
    let g ← scope.globals[n]?
    guard g.isMutable
    s.popKind g.kind
  | .load a => if accessAllowed scope a then effect [.i32] [a.kind] s else none
  | .store a => if accessAllowed scope a then effect [.i32, a.kind] [] s else none
  | .memorySize => if 0 < scope.memories then some (s.push .i32) else none
  | .memoryGrow => if 0 < scope.memories then effect [.i32] [.i32] s else none
  | .const v => some (s.push v.kind)
  | .isZero k => effect [k] [.i32] s
  | .intUnary k _ => effect [k] [k] s
  | .intBinary k _ => effect [k, k] [k] s
  | .intRelation k _ => effect [k, k] [.i32] s
  | .floatUnary k _ => effect [k] [k] s
  | .floatBinary k _ => effect [k, k] [k] s
  | .floatRelation k _ => effect [k, k] [.i32] s
  | .conversion op => effect [(conversionKinds op).1] [(conversionKinds op).2] s
  | .block _ _ | .loop _ _ | .branchOn _ _ _ => none

mutual

def instruction (scope : Scope) (labels : List (List Kind)) : Instr → Stack → Option Stack
  | .block type body, s => do
    let t ← blockSignature scope type
    let s ← s.popAll t.params
    let inner ← sequence scope (t.results :: labels) body (Stack.pushAll t.params ⟨[], false⟩)
    guard (inner.endsWith t.results)
    return s.pushAll t.results
  | .loop type body, s => do
    let t ← blockSignature scope type
    let s ← s.popAll t.params
    let inner ← sequence scope (t.params :: labels) body (Stack.pushAll t.params ⟨[], false⟩)
    guard (inner.endsWith t.results)
    return s.pushAll t.results
  | .branchOn type yes no, s => do
    let t ← blockSignature scope type
    let s ← (← s.popKind .i32).popAll t.params
    let start := Stack.pushAll t.params ⟨[], false⟩
    let first ← sequence scope (t.results :: labels) yes start
    guard (first.endsWith t.results)
    let second ← sequence scope (t.results :: labels) no start
    guard (second.endsWith t.results)
    return s.pushAll t.results
  | instr, s => plain scope labels instr s

def sequence (scope : Scope) (labels : List (List Kind)) : List Instr → Stack → Option Stack
  | [], s => some s
  | instr :: rest, s => do sequence scope labels rest (← instruction scope labels instr s)

end

def body (scope : Scope) (instrs : List Instr) : Bool :=
  match sequence scope [scope.results] instrs ⟨[], false⟩ with
  | some s => s.endsWith scope.results
  | none => false

/-- An expression that can be evaluated before anything runs: a constant, or an immutable
imported global. -/
def constant (p : Program) (k : Kind) : List Instr → Bool
  | [.const v] => v.kind = k
  | [.globalGet n] =>
    match p.importedGlobals[n]? with
    | some g => g.kind = k && !g.isMutable
    | none => false
  | _ => false

def limits (most : Nat) (l : Limits) : Bool :=
  l.low ≤ most && l.high.all fun high => l.low ≤ high && high ≤ most

def memory (l : Limits) : Bool := limits maxPages l

/-- The most entries that a table may start with. -/
def maxTable : Nat := 10000000

def table (l : Limits) : Bool := limits 0xFFFFFFFF l && l.low ≤ maxTable

def importEntry (p : Program) (i : Import) : Bool :=
  match i.type with
  | .function type => type < p.types.length
  | .table l => table l
  | .memory l => memory l
  | .global _ => true

def exportEntry (p : Program) (e : Export) : Bool :=
  match e.kind with
  | .function => e.index < p.functionTypes.length
  | .table => e.index < p.tableLimits.length
  | .memory => e.index < p.memoryLimits.length
  | .global => e.index < p.globalTypes.length

def placement (p : Program) (count : Nat) : Placement → Bool
  | .active index offset => index < count && constant p .i32 offset
  | .passive => true

end Validate

namespace Program

def scope (p : Program) (t : Signature) (locals : List Kind) : Scope where
  types := p.types.toArray
  functions := p.functionTypes.toArray
  globals := p.globalTypes.toArray
  tables := p.tableLimits.length
  memories := p.memoryLimits.length
  locals := (t.params ++ locals).toArray
  results := t.results

def functionValid (p : Program) (type : Nat) (c : Code) : Bool :=
  match p.types[type]? with
  | some t => Validate.body (p.scope t c.locals) c.body
  | none => false

def startValid (p : Program) (index : Nat) : Bool :=
  match p.functionTypes[index]?.bind (p.types[·]?) with
  | some t => t = ⟨[], []⟩
  | none => false

def isValid (p : Program) : Bool :=
  p.imports.all (Validate.importEntry p) &&
  p.functions.all (· < p.types.length) &&
  p.tables.all Validate.table &&
  p.memories.all Validate.memory &&
  p.memoryLimits.length ≤ 1 &&
  p.globals.all (fun g => Validate.constant p g.type.kind g.init) &&
  p.exports.all (Validate.exportEntry p) &&
  (p.exports.map (·.name)).Nodup &&
  p.start.all p.startValid &&
  p.elements.all (fun e => Validate.placement p p.tableLimits.length e.placement &&
    e.functions.all (· < p.functionTypes.length)) &&
  p.data.all (fun d => Validate.placement p p.memoryLimits.length d.placement) &&
  p.dataCount.all (· == p.data.length) &&
  p.functions.length == p.codes.length &&
  (p.functions.zip p.codes).all fun (type, c) => p.functionValid type c

end Program

end LiveSound.Wasm
