import LiveSound.Wasm.Memory
import LiveSound.Wasm.Numeric

/-!
# Running WebAssembly

The machine keeps labels and frames as data (`Control`), so that a step is one case distinction on
the next instruction and the depth of the guest's recursion is a number. `Machine.run` takes steps
until the code is done or stops. A stop leaves memory and globals as they are at that moment.

Host functions are values: they see the memory if the module exports it, and a state of their own
of any type `η`.
-/

namespace LiveSound.Wasm

/-- What a host function leaves behind. -/
structure HostReply (η : Type) where
  memory : Option Memory
  state : η
  outcome : Except Stop (List Value)

/-- A function that the host offers. -/
structure HostFunction (η : Type) where
  signature : Signature
  run : List Value → Option Memory → η → HostReply η

inductive Function (η : Type) where
  | host (f : HostFunction η)
  | code (signature : Signature) (locals : List Kind) (body : List Instr)

def Function.signature {η : Type} : Function η → Signature
  | .host f => f.signature
  | .code signature _ _ => signature

instance {η : Type} : Inhabited (Function η) := ⟨.code ⟨[], []⟩ [] []⟩

/-- What does not change while an instance runs. -/
structure Linked (η : Type) where
  functions : Array (Function η)
  signatures : Array Signature
  exports : List Export
  /-- The memory is exported under the name by which the host looks for it. -/
  memoryVisible : Bool

/-- What running code changes. -/
structure Store (η : Type) where
  memory : Option Memory
  globals : Array Value
  table : Array (Option Nat)
  host : η

/-- An open block or call. `below` is the rest of the value stack outside of it. -/
inductive Control where
  | label (arity : Nat) (target : List Instr) (below : List Value) (after : List Instr)
  | frame (arity : Nat) (locals : Array Value) (below : List Value) (after : List Instr)

structure Machine (η : Type) where
  store : Store η
  stack : List Value
  locals : Array Value
  control : List Control
  code : List Instr
  /-- The number of open calls. -/
  depth : Nat

inductive Step (η : Type) where
  | next (m : Machine η)
  | done (store : Store η) (results : List Value)
  | stop (store : Store η) (why : Stop)

namespace Machine

variable {η : Type}

/-- The deepest nesting of calls. -/
def maxDepth : Nat := 10000

/-- How many values a block takes and gives. -/
def arities (l : Linked η) : BlockType → Nat × Nat
  | .none => (0, 0)
  | .one _ => (0, 1)
  | .indexed n =>
    match l.signatures[n]? with
    | some s => (s.params.length, s.results.length)
    | none => (0, 0)

def truth (b : Bool) : Value := .i32 (if b then 1 else 0)

/-- Leaves the innermost call with the results on top of the stack. -/
def leave (m : Machine η) : List Control → Step η
  | [] => .done m.store m.stack.reverse
  | .label _ _ _ _ :: rest => leave m rest
  | .frame arity locals below after :: rest =>
    .next { m with stack := m.stack.take arity ++ below, locals := locals, control := rest,
                   code := after, depth := m.depth - 1 }

/-- Continues at the target of a label, counted from the innermost. -/
def branch (m : Machine η) : Nat → List Control → Step η
  | 0, .label arity target below _ :: rest =>
    .next { m with stack := m.stack.take arity ++ below, control := rest, code := target }
  | n + 1, .label _ _ _ _ :: rest => branch m n rest
  | _, control => leave m control

def enter (m : Machine η) (taken arity : Nat) (target body after : List Instr) : Step η :=
  .next { m with
    stack := m.stack.take taken,
    control := .label arity target (m.stack.drop taken) after :: m.control,
    code := body }

/-- Calls a function with the arguments on top of the stack. -/
def call (l : Linked η) (m : Machine η) (index : Nat) (after : List Instr) : Step η :=
  match l.functions[index]? with
  | none => .stop m.store (.trap .unreachable)
  | some (.host f) =>
    let count := f.signature.params.length
    let args := (m.stack.take count).reverse
    let below := m.stack.drop count
    let ⟨memory, globals, table, host⟩ := m.store
    if l.memoryVisible then
      match f.run args memory host with
      | ⟨memory, host, .ok results⟩ =>
        .next { m with store := ⟨memory, globals, table, host⟩, stack := results.reverse ++ below,
                       code := after }
      | ⟨memory, host, .error why⟩ => .stop ⟨memory, globals, table, host⟩ why
    else
      match f.run args none host with
      | ⟨_, host, .ok results⟩ =>
        .next { m with store := ⟨memory, globals, table, host⟩, stack := results.reverse ++ below,
                       code := after }
      | ⟨_, host, .error why⟩ => .stop ⟨memory, globals, table, host⟩ why
  | some (.code signature locals body) =>
    if maxDepth ≤ m.depth then .stop m.store (.trap .stackExhausted)
    else
      let count := signature.params.length
      let args := (m.stack.take count).reverse
      .next { m with
        stack := [],
        locals := (args ++ locals.map Value.zero).toArray,
        control := .frame signature.results.length m.locals (m.stack.drop count) after ::
          m.control,
        code := body,
        depth := m.depth + 1 }

def loaded (a : Access) (n : Nat) : Value :=
  let bits := 8 * a.width
  let number : Int := if a.signed && Nat.pow 2 (bits - 1) ≤ n then n - Nat.pow 2 bits else n
  match a.kind with
  | .i32 => .i32 (UInt32.ofInt number)
  | .i64 => .i64 (UInt64.ofInt number)
  | .f32 => .f32 ⟨UInt32.ofNat n⟩
  | .f64 => .f64 ⟨UInt64.ofNat n⟩

def bitsOf : Value → Nat
  | .i32 n => n.toNat
  | .i64 n => n.toNat
  | .f32 x => x.bits.toNat
  | .f64 x => x.bits.toNat

def unary (op : Value → Except Trap Value) (m : Machine η) (after : List Instr) : Step η :=
  match m.stack with
  | x :: rest =>
    match op x with
    | .ok r => .next { m with stack := r :: rest, code := after }
    | .error t => .stop m.store (.trap t)
  | [] => .stop m.store (.trap .unreachable)

/-- Operates on the two top values. -/
def binary (op : Value → Value → Except Trap Value) (m : Machine η) (after : List Instr) :
    Step η :=
  match m.stack with
  | y :: x :: rest =>
    match op x y with
    | .ok r => .next { m with stack := r :: rest, code := after }
    | .error t => .stop m.store (.trap t)
  | _ => .stop m.store (.trap .unreachable)

def isZero : Value → Except Trap Value
  | .i32 n => .ok (truth (n == 0))
  | .i64 n => .ok (truth (n == 0))
  | _ => .error .unreachable

def intUnary (op : IntUnary) : Value → Except Trap Value
  | .i32 x => .ok (.i32 (intUnary32 op x))
  | .i64 x => .ok (.i64 (intUnary64 op x))
  | _ => .error .unreachable

def intBinary (op : IntBinary) : Value → Value → Except Trap Value
  | .i32 x, .i32 y => (intBinary32 op x y).map .i32
  | .i64 x, .i64 y => (intBinary64 op x y).map .i64
  | _, _ => .error .unreachable

def intRelation (op : IntRelation) : Value → Value → Except Trap Value
  | .i32 x, .i32 y => .ok (truth (intRelation32 op x y))
  | .i64 x, .i64 y => .ok (truth (intRelation64 op x y))
  | _, _ => .error .unreachable

def floatUnary (op : FloatUnary) : Value → Except Trap Value
  | .f32 x => .ok (.f32 (F32.unary op x))
  | .f64 x => .ok (.f64 (F64.unary op x))
  | _ => .error .unreachable

def floatBinary (op : FloatBinary) : Value → Value → Except Trap Value
  | .f32 x, .f32 y => .ok (.f32 (F32.binary op x y))
  | .f64 x, .f64 y => .ok (.f64 (F64.binary op x y))
  | _, _ => .error .unreachable

def floatRelation (op : FloatRelation) : Value → Value → Except Trap Value
  | .f32 x, .f32 y => .ok (truth (F32.relation op x y))
  | .f64 x, .f64 y => .ok (truth (F64.relation op x y))
  | _, _ => .error .unreachable

/-- What a machine does that validated code never asks for. -/
def stuck (m : Machine η) : Step η := .stop m.store (.trap .unreachable)

/-- Takes the next instruction. -/
def step (l : Linked η) (m : Machine η) : Step η :=
  match m.code with
  | [] =>
    match m.control with
    | [] => .done m.store m.stack.reverse
    | .label _ _ below after :: rest =>
      .next { m with stack := m.stack ++ below, control := rest, code := after }
    | control => leave m control
  | instr :: after =>
    match instr with
    | .unreachable => .stop m.store (.trap .unreachable)
    | .nop => .next { m with code := after }
    | .block type body =>
      let (taken, given) := arities l type
      enter m taken given after body after
    | .loop type body =>
      let (taken, _) := arities l type
      enter m taken taken (.loop type body :: after) body after
    | .branchOn type yes no =>
      match m.stack with
      | .i32 n :: rest =>
        let (taken, given) := arities l type
        enter { m with stack := rest } taken given after (if n = 0 then no else yes) after
      | _ => stuck m
    | .br n => branch m n m.control
    | .brIf n =>
      match m.stack with
      | .i32 c :: rest =>
        if c = 0 then .next { m with stack := rest, code := after }
        else branch { m with stack := rest } n m.control
      | _ => stuck m
    | .brTable labels otherwise =>
      match m.stack with
      | .i32 n :: rest =>
        branch { m with stack := rest } (labels[n.toNat]?.getD otherwise) m.control
      | _ => stuck m
    | .ret => leave m m.control
    | .call n => call l m n after
    | .callIndirect type _ =>
      match m.stack with
      | .i32 n :: rest =>
        match m.store.table[n.toNat]? with
        | none => .stop m.store (.trap .tableOutOfBounds)
        | some none => .stop m.store (.trap .uninitializedElement)
        | some (some index) =>
          match l.functions[index]?, l.signatures[type]? with
          | some f, some s =>
            if f.signature = s then call l { m with stack := rest } index after
            else .stop m.store (.trap .signatureMismatch)
          | _, _ => stuck m
      | _ => stuck m
    | .drop => .next { m with stack := m.stack.drop 1, code := after }
    | .select _ =>
      match m.stack with
      | .i32 c :: y :: x :: rest =>
        .next { m with stack := (if c = 0 then y else x) :: rest, code := after }
      | _ => stuck m
    | .localGet n =>
      match m.locals[n]? with
      | some v => .next { m with stack := v :: m.stack, code := after }
      | none => stuck m
    | .localSet n =>
      match m.stack with
      | v :: rest =>
        .next { m with stack := rest, locals := m.locals.setIfInBounds n v, code := after }
      | [] => stuck m
    | .localTee n =>
      match m.stack with
      | v :: _ => .next { m with locals := m.locals.setIfInBounds n v, code := after }
      | [] => stuck m
    | .globalGet n =>
      match m.store.globals[n]? with
      | some v => .next { m with stack := v :: m.stack, code := after }
      | none => stuck m
    | .globalSet n =>
      match m.stack with
      | v :: rest =>
        let ⟨memory, globals, table, host⟩ := m.store
        .next { m with store := ⟨memory, globals.setIfInBounds n v, table, host⟩,
                       stack := rest, code := after }
      | [] => stuck m
    | .load a =>
      match m.stack, m.store.memory with
      | .i32 base :: rest, some memory =>
        let address := base.toNat + a.offset
        if memory.contains address a.width then
          .next { m with stack := loaded a (memory.readNat address a.width) :: rest,
                         code := after }
        else .stop m.store (.trap .memoryOutOfBounds)
      | _, _ => stuck m
    | .store a =>
      match m with
      | ⟨⟨some memory, globals, table, host⟩, v :: .i32 base :: rest, locals, control, _, depth⟩ =>
        let address := base.toNat + a.offset
        if memory.contains address a.width then
          let memory := memory.fill address (LittleEndian.ofNat a.width (bitsOf v))
          .next ⟨⟨some memory, globals, table, host⟩, rest, locals, control, after, depth⟩
        else .stop ⟨some memory, globals, table, host⟩ (.trap .memoryOutOfBounds)
      | m => stuck m
    | .memorySize =>
      match m.store.memory with
      | some memory =>
        .next { m with stack := .i32 (UInt32.ofNat memory.pages) :: m.stack, code := after }
      | none => stuck m
    | .memoryGrow =>
      match m with
      | ⟨⟨some memory, globals, table, host⟩, .i32 n :: rest, locals, control, _, depth⟩ =>
        let pages := memory.pages
        match memory.grow? n.toNat with
        | some memory =>
          .next ⟨⟨some memory, globals, table, host⟩, .i32 (UInt32.ofNat pages) :: rest, locals,
            control, after, depth⟩
        | none =>
          .next ⟨⟨some memory, globals, table, host⟩, .i32 0xffffffff :: rest, locals, control,
            after, depth⟩
      | m => stuck m
    | .const v => .next { m with stack := v :: m.stack, code := after }
    | .isZero _ => unary isZero m after
    | .intUnary _ op => unary (intUnary op) m after
    | .intBinary _ op => binary (intBinary op) m after
    | .intRelation _ op => binary (intRelation op) m after
    | .floatUnary _ op => unary (floatUnary op) m after
    | .floatBinary _ op => binary (floatBinary op) m after
    | .floatRelation _ op => binary (floatRelation op) m after
    | .conversion op => unary (convertValue op) m after

/-- Takes at most `fuel` steps. -/
def run (l : Linked η) : Nat → Machine η → Store η × Except Stop (List Value)
  | 0, m => (m.store, .error .endless)
  | fuel + 1, m =>
    match step l m with
    | .next m => run l fuel m
    | .done store results => (store, .ok results)
    | .stop store why => (store, .error why)

/-- More steps than any call takes. -/
def maxSteps : Nat := 1000000000000

/-- Calls a function of an instance. -/
def invoke (l : Linked η) (store : Store η) (index : Nat) (args : List Value) :
    Store η × Except Stop (List Value) :=
  run l maxSteps ⟨store, args.reverse, #[], [], [.call index], 0⟩

end Machine

end LiveSound.Wasm
