import LiveSound.Wasm.Program

/-!
# Reading WebAssembly binaries

Each reader takes bytes from the front and returns the rest, or fails. Sections are cut out by
their length and must be used up exactly.
-/

namespace LiveSound.Wasm.Decode

abbrev Reader (α : Type) := Bytes → Option (α × Bytes)

def byte : Reader UInt8
  | [] => none
  | b :: rest => some (b, rest)

/-- The next `n` bytes. -/
def take (n : Nat) : Reader Bytes := fun bytes =>
  let front := bytes.take n
  if front.length = n then some (front, bytes.drop n) else none

/-- An unsigned number in groups of seven bits, the lowest first, that fits in `bits`. -/
def unsigned : Nat → Reader Nat
  | _, [] => none
  | bits, b :: rest =>
    let n := b.toNat % 128
    if bits = 0 then none
    else if b < 128 then
      if bits < 7 ∧ Nat.pow 2 bits ≤ n then none else some (n, rest)
    else if bits ≤ 7 then none
    else (unsigned (bits - 7) rest).map fun (high, rest) => (n + 128 * high, rest)

/-- A signed number in groups of seven bits that fits in `bits`. -/
def signed : Nat → Reader Int
  | _, [] => none
  | bits, b :: rest =>
    let n := b.toNat % 128
    if bits = 0 then none
    else if b < 128 then
      let value : Int := if n < 64 then n else (n : Int) - 128
      let bound : Int := Nat.pow 2 (bits - 1)
      if bits < 7 ∧ (value < -bound ∨ bound ≤ value) then none
      else some (value, rest)
    else if bits ≤ 7 then none
    else (signed (bits - 7) rest).map fun (high, rest) => ((n : Int) + 128 * high, rest)

def u32 : Reader Nat := unsigned 32

/-- `n` items one after another. -/
def times {α : Type} (item : Reader α) : Nat → Reader (List α)
  | 0, bytes => some ([], bytes)
  | n + 1, bytes => do
    let (a, bytes) ← item bytes
    let (others, bytes) ← times item n bytes
    return (a :: others, bytes)

/-- A count and that many items; an item takes at least one byte, so a count that is larger than
the input fails at once. -/
def vector {α : Type} (item : Reader α) : Reader (List α) := fun bytes => do
  let (n, bytes) ← u32 bytes
  guard (n ≤ bytes.length)
  times item n bytes

def name : Reader String := fun bytes => do
  let (n, bytes) ← u32 bytes
  let (text, bytes) ← take n bytes
  return (← Utf8.decode? text, bytes)

def kindOf? : UInt8 → Option Kind
  | 0x7f => some .i32
  | 0x7e => some .i64
  | 0x7d => some .f32
  | 0x7c => some .f64
  | _ => none

def kind : Reader Kind
  | [] => none
  | b :: rest => (kindOf? b).map (·, rest)

def signature : Reader Signature
  | 0x60 :: bytes => do
    let (params, bytes) ← vector kind bytes
    let (results, bytes) ← vector kind bytes
    return (⟨params, results⟩, bytes)
  | _ => none

def limits : Reader Limits
  | 0x00 :: bytes => do
    let (low, bytes) ← u32 bytes
    return (⟨low, none⟩, bytes)
  | 0x01 :: bytes => do
    let (low, bytes) ← u32 bytes
    let (high, bytes) ← u32 bytes
    return (⟨low, some high⟩, bytes)
  | _ => none

def table : Reader Limits
  | 0x70 :: bytes => limits bytes
  | _ => none

def globalType : Reader GlobalType := fun bytes => do
  let (kind, bytes) ← kind bytes
  match bytes with
  | 0x00 :: bytes => return (⟨kind, false⟩, bytes)
  | 0x01 :: bytes => return (⟨kind, true⟩, bytes)
  | _ => none

def importType : Reader ImportType
  | 0x00 :: bytes => (u32 bytes).map fun (type, bytes) => (.function type, bytes)
  | 0x01 :: bytes => (table bytes).map fun (limits, bytes) => (.table limits, bytes)
  | 0x02 :: bytes => (limits bytes).map fun (limits, bytes) => (.memory limits, bytes)
  | 0x03 :: bytes => (globalType bytes).map fun (type, bytes) => (.global type, bytes)
  | _ => none

def importEntry : Reader Import := fun bytes => do
  let (space, bytes) ← name bytes
  let (name, bytes) ← name bytes
  let (type, bytes) ← importType bytes
  return (⟨space, name, type⟩, bytes)

def exportKind : UInt8 → Option ExportKind
  | 0x00 => some .function
  | 0x01 => some .table
  | 0x02 => some .memory
  | 0x03 => some .global
  | _ => none

def exportEntry : Reader Export := fun bytes => do
  let (name, bytes) ← name bytes
  let (b, bytes) ← byte bytes
  let kind ← exportKind b
  let (index, bytes) ← u32 bytes
  return (⟨name, kind, index⟩, bytes)

/-! ## Instructions -/

def blockType : Reader BlockType
  | [] => none
  | b :: rest =>
    if b = 0x40 then some (.none, rest)
    else
      match kindOf? b with
      | some kind => some (.one kind, rest)
      | none =>
        match signed 33 (b :: rest) with
        | some (n, rest) => if 0 ≤ n then some (.indexed n.toNat, rest) else none
        | none => none

def memoryArgument (kind : Kind) (width : Nat) (isSigned : Bool) : Reader Access :=
  fun bytes => do
    let (align, bytes) ← u32 bytes
    guard (align < 32)
    let (offset, bytes) ← u32 bytes
    return (⟨kind, width, isSigned, align, offset⟩, bytes)

/-- The accesses, from `i32.load` on. -/
def accesses : List (Bool × Kind × Nat × Bool) :=
  [(true, .i32, 4, false), (true, .i64, 8, false), (true, .f32, 4, false), (true, .f64, 8, false),
   (true, .i32, 1, true), (true, .i32, 1, false), (true, .i32, 2, true), (true, .i32, 2, false),
   (true, .i64, 1, true), (true, .i64, 1, false), (true, .i64, 2, true), (true, .i64, 2, false),
   (true, .i64, 4, true), (true, .i64, 4, false),
   (false, .i32, 4, false), (false, .i64, 8, false), (false, .f32, 4, false),
   (false, .f64, 8, false), (false, .i32, 1, false), (false, .i32, 2, false),
   (false, .i64, 1, false), (false, .i64, 2, false), (false, .i64, 4, false)]

def intRelations : List IntRelation :=
  [.eq, .ne, .ltS, .ltU, .gtS, .gtU, .leS, .leU, .geS, .geU]

def floatRelations : List FloatRelation := [.eq, .ne, .lt, .gt, .le, .ge]

def intUnaries : List IntUnary := [.clz, .ctz, .popcnt]

def intBinaries : List IntBinary :=
  [.add, .sub, .mul, .divS, .divU, .remS, .remU, .and, .or, .xor, .shl, .shrS, .shrU, .rotl,
   .rotr]

def floatUnaries : List FloatUnary := [.abs, .neg, .ceil, .floor, .trunc, .nearest, .sqrt]

def floatBinaries : List FloatBinary := [.add, .sub, .mul, .div, .min, .max, .copysign]

def truncation (source target : Kind) (isSigned : Bool) : Instr :=
  .conversion (.truncate source target isSigned false)

def conversion (source target : Kind) (isSigned : Bool) : Instr :=
  .conversion (.convert source target isSigned)

def reinterpretation (source target : Kind) : Instr :=
  .conversion (.reinterpret source target)

/-- Tests and comparisons, from 0x45 on. -/
def comparisons : List Instr :=
  [Instr.isZero .i32] ++ intRelations.map (Instr.intRelation .i32) ++
  [Instr.isZero .i64] ++ intRelations.map (Instr.intRelation .i64) ++
  floatRelations.map (Instr.floatRelation .f32) ++ floatRelations.map (Instr.floatRelation .f64)

/-- Arithmetic, from 0x67 on. -/
def arithmetic : List Instr :=
  intUnaries.map (Instr.intUnary .i32) ++ intBinaries.map (Instr.intBinary .i32) ++
  intUnaries.map (Instr.intUnary .i64) ++ intBinaries.map (Instr.intBinary .i64) ++
  floatUnaries.map (Instr.floatUnary .f32) ++ floatBinaries.map (Instr.floatBinary .f32) ++
  floatUnaries.map (Instr.floatUnary .f64) ++ floatBinaries.map (Instr.floatBinary .f64)

/-- Conversions and sign extensions, from 0xA7 on. -/
def conversions : List Instr :=
  [Instr.conversion .wrap,
   truncation .f32 .i32 true, truncation .f32 .i32 false,
   truncation .f64 .i32 true, truncation .f64 .i32 false,
   .conversion (.extend true), .conversion (.extend false),
   truncation .f32 .i64 true, truncation .f32 .i64 false,
   truncation .f64 .i64 true, truncation .f64 .i64 false,
   conversion .i32 .f32 true, conversion .i32 .f32 false,
   conversion .i64 .f32 true, conversion .i64 .f32 false,
   .conversion .demote,
   conversion .i32 .f64 true, conversion .i32 .f64 false,
   conversion .i64 .f64 true, conversion .i64 .f64 false,
   .conversion .promote,
   reinterpretation .f32 .i32, reinterpretation .f64 .i64,
   reinterpretation .i32 .f32, reinterpretation .i64 .f64,
   .intUnary .i32 .extend8, .intUnary .i32 .extend16,
   .intUnary .i64 .extend8, .intUnary .i64 .extend16, .intUnary .i64 .extend32]

/-- The numeric instructions without an argument, in the order of their codes from 0x45 on. -/
def numeric : Array Instr := (comparisons ++ arithmetic ++ conversions).toArray

/-- The saturating truncations, in the order of their codes after 0xFC. -/
def saturating : Array Instr :=
  #[(Kind.f32, Kind.i32, true), (.f32, .i32, false), (.f64, .i32, true), (.f64, .i32, false),
    (.f32, .i64, true), (.f32, .i64, false), (.f64, .i64, true), (.f64, .i64, false)].map
    fun (source, target, isSigned) => Instr.conversion (.truncate source target isSigned true)

/-- A constant or an instruction with plain arguments. -/
def simple (code : UInt8) (bytes : Bytes) : Option (Instr × Bytes) :=
  let indexed (make : Nat → Instr) := (u32 bytes).map fun (n, bytes) => (make n, bytes)
  match code with
  | 0x00 => some (.unreachable, bytes)
  | 0x01 => some (.nop, bytes)
  | 0x0c => indexed .br
  | 0x0d => indexed .brIf
  | 0x0e => do
    let (labels, bytes) ← vector u32 bytes
    let (otherwise, bytes) ← u32 bytes
    return (.brTable labels otherwise, bytes)
  | 0x0f => some (.ret, bytes)
  | 0x10 => indexed .call
  | 0x11 => do
    let (type, bytes) ← u32 bytes
    let (table, bytes) ← u32 bytes
    return (.callIndirect type table, bytes)
  | 0x1a => some (.drop, bytes)
  | 0x1b => some (.select none, bytes)
  | 0x1c => do
    let (kinds, bytes) ← vector kind bytes
    match kinds with
    | [kind] => return (.select (some kind), bytes)
    | _ => none
  | 0x20 => indexed .localGet
  | 0x21 => indexed .localSet
  | 0x22 => indexed .localTee
  | 0x23 => indexed .globalGet
  | 0x24 => indexed .globalSet
  | 0x3f => (u32 bytes).bind fun (n, bytes) => if n = 0 then some (.memorySize, bytes) else none
  | 0x40 => (u32 bytes).bind fun (n, bytes) => if n = 0 then some (.memoryGrow, bytes) else none
  | 0x41 => (signed 32 bytes).map fun (n, bytes) => (.const (.i32 (Int32.ofInt n).toUInt32), bytes)
  | 0x42 => (signed 64 bytes).map fun (n, bytes) => (.const (.i64 (Int64.ofInt n).toUInt64), bytes)
  | 0x43 => (take 4 bytes).map fun (raw, bytes) =>
    (.const (.f32 ⟨UInt32.ofNat (LittleEndian.toNat raw)⟩), bytes)
  | 0x44 => (take 8 bytes).map fun (raw, bytes) =>
    (.const (.f64 ⟨UInt64.ofNat (LittleEndian.toNat raw)⟩), bytes)
  | 0xfc => do
    let (n, bytes) ← u32 bytes
    return (← saturating[n]?, bytes)
  | code =>
    if 0x28 ≤ code ∧ code ≤ 0x3e then do
      let (isLoad, kind, width, isSigned) ← accesses[code.toNat - 0x28]?
      let (access, bytes) ← memoryArgument kind width isSigned bytes
      return (if isLoad then .load access else .store access, bytes)
    else if 0x45 ≤ code then do
      return (← numeric[code.toNat - 0x45]?, bytes)
    else none

/-- How a sequence of instructions ended. -/
inductive Ending where
  | atEnd
  | atElse
  deriving DecidableEq

/-- Instructions up to the `end` or `else` that closes them. `done` holds those read so far, the
last one first; `fuel` bounds the number of instructions. -/
def sequence : Nat → List Instr → Bytes → Option (List Instr × Ending × Bytes)
  | 0, _, _ => none
  | _ + 1, _, [] => none
  | fuel + 1, done, code :: bytes =>
    match code with
    | 0x0b => some (done.reverse, .atEnd, bytes)
    | 0x05 => some (done.reverse, .atElse, bytes)
    | 0x02 => do
      let (type, bytes) ← blockType bytes
      let (body, ending, bytes) ← sequence fuel [] bytes
      guard (ending = .atEnd)
      sequence fuel (.block type body :: done) bytes
    | 0x03 => do
      let (type, bytes) ← blockType bytes
      let (body, ending, bytes) ← sequence fuel [] bytes
      guard (ending = .atEnd)
      sequence fuel (.loop type body :: done) bytes
    | 0x04 => do
      let (type, bytes) ← blockType bytes
      let (yes, ending, bytes) ← sequence fuel [] bytes
      match ending with
      | .atEnd => sequence fuel (.branchOn type yes [] :: done) bytes
      | .atElse =>
        let (no, ending, bytes) ← sequence fuel [] bytes
        guard (ending = .atEnd)
        sequence fuel (.branchOn type yes no :: done) bytes
    | code => do
      let (instr, bytes) ← simple code bytes
      sequence fuel (instr :: done) bytes

/-- Instructions up to their `end`. -/
def expression : Reader (List Instr) := fun bytes => do
  let (body, ending, rest) ← sequence (bytes.length + 1) [] bytes
  guard (ending = .atEnd)
  return (body, rest)

/-! ## Sections -/

def global : Reader Global := fun bytes => do
  let (type, bytes) ← globalType bytes
  let (init, bytes) ← expression bytes
  return (⟨type, init⟩, bytes)

def elementSegment : Reader ElementSegment := fun bytes => do
  let (flag, bytes) ← u32 bytes
  match flag with
  | 0 =>
    let (offset, bytes) ← expression bytes
    let (functions, bytes) ← vector u32 bytes
    return (⟨.active 0 offset, functions⟩, bytes)
  | 1 =>
    let (sort, bytes) ← byte bytes
    guard (sort = 0)
    let (functions, bytes) ← vector u32 bytes
    return (⟨.passive, functions⟩, bytes)
  | 2 =>
    let (table, bytes) ← u32 bytes
    let (offset, bytes) ← expression bytes
    let (sort, bytes) ← byte bytes
    guard (sort = 0)
    let (functions, bytes) ← vector u32 bytes
    return (⟨.active table offset, functions⟩, bytes)
  | 3 =>
    let (sort, bytes) ← byte bytes
    guard (sort = 0)
    let (functions, bytes) ← vector u32 bytes
    return (⟨.passive, functions⟩, bytes)
  | _ => none

def dataSegment : Reader DataSegment := fun bytes => do
  let (flag, bytes) ← u32 bytes
  let content : Reader Bytes := fun bytes => do
    let (n, bytes) ← u32 bytes
    take n bytes
  match flag with
  | 0 =>
    let (offset, bytes) ← expression bytes
    let (content, bytes) ← content bytes
    return (⟨.active 0 offset, content⟩, bytes)
  | 1 =>
    let (content, bytes) ← content bytes
    return (⟨.passive, content⟩, bytes)
  | 2 =>
    let (index, bytes) ← u32 bytes
    let (offset, bytes) ← expression bytes
    let (content, bytes) ← content bytes
    return (⟨.active index offset, content⟩, bytes)
  | _ => none

def localGroup : Reader (Nat × Kind) := fun bytes => do
  let (n, bytes) ← u32 bytes
  let (kind, bytes) ← kind bytes
  return ((n, kind), bytes)

def maxLocals : Nat := 50000

def code : Reader Code := fun bytes => do
  let (size, bytes) ← u32 bytes
  let (content, bytes) ← take size bytes
  let (groups, content) ← vector localGroup content
  guard (groups.foldl (fun n group => n + group.1) 0 ≤ maxLocals)
  let (body, rest) ← expression content
  guard rest.isEmpty
  return (⟨groups.flatMap fun (n, kind) => List.replicate n kind, body⟩, bytes)

/-- Everything in the section, to its end. -/
def whole {α : Type} (reader : Reader α) (content : Bytes) : Option α := do
  let (a, rest) ← reader content
  guard rest.isEmpty
  return a

/-- The place of a section in the fixed order; the count of data segments stands before the
code. -/
def rank? : UInt8 → Option Nat
  | 12 => some 19
  | id => if 1 ≤ id ∧ id ≤ 11 then some (if id < 10 then id.toNat else id.toNat + 10) else none

def addSection (id : UInt8) (content : Bytes) (p : Program) : Option Program := do
  match id with
  | 1 => return { p with types := ← whole (vector signature) content }
  | 2 => return { p with imports := ← whole (vector importEntry) content }
  | 3 => return { p with functions := ← whole (vector u32) content }
  | 4 => return { p with tables := ← whole (vector table) content }
  | 5 => return { p with memories := ← whole (vector limits) content }
  | 6 => return { p with globals := ← whole (vector global) content }
  | 7 => return { p with exports := ← whole (vector exportEntry) content }
  | 8 => return { p with start := some (← whole u32 content) }
  | 9 => return { p with elements := ← whole (vector elementSegment) content }
  | 10 => return { p with codes := ← whole (vector code) content }
  | 11 => return { p with data := ← whole (vector dataSegment) content }
  | 12 => return { p with dataCount := some (← whole u32 content) }
  | _ => none

/-- Sections in their order, custom ones anywhere; `fuel` bounds their number. -/
def sections : Nat → Nat → Program → Bytes → Option Program
  | _, _, p, [] => some p
  | 0, _, _, _ => none
  | fuel + 1, last, p, id :: bytes => do
    let (size, bytes) ← u32 bytes
    let (content, bytes) ← take size bytes
    if id = 0 then
      let _ ← name content
      sections fuel last p bytes
    else
      let rank ← rank? id
      guard (last < rank)
      sections fuel rank (← addSection id content p) bytes

/-- The program in a binary, whose header is already known to be right. -/
def program? (bytes : Bytes) : Option Program := sections bytes.length 0 .empty (bytes.drop 8)

end LiveSound.Wasm.Decode
