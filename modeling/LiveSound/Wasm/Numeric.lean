import LiveSound.Wasm.Instruction
import LiveSound.Wasm.Trap

/-!
# Arithmetic of WebAssembly

Integer arithmetic wraps; signed readings go through `Int`. Floating-point results come from the
arithmetic of the machine, except that a NaN keeps the payload of the operand it came from, made
quiet, and a new NaN has the sign bit set.
-/

namespace LiveSound.Wasm

/-! ## Integers -/

def countBits (n : Nat) : Nat → Nat
  | 0 => 0
  | width + 1 => n / Nat.pow 2 width % 2 + countBits n width

/-- The number of zero bits above the highest one. -/
def leadingZeros (width n : Nat) : Nat := if n = 0 then width else width - 1 - n.log2

/-- The number of zero bits below the lowest one. -/
def trailingZeros (n : Nat) : Nat → Nat
  | 0 => 0
  | width + 1 => if n % 2 = 1 then 0 else trailingZeros (n / 2) width + 1

def intUnary32 (op : IntUnary) (x : UInt32) : UInt32 :=
  match op with
  | .clz => UInt32.ofNat (leadingZeros 32 x.toNat)
  | .ctz => UInt32.ofNat (trailingZeros x.toNat 32)
  | .popcnt => UInt32.ofNat (countBits x.toNat 32)
  | .extend8 => x.toUInt8.toInt8.toInt32.toUInt32
  | .extend16 => x.toUInt16.toInt16.toInt32.toUInt32
  | .extend32 => x

def intUnary64 (op : IntUnary) (x : UInt64) : UInt64 :=
  match op with
  | .clz => UInt64.ofNat (leadingZeros 64 x.toNat)
  | .ctz => UInt64.ofNat (trailingZeros x.toNat 64)
  | .popcnt => UInt64.ofNat (countBits x.toNat 64)
  | .extend8 => x.toUInt8.toInt8.toInt64.toUInt64
  | .extend16 => x.toUInt16.toInt16.toInt64.toUInt64
  | .extend32 => x.toUInt32.toInt32.toInt64.toUInt64

def intBinary32 (op : IntBinary) (x y : UInt32) : Except Trap UInt32 :=
  match op with
  | .add => .ok (x + y)
  | .sub => .ok (x - y)
  | .mul => .ok (x * y)
  | .divS =>
    if y = 0 then .error .divideByZero
    else if x = 0x80000000 ∧ y = 0xffffffff then .error .integerOverflow
    else .ok (x.toInt32 / y.toInt32).toUInt32
  | .divU => if y = 0 then .error .divideByZero else .ok (x / y)
  | .remS =>
    if y = 0 then .error .divideByZero
    else if y = 0xffffffff then .ok 0
    else .ok (x.toInt32 % y.toInt32).toUInt32
  | .remU => if y = 0 then .error .divideByZero else .ok (x % y)
  | .and => .ok (x &&& y)
  | .or => .ok (x ||| y)
  | .xor => .ok (x ^^^ y)
  | .shl => .ok (x <<< (y % 32))
  | .shrS => .ok (x.toInt32 >>> (y % 32).toInt32).toUInt32
  | .shrU => .ok (x >>> (y % 32))
  | .rotl => .ok (x <<< (y % 32) ||| x >>> ((32 - y % 32) % 32))
  | .rotr => .ok (x >>> (y % 32) ||| x <<< ((32 - y % 32) % 32))

def intBinary64 (op : IntBinary) (x y : UInt64) : Except Trap UInt64 :=
  match op with
  | .add => .ok (x + y)
  | .sub => .ok (x - y)
  | .mul => .ok (x * y)
  | .divS =>
    if y = 0 then .error .divideByZero
    else if x = 0x8000000000000000 ∧ y = 0xffffffffffffffff then .error .integerOverflow
    else .ok (x.toInt64 / y.toInt64).toUInt64
  | .divU => if y = 0 then .error .divideByZero else .ok (x / y)
  | .remS =>
    if y = 0 then .error .divideByZero
    else if y = 0xffffffffffffffff then .ok 0
    else .ok (x.toInt64 % y.toInt64).toUInt64
  | .remU => if y = 0 then .error .divideByZero else .ok (x % y)
  | .and => .ok (x &&& y)
  | .or => .ok (x ||| y)
  | .xor => .ok (x ^^^ y)
  | .shl => .ok (x <<< (y % 64))
  | .shrS => .ok (x.toInt64 >>> (y % 64).toInt64).toUInt64
  | .shrU => .ok (x >>> (y % 64))
  | .rotl => .ok (x <<< (y % 64) ||| x >>> ((64 - y % 64) % 64))
  | .rotr => .ok (x >>> (y % 64) ||| x <<< ((64 - y % 64) % 64))

def intRelation32 (op : IntRelation) (x y : UInt32) : Bool :=
  match op with
  | .eq => x == y
  | .ne => x != y
  | .ltS => x.toInt32 < y.toInt32
  | .ltU => x < y
  | .gtS => y.toInt32 < x.toInt32
  | .gtU => y < x
  | .leS => x.toInt32 ≤ y.toInt32
  | .leU => x ≤ y
  | .geS => y.toInt32 ≤ x.toInt32
  | .geU => y ≤ x

def intRelation64 (op : IntRelation) (x y : UInt64) : Bool :=
  match op with
  | .eq => x == y
  | .ne => x != y
  | .ltS => x.toInt64 < y.toInt64
  | .ltU => x < y
  | .gtS => y.toInt64 < x.toInt64
  | .gtU => y < x
  | .leS => x.toInt64 ≤ y.toInt64
  | .leU => x ≤ y
  | .geS => y.toInt64 ≤ x.toInt64
  | .geU => y ≤ x

/-! ## Floating point -/

namespace F32

def quiet (x : Binary32) : Binary32 := ⟨x.bits ||| 0x400000⟩

/-- The result of an operation that gave `r`, for the operands in order. -/
def result (operands : List Binary32) (r : Float32) : Binary32 :=
  match operands.find? (·.isNaN) with
  | some x => quiet x
  | none =>
    let bits := r.toBits
    if (Binary32.mk bits).isNaN then ⟨0xffc00000⟩ else ⟨bits⟩

def float (x : Binary32) : Float32 := Float32.ofBits x.bits

def withSign (negative : Bool) (x : Binary32) : Binary32 :=
  ⟨if negative then x.magnitude ||| 0x80000000 else x.magnitude⟩

def isZero (x : Binary32) : Bool := x.magnitude == 0

/-- Rounded to a whole number, a half to the even one. -/
def nearest (x : Float32) : Float32 :=
  let low := x.floor
  let excess := x - low
  if excess < 0.5 then low
  else if 0.5 < excess then low + 1
  else
    let half := low / 2
    if half.floor == half then low else low + 1

def unary (op : FloatUnary) (x : Binary32) : Binary32 :=
  match op with
  | .abs => withSign false x
  | .neg => withSign (!x.isNegative) x
  | .sqrt => result [x] (float x).sqrt
  | .ceil => result [x] (float x).ceil
  | .floor => result [x] (float x).floor
  | .trunc => result [x] (if x.isNegative then (float x).ceil else (float x).floor)
  | .nearest =>
    -- from 2^23 on every number is whole
    if 0x4b000000 ≤ x.magnitude then result [x] (float x)
    else withSign x.isNegative (result [x] (nearest (float x)))

def binary (op : FloatBinary) (x y : Binary32) : Binary32 :=
  match op with
  | .add => result [x, y] (float x + float y)
  | .sub => result [x, y] (float x - float y)
  | .mul => result [x, y] (float x * float y)
  | .div => result [x, y] (float x / float y)
  | .min =>
    if x.isNaN || y.isNaN then result [x, y] 0
    else if isZero x && isZero y then withSign (x.isNegative || y.isNegative) x
    else if float x < float y then x else y
  | .max =>
    if x.isNaN || y.isNaN then result [x, y] 0
    else if isZero x && isZero y then withSign (x.isNegative && y.isNegative) x
    else if float y < float x then x else y
  | .copysign => withSign y.isNegative x

def relation (op : FloatRelation) (x y : Binary32) : Bool :=
  match op with
  | .eq => float x == float y
  | .ne => !(float x == float y)
  | .lt => float x < float y
  | .gt => float y < float x
  | .le => float x ≤ float y
  | .ge => float y ≤ float x

end F32

namespace F64

def quiet (x : Binary64) : Binary64 := ⟨x.bits ||| 0x8000000000000⟩

/-- The result of an operation that gave `r`, for the operands in order. -/
def result (operands : List Binary64) (r : Float) : Binary64 :=
  match operands.find? (·.isNaN) with
  | some x => quiet x
  | none =>
    let bits := r.toBits
    if (Binary64.mk bits).isNaN then ⟨0xfff8000000000000⟩ else ⟨bits⟩

def float (x : Binary64) : Float := Float.ofBits x.bits

def withSign (negative : Bool) (x : Binary64) : Binary64 :=
  ⟨if negative then x.magnitude ||| 0x8000000000000000 else x.magnitude⟩

def isZero (x : Binary64) : Bool := x.magnitude == 0

/-- Rounded to a whole number, a half to the even one. -/
def nearest (x : Float) : Float :=
  let low := x.floor
  let excess := x - low
  if excess < 0.5 then low
  else if 0.5 < excess then low + 1
  else
    let half := low / 2
    if half.floor == half then low else low + 1

def unary (op : FloatUnary) (x : Binary64) : Binary64 :=
  match op with
  | .abs => withSign false x
  | .neg => withSign (!x.isNegative) x
  | .sqrt => result [x] (float x).sqrt
  | .ceil => result [x] (float x).ceil
  | .floor => result [x] (float x).floor
  | .trunc => result [x] (if x.isNegative then (float x).ceil else (float x).floor)
  | .nearest =>
    -- from 2^52 on every number is whole
    if 0x4330000000000000 ≤ x.magnitude then result [x] (float x)
    else withSign x.isNegative (result [x] (nearest (float x)))

def binary (op : FloatBinary) (x y : Binary64) : Binary64 :=
  match op with
  | .add => result [x, y] (float x + float y)
  | .sub => result [x, y] (float x - float y)
  | .mul => result [x, y] (float x * float y)
  | .div => result [x, y] (float x / float y)
  | .min =>
    if x.isNaN || y.isNaN then result [x, y] 0
    else if isZero x && isZero y then withSign (x.isNegative || y.isNegative) x
    else if float x < float y then x else y
  | .max =>
    if x.isNaN || y.isNaN then result [x, y] 0
    else if isZero x && isZero y then withSign (x.isNegative && y.isNegative) x
    else if float y < float x then x else y
  | .copysign => withSign y.isNegative x

def relation (op : FloatRelation) (x y : Binary64) : Bool :=
  match op with
  | .eq => float x == float y
  | .ne => !(float x == float y)
  | .lt => float x < float y
  | .gt => float y < float x
  | .le => float x ≤ float y
  | .ge => float y ≤ float x

end F64

/-! ## Conversions -/

/-- A float without its fraction, if it is finite; else whether it is a NaN. -/
inductive Truncated where
  | whole (n : Int)
  | infinite (negative : Bool)
  | nan

def truncated : Value → Truncated
  | .f32 x =>
    if x.isNaN then .nan
    else if !x.isFinite then .infinite x.isNegative
    else
      let n := Layout.single.units x.magnitude.toNat / Layout.single.one
      .whole (if x.isNegative then -(n : Int) else n)
  | .f64 x =>
    if x.isNaN then .nan
    else if !x.isFinite then .infinite x.isNegative
    else
      let n := x.units / Layout.double.one
      .whole (if x.isNegative then -(n : Int) else n)
  | _ => .nan

def integerRange (target : Kind) (isSigned : Bool) : Int × Int :=
  let bits := if target = .i32 then 32 else 64
  let half : Int := Nat.pow 2 (bits - 1)
  if isSigned then (-half, half - 1) else (0, 2 * half - 1)

def integerValue (target : Kind) (n : Int) : Value :=
  if target = .i32 then .i32 (UInt32.ofInt n) else .i64 (UInt64.ofInt n)

def truncate (target : Kind) (isSigned saturating : Bool) (v : Value) : Except Trap Value :=
  let (low, high) := integerRange target isSigned
  let clamp (n : Int) : Except Trap Value :=
    if low ≤ n ∧ n ≤ high then .ok (integerValue target n)
    else if saturating then .ok (integerValue target (if n < low then low else high))
    else .error .integerOverflow
  match truncated v with
  | .whole n => clamp n
  | .infinite negative => clamp (if negative then low - 1 else high + 1)
  | .nan => if saturating then .ok (integerValue target 0) else .error .badConversion

def convert (target : Kind) (isSigned : Bool) (v : Value) : Value :=
  match v, target with
  | .i32 n, .f32 => .f32 ⟨(if isSigned then n.toInt32.toFloat32 else n.toFloat32).toBits⟩
  | .i32 n, .f64 => .f64 ⟨(if isSigned then n.toInt32.toFloat else n.toFloat).toBits⟩
  | .i64 n, .f32 => .f32 ⟨(if isSigned then n.toInt64.toFloat32 else n.toFloat32).toBits⟩
  | .i64 n, .f64 => .f64 ⟨(if isSigned then n.toInt64.toFloat else n.toFloat).toBits⟩
  | v, _ => v

def convertValue (op : Conversion) (v : Value) : Except Trap Value :=
  match op, v with
  | .wrap, .i64 n => .ok (.i32 n.toUInt32)
  | .extend isSigned, .i32 n =>
    .ok (.i64 (if isSigned then n.toInt32.toInt64.toUInt64 else n.toUInt64))
  | .truncate _ target isSigned saturating, v => truncate target isSigned saturating v
  | .convert _ target isSigned, v => .ok (convert target isSigned v)
  | .demote, .f64 x =>
    .ok (.f32 (if x.isNaN then F32.quiet x.toBinary32 else ⟨(F64.float x).toFloat32.toBits⟩))
  | .promote, .f32 x =>
    .ok (.f64 (if x.isNaN then F64.quiet x.toBinary64 else ⟨(F32.float x).toFloat.toBits⟩))
  | .reinterpret _ _, .i32 n => .ok (.f32 ⟨n⟩)
  | .reinterpret _ _, .i64 n => .ok (.f64 ⟨n⟩)
  | .reinterpret _ _, .f32 x => .ok (.i32 x.bits)
  | .reinterpret _ _, .f64 x => .ok (.i64 x.bits)
  | _, v => .ok v

end LiveSound.Wasm
