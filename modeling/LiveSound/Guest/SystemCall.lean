import LiveSound.Event.Basic
import LiveSound.Text.Hex
import LiveSound.Wasm.Machine

/-!
# System calls

The calls of the operating system that the start-up code of a C library needs. There are no files,
no arguments and no environment; what is written to the two output streams becomes a log event.

Addresses and lengths are unsigned 32-bit numbers. A range that does not lie in the memory ends
the call with a fault, and nothing is written. The host computes some addresses in 32 bits and fails
itself when such a result does not fit. A guest that exports no memory gets an error number from the
call that writes text; the others succeed without writing anything.
-/

namespace LiveSound.Guest

open Wasm (Memory Value Stop Kind Signature HostReply HostFunction)

/-- What the calls see and change besides the memory. -/
structure Host where
  /-- Posted events, the last one first. -/
  posted : List Event
  /-- The code of the last exit that was asked for. -/
  exitCode : Option Int
  /-- The source of random bytes. -/
  seed : UInt64
  /-- Nanoseconds since 1970. -/
  clock : UInt64

inductive SystemCall where
  | procExit | fdWrite | fdRead | argsSizesGet | argsGet | environSizesGet | environGet
  | randomGet | clockTimeGet | pollOneoff | fdSeek | fdClose | fdFdstatGet | fdPrestatGet
  | fdPrestatDirName | pathOpen
  deriving DecidableEq, Repr

namespace SystemCall

def all : List SystemCall :=
  [.procExit, .fdWrite, .fdRead, .argsSizesGet, .argsGet, .environSizesGet, .environGet,
   .randomGet, .clockTimeGet, .pollOneoff, .fdSeek, .fdClose, .fdFdstatGet, .fdPrestatGet,
   .fdPrestatDirName, .pathOpen]

def name : SystemCall → String
  | .procExit => "proc_exit"
  | .fdWrite => "fd_write"
  | .fdRead => "fd_read"
  | .argsSizesGet => "args_sizes_get"
  | .argsGet => "args_get"
  | .environSizesGet => "environ_sizes_get"
  | .environGet => "environ_get"
  | .randomGet => "random_get"
  | .clockTimeGet => "clock_time_get"
  | .pollOneoff => "poll_oneoff"
  | .fdSeek => "fd_seek"
  | .fdClose => "fd_close"
  | .fdFdstatGet => "fd_fdstat_get"
  | .fdPrestatGet => "fd_prestat_get"
  | .fdPrestatDirName => "fd_prestat_dir_name"
  | .pathOpen => "path_open"

/-- The spaces of names from which the calls can be imported; older compilers use the first. -/
def spaces : List String := ["wasi_unstable", "wasi_snapshot_preview1"]

def params : SystemCall → List Kind
  | .procExit => [.i32]
  | .fdWrite => [.i32, .i32, .i32, .i32]
  | .fdRead => [.i32, .i32, .i32, .i32]
  | .argsSizesGet => [.i32, .i32]
  | .argsGet => [.i32, .i32]
  | .environSizesGet => [.i32, .i32]
  | .environGet => [.i32, .i32]
  | .randomGet => [.i32, .i32]
  | .clockTimeGet => [.i32, .i64, .i32]
  | .pollOneoff => [.i32, .i32, .i32, .i32]
  | .fdSeek => [.i32, .i64, .i32, .i32]
  | .fdClose => [.i32]
  | .fdFdstatGet => [.i32, .i32]
  | .fdPrestatGet => [.i32, .i32]
  | .fdPrestatDirName => [.i32, .i32, .i32]
  | .pathOpen => [.i32, .i32, .i32, .i32, .i32, .i64, .i64, .i32, .i32]

def signature (c : SystemCall) : Signature :=
  ⟨c.params, if c = .procExit then [] else [.i32]⟩

/-! ## Error numbers -/

def success : UInt32 := 0

def noMemory : UInt32 := 1

def badDescriptor : UInt32 := 8

def noEntry : UInt32 := 28

/-! ## Access to the memory -/

def readWord (m : Memory) (address : UInt32) : Except Stop UInt32 :=
  if m.contains address.toNat 4 then .ok (UInt32.ofNat (m.readNat address.toNat 4))
  else .error (.fault s!"read of 4 bytes at 0x{hexText 1 address.toNat} out of bounds")

def writeBytes (m : Memory) (address : UInt32) (bytes : Bytes) : Except Stop Memory :=
  match m.write? address.toNat bytes with
  | some m => .ok m
  | none =>
    .error (.fault
      s!"write of {bytes.length} bytes at 0x{hexText 1 address.toNat} out of bounds")

def writeWord (m : Memory) (address n : UInt32) : Except Stop Memory :=
  writeBytes m address (LittleEndian.ofNat 4 n.toNat)

/-! ## Arithmetic of the host -/

def productOverflow : Stop := .crash "attempt to multiply with overflow"

def sumOverflow : Stop := .crash "attempt to add with overflow"

def product (a b : UInt32) : Except Stop UInt32 :=
  if a.toNat * b.toNat < 0x100000000 then .ok (a * b) else .error productOverflow

def sum (a b : UInt32) : Except Stop UInt32 :=
  if a.toNat + b.toNat < 0x100000000 then .ok (a + b) else .error sumOverflow

/-! ## The calls -/

def recordSize : UInt32 := 8

/-- The buffers named by `count` entries of the table at `table`, from entry `index` on: the
bytes after `text`, and the sum of the lengths. Of the three results in 32 bits, the distance of an
entry from the table, its address and that of its second word, only the address is checked. -/
def gather (m : Memory) (table : UInt32) :
    Nat → UInt32 → Bytes → UInt32 → Except Stop (Bytes × UInt32)
  | 0, _, text, total => .ok (text, total)
  | count + 1, index, text, total => do
    let offset ← product index recordSize
    if 0x100000000 ≤ table.toNat + offset.toNat then
      throw (.fault "fd_write: iovec table out of bounds")
    let record := table + offset
    let start ← readWord m record
    let length ← readWord m (← sum record 4)
    match m.read? start.toNat length.toNat with
    | none => throw (.fault "fd_write: buffer out of bounds")
    | some chunk => gather m table count (index + 1) (text ++ chunk) (total + length)

def writtenEvents (stream : UInt32) (text : Bytes) : List Event :=
  if (stream = 1 ∨ stream = 2) ∧ !text.isEmpty then [.log (Utf8.lossy text)] else []

def fdWriteTo (m : Memory) (stream table count out : UInt32) :
    Except Stop (Memory × List Event) := do
  let (text, total) ← gather m table count.toNat 0 [] 0
  let m ← writeWord m out total
  return (m, writtenEvents stream text)

def zeroPair (m : Memory) (first second : UInt32) : Except Stop Memory × Memory :=
  match writeWord m first 0 with
  | .error stop => (.error stop, m)
  | .ok m => (writeWord m second 0, m)

/-- The next state of the source of random bytes, and one of its bytes. -/
def nextRandom (seed : UInt64) : UInt64 × UInt8 :=
  let seed := seed + 0x9e3779b97f4a7c15
  let mixed := (seed ^^^ (seed >>> 30)) * 0xbf58476d1ce4e5b9
  let mixed := (mixed ^^^ (mixed >>> 27)) * 0x94d049bb133111eb
  (seed, (mixed ^^^ (mixed >>> 31)).toUInt8)

def randomBytes : Nat → UInt64 → Bytes × UInt64
  | 0, seed => ([], seed)
  | n + 1, seed =>
    let (seed, b) := nextRandom seed
    let (others, seed) := randomBytes n seed
    (b :: others, seed)

private def answer (memory : Option Memory) (host : Host) (number : UInt32) : HostReply Host :=
  ⟨memory, host, .ok [.i32 number]⟩

private def refuse (memory : Option Memory) (host : Host) (stop : Stop) : HostReply Host :=
  ⟨memory, host, .error stop⟩

/-- Carries out a call. Arguments are those that `params` promises. -/
def run (c : SystemCall) (args : List Value) (memory : Option Memory) (host : Host) :
    HostReply Host :=
  match c, args, memory with
  | .procExit, [.i32 code], _ =>
    let code := code.toInt32.toInt
    ⟨memory, { host with exitCode := some code }, .error (.exit code)⟩
  | .fdWrite, [.i32 _, .i32 _, .i32 _, .i32 _], none => answer none host noMemory
  | .fdWrite, [.i32 stream, .i32 table, .i32 count, .i32 out], some m =>
    match fdWriteTo m stream table count out with
    | .ok (m, events) =>
      answer (some m) { host with posted := events.reverse ++ host.posted } success
    | .error stop => refuse (some m) host stop
  | .fdRead, [_, _, _, .i32 out], some m =>
    match writeWord m out 0 with
    | .ok m => answer (some m) host success
    | .error stop => refuse (some m) host stop
  | .argsSizesGet, [.i32 first, .i32 second], some m
  | .environSizesGet, [.i32 first, .i32 second], some m =>
    match zeroPair m first second with
    | (.ok m, _) => answer (some m) host success
    | (.error stop, m) => refuse (some m) host stop
  | .randomGet, [.i32 start, .i32 length], some m =>
    if m.contains start.toNat length.toNat then
      let (bytes, seed) := randomBytes length.toNat host.seed
      answer (some (m.fill start.toNat bytes)) { host with seed := seed } success
    else refuse (some m) host (.fault "random_get: buffer out of bounds")
  | .clockTimeGet, [_, _, .i32 out], some m =>
    match writeBytes m out (LittleEndian.ofNat 8 host.clock.toNat) with
    | .ok m => answer (some m) host success
    | .error stop => refuse (some m) host stop
  | .fdPrestatGet, _, _ => answer memory host badDescriptor
  | .fdPrestatDirName, _, _ => answer memory host noEntry
  | .pathOpen, _, _ => answer memory host noEntry
  | _, _, _ => answer memory host success

def offer (space name : String) : Option (HostFunction Host) :=
  if spaces.contains space then
    (all.find? (·.name == name)).map fun c => ⟨c.signature, c.run⟩
  else none

end SystemCall

end LiveSound.Guest
