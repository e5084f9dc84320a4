import LiveSound.Wasm.Program
import Std.Data.HashMap

/-!
# Linear memory

A memory is a number of pages; bytes that were never written are zero and take no space, so a
memory of the largest size costs nothing to make.
-/

namespace LiveSound.Wasm

def pageSize : Nat := 65536

/-- The most pages that an address of 32 bits reaches. -/
def maxPages : Nat := 65536

structure Memory where
  written : Std.HashMap Nat UInt8
  pages : Nat
  high : Nat
  deriving Inhabited

namespace Memory

def ofLimits (limits : Limits) : Memory := ⟨{}, limits.low, limits.high.getD maxPages⟩

/-- The length in bytes. -/
def size (m : Memory) : Nat := m.pages * pageSize

def get (m : Memory) (address : Nat) : UInt8 := m.written.getD address 0

def set (m : Memory) (address : Nat) (b : UInt8) : Memory :=
  { m with written := m.written.insert address b }

def slice (m : Memory) (address length : Nat) : Bytes :=
  (List.range length).map fun i => m.get (address + i)

def fill (m : Memory) (address : Nat) : Bytes → Memory
  | [] => m
  | b :: rest => fill (m.set address b) (address + 1) rest

/-- The range lies wholly inside. -/
def contains (m : Memory) (address length : Nat) : Bool := address + length ≤ m.size

/-- The bytes of a range that lies inside. -/
def read? (m : Memory) (address length : Nat) : Option Bytes :=
  if m.contains address length then some (m.slice address length) else none

/-- The memory after a write to a range that lies inside. -/
def write? (m : Memory) (address : Nat) (bytes : Bytes) : Option Memory :=
  if m.contains address bytes.length then some (m.fill address bytes) else none

/-- More pages, unless that is more than the memory may have. -/
def grow? (m : Memory) (pages : Nat) : Option Memory :=
  if m.pages + pages ≤ m.high then some { m with pages := m.pages + pages } else none

/-- `width` bytes as a number, the lowest byte first. -/
def readNat (m : Memory) (address : Nat) : Nat → Nat
  | 0 => 0
  | width + 1 => (m.get address).toNat + 256 * readNat m (address + 1) width

end Memory

end LiveSound.Wasm
