import LiveSound.Text.Utf8

/-!
# Compiled modules

A `Module` is what a compile produces and what the player loads: a file of which only the header
has been looked at. Whether the rest makes sense is found out when it is loaded.
-/

namespace LiveSound

/-- What is wrong with a header. -/
inductive ModuleFault where
  | empty
  | truncated (size : Nat)
  | badMagic
  | badVersion
  deriving DecidableEq, Repr

namespace ModuleFault

def message : ModuleFault → String
  | .empty => "compiled module is empty"
  | .truncated size => s!"compiled module is truncated ({size} bytes)"
  | .badMagic => "not a WebAssembly binary (bad magic)"
  | .badVersion => "unsupported WebAssembly version"

end ModuleFault

namespace Module

def magic : Bytes := [0x00, 0x61, 0x73, 0x6d]

def version : Bytes := [0x01, 0x00, 0x00, 0x00]

/-- The first thing that is wrong with the header of a file. -/
def fault? (bytes : Bytes) : Option ModuleFault :=
  if bytes.isEmpty then some .empty
  else if bytes.length < 8 then some (.truncated bytes.length)
  else if bytes.take 4 ≠ magic then some .badMagic
  else if (bytes.drop 4).take 4 ≠ version then some .badVersion
  else none

end Module

/-- A file with a valid header. -/
structure Module where
  bytes : Bytes
  fault?_eq_none : Module.fault? bytes = none

namespace Module

def ofBytes (bytes : Bytes) : Except ModuleFault Module :=
  match h : fault? bytes with
  | none => .ok ⟨bytes, h⟩
  | some fault => .error fault

def size (m : Module) : Nat := m.bytes.length

end Module

end LiveSound
