import LiveSound.Archive.Inflate
import LiveSound.Numeric.LittleEndian

/-!
# Gzip files

A header, inflated data, and a checksum with the length of the data. Only the first member of a
file is read.
-/

namespace LiveSound.Archive

/-- Data that may break off. -/
structure Stream where
  bytes : Bytes
  /-- All of it is there. -/
  complete : Bool

namespace Gzip

/-- One step of the cyclic checksum for each bit of a byte. -/
def checkByte (crc : UInt32) (b : UInt8) : UInt32 :=
  (List.range 8).foldl
    (fun c _ => if c &&& 1 = 1 then (c >>> 1) ^^^ 0xEDB88320 else c >>> 1) (crc ^^^ b.toUInt32)

def checksum (bytes : Bytes) : UInt32 := bytes.foldl checkByte 0xFFFFFFFF ^^^ 0xFFFFFFFF

def afterZero? : Bytes → Option Bytes
  | [] => none
  | b :: rest => if b = 0 then some rest else afterZero? rest

def skipExtra? : Bytes → Option Bytes
  | l0 :: l1 :: rest =>
    let length := l0.toNat + 256 * l1.toNat
    if length ≤ rest.length then some (rest.drop length) else none
  | _ => none

def skip? (bytes : Bytes) (n : Nat) : Option Bytes :=
  if n ≤ bytes.length then some (bytes.drop n) else none

def afterHeader? : Bytes → Option Bytes
  | 0x1F :: 0x8B :: 8 :: flags :: rest => do
    let has (bit : UInt8) : Bool := flags &&& bit != 0
    let rest ← skip? rest 6
    let rest ← if has 4 then skipExtra? rest else some rest
    let rest ← if has 8 then afterZero? rest else some rest
    let rest ← if has 16 then afterZero? rest else some rest
    if has 2 then skip? rest 2 else some rest
  | _ => none

def read (bytes : Bytes) : Stream :=
  match afterHeader? bytes with
  | none => ⟨[], false⟩
  | some rest =>
    let step := inflate rest
    let data := step.out.toList
    let trailer := step.bits.align.take 8
    let matching := trailer.length == 8 &&
      LittleEndian.toNat (trailer.take 4) == (checksum data).toNat &&
      LittleEndian.toNat (trailer.drop 4) == data.length % 0x100000000
    ⟨data, step.sound && matching⟩

/-! ## Writing -/

/-- Stored blocks of at most 65535 bytes each; the last one is marked. -/
def storedBlocks (bytes : Bytes) : Bytes :=
  let piece := bytes.take 65535
  let length := LittleEndian.ofNat 2 piece.length ++ LittleEndian.ofNat 2 (65535 - piece.length)
  if bytes.length ≤ 65535 then 1 :: length ++ piece
  else 0 :: length ++ piece ++ storedBlocks (bytes.drop 65535)
termination_by bytes.length
decreasing_by simp only [List.length_drop]; omega

/-- A file that holds the data as it is. -/
def write (bytes : Bytes) : Bytes :=
  [0x1F, 0x8B, 8, 0, 0, 0, 0, 0, 0, 255] ++ storedBlocks bytes ++
    LittleEndian.ofNat 4 (checksum bytes).toNat ++ LittleEndian.ofNat 4 bytes.length

end Gzip

end LiveSound.Archive
