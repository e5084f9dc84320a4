import LiveSound.Text.Utf8

/-!
# Inflating

Data compressed with DEFLATE: blocks of stored bytes or of codes, where a code is a byte or the
length of a piece that is copied from further back. `inflate` gives all that can be had; it also
tells whether the data came to its end.
-/

namespace LiveSound.Archive

/-- Bits that are still to be read, the lowest bit of a byte first. -/
structure Bits where
  bytes : Bytes
  /-- How many bits of the first byte have been read. -/
  used : Nat

namespace Bits

def next? (b : Bits) : Option (Nat × Bits) :=
  match b.bytes with
  | [] => none
  | byte :: rest =>
    let bit := (byte.toNat >>> b.used) % 2
    some (bit, if b.used = 7 then ⟨rest, 0⟩ else ⟨b.bytes, b.used + 1⟩)

/-- A number of so many bits, the lowest first. -/
def number? : Nat → Bits → Option (Nat × Bits)
  | 0, b => some (0, b)
  | n + 1, b => do
    let (low, b) ← b.next?
    let (high, b) ← number? n b
    return (low + 2 * high, b)

/-- Skips to the next whole byte. -/
def align (b : Bits) : Bytes := if b.used = 0 then b.bytes else b.bytes.drop 1

end Bits

/-! ## Codes -/

/-- A prefix code: how many codes there are of each length from 1 to 15, and their symbols in the
order of the codes. -/
structure Code where
  counts : List Nat
  symbols : Array Nat

namespace Code

/-- The code in which symbol `i` has length `lengths[i]`; length 0 means that it has no code. -/
def ofLengths (lengths : List Nat) : Code :=
  let numbered := lengths.zip (List.range lengths.length)
  let ofLength (n : Nat) : List Nat := (numbered.filter (·.1 == n)).map (·.2)
  let sizes := (List.range 15).map (· + 1)
  ⟨sizes.map fun n => (ofLength n).length, (sizes.flatMap ofLength).toArray⟩

/-- More codes than there is room for. -/
def isOverfull (c : Code) : Bool :=
  c.counts.foldl (fun (room : Int) (n : Nat) => 2 * room - n) 1 < 0

/-- Reads one code. `code`, `first` and `index` are the code so far, the first code of this
length, and how many codes are shorter. -/
def decode (symbols : Array Nat) : List Nat → Nat → Nat → Nat → Bits → Option (Nat × Bits)
  | [], _, _, _, _ => none
  | count :: counts, code, first, index, b =>
    match b.next? with
    | none => none
    | some (bit, b) =>
      let code := code + bit
      if code < first + count then (symbols[index + (code - first)]?).map fun s => (s, b)
      else decode symbols counts (2 * code) (2 * (first + count)) (index + count) b

def symbol? (c : Code) (b : Bits) : Option (Nat × Bits) := decode c.symbols c.counts 0 0 0 b

end Code

def fixedLiterals : Code :=
  .ofLengths (List.replicate 144 8 ++ List.replicate 112 9 ++ List.replicate 24 7 ++
    List.replicate 8 8)

def fixedDistances : Code := .ofLengths (List.replicate 30 5)

/-- The least length of each length code, and its number of extra bits. -/
def lengthCodes : List (Nat × Nat) :=
  [(3, 0), (4, 0), (5, 0), (6, 0), (7, 0), (8, 0), (9, 0), (10, 0), (11, 1), (13, 1), (15, 1),
   (17, 1), (19, 2), (23, 2), (27, 2), (31, 2), (35, 3), (43, 3), (51, 3), (59, 3), (67, 4),
   (83, 4), (99, 4), (115, 4), (131, 5), (163, 5), (195, 5), (227, 5), (258, 0)]

/-- The same for distances. -/
def distanceCodes : List (Nat × Nat) :=
  [(1, 0), (2, 0), (3, 0), (4, 0), (5, 1), (7, 1), (9, 2), (13, 2), (17, 3), (25, 3), (33, 4),
   (49, 4), (65, 5), (97, 5), (129, 6), (193, 6), (257, 7), (385, 7), (513, 8), (769, 8),
   (1025, 9), (1537, 9), (2049, 10), (3073, 10), (4097, 11), (6145, 11), (8193, 12), (12289, 12),
   (16385, 13), (24577, 13)]

def extended? (table : List (Nat × Nat)) (symbol : Nat) (b : Bits) : Option (Nat × Bits) := do
  let (least, bits) ← table[symbol]?
  let (more, b) ← b.number? bits
  return (least + more, b)

/-! ## Blocks -/

/-- What has come out so far, and the rest of the input. -/
structure Step where
  out : Array UInt8
  bits : Bits
  /-- Nothing was wrong. -/
  sound : Bool

def copyBack : Nat → Nat → Array UInt8 → Array UInt8
  | 0, _, out => out
  | n + 1, distance, out => copyBack n distance (out.push (out.getD (out.size - distance) 0))

/-- The codes of a block; each takes a bit at least, so `fuel` may be the number of bits. -/
def readCodes (literals distances : Code) : Nat → Array UInt8 → Bits → Step
  | 0, out, b => ⟨out, b, false⟩
  | fuel + 1, out, b =>
    match literals.symbol? b with
    | none => ⟨out, b, false⟩
    | some (symbol, b) =>
      if symbol < 256 then
        readCodes literals distances fuel (out.push (UInt8.ofNat symbol)) b
      else if symbol = 256 then ⟨out, b, true⟩
      else
        let pair := do
          let (length, b) ← extended? lengthCodes (symbol - 257) b
          let (symbol, b) ← distances.symbol? b
          let (distance, b) ← extended? distanceCodes symbol b
          return (length, distance, b)
        match pair with
        | none => ⟨out, b, false⟩
        | some (length, distance, b) =>
          if out.size < distance then ⟨out, b, false⟩
          else readCodes literals distances fuel (copyBack length distance out) b

/-- The order in which the lengths of the codes for lengths are given. -/
def lengthOrder : List Nat :=
  [16, 17, 18, 0, 8, 7, 9, 6, 10, 5, 11, 4, 12, 3, 13, 2, 14, 1, 15]

/-- Code lengths, written with a code of their own; `done` holds them in reverse. -/
def readLengths (c : Code) : Nat → Nat → List Nat → Bits → Option (List Nat × Bits)
  | 0, _, _, _ => none
  | fuel + 1, wanted, done, b =>
    if wanted ≤ done.length then
      if done.length = wanted then some (done.reverse, b) else none
    else
      match c.symbol? b with
      | none => none
      | some (symbol, b) =>
        if symbol < 16 then readLengths c fuel wanted (symbol :: done) b
        else
          let repeated := match symbol with
            | 16 => do
              let last ← done.head?
              let (n, b) ← b.number? 2
              return (last, n + 3, b)
            | 17 => (b.number? 3).map fun (n, b) => (0, n + 3, b)
            | _ => (b.number? 7).map fun (n, b) => (0, n + 11, b)
          match repeated with
          | none => none
          | some (value, n, b) =>
            readLengths c fuel wanted (List.replicate n value ++ done) b

/-- The two codes at the start of a block that brings its own. -/
def readTables (b : Bits) : Option (Code × Code × Bits) := do
  let (literalCount, b) ← b.number? 5
  let (distanceCount, b) ← b.number? 5
  let (lengthCount, b) ← b.number? 4
  let (given, b) ← (List.range (lengthCount + 4)).foldlM
    (fun (done, b) _ => do
      let (n, b) ← Bits.number? 3 b
      return (done ++ [n], b)) (([] : List Nat), b)
  let placed := lengthOrder.zip given
  let c := Code.ofLengths ((List.range 19).map fun i => (placed.lookup i).getD 0)
  guard (!c.isOverfull)
  let literalCount := literalCount + 257
  let wanted := literalCount + (distanceCount + 1)
  let (lengths, b) ← readLengths c (wanted + 1) wanted [] b
  let literals := Code.ofLengths (lengths.take literalCount)
  let distances := Code.ofLengths (lengths.drop literalCount)
  guard (!literals.isOverfull && !distances.isOverfull)
  return (literals, distances, b)

/-- A block of bytes as they are. -/
def readStored (out : Array UInt8) (b : Bits) : Step :=
  match b.align with
  | l0 :: l1 :: n0 :: n1 :: rest =>
    let length := l0.toNat + 256 * l1.toNat
    if n0.toNat + 256 * n1.toNat + length = 0xFFFF then
      let piece := rest.take length
      ⟨out ++ piece, ⟨rest.drop length, 0⟩, piece.length = length⟩
    else ⟨out, b, false⟩
  | _ => ⟨out, b, false⟩

def readBlock (kind : Nat) (out : Array UInt8) (b : Bits) : Step :=
  let fuel := 8 * b.bytes.length + 1
  match kind with
  | 0 => readStored out b
  | 1 => readCodes fixedLiterals fixedDistances fuel out b
  | 2 =>
    match readTables b with
    | some (literals, distances, b) => readCodes literals distances fuel out b
    | none => ⟨out, b, false⟩
  | _ => ⟨out, b, false⟩

/-- Blocks up to the last one; each takes three bits at least. -/
def readBlocks : Nat → Array UInt8 → Bits → Step
  | 0, out, b => ⟨out, b, false⟩
  | fuel + 1, out, b =>
    match b.number? 3 with
    | none => ⟨out, b, false⟩
    | some (header, b) =>
      let step := readBlock (header / 2) out b
      if step.sound && header % 2 == 0 then readBlocks fuel step.out step.bits else step

def inflate (bytes : Bytes) : Step := readBlocks (8 * bytes.length + 1) #[] ⟨bytes, 0⟩

end LiveSound.Archive
