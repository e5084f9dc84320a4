import LiveSound.Archive.Gzip
import LiveSound.World.Path

/-!
# Tar archives

A sequence of members, each a header of 512 bytes and its data, padded to whole blocks of that
size. A block of zeros ends the archive, as does the end of the file. `Tar.read` gives the members
up to the first fault. A member of a kind that is not known is a file. Links are not known to file
trees, so an archive that has one is read up to there.
-/

namespace LiveSound.Archive

inductive MemberKind where
  | file (content : Bytes)
  | directory
  deriving Repr

structure Member where
  path : String
  kind : MemberKind
  mode : Nat
  deriving Repr

structure Listing where
  members : List Member
  /-- The archive came to its end without a fault. -/
  complete : Bool

namespace Tar

def blockSize : Nat := 512

def untilZero (bytes : Bytes) : Bytes := bytes.takeWhile (· != 0)

def field (header : Bytes) (offset length : Nat) : Bytes := (header.drop offset).take length

/-- A number in octal digits with blanks around it, or, marked by its first bit, in binary. -/
def number? (bytes : Bytes) : Option Nat :=
  match bytes with
  | b :: _ =>
    if b &&& 0x80 != 0 then some ((bytes.drop 1).foldl (fun n b => n * 256 + b.toNat) 0)
    else
      let digits := Text.trimChars ((untilZero bytes).map fun b => Char.ofNat b.toNat)
      if !digits.isEmpty && digits.all fun c => '0' ≤ c && c < '8' then
        some (digits.foldl (fun n c => n * 8 + (c.toNat - '0'.toNat)) 0)
      else none
  | [] => none

/-- The sum of the header's bytes, with blanks in place of the field that holds the sum. -/
def headerSum (header : Bytes) : Nat :=
  let sum (bytes : Bytes) : Nat := bytes.foldl (fun n b => n + b.toNat) 0
  sum (header.take 148) + 8 * 32 + sum (header.drop 156)

def isUstar (header : Bytes) : Bool := field header 257 6 == Utf8.encode "ustar\x00"

/-- The path in a header; the newer form has a part that goes before the name. -/
def pathOf (header : Bytes) : Bytes :=
  let name := untilZero (field header 0 100)
  let before := if isUstar header then untilZero (field header 345 155) else []
  if before.isEmpty then name else before ++ Utf8.encode "/" ++ name

/-- The path that an extended header gives: a line `length path=text`. -/
def extendedPath? (content : Bytes) : Option Bytes :=
  let line := (Text.splitLines (Utf8.lossyChars content)).findSome? fun line =>
    let entry := (line.dropWhile (· != ' ')).drop 1
    if "path=".toList.isPrefixOf entry then some (entry.drop 5) else none
  line.map fun cs => Utf8.encodeChars cs

/-- A path whose parts all lie below where it is unpacked. -/
def isPlain (path : String) : Bool := !(Path.pieces path).contains ".."

/-- The parts of a member's path, without those that have no meaning. -/
def plainPath (path : String) : String :=
  String.intercalate "/" ((Path.pieces path).filter fun part => part != "" && part != ".")

/-- A member that can be unpacked; one with another path is passed over. -/
def member? (header : Bytes) (path content : Bytes) (mode : Nat) : Option Member :=
  let text := Utf8.lossy path
  let isDirectory := header.getD 156 0 == 0x35 || !isUstar header && text.endsWith "/"
  if isPlain text && plainPath text != "" then
    some ⟨plainPath text, if isDirectory then .directory else .file content, mode⟩
  else none

/-- Members up to the end or a fault. `name` is the path for the next member, if one was given
before its header. There are other headers that say something of later members, which is not needed.
Every member takes a block at least. -/
def readMembers (complete : Bool) : Nat → Option Bytes → Bytes → List Member → Listing
  | 0, _, _, done => ⟨done.reverse, false⟩
  | fuel + 1, name, bytes, done =>
    let header := bytes.take blockSize
    if bytes.isEmpty then ⟨done.reverse, complete⟩
    else if header.length < blockSize then ⟨done.reverse, false⟩
    else if header.all (· == 0) then ⟨done.reverse, true⟩
    else
      match number? (field header 148 8), number? (field header 124 12) with
      | some sum, some size =>
        if sum != headerSum header then ⟨done.reverse, false⟩
        else
          let rest := bytes.drop blockSize
          let content := rest.take size
          let padded := (size + (blockSize - 1)) / blockSize * blockSize
          let whole := padded ≤ rest.length
          let next := rest.drop padded
          match header.getD 156 0 with
          | 0x4C =>
            if whole then readMembers complete fuel (some (untilZero content)) next done
            else ⟨done.reverse, false⟩
          | 0x78 =>
            if whole then
              readMembers complete fuel ((extendedPath? content).or name) next done
            else ⟨done.reverse, false⟩
          | 0x67 | 0x4B =>
            if whole then readMembers complete fuel name next done else ⟨done.reverse, false⟩
          | 0x31 | 0x32 => ⟨done.reverse, false⟩
          | _ =>
            let mode := (number? (field header 100 8)).getD 0o644
            let found := member? header (name.getD (pathOf header)) content mode
            let done := found.toList ++ done
            if whole then readMembers complete fuel none next done
            else ⟨done.reverse, false⟩
      | _, _ => ⟨done.reverse, false⟩

def read (s : Stream) : Listing :=
  readMembers s.complete (s.bytes.length / blockSize + 1) none s.bytes []

/-! ## Writing -/

/-- A number in so many octal digits, and a zero. -/
def octal (width n : Nat) : Bytes :=
  let digits := Nat.toDigits 8 n
  Utf8.encodeChars (List.replicate (width - digits.length) '0' ++ digits) ++ [0]

def pad (length : Nat) (bytes : Bytes) : Bytes :=
  bytes ++ List.replicate (length - bytes.length) 0

def padded (bytes : Bytes) : Bytes :=
  pad ((bytes.length + (blockSize - 1)) / blockSize * blockSize) bytes

def header (path : Bytes) (kind : UInt8) (size : Nat) : Bytes :=
  let before := pad 100 (path.take 100) ++ octal 7 0o644 ++ octal 7 0 ++ octal 7 0 ++
    octal 11 size ++ octal 11 0
  let after := kind :: pad 100 [] ++ Utf8.encode "ustar  \x00"
  let sum := (before ++ after).foldl (fun n b => n + b.toNat) (8 * 32)
  pad blockSize (before ++ octal 6 sum ++ [0x20] ++ after)

/-- A file; a path of more than 100 bytes goes before it in a member of its own. -/
def writeFile (path content : Bytes) : Bytes :=
  let long := if path.length ≤ 100 then [] else
    header (Utf8.encode "././@LongLink") 0x4C (path.length + 1) ++ padded (path ++ [0])
  long ++ header path 0x30 content.length ++ padded content

def write (files : List (String × Bytes)) : Bytes :=
  files.flatMap (fun (path, content) => writeFile (Utf8.encode path) content) ++
    List.replicate (2 * blockSize) 0

end Tar

end LiveSound.Archive
