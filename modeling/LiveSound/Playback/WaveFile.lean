import LiveSound.Numeric.Binary
import LiveSound.Numeric.LittleEndian

/-!
# Wave files

Interleaved samples as a RIFF file, in whole numbers of 16 bits or in floating point numbers of 32.
Samples are brought into the range from -1 to 1 first.
-/

namespace LiveSound.Playback

inductive BitDepth where
  | sixteen
  | thirtyTwo
  deriving DecidableEq, Repr

namespace BitDepth

/-- Bytes in a sample. -/
def width : BitDepth → Nat
  | .sixteen => 2
  | .thirtyTwo => 4

end BitDepth

namespace WaveFile

/-- A sample brought into range. What is no number stays so. -/
def clamp (x : Binary32) : Binary32 :=
  if !x.isNaN && Binary32.one.magnitude < x.magnitude then
    if x.isNegative then ⟨Binary32.one.bits ||| 0x80000000⟩ else .one
  else x

/-- The nearest whole number; a half goes away from zero. -/
def nearestInt (x : Binary32) : Int :=
  let unit := Layout.single.one
  let n := (2 * Layout.single.units x.magnitude.toNat + unit) / (2 * unit)
  if x.isNegative then -(n : Int) else n

/-- A sample in 16 bits. The product is rounded before the fraction is. -/
def level (x : Binary32) : Int :=
  if x.isNaN then 0
  else
    nearestInt (.ofRatio x.isNegative (Layout.single.units x.magnitude.toNat * 32767)
      Layout.single.one)

def sampleBytes (depth : BitDepth) (x : Binary32) : Bytes :=
  match depth with
  | .sixteen => LittleEndian.ofNat 2 (level (clamp x) % 65536).toNat
  | .thirtyTwo => LittleEndian.ofNat 4 (clamp x).bits.toNat

def tag (name : String) : Bytes := Utf8.encode name

/-- What every format begins with: its number, channels, rates and sizes. -/
def formatStart (number channels sampleRate : Nat) (depth : BitDepth) : Bytes :=
  let frame := channels * depth.width
  LittleEndian.ofNat 2 number ++ LittleEndian.ofNat 2 channels ++ LittleEndian.ofNat 4 sampleRate ++
    LittleEndian.ofNat 4 (sampleRate * frame) ++ LittleEndian.ofNat 2 frame ++
    LittleEndian.ofNat 2 (8 * depth.width)

def formatNumber : BitDepth → Nat
  | .sixteen => 1
  | .thirtyTwo => 3

def formatIdentifier (depth : BitDepth) : Bytes :=
  LittleEndian.ofNat 2 (formatNumber depth) ++
    [0, 0, 0, 0, 0x10, 0, 0x80, 0, 0, 0xAA, 0, 0x38, 0x9B, 0x71]

def isShort (channels : Nat) (depth : BitDepth) : Bool := depth == .sixteen && channels ≤ 2

/-- The format chunk. The extended form also says to which speakers the channels go. -/
def format (channels sampleRate : Nat) (depth : BitDepth) : Bytes :=
  if isShort channels depth then
    formatStart (formatNumber depth) channels sampleRate depth
  else
    formatStart 0xFFFE channels sampleRate depth ++ LittleEndian.ofNat 2 22 ++
      LittleEndian.ofNat 2 (8 * depth.width) ++ LittleEndian.ofNat 4 (Nat.pow 2 channels - 1) ++
      formatIdentifier depth

def chunk (name : String) (content : Bytes) : Bytes :=
  tag name ++ LittleEndian.ofNat 4 content.length ++ content

/-- A whole file. -/
def write (channels sampleRate : Nat) (depth : BitDepth) (samples : List Binary32) : Bytes :=
  chunk "RIFF" (tag "WAVE" ++ chunk "fmt " (format channels sampleRate depth) ++
    chunk "data" (samples.flatMap (sampleBytes depth)))

end WaveFile

end LiveSound.Playback
