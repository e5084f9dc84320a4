import LiveSound.Text.Utf8

/-!
# Numbers as bytes

The bytes of a number with the lowest first, as module files, archives and sound files hold it.
-/

namespace LiveSound.LittleEndian

def toNat : Bytes → Nat
  | [] => 0
  | b :: rest => b.toNat + 256 * toNat rest

/-- The lowest `width` bytes of a number. -/
def ofNat : Nat → Nat → Bytes
  | 0, _ => []
  | width + 1, n => UInt8.ofNat n :: ofNat width (n / 256)

end LiveSound.LittleEndian
