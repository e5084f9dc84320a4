import LiveSound.Wasm.Memory
import LiveSound.Numeric.LittleEndian
import Mathlib.Algebra.GroupWithZero.Nat

/-!
# Ranges of a memory

Writing a range changes the bytes of that range and nothing else. A number that was written with its
lowest byte first is read again, as far as the range has room for it.
-/

namespace LiveSound

theorem LittleEndian.length_ofNat (width n : Nat) : (ofNat width n).length = width := by
  induction width generalizing n with
  | zero => rfl
  | succ width ih => rw [ofNat, List.length_cons, ih]

namespace Wasm.Memory

variable {m : Memory} {address length other : Nat} {bytes : Bytes}

theorem contains_iff : m.contains address length = true ↔ address + length ≤ m.size := by
  simp [contains]

theorem length_slice (m : Memory) (address length : Nat) :
    (m.slice address length).length = length := by
  simp [slice]

theorem get_set (m : Memory) (address other : Nat) (b : UInt8) :
    (m.set address b).get other = if address = other then b else m.get other := by
  simp only [get, set, Std.HashMap.getD_insert, beq_iff_eq]

theorem size_fill (m : Memory) (address : Nat) (bytes : Bytes) :
    (m.fill address bytes).size = m.size := by
  induction bytes generalizing m address with
  | nil => rfl
  | cons b rest ih => exact ih (m.set address b) (address + 1)

theorem contains_fill (m : Memory) (address : Nat) (bytes : Bytes) (start length : Nat) :
    (m.fill address bytes).contains start length = m.contains start length := by
  rw [contains, contains, size_fill]

theorem get_fill_outside (outside : other < address ∨ address + bytes.length ≤ other) :
    (m.fill address bytes).get other = m.get other := by
  induction bytes generalizing m address with
  | nil => rfl
  | cons b rest ih =>
    rw [List.length_cons] at outside
    rw [fill, ih (by omega), get_set, if_neg (by omega)]

def holding (bytes : Bytes) : Memory := fill ⟨{}, 1, 1⟩ 0 bytes

theorem get_fill (m : Memory) (address i : Nat) (bytes : Bytes) :
    (m.fill address bytes).get (address + i) = bytes.getD i (m.get (address + i)) := by
  induction bytes generalizing m address i with
  | nil => rfl
  | cons b rest ih =>
    cases i with
    | zero =>
      show ((m.set address b).fill (address + 1) rest).get address = b
      rw [get_fill_outside (.inl (Nat.lt_succ_self address)), get_set, if_pos rfl]
    | succ i =>
      rw [fill, show address + (i + 1) = address + 1 + i by omega, ih, get_set, if_neg (by omega)]
      rfl

theorem get_holding (bytes : Bytes) (address : Nat) :
    (holding bytes).get address = bytes.getD address 0 := by
  have filled := get_fill ⟨{}, 1, 1⟩ 0 address bytes
  have zero : (⟨{}, 1, 1⟩ : Memory).get address = 0 := Std.HashMap.getD_empty
  rwa [Nat.zero_add, zero] at filled

theorem size_holding (bytes : Bytes) : (holding bytes).size = 65536 := size_fill ..

theorem readNat_lt (m : Memory) (address width : Nat) : m.readNat address width < 256 ^ width := by
  induction width generalizing address with
  | zero => simp [readNat]
  | succ width ih =>
    have low := (m.get address).toNat_lt
    have high := ih (address + 1)
    rw [readNat, Nat.pow_succ]
    omega

theorem readNat_fill (m : Memory) (address width n : Nat) :
    (m.fill address (LittleEndian.ofNat width n)).readNat address width = n % 256 ^ width := by
  induction width generalizing m address n with
  | zero => simp [readNat, Nat.mod_one]
  | succ width ih =>
    have low : ((m.set address (UInt8.ofNat n)).fill (address + 1)
        (LittleEndian.ofNat width (n / 256))).get address = UInt8.ofNat n := by
      rw [get_fill_outside (.inl (Nat.lt_succ_self address)), get_set, if_pos rfl]
    rw [LittleEndian.ofNat, fill, readNat, ih, low, Nat.pow_succ', Nat.mod_mul]
    rfl

/-- What was written is what the range holds. -/
theorem slice_fill (m : Memory) (address : Nat) (bytes : Bytes) :
    (m.fill address bytes).slice address bytes.length = bytes := by
  refine List.ext_getElem (length_slice ..) fun i _ there => ?_
  simp only [slice, List.getElem_map, List.getElem_range, get_fill]
  rw [List.getD_eq_getElem?_getD, List.getElem?_eq_getElem there, Option.getD_some]

/-- A range of copies of a byte still is one after more of them were written, wherever that was. -/
theorem slice_fill_replicate {b : UInt8} (held : m.slice address length = List.replicate length b)
    (other count : Nat) :
    (m.fill other (List.replicate count b)).slice address length = List.replicate length b := by
  refine List.ext_getElem (by simp [length_slice]) fun i short there => ?_
  have before : m.get (address + i) = b := by
    have at_i := List.getElem_of_eq held (i := i) (by simpa [length_slice] using short)
    simpa [slice] using at_i
  simp only [slice, List.getElem_map, List.getElem_range, List.getElem_replicate]
  by_cases inside : other ≤ address + i ∧ address + i < other + count
  · obtain ⟨j, within⟩ := Nat.exists_eq_add_of_le inside.1
    have short : j < count := by omega
    rw [within, get_fill, List.getD_eq_getElem?_getD, List.getElem?_replicate_of_lt short,
      Option.getD_some]
  · rw [get_fill_outside (by rw [List.length_replicate]; omega), before]

/-- A write that was made changed the range and nothing else. -/
theorem write?_eq (inside : m.contains address bytes.length = true) :
    m.write? address bytes = some (m.fill address bytes) := if_pos inside

/-! ## What can differ -/

/-- A range of addresses. -/
structure Span where
  start : Nat
  length : Nat
  deriving DecidableEq

/-- The range lies wholly inside the memory. -/
def holds (m : Memory) (r : Span) : Bool := m.contains r.start r.length

/-- What the range holds. -/
def bytesIn (m : Memory) (r : Span) : Bytes := m.slice r.start r.length

/-- The memories are of one length, and outside of these ranges they do not differ. -/
structure ChangedIn (spans : List Span) (m m' : Memory) : Prop where
  size : m'.size = m.size
  get : ∀ a, (∀ r ∈ spans, a < r.start ∨ r.start + r.length ≤ a) → m'.get a = m.get a

variable {m' m'' : Memory} {spans : List Span}

theorem ChangedIn.refl (m : Memory) : ChangedIn spans m m := ⟨rfl, fun _ _ => rfl⟩

theorem ChangedIn.trans (h : ChangedIn spans m m') (h' : ChangedIn spans m' m'') :
    ChangedIn spans m m'' :=
  ⟨h'.size.trans h.size, fun a outside => (h'.get a outside).trans (h.get a outside)⟩

theorem ChangedIn.holds (h : ChangedIn spans m m') (r : Span) : m'.holds r = m.holds r := by
  rw [Memory.holds, Memory.holds, contains, contains, h.size]

theorem changedIn_fill {r : Span} (there : r ∈ spans) (fits : bytes.length = r.length) :
    ChangedIn spans m (m.fill r.start bytes) :=
  ⟨size_fill .., fun _ outside => get_fill_outside (fits ▸ outside r there)⟩

end Wasm.Memory

end LiveSound
