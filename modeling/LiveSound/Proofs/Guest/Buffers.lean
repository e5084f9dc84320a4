import LiveSound.Guest.SystemCall
import LiveSound.Proofs.Wasm.HostState
import LiveSound.Proofs.Wasm.Ranges

/-!
# The table of buffers

A guest hands its text over as a table of buffers, and `gather` collects them with arithmetic of 32
bits. As long as each entry and its buffer lie `Inside` the memory that arithmetic is exact: the
buffers come out one after another (`gather_inside`). The first entry that does not is where the
call ends (`gather_outside`). There the guest is stopped, unless an address of the entry is computed
that does not fit and is not checked (`Overruns`), which is where the host fails.
-/

namespace LiveSound.Guest.SystemCall

open Wasm (Memory Stop)

/-- The address of an entry, with nothing cut off. -/
def entryAt (table : UInt32) (i : Nat) : Nat := table.toNat + 8 * i

def bufferStart (m : Memory) (entry : Nat) : Nat := m.readNat entry 4

def bufferLength (m : Memory) (entry : Nat) : Nat := m.readNat (entry + 4) 4

def buffer (m : Memory) (entry : Nat) : Bytes :=
  m.slice (bufferStart m entry) (bufferLength m entry)

/-- The entry and its buffer lie wholly inside. -/
structure Inside (m : Memory) (entry : Nat) : Prop where
  words : m.contains entry 8 = true
  buffer : m.contains (bufferStart m entry) (bufferLength m entry) = true

instance (m : Memory) (entry : Nat) : Decidable (Inside m entry) :=
  decidable_of_iff (m.contains entry 8 = true ∧
      m.contains (bufferStart m entry) (bufferLength m entry) = true)
    ⟨fun h => ⟨h.1, h.2⟩, fun h => ⟨h.words, h.buffer⟩⟩

/-- The bytes of the buffers of `count` entries, from entry `i` on. -/
def gathered (m : Memory) (table : UInt32) (i count : Nat) : Bytes :=
  (List.range' i count).flatMap fun j => buffer m (entryAt table j)

/-- The host computes an address of entry `i` that does not fit into 32 bits and that it does not
check: the distance from the beginning of the table, or the address of the second word when the
first can be read. -/
def Overruns (m : Memory) (table : UInt32) (i : Nat) : Prop :=
  2 ^ 32 ≤ 8 * i ∨
    entryAt table i < 2 ^ 32 ∧ 2 ^ 32 ≤ entryAt table i + 4 ∧ entryAt table i + 4 ≤ m.size

/-- What the host fails with at an entry that overruns. -/
def overrun (i : Nat) : Stop := if 2 ^ 32 ≤ 8 * i then productOverflow else sumOverflow

variable {m : Memory} {table : UInt32} {i count : Nat} {text : Bytes} {total : UInt32}

theorem Inside.of_words {entry start length : Nat} (begins : bufferStart m entry = start)
    (lasts : bufferLength m entry = length) (words : entry + 8 ≤ m.size)
    (room : start + length ≤ m.size) : Inside m entry :=
  ⟨Memory.contains_iff.mpr words, Memory.contains_iff.mpr (by rwa [begins, lasts])⟩

/-! ## Words -/

theorem readWord_inside {address : UInt32} (inside : address.toNat + 4 ≤ m.size) :
    readWord m address = .ok (UInt32.ofNat (m.readNat address.toNat 4)) :=
  if_pos (Memory.contains_iff.mpr inside)

theorem readWord_outside {address : UInt32} (outside : m.size < address.toNat + 4) :
    ∃ message, readWord m address = .error (.fault message) := by
  have refused : ¬ m.contains address.toNat 4 = true := by
    rw [Memory.contains_iff]
    omega
  exact ⟨_, if_neg refused⟩

theorem toNat_word (m : Memory) (address : Nat) :
    (UInt32.ofNat (m.readNat address 4)).toNat = m.readNat address 4 :=
  UInt32.toNat_ofNat_of_lt (m.readNat_lt address 4)

theorem toNat_index (counted : i < 2 ^ 32) : (UInt32.ofNat i).toNat = i :=
  UInt32.toNat_ofNat_of_lt counted

theorem product_fits (distance : 8 * i < 2 ^ 32) :
    ∃ offset, product (UInt32.ofNat i) recordSize = .ok offset ∧ offset.toNat = 8 * i := by
  have index := toNat_index (i := i) (by omega)
  have size : recordSize.toNat = 8 := rfl
  refine ⟨UInt32.ofNat i * recordSize, if_pos (by rw [index, size]; omega), ?_⟩
  rw [UInt32.toNat_mul, index, size]
  omega

theorem product_overflows (counted : i < 2 ^ 32) (far : 2 ^ 32 ≤ 8 * i) :
    product (UInt32.ofNat i) recordSize = .error productOverflow := by
  have index := toNat_index counted
  have size : recordSize.toNat = 8 := rfl
  exact if_neg (by rw [index, size]; omega)

theorem sum_fits {a b : UInt32} (fits : a.toNat + b.toNat < 2 ^ 32) :
    ∃ c, sum a b = .ok c ∧ c.toNat = a.toNat + b.toNat := by
  refine ⟨a + b, if_pos fits, ?_⟩
  rw [UInt32.toNat_add]
  omega

theorem sum_overflows {a b : UInt32} (large : 2 ^ 32 ≤ a.toNat + b.toNat) :
    sum a b = .error sumOverflow := if_neg (by omega)

/-! ## One entry -/

theorem gather_past (distance : 8 * i < 2 ^ 32) (past : 2 ^ 32 ≤ entryAt table i) :
    ∃ message, gather m table (count + 1) (UInt32.ofNat i) text total =
      .error (.fault message) := by
  obtain ⟨offset, computed, exact⟩ := product_fits distance
  unfold entryAt at past
  rw [gather, computed, Wasm.ok_bind, if_pos (by omega)]
  exact ⟨_, rfl⟩

theorem gather_succ (m : Memory) (count : Nat) (text : Bytes) (total : UInt32)
    (distance : 8 * i < 2 ^ 32) (address : entryAt table i < 2 ^ 32) :
    ∃ record : UInt32, record.toNat = entryAt table i ∧
      gather m table (count + 1) (UInt32.ofNat i) text total = (do
        let start ← readWord m record
        let length ← readWord m (← sum record 4)
        match m.read? start.toNat length.toNat with
        | none => throw (.fault "fd_write: buffer out of bounds")
        | some chunk =>
          gather m table count (UInt32.ofNat (i + 1)) (text ++ chunk) (total + length)) := by
  obtain ⟨offset, computed, exact⟩ := product_fits distance
  have next : UInt32.ofNat i + 1 = UInt32.ofNat (i + 1) := (UInt32.ofNat_add i 1).symm
  unfold entryAt at address ⊢
  refine ⟨table + offset, ?_, ?_⟩
  · rw [UInt32.toNat_add]
    omega
  · rw [gather, computed, Wasm.ok_bind, next]
    exact if_neg (by omega)

/-- At an entry that overruns the host fails. -/
theorem gather_overruns (counted : i < 2 ^ 32) (overruns : Overruns m table i) :
    gather m table (count + 1) (UInt32.ofNat i) text total = .error (overrun i) := by
  by_cases far : 2 ^ 32 ≤ 8 * i
  · rw [overrun, if_pos far, gather, product_overflows counted far]
    rfl
  · obtain ⟨address, last, first⟩ := overruns.resolve_left far
    obtain ⟨record, there, worked⟩ := gather_succ m count text total (by omega) address
    have four : (4 : UInt32).toNat = 4 := rfl
    rw [overrun, if_neg far, worked, readWord_inside (by omega), Wasm.ok_bind,
      sum_overflows (by omega)]
    rfl

theorem gather_unread (address : entryAt table i < 2 ^ 32) (fitting : ¬ Overruns m table i)
    (outside : m.size < entryAt table i + 8) :
    ∃ message, gather m table (count + 1) (UInt32.ofNat i) text total =
      .error (.fault message) := by
  have distance : 8 * i < 2 ^ 32 := Nat.lt_of_not_le fun far => fitting (.inl far)
  obtain ⟨record, there, worked⟩ := gather_succ m count text total distance address
  rw [worked]
  by_cases first : entryAt table i + 4 ≤ m.size
  case neg =>
    obtain ⟨message, faulted⟩ := readWord_outside (show m.size < record.toNat + 4 by omega)
    rw [faulted]
    exact ⟨message, rfl⟩
  have second : entryAt table i + 4 < 2 ^ 32 :=
    Nat.lt_of_not_le fun last => fitting (.inr ⟨address, last, first⟩)
  have four : (4 : UInt32).toNat = 4 := rfl
  obtain ⟨next, computed, exact⟩ := sum_fits (a := record) (b := 4) (by omega)
  obtain ⟨message, faulted⟩ := readWord_outside (show m.size < next.toNat + 4 by omega)
  rw [readWord_inside (by omega), Wasm.ok_bind, computed, Wasm.ok_bind, faulted]
  exact ⟨message, rfl⟩

/-- An entry whose words lie inside is worked off with what stands there. -/
theorem gather_words (fits : m.size ≤ 2 ^ 32) (words : entryAt table i + 8 ≤ m.size) :
    gather m table (count + 1) (UInt32.ofNat i) text total =
      match m.read? (bufferStart m (entryAt table i)) (bufferLength m (entryAt table i)) with
      | none => .error (.fault "fd_write: buffer out of bounds")
      | some chunk =>
        gather m table count (UInt32.ofNat (i + 1)) (text ++ chunk)
          (total + UInt32.ofNat (bufferLength m (entryAt table i))) := by
  have address : entryAt table i < 2 ^ 32 := by omega
  have distance : 8 * i < 2 ^ 32 := by
    unfold entryAt at address
    omega
  obtain ⟨record, there, worked⟩ := gather_succ m count text total distance address
  have four : (4 : UInt32).toNat = 4 := rfl
  obtain ⟨next, computed, exact⟩ := sum_fits (a := record) (b := 4) (by omega)
  rw [worked, readWord_inside (by omega), Wasm.ok_bind, computed, Wasm.ok_bind,
    readWord_inside (by omega), Wasm.ok_bind, exact, there, four, toNat_word, toNat_word,
    bufferStart, bufferLength]
  cases m.read? (m.readNat (entryAt table i) 4) (m.readNat (entryAt table i + 4) 4) <;> rfl

theorem gather_succ_inside (fits : m.size ≤ 2 ^ 32) (inside : Inside m (entryAt table i)) :
    gather m table (count + 1) (UInt32.ofNat i) text total =
      gather m table count (UInt32.ofNat (i + 1)) (text ++ buffer m (entryAt table i))
        (total + UInt32.ofNat (bufferLength m (entryAt table i))) := by
  have taken : m.read? (bufferStart m (entryAt table i)) (bufferLength m (entryAt table i)) =
      some (buffer m (entryAt table i)) := if_pos inside.buffer
  rw [gather_words fits (Memory.contains_iff.mp inside.words), taken]

/-- An entry that does not lie inside ends the call, unless its address overruns. -/
theorem gather_succ_outside (fits : m.size ≤ 2 ^ 32) (outside : ¬ Inside m (entryAt table i))
    (fitting : ¬ Overruns m table i) :
    ∃ message, gather m table (count + 1) (UInt32.ofNat i) text total =
      .error (.fault message) := by
  by_cases address : entryAt table i < 2 ^ 32
  case neg =>
    exact gather_past (Nat.lt_of_not_le fun far => fitting (.inl far)) (Nat.le_of_not_lt address)
  by_cases words : entryAt table i + 8 ≤ m.size
  case neg => exact gather_unread address fitting (Nat.lt_of_not_le words)
  have missing : m.read? (bufferStart m (entryAt table i)) (bufferLength m (entryAt table i)) =
      none := if_neg fun buffer => outside ⟨Memory.contains_iff.mpr words, buffer⟩
  rw [gather_words fits words, missing]
  exact ⟨_, rfl⟩

/-! ## The whole table -/

theorem gathered_succ (m : Memory) (table : UInt32) (i count : Nat) :
    gathered m table i (count + 1) =
      buffer m (entryAt table i) ++ gathered m table (i + 1) count := by
  rw [gathered, List.range'_succ, List.flatMap_cons, gathered]

theorem length_gathered (m : Memory) (table : UInt32) (i count : Nat) :
    (gathered m table i count).length =
      ((List.range' i count).map fun j => bufferLength m (entryAt table j)).sum := by
  simp [gathered, List.length_flatMap, buffer, Memory.length_slice]

/-- Entries that lie inside are gathered, and the rest of the table is left. -/
theorem gather_inside (fits : m.size ≤ 2 ^ 32) (rest : Nat) (text : Bytes) (total : UInt32)
    (inside : ∀ j, i ≤ j → j < i + count → Inside m (entryAt table j)) :
    gather m table (count + rest) (UInt32.ofNat i) text total =
      gather m table rest (UInt32.ofNat (i + count)) (text ++ gathered m table i count)
        (total + UInt32.ofNat (gathered m table i count).length) := by
  induction count generalizing i text total with
  | zero => simp [gathered]
  | succ count ih =>
    have lengths : total + UInt32.ofNat (bufferLength m (entryAt table i)) +
        UInt32.ofNat (gathered m table (i + 1) count).length =
          total + UInt32.ofNat (gathered m table i (count + 1)).length := by
      rw [gathered_succ, List.length_append, buffer, Memory.length_slice, UInt32.ofNat_add,
        UInt32.add_assoc]
    rw [Nat.add_right_comm, gather_succ_inside fits (inside i (Nat.le_refl i) (by omega)),
      ih _ _ fun j low high => inside j (by omega) (by omega), lengths, gathered_succ,
      List.append_assoc, Nat.add_right_comm i 1 count]
    rfl

theorem gather_outside (fits : m.size ≤ 2 ^ 32)
    (fitting : ∀ j, i ≤ j → j < i + count →
      (∀ k, i ≤ k → k < j → Inside m (entryAt table k)) → ¬ Overruns m table j)
    (outside : ∃ j, i ≤ j ∧ j < i + count ∧ ¬ Inside m (entryAt table j)) :
    ∃ message, gather m table count (UInt32.ofNat i) text total = .error (.fault message) := by
  induction count generalizing i text total with
  | zero =>
    obtain ⟨j, low, high, -⟩ := outside
    omega
  | succ count ih =>
    by_cases inside : Inside m (entryAt table i)
    case neg =>
      exact gather_succ_outside fits inside
        (fitting i (Nat.le_refl i) (by omega) fun k low high => by omega)
    rw [gather_succ_inside fits inside]
    refine ih (fun j low high earlier => ?_) ?_
    · refine fitting j (by omega) (by omega) fun k low high => ?_
      by_cases here : k = i
      · rwa [here]
      · exact earlier k (by omega) high
    · obtain ⟨j, low, high, out⟩ := outside
      have later : j ≠ i := fun here => out (by rwa [here])
      exact ⟨j, by omega, by omega, out⟩

end LiveSound.Guest.SystemCall
