import LiveSound.Proofs.Guest.Buffers

/-!
# Writing to a stream

What the call that writes text owes its guest: when everything that it touches lies inside
(`Within`), it delivers the text and the sum of the lengths, and changes nothing else
(`Delivered`); when something does not, it faults and changes nothing (`Refused`). In a memory with
an address to spare the call keeps that with any arguments. In a memory that takes up all addresses
it keeps it unless it gets as far as an address that overruns (`Overreaches`), and there the host
fails.
-/

namespace LiveSound.Guest.SystemCall

open Wasm (Memory HostReply)

/-- The entries of the table, their buffers, and the cell for the sum lie inside. -/
structure Within (m : Memory) (table count out : UInt32) : Prop where
  entries : ∀ i < count.toNat, Inside m (entryAt table i)
  cell : m.contains out.toNat 4 = true

/-- The text is posted if it is for a log and there is any, the cell holds the sum of the lengths as
far as it has room for it, and no other byte is changed. -/
structure Delivered (m : Memory) (stream table count out : UInt32) (host : Host)
    (reply : HostReply Host) : Prop where
  outcome : reply.outcome = .ok [.i32 0]
  memory : ∃ m', reply.memory = some m' ∧ m'.size = m.size ∧
    m'.readNat out.toNat 4 =
      ((List.range count.toNat).map fun i => bufferLength m (entryAt table i)).sum % 2 ^ 32 ∧
    ∀ other, other < out.toNat ∨ out.toNat + 4 ≤ other → m'.get other = m.get other
  state : reply.state = { host with
    posted :=
      (if (stream = 1 ∨ stream = 2) ∧ gathered m table 0 count.toNat ≠ [] then
        [.log (Utf8.lossy (gathered m table 0 count.toNat))] else []) ++ host.posted }

/-- The guest is stopped, and nothing has happened. -/
def Refused (m : Memory) (host : Host) (reply : HostReply Host) : Prop :=
  ∃ message, reply = ⟨some m, host, .error (.fault message)⟩

/-- The first `i` entries lie inside: the call gets as far as entry `i`. -/
def Reaches (m : Memory) (table : UInt32) (i : Nat) : Prop := ∀ j < i, Inside m (entryAt table j)

/-- The call gets as far as an entry whose address overruns. -/
def Overreaches (m : Memory) (table count : UInt32) : Prop :=
  ∃ i < count.toNat, Reaches m table i ∧ Overruns m table i

variable {m : Memory} {stream table count out : UInt32} {host : Host} {i : Nat}

/-! ## The parts of the call -/

theorem run_fdWrite (m : Memory) (stream table count out : UInt32) (host : Host) :
    run .fdWrite [.i32 stream, .i32 table, .i32 count, .i32 out] (some m) host =
      match fdWriteTo m stream table count out with
      | .ok (m, events) =>
        ⟨some m, { host with posted := events.reverse ++ host.posted }, .ok [.i32 success]⟩
      | .error stop => ⟨some m, host, .error stop⟩ := rfl

theorem reverse_writtenEvents (stream : UInt32) (text : Bytes) :
    (writtenEvents stream text).reverse =
      if (stream = 1 ∨ stream = 2) ∧ text ≠ [] then [.log (Utf8.lossy text)] else [] := by
  have isEmpty : ((!text.isEmpty) = true) = (text ≠ []) := by simp
  simp only [writtenEvents, isEmpty]
  split <;> rfl

theorem fdWriteTo_gathered {text : Bytes} {total : UInt32}
    (collected : gather m table count.toNat 0 [] 0 = .ok (text, total)) :
    fdWriteTo m stream table count out =
      (writeWord m out total).map fun m => (m, writtenEvents stream text) := by
  rw [fdWriteTo, collected, Wasm.ok_bind]
  dsimp only
  cases writeWord m out total <;> rfl

theorem writeBytes_inside {bytes : Bytes} (inside : m.contains out.toNat bytes.length = true) :
    writeBytes m out bytes = .ok (m.fill out.toNat bytes) := by
  rw [writeBytes, Memory.write?_eq inside]

theorem writeBytes_outside {bytes : Bytes}
    (outside : ¬ m.contains out.toNat bytes.length = true) :
    ∃ message, writeBytes m out bytes = .error (.fault message) := by
  rw [writeBytes, Memory.write?, if_neg outside]
  exact ⟨_, rfl⟩

theorem writeWord_inside {n : UInt32} (inside : m.contains out.toNat 4 = true) :
    writeWord m out n = .ok (m.fill out.toNat (LittleEndian.ofNat 4 n.toNat)) :=
  writeBytes_inside (by rwa [LittleEndian.length_ofNat])

theorem writeWord_outside {n : UInt32} (outside : ¬ m.contains out.toNat 4 = true) :
    ∃ message, writeWord m out n = .error (.fault message) :=
  writeBytes_outside (by rwa [LittleEndian.length_ofNat])

/-- The entries before one that is reached have room in the memory. -/
theorem Reaches.address (reached : Reaches m table i) (later : 0 < i) :
    entryAt table i ≤ m.size := by
  obtain ⟨j, rfl⟩ := Nat.exists_eq_add_of_lt later
  have room := Memory.contains_iff.mp (reached (0 + j) (Nat.lt_succ_self _)).words
  unfold entryAt at room ⊢
  omega

theorem Reaches.distance (reached : Reaches m table i) : 8 * i ≤ m.size := by
  rcases Nat.eq_zero_or_pos i with rfl | later
  · exact Nat.zero_le _
  · have room := reached.address later
    unfold entryAt at room
    omega

/-- An address that overruns is the first past the end of a memory that takes up all of them. -/
theorem Reaches.overruns_iff (fits : m.size ≤ 2 ^ 32) (reached : Reaches m table i) :
    Overruns m table i ↔ m.size = 2 ^ 32 ∧ (8 * i = 2 ^ 32 ∨ entryAt table i + 4 = 2 ^ 32) := by
  have distance := reached.distance
  have begins : 8 * i ≤ entryAt table i := Nat.le_add_left ..
  unfold Overruns
  omega

/-- With an address to spare nothing overruns. -/
theorem not_overreaches_of_short (short : m.size < 2 ^ 32) : ¬ Overreaches m table count := by
  rintro ⟨i, -, reached, overruns⟩
  exact Nat.ne_of_lt short ((reached.overruns_iff (Nat.le_of_lt short)).mp overruns).1

/-! ## The whole call -/

/-- The call begins with the entries that lie inside. -/
theorem gather_reached (fits : m.size ≤ 2 ^ 32) (reached : Reaches m table i) (rest : Nat) :
    gather m table (i + rest) 0 [] 0 =
      gather m table rest (UInt32.ofNat i) (gathered m table 0 i)
        (UInt32.ofNat (gathered m table 0 i).length) := by
  have inside : ∀ j, 0 ≤ j → j < 0 + i → Inside m (entryAt table j) :=
    fun j _ before => reached j (by omega)
  have added := gather_inside fits rest [] 0 inside
  rwa [Nat.zero_add, List.nil_append, UInt32.zero_add] at added

theorem gather_ended (fits : m.size ≤ 2 ^ 32) (reached : Reaches m table i) :
    gather m table i 0 [] 0 =
      .ok (gathered m table 0 i, UInt32.ofNat (gathered m table 0 i).length) :=
  gather_reached fits reached 0

theorem gather_stopped (fits : m.size ≤ 2 ^ 32) (fitting : ¬ Overreaches m table count)
    (outside : ¬ Reaches m table count.toNat) :
    ∃ message, gather m table count.toNat 0 [] 0 = .error (.fault message) := by
  have first : ∃ j, 0 ≤ j ∧ j < 0 + count.toNat ∧ ¬ Inside m (entryAt table j) := by
    simpa [Reaches] using outside
  refine gather_outside (i := 0) fits (fun j _ before earlier past => ?_) first
  rw [Nat.zero_add] at before
  exact fitting ⟨j, before, fun k hk => earlier k (Nat.zero_le k) hk, past⟩

theorem run_fdWrite_within (fits : m.size ≤ 2 ^ 32) (within : Within m table count out) :
    Delivered m stream table count out host
      (run .fdWrite [.i32 stream, .i32 table, .i32 count, .i32 out] (some m) host) := by
  have sum := length_gathered m table 0 count.toNat
  have collected := gather_ended fits within.entries
  have written : fdWriteTo m stream table count out = .ok
      (m.fill out.toNat (LittleEndian.ofNat 4
        (UInt32.ofNat (gathered m table 0 count.toNat).length).toNat),
        writtenEvents stream (gathered m table 0 count.toNat)) := by
    rw [fdWriteTo_gathered collected, writeWord_inside within.cell, Except.map]
  rw [run_fdWrite, written]
  show Delivered _ _ _ _ _ _ ⟨some _, { host with posted := _ }, .ok [.i32 0]⟩
  rw [reverse_writtenEvents]
  refine ⟨rfl, ⟨_, rfl, Memory.size_fill .., ?_, fun other outside => ?_⟩, ?_⟩
  · rw [Memory.readNat_fill, UInt32.toNat_ofNat', sum, List.range_eq_range']
    exact Nat.mod_mod _ _
  · exact Memory.get_fill_outside (by rwa [LittleEndian.length_ofNat])
  · rfl

theorem run_fdWrite_without (stream : UInt32) (host : Host) (fits : m.size ≤ 2 ^ 32)
    (fitting : ¬ Overreaches m table count) (outside : ¬ Within m table count out) :
    Refused m host
      (run .fdWrite [.i32 stream, .i32 table, .i32 count, .i32 out] (some m) host) := by
  suffices refused : ∃ message,
      fdWriteTo m stream table count out = .error (.fault message) by
    obtain ⟨message, refused⟩ := refused
    rw [run_fdWrite, refused]
    exact ⟨message, rfl⟩
  by_cases entries : Reaches m table count.toNat
  case pos =>
    -- The table is read to its end, so it is the cell that does not lie inside.
    have collected := gather_ended fits entries
    obtain ⟨message, refused⟩ := writeWord_outside
      (n := UInt32.ofNat (gathered m table 0 count.toNat).length)
      fun cell => outside ⟨entries, cell⟩
    refine ⟨message, ?_⟩
    rw [fdWriteTo_gathered collected, refused, Except.map]
  case neg =>
    obtain ⟨message, refused⟩ := gather_stopped fits fitting entries
    refine ⟨message, ?_⟩
    rw [fdWriteTo, refused]
    rfl

/-- In a memory with an address to spare the call does what it owes with any arguments: it is all
or nothing, and only what lies outside makes it nothing. -/
theorem fdWrite_all_or_nothing (stream table count out : UInt32) (host : Host)
    (short : m.size < 2 ^ 32) :
    (Within m table count out → Delivered m stream table count out host
      (run .fdWrite [.i32 stream, .i32 table, .i32 count, .i32 out] (some m) host)) ∧
    (¬ Within m table count out → Refused m host
      (run .fdWrite [.i32 stream, .i32 table, .i32 count, .i32 out] (some m) host)) :=
  ⟨run_fdWrite_within (Nat.le_of_lt short),
    run_fdWrite_without _ _ (Nat.le_of_lt short) (not_overreaches_of_short short)⟩

/-- One page with a table of one entry, whose buffer says hi. -/
def hiMemory : Memory := .holding [8, 0, 0, 0, 2, 0, 0, 0, 104, 105]

theorem hiMemory_inside : Inside hiMemory 0 := by
  have page : hiMemory.size = 65536 := Memory.size_holding _
  have start : bufferStart hiMemory 0 = 8 := by
    simp [bufferStart, Memory.readNat, hiMemory, Memory.get_holding]
  have length : bufferLength hiMemory 0 = 2 := by
    simp [bufferLength, Memory.readNat, hiMemory, Memory.get_holding]
  exact .of_words start length (by rw [page]; decide) (by rw [page]; decide)

def silentHost : Host := ⟨[], none, 0, 0⟩

/-- An entry that begins at the end of the page is refused. -/
theorem hi_all_or_nothing :
    hiMemory.size < 2 ^ 32 ∧
    Delivered hiMemory 1 0 1 16 silentHost
      (run .fdWrite [.i32 1, .i32 0, .i32 1, .i32 16] (some hiMemory) silentHost) ∧
    Refused hiMemory silentHost
      (run .fdWrite [.i32 1, .i32 65536, .i32 1, .i32 16] (some hiMemory) silentHost) := by
  have page : hiMemory.size = 65536 := Memory.size_holding _
  have short : hiMemory.size < 2 ^ 32 := by rw [page]; decide
  refine ⟨short, (fdWrite_all_or_nothing 1 0 1 16 silentHost short).1 ⟨fun i single => ?_, ?_⟩,
    (fdWrite_all_or_nothing 1 65536 1 16 silentHost short).2 fun within => ?_⟩
  · obtain rfl : i = 0 := Nat.lt_one_iff.mp single
    exact hiMemory_inside
  · rw [Memory.contains_iff, page]
    decide
  · have room := Memory.contains_iff.mp (within.entries 0 (by decide)).words
    rw [page] at room
    exact absurd room (by decide)

/-! ## Addresses in a full memory -/

/-- Where an address overruns the host fails, and nothing has happened. -/
theorem run_fdWrite_overruns (fits : m.size ≤ 2 ^ 32) (before : i < count.toNat)
    (reached : Reaches m table i) (overruns : Overruns m table i) :
    run .fdWrite [.i32 stream, .i32 table, .i32 count, .i32 out] (some m) host =
      ⟨some m, host, .error (.crash
        (if 8 * i = 2 ^ 32 then "attempt to multiply with overflow"
          else "attempt to add with overflow"))⟩ := by
  obtain ⟨rest, counted⟩ := Nat.exists_eq_add_of_lt before
  have collected : gather m table count.toNat 0 [] 0 = .error (overrun i) := by
    rw [counted, Nat.add_assoc, gather_reached fits reached,
      gather_overruns (Nat.lt_trans before count.toNat_lt) overruns]
  have within := reached.distance
  have failure : overrun i = .crash (if 8 * i = 2 ^ 32 then "attempt to multiply with overflow"
      else "attempt to add with overflow") := by
    unfold overrun
    by_cases far : 8 * i = 2 ^ 32
    · rw [if_pos far, if_pos (Nat.le_of_eq far.symm)]
      rfl
    · rw [if_neg far, if_neg (by omega)]
      rfl
  rw [run_fdWrite, fdWriteTo, collected, ← failure]
  rfl

/-- A call that the host survives got to no address that overruns. -/
theorem run_fdWrite_crashes_iff (fits : m.size ≤ 2 ^ 32) :
    (∃ message,
      (run .fdWrite [.i32 stream, .i32 table, .i32 count, .i32 out] (some m) host).outcome =
        .error (.crash message)) ↔ Overreaches m table count := by
  constructor
  · rintro ⟨message, crashed⟩
    refine Classical.byContradiction fun fitting => ?_
    by_cases within : Within m table count out
    · exact nomatch crashed.symm.trans (run_fdWrite_within fits within).outcome
    · obtain ⟨other, refused⟩ := run_fdWrite_without stream host fits fitting within
      exact nomatch crashed.symm.trans (congrArg HostReply.outcome refused)
  · rintro ⟨i, before, reached, overruns⟩
    rw [run_fdWrite_overruns fits before reached overruns]
    exact ⟨_, rfl⟩

/-- With any memory that addresses of 32 bits reach the call does what it owes unless it gets as far
as an address that overruns, and there the host fails. Such an address takes a memory of all pages:
it is that of the second word of an entry at the last four bytes, or that of the entry after the
2^29 entries that such a memory has room for. -/
theorem fdWrite_overruns_only_at_the_end (stream table count out : UInt32) (host : Host)
    (fits : m.size ≤ 2 ^ 32) :
    let reply := run .fdWrite [.i32 stream, .i32 table, .i32 count, .i32 out] (some m) host
    (¬ Overreaches m table count →
      (Within m table count out → Delivered m stream table count out host reply) ∧
      (¬ Within m table count out → Refused m host reply)) ∧
    ((∃ message, reply.outcome = .error (.crash message)) ↔ Overreaches m table count) ∧
    ∀ i < count.toNat, Reaches m table i →
      (Overruns m table i ↔
        m.size = 2 ^ 32 ∧ (8 * i = 2 ^ 32 ∨ entryAt table i + 4 = 2 ^ 32)) ∧
      (Overruns m table i → reply = ⟨some m, host, .error (.crash
        (if 8 * i = 2 ^ 32 then "attempt to multiply with overflow"
          else "attempt to add with overflow"))⟩) := by
  refine ⟨fun fitting => ⟨run_fdWrite_within fits, run_fdWrite_without _ _ fits fitting⟩,
    run_fdWrite_crashes_iff fits, fun i before reached =>
      ⟨reached.overruns_iff fits, run_fdWrite_overruns fits before reached⟩⟩

/-- All pages, with a text near the beginning and its address in the last four bytes. -/
def topMemory : Memory :=
  (Memory.fill ⟨{}, 65536, 65536⟩ 0
    [5, 0, 0, 0, 0, 0, 0, 0, 0, 0, 0, 0, 0, 0, 0, 0, 104, 101, 108, 108, 111]).fill 0xFFFFFFFC
    [16, 0, 0, 0]

/-- All pages, with nothing in them. -/
def blankMemory : Memory := ⟨{}, 65536, 65536⟩

theorem inside_blankMemory {entry : Nat} (words : entry + 8 ≤ 2 ^ 32) :
    Inside blankMemory entry := by
  have blank : ∀ address, blankMemory.readNat address 4 = 0 := fun address => by
    simp [Memory.readNat, Memory.get, blankMemory]
  exact .of_words (blank entry) (blank (entry + 4)) words (Nat.zero_le _)

/-- Half an entry at the end of the memory is too much for the host, and so is a table of one entry
more than the memory has room for. -/
theorem full_memory_crashes_the_host :
    topMemory.size ≤ 2 ^ 32 ∧ blankMemory.size ≤ 2 ^ 32 ∧
    run .fdWrite [.i32 1, .i32 0xFFFFFFFC, .i32 1, .i32 32] (some topMemory) silentHost =
      ⟨some topMemory, silentHost, .error (.crash "attempt to add with overflow")⟩ ∧
    run .fdWrite [.i32 1, .i32 0, .i32 0x20000001, .i32 32] (some blankMemory) silentHost =
      ⟨some blankMemory, silentHost, .error (.crash "attempt to multiply with overflow")⟩ := by
  have top : topMemory.size = 2 ^ 32 := by
    rw [topMemory, Memory.size_fill, Memory.size_fill]
    decide
  have blank : blankMemory.size = 2 ^ 32 := by decide
  have first : Reaches topMemory 0xFFFFFFFC 0 := fun _ before => absurd before (Nat.not_lt_zero _)
  have all : Reaches blankMemory 0 (2 ^ 29) := fun j before =>
    inside_blankMemory (by show 0 + 8 * j + 8 ≤ 2 ^ 32; omega)
  obtain ⟨half, adding⟩ := (fdWrite_overruns_only_at_the_end 1 0xFFFFFFFC 1 32 silentHost
    (Nat.le_of_eq top)).2.2 0 (by decide) first
  obtain ⟨far, multiplying⟩ := (fdWrite_overruns_only_at_the_end 1 0 0x20000001 32 silentHost
    (Nat.le_of_eq blank)).2.2 (2 ^ 29) (by decide) all
  exact ⟨Nat.le_of_eq top, Nat.le_of_eq blank, adding (half.mpr ⟨top, .inr (by decide)⟩),
    multiplying (far.mpr ⟨blank, .inl (by decide)⟩)⟩

end LiveSound.Guest.SystemCall
