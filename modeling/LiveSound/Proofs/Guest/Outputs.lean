import LiveSound.Proofs.Guest.Writing

/-!
# Where system calls write

A call writes to the ranges that its arguments name (`outputs`) and to nothing else. `Ending` says
how a call ends that sees a memory: either all its ranges lie inside and hold what is due to them
(`contents`), or one does not and the guest is stopped, and then only ranges that lie inside may
have been written; or the host fails over the table of the call that writes text. From that follows
what a guest may rely on, in whatever state it calls (`Framed`), and what an answer without an error
tells it (`Written`).
-/

namespace LiveSound.Guest.SystemCall

open Wasm (Memory Value Kind HostReply HostFunction Linked Machine Stop Store Step Instr)

def outputs : SystemCall → List Value → List Memory.Span
  | .fdWrite, [_, _, _, .i32 out] | .fdRead, [_, _, _, .i32 out] => [⟨out.toNat, 4⟩]
  | .argsSizesGet, [.i32 count, .i32 size] | .environSizesGet, [.i32 count, .i32 size] =>
    [⟨count.toNat, 4⟩, ⟨size.toNat, 4⟩]
  | .randomGet, [.i32 start, .i32 length] => [⟨start.toNat, length.toNat⟩]
  | .clockTimeGet, [_, _, .i32 out] => [⟨out.toNat, 8⟩]
  | _, _ => []

def writers : List SystemCall :=
  [.fdWrite, .fdRead, .argsSizesGet, .environSizesGet, .randomGet, .clockTimeGet]

/-- The sum of the lengths in a table of buffers, if the table can be read. -/
def sumOfLengths (m : Memory) (table count : UInt32) : UInt32 :=
  match gather m table count.toNat 0 [] 0 with
  | .ok (_, total) => total
  | .error _ => 0

/-- What is due to each range of a call. -/
def contents (m : Memory) (host : Host) : SystemCall → List Value → List Bytes
  | .fdWrite, [_, .i32 table, .i32 count, _] =>
    [LittleEndian.ofNat 4 (sumOfLengths m table count).toNat]
  | .fdRead, _ => [LittleEndian.ofNat 4 0]
  | .argsSizesGet, _ | .environSizesGet, _ => [LittleEndian.ofNat 4 0, LittleEndian.ofNat 4 0]
  | .randomGet, [_, .i32 length] => [(randomBytes length.toNat host.seed).1]
  | .clockTimeGet, _ => [LittleEndian.ofNat 8 host.clock.toNat]
  | _, _ => []

/-- How a call ends that sees the memory. -/
inductive Ending (c : SystemCall) (args : List Value) (m : Memory) (host : Host) :
    HostReply Host → Prop where
  | complete {m' : Memory} {host' : Host} {number : UInt32}
      (inside : ∀ r ∈ outputs c args, m.holds r = true)
      (changed : m.ChangedIn (outputs c args) m')
      (written : (outputs c args).map m'.bytesIn = contents m host c args)
      (posted : c ≠ .fdWrite → host'.posted = host.posted)
      (exitCode : host'.exitCode = host.exitCode)
      (succeeds : c ∈ writers → number = success) :
      Ending c args m host ⟨some m', host', .ok [.i32 number]⟩
  | stopped {m' : Memory} {message : String}
      (changed : m.ChangedIn ((outputs c args).filter m.holds) m') :
      Ending c args m host ⟨some m', host, .error (.fault message)⟩
  | crashed {message : String} (writes : c = .fdWrite) (full : 2 ^ 32 ≤ m.size) :
      Ending c args m host ⟨some m, host, .error (.crash message)⟩

variable {c : SystemCall} {args : List Value} {m : Memory} {host : Host}

/-! ## Calls that write one range -/

/-- A call that makes one write, whatever else it does to the host when that is made. -/
theorem ending_of_write {out : UInt32} {reply : HostReply Host} (bytes : Bytes) (host' : Host)
    (range : outputs c args = [⟨out.toNat, bytes.length⟩])
    (due : contents m host c args = [bytes])
    (posted : c ≠ .fdWrite → host'.posted = host.posted)
    (exitCode : host'.exitCode = host.exitCode)
    (done : ∀ m', writeBytes m out bytes = .ok m' →
      reply = ⟨some m', host', .ok [.i32 success]⟩)
    (refused : ∀ stop, writeBytes m out bytes = .error stop → reply = ⟨some m, host, .error stop⟩) :
    Ending c args m host reply := by
  by_cases inside : m.contains out.toNat bytes.length = true
  · rw [done _ (writeBytes_inside inside)]
    refine .complete ?_ ?_ ?_ posted exitCode fun _ => rfl
    · rw [range]
      exact List.forall_mem_singleton.mpr inside
    · rw [range]
      exact Memory.changedIn_fill List.mem_cons_self rfl
    · rw [range, due]
      exact congrArg ([·]) (m.slice_fill out.toNat bytes)
  · obtain ⟨message, outside⟩ := writeBytes_outside inside
    rw [refused _ outside]
    exact .stopped (.refl m)

/-- What the calls do that write to cells. The equations stand together because checking each of
them goes through the size of the memory. -/
theorem run_cells (m : Memory) (host : Host) (a b c : Value) (out second : UInt32) :
    (run .fdRead [a, b, c, .i32 out] (some m) host =
      match writeWord m out 0 with
      | .ok m' => ⟨some m', host, .ok [.i32 success]⟩
      | .error stop => ⟨some m, host, .error stop⟩) ∧
    (run .clockTimeGet [a, b, .i32 out] (some m) host =
      match writeBytes m out (LittleEndian.ofNat 8 host.clock.toNat) with
      | .ok m' => ⟨some m', host, .ok [.i32 success]⟩
      | .error stop => ⟨some m, host, .error stop⟩) ∧
    (run .argsSizesGet [.i32 out, .i32 second] (some m) host =
      match zeroPair m out second with
      | (.ok m', _) => ⟨some m', host, .ok [.i32 success]⟩
      | (.error stop, m') => ⟨some m', host, .error stop⟩) ∧
    (run .environSizesGet [.i32 out, .i32 second] (some m) host =
      match zeroPair m out second with
      | (.ok m', _) => ⟨some m', host, .ok [.i32 success]⟩
      | (.error stop, m') => ⟨some m', host, .error stop⟩) :=
  ⟨rfl, rfl, rfl, rfl⟩

theorem ending_fdRead (fd iovs count : Value) (out : UInt32) :
    Ending .fdRead [fd, iovs, count, .i32 out] m host
      (run .fdRead [fd, iovs, count, .i32 out] (some m) host) := by
  rw [(run_cells m host fd iovs count out 0).1]
  refine ending_of_write (LittleEndian.ofNat 4 (0 : UInt32).toNat) host rfl rfl (fun _ => rfl) rfl
    (fun m' written => ?_) fun stop refused => ?_
  · rw [writeWord, written]
  · rw [writeWord, refused]

theorem ending_clockTimeGet (id precision : Value) (out : UInt32) :
    Ending .clockTimeGet [id, precision, .i32 out] m host
      (run .clockTimeGet [id, precision, .i32 out] (some m) host) := by
  rw [(run_cells m host id precision id out 0).2.1]
  refine ending_of_write (LittleEndian.ofNat 8 host.clock.toNat) host
    (by rw [LittleEndian.length_ofNat]; rfl) rfl (fun _ => rfl) rfl
    (fun m' written => ?_) fun stop refused => ?_
  · rw [written]
  · rw [refused]

/-! ## The other calls that write -/

/-- If it fails, it stops the guest or fails with the host. -/
def Refusing {α : Type} (x : Except Stop α) : Prop :=
  ∀ stop, x = .error stop → ∃ message, stop = .fault message ∨ stop = .crash message

theorem Refusing.bind {α β : Type} {x : Except Stop α} {f : α → Except Stop β}
    (hx : Refusing x) (hf : ∀ a, Refusing (f a)) : Refusing (x >>= f) := by
  cases x with
  | error stop =>
    rintro _ ⟨⟩
    exact hx stop rfl
  | ok a => exact hf a

theorem refusing_fault {α : Type} (message : String) :
    Refusing (.error (.fault message) : Except Stop α) := by
  rintro _ ⟨⟩
  exact ⟨message, .inl rfl⟩

theorem refusing_readWord (m : Memory) (address : UInt32) : Refusing (readWord m address) := by
  unfold readWord
  split
  · exact nofun
  · exact refusing_fault _

theorem refusing_product (a b : UInt32) : Refusing (product a b) := by
  unfold product
  split
  · exact nofun
  · rintro _ ⟨⟩
    exact ⟨_, .inr rfl⟩

theorem refusing_sum (a b : UInt32) : Refusing (sum a b) := by
  unfold sum
  split
  · exact nofun
  · rintro _ ⟨⟩
    exact ⟨_, .inr rfl⟩

theorem refusing_gather (m : Memory) (table : UInt32) (count : Nat) (i : UInt32) (text : Bytes)
    (total : UInt32) : Refusing (gather m table count i text total) := by
  induction count generalizing i text total with
  | zero => exact nofun
  | succ count ih =>
    rw [gather]
    refine (refusing_product i recordSize).bind fun offset => ?_
    split
    · exact refusing_fault _
    · refine (refusing_readWord m _).bind fun start => ?_
      refine (refusing_sum _ 4).bind fun second => ?_
      refine (refusing_readWord m second).bind fun length => ?_
      split
      · exact refusing_fault _
      · exact ih _ _ _

/-- With an address to spare the table is no danger to the host. -/
theorem not_crash_of_short (short : m.size < 2 ^ 32) {table count : UInt32} {message : String} :
    gather m table count.toNat 0 [] 0 ≠ .error (.crash message) := by
  by_cases entries : Reaches m table count.toNat
  · rw [gather_ended (Nat.le_of_lt short) entries]
    exact nofun
  · obtain ⟨other, refused⟩ :=
      gather_stopped (Nat.le_of_lt short) (not_overreaches_of_short short) entries
    rw [refused]
    exact nofun

theorem ending_fdWrite (stream table count out : UInt32) :
    Ending .fdWrite [.i32 stream, .i32 table, .i32 count, .i32 out] m host
      (run .fdWrite [.i32 stream, .i32 table, .i32 count, .i32 out] (some m) host) := by
  rw [run_fdWrite]
  cases collected : gather m table count.toNat 0 [] 0 with
  | error stop =>
    have stopped : fdWriteTo m stream table count out = .error stop := by
      rw [fdWriteTo, collected]
      rfl
    rw [stopped]
    obtain ⟨message, rfl | rfl⟩ := refusing_gather _ _ _ _ _ _ stop collected
    · exact .stopped (.refl m)
    · exact .crashed rfl (Nat.le_of_not_lt fun short => not_crash_of_short short collected)
  | ok gathered =>
    obtain ⟨text, total⟩ := gathered
    have sum : sumOfLengths m table count = total := by rw [sumOfLengths, collected]
    have due : contents m host .fdWrite [.i32 stream, .i32 table, .i32 count, .i32 out] =
        [LittleEndian.ofNat 4 total.toNat] := by rw [contents, sum]
    refine ending_of_write (LittleEndian.ofNat 4 total.toNat)
      { host with posted := (writtenEvents stream text).reverse ++ host.posted }
      (by rw [LittleEndian.length_ofNat]; rfl) due (absurd rfl) rfl
      (fun m' written => ?_) fun stop refused => ?_
    · rw [fdWriteTo_gathered collected, writeWord, written]
      rfl
    · rw [fdWriteTo_gathered collected, writeWord, refused]
      rfl

/-- Both cells are zero when both lie inside; when only the second does not, the first is. -/
theorem ending_of_zeroPair {count size : UInt32} {reply : HostReply Host}
    (ranges : outputs c args = [⟨count.toNat, 4⟩, ⟨size.toNat, 4⟩])
    (due : contents m host c args = [LittleEndian.ofNat 4 0, LittleEndian.ofNat 4 0])
    (done : ∀ m' last, zeroPair m count size = (.ok m', last) →
      reply = ⟨some m', host, .ok [.i32 success]⟩)
    (stops : ∀ stop m', zeroPair m count size = (.error stop, m') →
      reply = ⟨some m', host, .error stop⟩) :
    Ending c args m host reply := by
  have zeros : LittleEndian.ofNat 4 (0 : UInt32).toNat = List.replicate 4 0 := by decide
  by_cases first : m.contains count.toNat 4 = true
  case neg =>
    obtain ⟨message, refused⟩ := writeWord_outside (n := 0) first
    rw [stops (.fault message) m (by rw [zeroPair, refused])]
    exact .stopped (.refl m)
  have firstWritten := writeWord_inside (n := 0) first
  rw [zeros] at firstWritten
  by_cases second : m.contains size.toNat 4 = true
  case neg =>
    obtain ⟨message, refused⟩ := writeWord_outside
      (m := m.fill count.toNat (List.replicate 4 0)) (n := 0) (by rwa [Memory.contains_fill])
    rw [stops (.fault message) (m.fill count.toNat (List.replicate 4 0))
      (by rw [zeroPair, firstWritten]; exact congrArg (·, _) refused)]
    refine .stopped (Memory.changedIn_fill (r := ⟨count.toNat, 4⟩) ?_ rfl)
    rw [ranges]
    exact List.mem_filter.mpr ⟨List.mem_cons_self, first⟩
  have secondWritten := writeWord_inside (m := m.fill count.toNat (List.replicate 4 0)) (n := 0)
    (by rwa [Memory.contains_fill])
  rw [zeros] at secondWritten
  rw [done _ _ (by rw [zeroPair, firstWritten]; exact congrArg (·, _) secondWritten)]
  -- The cells may overlap, but what is written to both is the same.
  have firstHeld := Memory.slice_fill_replicate
    (m.slice_fill count.toNat (List.replicate 4 (0 : UInt8))) size.toNat 4
  have secondHeld := (m.fill count.toNat (List.replicate 4 0)).slice_fill size.toNat
    (List.replicate 4 (0 : UInt8))
  refine .complete ?_ ?_ ?_ (fun _ => rfl) rfl fun _ => rfl
  · rw [ranges]
    simpa [Memory.holds] using ⟨first, second⟩
  · rw [ranges]
    exact (Memory.changedIn_fill (r := ⟨count.toNat, 4⟩) (by simp) rfl).trans
      (Memory.changedIn_fill (r := ⟨size.toNat, 4⟩) (by simp) rfl)
  · rw [ranges, due]
    exact congrArg₂ (fun a b => [a, b]) firstHeld secondHeld

theorem length_randomBytes (n : Nat) (seed : UInt64) : (randomBytes n seed).1.length = n := by
  induction n generalizing seed with
  | zero => rfl
  | succ n ih => exact congrArg (· + 1) (ih (nextRandom seed).1)

theorem ending_randomGet (start length : UInt32) :
    Ending .randomGet [.i32 start, .i32 length] m host
      (run .randomGet [.i32 start, .i32 length] (some m) host) := by
  have counted := length_randomBytes length.toNat host.seed
  have done : run .randomGet [.i32 start, .i32 length] (some m) host =
      if m.contains start.toNat length.toNat then
        ⟨some (m.fill start.toNat (randomBytes length.toNat host.seed).1),
          { host with seed := (randomBytes length.toNat host.seed).2 }, .ok [.i32 success]⟩
      else ⟨some m, host, .error (.fault "random_get: buffer out of bounds")⟩ := rfl
  rw [done]
  split
  case isFalse => exact .stopped (.refl m)
  case isTrue inside =>
    have held := m.slice_fill start.toNat (randomBytes length.toNat host.seed).1
    rw [counted] at held
    exact .complete (List.forall_mem_singleton.mpr inside)
      (Memory.changedIn_fill (r := ⟨start.toNat, length.toNat⟩) List.mem_cons_self counted)
      (congrArg ([·]) held) (fun _ => rfl) rfl fun _ => rfl

theorem ending_of_answer {number : UInt32} (idle : outputs c args = [])
    (due : contents m host c args = []) (other : c ∉ writers) :
    Ending c args m host ⟨some m, host, .ok [.i32 number]⟩ := by
  refine .complete ?_ (.refl m) ?_ (fun _ => rfl) rfl fun writes => absurd writes other
  · simp [idle]
  · rw [idle, due]
    rfl

/-! ## Every call -/

theorem typed_cons {kind : Kind} {kinds : List Kind}
    (typed : args.map Value.kind = kind :: kinds) :
    ∃ v rest, args = v :: rest ∧ v.kind = kind ∧ rest.map Value.kind = kinds := by
  simpa using List.map_eq_cons_iff.mp typed

theorem typed_word {kinds : List Kind} (typed : args.map Value.kind = .i32 :: kinds) :
    ∃ n rest, args = .i32 n :: rest ∧ rest.map Value.kind = kinds := by
  obtain ⟨v, rest, rfl, word, others⟩ := typed_cons typed
  cases v <;> cases word
  exact ⟨_, rest, rfl, others⟩

theorem typed_last (typed : args.map Value.kind = [.i32]) : ∃ n, args = [.i32 n] := by
  obtain ⟨n, rest, rfl, none⟩ := typed_word typed
  exact ⟨n, by rw [List.map_eq_nil_iff.mp none]⟩

theorem typed_pair (typed : args.map Value.kind = [.i32, .i32]) :
    ∃ a b, args = [.i32 a, .i32 b] := by
  obtain ⟨a, rest, rfl, last⟩ := typed_word typed
  obtain ⟨b, rfl⟩ := typed_last last
  exact ⟨a, b, rfl⟩

theorem typed_four (typed : args.map Value.kind = [.i32, .i32, .i32, .i32]) :
    ∃ a b c d, args = [.i32 a, .i32 b, .i32 c, .i32 d] := by
  obtain ⟨a, others, rfl, three⟩ := typed_word typed
  obtain ⟨b, rest, rfl, two⟩ := typed_word three
  obtain ⟨c, d, rfl⟩ := typed_pair two
  exact ⟨a, b, c, d, rfl⟩

theorem run_ending (m : Memory) (host : Host) (stays : c ≠ .procExit)
    (typed : args.map Value.kind = c.params) :
    Ending c args m host (run c args (some m) host) := by
  cases c with
  | procExit => exact absurd rfl stays
  | fdWrite =>
    obtain ⟨stream, table, count, out, rfl⟩ := typed_four typed
    exact ending_fdWrite stream table count out
  | fdRead =>
    obtain ⟨fd, iovs, count, out, rfl⟩ := typed_four typed
    exact ending_fdRead _ _ _ out
  | argsSizesGet =>
    obtain ⟨count, size, rfl⟩ := typed_pair typed
    rw [(run_cells m host (.i32 0) (.i32 0) (.i32 0) count size).2.2.1]
    exact ending_of_zeroPair rfl rfl (fun _ _ written => by rw [written])
      fun _ _ stopped => by rw [stopped]
  | environSizesGet =>
    obtain ⟨count, size, rfl⟩ := typed_pair typed
    rw [(run_cells m host (.i32 0) (.i32 0) (.i32 0) count size).2.2.2]
    exact ending_of_zeroPair rfl rfl (fun _ _ written => by rw [written])
      fun _ _ stopped => by rw [stopped]
  | randomGet =>
    obtain ⟨start, length, rfl⟩ := typed_pair typed
    exact ending_randomGet start length
  | clockTimeGet =>
    obtain ⟨id, others, rfl, -, two⟩ := typed_cons typed
    obtain ⟨precision, rest, rfl, -, one⟩ := typed_cons two
    obtain ⟨out, rfl⟩ := typed_last one
    exact ending_clockTimeGet id precision out
  | argsGet | environGet | pollOneoff | fdSeek | fdClose | fdFdstatGet | fdPrestatGet
  | fdPrestatDirName | pathOpen => exact ending_of_answer rfl rfl (by decide)

/-- Without a memory a call just answers. Only the one that writes text has another answer then. -/
theorem run_without (host : Host) (stays : c ≠ .procExit)
    (typed : args.map Value.kind = c.params) :
    ∃ number, run c args none host = ⟨none, host, .ok [.i32 number]⟩ ∧
      (c ∈ writers → number = if c = .fdWrite then noMemory else success) := by
  cases c with
  | procExit => exact absurd rfl stays
  | fdWrite =>
    obtain ⟨stream, table, count, out, rfl⟩ := typed_four typed
    exact ⟨noMemory, rfl, fun _ => rfl⟩
  | fdRead =>
    obtain ⟨fd, iovs, count, out, rfl⟩ := typed_four typed
    exact ⟨success, rfl, fun _ => rfl⟩
  | argsSizesGet | environSizesGet | randomGet =>
    obtain ⟨a, b, rfl⟩ := typed_pair typed
    exact ⟨success, rfl, fun _ => rfl⟩
  | clockTimeGet =>
    obtain ⟨id, others, rfl, -, two⟩ := typed_cons typed
    obtain ⟨precision, rest, rfl, -, one⟩ := typed_cons two
    obtain ⟨out, rfl⟩ := typed_last one
    exact ⟨success, rfl, fun _ => rfl⟩
  | argsGet | environGet | pollOneoff | fdSeek | fdClose | fdFdstatGet | fdPrestatGet
  | fdPrestatDirName | pathOpen => exact ⟨_, rfl, fun writes => absurd writes (by decide)⟩

theorem offer_name {space : String} (known : space ∈ spaces) (c : SystemCall) :
    offer space c.name = some ⟨c.signature, c.run⟩ := by
  have found : all.find? (·.name == c.name) = some c := by cases c <;> decide
  rw [offer, if_pos (List.contains_iff_mem.mpr known), found]
  rfl

/-! ## What a guest may rely on -/

/-- What a call may change of the store of the guest that makes it, however it ends. -/
structure Framed (c : SystemCall) (args : List Value) (visible : Bool) (before : Store Host)
    (step : Step Host) : Prop where
  globals : step.store.globals = before.globals
  table : step.store.table = before.table
  without : before.memory = none → step.store.memory = none
  /-- Of a memory that is exported the ranges of the call, as far as they lie inside. -/
  memory : ∀ m, before.memory = some m → ∃ m', step.store.memory = some m' ∧
    m.ChangedIn (if visible then (outputs c args).filter m.holds else []) m'
  /-- A range that does not lie inside stops the guest. Only with a memory that takes up all
  addresses the call that writes text may have stopped the host before. -/
  stops : visible = true → ∀ m, before.memory = some m →
    (∃ r ∈ outputs c args, m.holds r = false) →
      ∃ message, step = .stop step.store (.fault message) ∨
        c = .fdWrite ∧ 2 ^ 32 ≤ m.size ∧ step = .stop step.store (.crash message)
  posted : c ≠ .fdWrite → step.store.host.posted = before.host.posted
  exitCode : c ≠ .procExit → step.store.host.exitCode = before.host.exitCode
  exits : c = .procExit → ∃ code : UInt32, args = [.i32 code] ∧
    step.store.host.exitCode = some code.toInt32.toInt ∧
    step = .stop step.store (.exit code.toInt32.toInt)

variable {l : Linked Host} {machine : Machine Host} {below : List Value} {after : List Instr}

theorem framed_procExit (code : UInt32) :
    Framed .procExit [.i32 code] l.memoryVisible machine.store
      (Machine.resume l machine below after
        (run .procExit [.i32 code] (Machine.seen l machine.store) machine.store.host)) := by
  have kept := Machine.kept_seen l machine.store
  refine ⟨rfl, rfl, fun none => ?_, fun m there => ⟨m, ?_, .refl m⟩, fun _ _ _ => ?_,
    fun _ => rfl, absurd rfl, fun _ => ⟨code, rfl, rfl, rfl⟩⟩
  · exact kept.trans none
  · exact kept.trans there
  · rintro ⟨r, mem, -⟩
    exact absurd mem List.not_mem_nil

theorem framed_without (stays : c ≠ .procExit) (typed : args.map Value.kind = c.params)
    (hidden : Machine.seen l machine.store = none) :
    Framed c args l.memoryVisible machine.store
      (Machine.resume l machine below after
        (run c args (Machine.seen l machine.store) machine.store.host)) := by
  obtain ⟨number, answered, -⟩ := run_without machine.store.host stays typed
  have kept := Machine.kept_seen l machine.store
  rw [hidden] at kept
  rw [hidden, answered]
  refine ⟨rfl, rfl, fun none => kept.trans none, fun m there => ⟨m, kept.trans there, .refl m⟩,
    fun visible m there => ?_, fun _ => rfl, fun _ => rfl, fun same => absurd same stays⟩
  rw [Machine.seen_eq_some.mpr ⟨visible, there⟩] at hidden
  cases hidden

theorem framed_with {m : Memory} (visible : l.memoryVisible = true)
    (there : machine.store.memory = some m) (stays : c ≠ .procExit)
    {reply : HostReply Host} (ending : Ending c args m machine.store.host reply) :
    Framed c args l.memoryVisible machine.store
      (Machine.resume l machine below after reply) := by
  cases ending with
  | @complete m' host' number inside changed written posted exitCode succeeds =>
    have everything : (outputs c args).filter m.holds = outputs c args :=
      List.filter_eq_self.mpr inside
    refine ⟨rfl, rfl, fun none => ?_, fun m₁ same => ⟨m', if_pos visible, ?_⟩,
      fun _ m₁ same => ?_, posted, fun _ => exitCode, fun same => absurd same stays⟩
    · rw [there] at none
      cases none
    · rw [there] at same
      cases same
      rw [if_pos visible, everything]
      exact changed
    · rintro ⟨r, mem, outside⟩
      rw [there] at same
      cases same
      exact absurd (inside r mem) (by rw [outside]; decide)
  | @stopped m' message changed =>
    refine ⟨rfl, rfl, fun none => ?_, fun m₁ same => ⟨m', if_pos visible, ?_⟩,
      fun _ _ _ _ => ⟨message, .inl rfl⟩, fun _ => rfl, fun _ => rfl,
      fun same => absurd same stays⟩
    · rw [there] at none
      cases none
    · rw [there] at same
      cases same
      rw [if_pos visible]
      exact changed
  | @crashed message writes full =>
    refine ⟨rfl, rfl, fun none => ?_, fun m₁ same => ⟨m, if_pos visible, ?_⟩,
      fun _ m₁ same _ => ⟨message, .inr ⟨writes, ?_, rfl⟩⟩, fun _ => rfl, fun _ => rfl,
      fun same => absurd same stays⟩
    · rw [there] at none
      cases none
    · rw [there] at same
      cases same
      exact .refl m
    · rw [there] at same
      cases same
      exact full

theorem call_offered {index : Nat}
    (linked : l.functions[index]? = some (.host ⟨c.signature, c.run⟩))
    (stack : machine.stack = args.reverse ++ below) (typed : args.map Value.kind = c.params) :
    machine.call l index after = Machine.resume l machine below after
      (run c args (Machine.seen l machine.store) machine.store.host) :=
  Machine.call_eq_resume linked stack (by rw [← List.length_map, typed]; rfl) after

/-- Under either name of their space the calls are all there, and whoever links and calls one can
rely on the frame that it has. -/
theorem system_calls_are_framed {space : String} (known : space ∈ spaces) (c : SystemCall) :
    ∃ f, offer space c.name = some f ∧ f.signature = c.signature ∧
      ∀ (l : Linked Host) (machine : Machine Host) (index : Nat) (args below : List Value)
        (after : List Instr), l.functions[index]? = some (.host f) →
        machine.stack = args.reverse ++ below → args.map Value.kind = c.params →
        Framed c args l.memoryVisible machine.store (machine.call l index after) := by
  refine ⟨_, offer_name known c, rfl, fun l machine index args below after linked stack typed => ?_⟩
  rw [call_offered linked stack typed]
  by_cases exits : c = .procExit
  · subst exits
    obtain ⟨code, rfl⟩ := typed_last typed
    exact framed_procExit code
  cases seen : Machine.seen l machine.store with
  | none =>
    rw [← seen]
    exact framed_without exits typed seen
  | some m =>
    obtain ⟨visible, there⟩ := Machine.seen_eq_some.mp seen
    exact framed_with visible there exits (run_ending m _ exits typed)

/-- A guest that has one function, of the host, and exports its memory or does not. -/
def guestOf (exported : Bool) (f : HostFunction Host) : Linked Host :=
  ⟨#[.host f], #[], [], exported⟩

def calling (args : List Value) : Machine Host :=
  ⟨⟨some hiMemory, #[], #[], silentHost⟩, args.reverse, #[], [], [], 0⟩

/-- The second cell begins two bytes before the end of the page. -/
theorem last_cell_stops_the_guest :
    "wasi_unstable" ∈ spaces ∧ ∃ f, offer "wasi_unstable" "args_sizes_get" = some f ∧
      let step := (calling [.i32 8, .i32 65534]).call (guestOf true f) 0 []
      (∃ message, step = .stop step.store (.fault message)) ∧
      ∃ m', step.store.memory = some m' ∧ m'.size = 65536 ∧
        ∀ a, a < 8 ∨ 12 ≤ a → m'.get a = hiMemory.get a := by
  have known : "wasi_unstable" ∈ spaces := by decide
  have page : hiMemory.size = 65536 := Memory.size_holding _
  have inside : hiMemory.holds ⟨8, 4⟩ = true := by
    rw [Memory.holds, Memory.contains_iff, page]
    decide
  have outside : hiMemory.holds ⟨65534, 4⟩ = false := by
    rw [Memory.holds, Memory.contains, page]
    decide
  obtain ⟨f, offered, -, framed⟩ := system_calls_are_framed known .argsSizesGet
  have frame := framed (guestOf true f) (calling [.i32 8, .i32 65534]) 0 [.i32 8, .i32 65534] [] []
    rfl rfl rfl
  obtain ⟨m', there, changed⟩ := frame.memory hiMemory rfl
  have first : (outputs .argsSizesGet [.i32 8, .i32 65534]).filter hiMemory.holds = [⟨8, 4⟩] := by
    show List.filter hiMemory.holds [⟨8, 4⟩, ⟨65534, 4⟩] = _
    simp [inside, outside]
  rw [show (guestOf true f).memoryVisible = true from rfl, if_pos rfl, first] at changed
  obtain ⟨message, stopped⟩ := frame.stops rfl hiMemory rfl ⟨⟨65534, 4⟩, by decide, outside⟩
  have trapped := stopped.resolve_right fun crashed => absurd crashed.1 (by decide)
  refine ⟨known, f, offered, ⟨message, trapped⟩, m', there, changed.size.trans page,
    fun a apart => changed.get a ?_⟩
  exact List.forall_mem_singleton.mpr apart

/-! ## What an answer without an error says -/

/-- The guest goes on without an error, and every range of the call lies inside and holds what is
due to it. -/
structure Written (c : SystemCall) (args below : List Value) (m : Memory) (host : Host)
    (next : Machine Host) : Prop where
  answer : next.stack = .i32 success :: below
  memory : ∃ m', next.store.memory = some m' ∧ (∀ r ∈ outputs c args, m'.holds r = true) ∧
    (outputs c args).map m'.bytesIn = contents m host c args

theorem Ending.written {m : Memory} {reply : HostReply Host} {next : Machine Host}
    (ending : Ending c args m machine.store.host reply) (visible : l.memoryVisible = true)
    (writes : c ∈ writers) (goesOn : Machine.resume l machine below after reply = .next next) :
    Written c args below m machine.store.host next := by
  cases ending with
  | stopped changed => cases goesOn
  | crashed writes full => cases goesOn
  | @complete m' host' number inside changed written posted exitCode succeeds =>
    cases succeeds writes
    cases goesOn
    exact ⟨rfl, m', if_pos visible, fun r mem => (changed.holds r).trans (inside r mem), written⟩

/-- The calls that write give no error to a guest whose memory they see: it goes on only after all
that is due was written. A guest whose memory they do not see goes on with nothing changed, and of
all these calls only the one that writes text tells it so by an error. -/
theorem success_means_written_where_seen {space : String} (known : space ∈ spaces)
    {c : SystemCall} (writes : c ∈ writers) :
    ∃ f, offer space c.name = some f ∧ f.signature = c.signature ∧
      ∀ (l : Linked Host) (machine : Machine Host) (index : Nat) (args below : List Value)
        (after : List Instr), l.functions[index]? = some (.host f) →
        machine.stack = args.reverse ++ below → args.map Value.kind = c.params →
        (∀ m, Machine.seen l machine.store = some m →
          ∀ next, machine.call l index after = .next next →
            Written c args below m machine.store.host next) ∧
        (Machine.seen l machine.store = none →
          machine.call l index after = .next { machine with
            stack := .i32 (if c = .fdWrite then noMemory else success) :: below
            code := after }) := by
  refine ⟨_, offer_name known c, rfl, fun l machine index args below after linked stack typed => ?_⟩
  have stays : c ≠ .procExit := by
    rintro rfl
    exact absurd writes (by decide)
  rw [call_offered linked stack typed]
  refine ⟨fun m seen next goesOn => ?_, fun hidden => ?_⟩
  · obtain ⟨visible, -⟩ := Machine.seen_eq_some.mp seen
    rw [seen] at goesOn
    exact (run_ending m _ stays typed).written visible writes goesOn
  · obtain ⟨number, answered, told⟩ := run_without machine.store.host stays typed
    have kept := Machine.kept_seen l machine.store
    rw [hidden] at kept ⊢
    rw [answered, told writes, Machine.resume]
    simp only [kept]
    rfl

/-- Reading, with a memory and without it, is a success. -/
theorem unseen_read_is_a_success :
    "wasi_unstable" ∈ spaces ∧ SystemCall.fdRead ∈ writers ∧
      ∃ f, offer "wasi_unstable" "fd_read" = some f ∧
        let args : List Value := [.i32 0, .i32 0, .i32 0, .i32 16]
        (∃ next, (calling args).call (guestOf true f) 0 [] = .next next ∧
          Written .fdRead args [] hiMemory silentHost next) ∧
        (calling args).call (guestOf false f) 0 [] =
          .next { calling args with stack := [.i32 success] } := by
  have known : "wasi_unstable" ∈ spaces := by decide
  have writes : SystemCall.fdRead ∈ writers := by decide
  obtain ⟨f, offered, -, answers⟩ := success_means_written_where_seen known writes
  obtain rfl : f = ⟨SystemCall.fdRead.signature, run .fdRead⟩ :=
    Option.some.inj (offered.symm.trans (offer_name known .fdRead))
  have seen := answers (guestOf true ⟨_, run .fdRead⟩) (calling [.i32 0, .i32 0, .i32 0, .i32 16])
    0 [.i32 0, .i32 0, .i32 0, .i32 16] [] [] rfl rfl rfl
  have unseen := answers (guestOf false ⟨_, run .fdRead⟩)
    (calling [.i32 0, .i32 0, .i32 0, .i32 16]) 0 [.i32 0, .i32 0, .i32 0, .i32 16] [] []
    rfl rfl rfl
  exact ⟨known, writes, _, offered, ⟨_, rfl, seen.1 hiMemory rfl _ rfl⟩, unseen.2 rfl⟩

end LiveSound.Guest.SystemCall
