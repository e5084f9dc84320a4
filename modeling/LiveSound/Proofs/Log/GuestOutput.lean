import LiveSound.Event.Channel
import LiveSound.Log.Logger
import LiveSound.Proofs.Guest.Writing
import LiveSound.Proofs.Text.Lines
import LiveSound.Proofs.Text.Utf8

/-!
# The output of a guest in the log

A guest writes whole lines with any number of calls, each of which hands its text over in any number
of buffers, while whoever listens takes from the channel what is there (`Desk.act`). In the end the
log has each line that is not empty, once and in order, whatever the calls, the buffers and the
moments of taking were.
-/

namespace LiveSound

def Text.ended (lines : List String) : String :=
  String.ofList (Text.endedChars (lines.map String.toList))

namespace Log

/-- A line as it is shown: without a carriage return at its end. -/
def shown (line : String) : String :=
  if line.toList.getLast? = some '\r' then String.ofList line.toList.dropLast else line

/-- The entries of the log for lines that a guest writes. -/
def logged (lines : List String) : List (Level × String) :=
  ((lines.map shown).filter (· ≠ "")).map fun line =>
    (if line.startsWith "Warning:" then .warning else .print, line)

theorem logged_append (first rest : List String) :
    logged (first ++ rest) = logged first ++ logged rest := by
  rw [logged, List.map_append, List.filter_append, List.map_append]
  rfl

theorem shown_eq (line : String) : shown line = String.ofList (Text.dropReturn line.toList) := by
  rw [shown, Text.dropReturn_eq]
  split <;> simp

theorem lines_ended {lines : List String} (whole : ∀ line ∈ lines, '\n' ∉ line.toList) :
    Text.lines (Text.ended lines) = lines.map shown := by
  have chars : ∀ line ∈ lines.map String.toList, '\n' ∉ line := by simpa using whole
  rw [Text.lines, Text.ended, String.toList_ofList, Text.lineChars_endedChars chars, List.map_map,
    List.map_map]
  exact List.map_congr_left fun line _ => (shown_eq line).symm

theorem event_lines_ended {lines : List String} (whole : ∀ line ∈ lines, '\n' ∉ line.toList) :
    (Event.log (Text.ended lines)).lines = logged lines := by
  have nonempty : (fun line : String => !line.isEmpty) = fun line => decide (line ≠ "") := by
    funext line
    rw [Bool.eq_iff_iff]
    simp
  rw [Event.lines, lines_ended whole, nonempty, logged]

end Log

namespace Guest

open Wasm (Memory HostReply)

/-- A call that writes text: the memory as it then is, and the arguments. -/
structure WriteCall where
  memory : Memory
  stream : UInt32
  table : UInt32
  count : UInt32
  out : UInt32

namespace WriteCall

def reply (c : WriteCall) (host : Host) : HostReply Host :=
  SystemCall.run .fdWrite [.i32 c.stream, .i32 c.table, .i32 c.count, .i32 c.out] (some c.memory)
    host

/-- The call writes these lines to a stream for the log. How the bytes are divided into buffers is
left open. -/
structure Writes (c : WriteCall) (lines : List String) : Prop where
  fits : c.memory.size ≤ 2 ^ 32
  forLog : c.stream = 1 ∨ c.stream = 2
  within : SystemCall.Within c.memory c.table c.count c.out
  whole : ∀ line ∈ lines, '\n' ∉ line.toList
  text : SystemCall.gathered c.memory c.table 0 c.count.toNat = Utf8.encode (Text.ended lines)

end WriteCall

/-- What happens between a guest and whoever listens. -/
inductive Act where
  | write (c : WriteCall)
  | drain

/-- The acts write these lines, each call some of them. -/
inductive Writes : List Act → List String → Prop where
  | nil : Writes [] []
  | drain {acts : List Act} {lines : List String} (later : Writes acts lines) :
      Writes (.drain :: acts) lines
  | write {c : WriteCall} {acts : List Act} {first rest : List String} (now : c.Writes first)
      (later : Writes acts rest) : Writes (.write c :: acts) (first ++ rest)

/-- The host of a guest, the channel for its events, and the events that were taken from it. -/
structure Desk where
  host : Host
  channel : Channel Event
  received : List Event

namespace Desk

def fresh (host : Host) : Desk := ⟨host, .empty, []⟩

def act (d : Desk) : Act → Desk
  | .write c =>
    let host := (c.reply { d.host with posted := [] }).state
    ⟨host, d.channel.postAll host.posted.reverse, d.received⟩
  | .drain =>
    let (channel, events) := d.channel.drain
    ⟨d.host, channel, d.received ++ events⟩

/-- The lines of all events so far. -/
def log (d : Desk) : List (Log.Level × String) :=
  (d.received ++ d.channel.queue).flatMap Event.lines

end Desk

theorem WriteCall.Writes.posted {c : WriteCall} {lines : List String} (h : c.Writes lines)
    (host : Host) :
    (c.reply { host with posted := [] }).state.posted.reverse.flatMap Event.lines =
      Log.logged lines := by
  have delivered : SystemCall.Delivered c.memory c.stream c.table c.count c.out
      { host with posted := [] } (c.reply { host with posted := [] }) :=
    SystemCall.run_fdWrite_within h.fits h.within
  rw [delivered.state, h.text, Utf8.lossy_encode, ← Log.event_lines_ended h.whole]
  by_cases empty : Utf8.encode (Text.ended lines) = []
  case pos =>
    have nothing : Text.ended lines = "" := by
      rw [← Utf8.lossy_encode (Text.ended lines), empty, Utf8.lossy, Utf8.lossyChars]
    rw [if_neg fun some => some.2 empty, nothing]
    rfl
  case neg =>
    rw [if_pos ⟨h.forLog, empty⟩]
    simp

namespace Desk

variable {d : Desk} {acts : List Act} {lines : List String}

theorem act_write {c : WriteCall} (h : c.Writes lines) (listens : d.channel.hasReceiver = true) :
    (d.act (.write c)).log = d.log ++ Log.logged lines ∧
      (d.act (.write c)).channel.hasReceiver = true := by
  have posted := h.posted d.host
  rw [act, Channel.postAll, if_pos listens]
  refine ⟨?_, listens⟩
  rw [log, log, ← List.append_assoc, List.flatMap_append, posted]

theorem act_drain : (d.act .drain).log = d.log ∧
    (d.act .drain).channel.hasReceiver = d.channel.hasReceiver := by
  refine ⟨?_, rfl⟩
  show (d.received ++ d.channel.queue ++ []).flatMap Event.lines = d.log
  rw [List.append_nil, log]

theorem acts_log (writes : Writes acts lines) (listens : d.channel.hasReceiver = true) :
    (acts.foldl act d).log = d.log ++ Log.logged lines := by
  induction writes generalizing d with
  | nil => exact (List.append_nil _).symm
  | drain _ ih =>
    have drained := act_drain (d := d)
    rw [List.foldl_cons, ih (drained.2.trans listens), drained.1]
  | write now _ ih =>
    have written := act_write now listens
    rw [List.foldl_cons, ih written.2, written.1, Log.logged_append, List.append_assoc]

/-- Once the channel is drained, the lines of what was taken from it are the lines that were
written. -/
theorem output_is_logged_line_for_line (host : Host) (writes : Writes acts lines) :
    ((acts ++ [Act.drain]).foldl act (fresh host)).received.flatMap Event.lines =
      Log.logged lines := by
  have written := acts_log (d := fresh host) writes rfl
  rw [List.foldl_append]
  exact written

/-- A character whose two bytes are in different buffers. -/
def greeting : WriteCall where
  memory := .holding [16, 0, 0, 0, 1, 0, 0, 0, 17, 0, 0, 0, 3, 0, 0, 0, 0xC3, 0xBC, 13, 10]
  stream := 1
  table := 0
  count := 2
  out := 64

theorem greeting_writes : greeting.Writes ["ü\r"] := by
  have page : greeting.memory.size = 65536 := Memory.size_holding _
  have start₀ : SystemCall.bufferStart greeting.memory 0 = 16 := by
    simp [SystemCall.bufferStart, Memory.readNat, greeting, Memory.get_holding]
  have length₀ : SystemCall.bufferLength greeting.memory 0 = 1 := by
    simp [SystemCall.bufferLength, Memory.readNat, greeting, Memory.get_holding]
  have start₁ : SystemCall.bufferStart greeting.memory 8 = 17 := by
    simp [SystemCall.bufferStart, Memory.readNat, greeting, Memory.get_holding]
  have length₁ : SystemCall.bufferLength greeting.memory 8 = 3 := by
    simp [SystemCall.bufferLength, Memory.readNat, greeting, Memory.get_holding]
  refine ⟨?_, .inl rfl, ⟨fun i before => ?_, ?_⟩, by decide, ?_⟩
  · rw [page]
    decide
  · have few : i < 2 := before
    obtain rfl | rfl : i = 0 ∨ i = 1 := by omega
    · exact .of_words start₀ length₀ (by rw [page]; decide) (by rw [page]; decide)
    · exact .of_words start₁ length₁ (by rw [page]; decide) (by rw [page]; decide)
  · rw [Memory.contains_iff, page]
    decide
  · show SystemCall.buffer greeting.memory 0 ++ (SystemCall.buffer greeting.memory 8 ++ []) = _
    rw [SystemCall.buffer, SystemCall.buffer, start₀, length₀, start₁, length₁]
    simp only [Memory.slice, greeting, Memory.get_holding]
    decide

def warning : WriteCall where
  memory := .holding [8, 0, 0, 0, 11, 0, 0, 0, 87, 97, 114, 110, 105, 110, 103, 58, 32, 120, 10]
  stream := 2
  table := 0
  count := 1
  out := 64

theorem warning_writes : warning.Writes ["Warning: x"] := by
  have page : warning.memory.size = 65536 := Memory.size_holding _
  have start : SystemCall.bufferStart warning.memory 0 = 8 := by
    simp [SystemCall.bufferStart, Memory.readNat, warning, Memory.get_holding]
  have length : SystemCall.bufferLength warning.memory 0 = 11 := by
    simp [SystemCall.bufferLength, Memory.readNat, warning, Memory.get_holding]
  refine ⟨?_, .inr rfl, ⟨fun i before => ?_, ?_⟩, by decide, ?_⟩
  · rw [page]
    decide
  · obtain rfl : i = 0 := Nat.lt_one_iff.mp before
    exact .of_words start length (by rw [page]; decide) (by rw [page]; decide)
  · rw [Memory.contains_iff, page]
    decide
  · show SystemCall.buffer warning.memory 0 ++ [] = _
    rw [SystemCall.buffer, start, length]
    simp only [Memory.slice, warning, Memory.get_holding]
    decide

/-- The listener looks once between the two calls. -/
theorem two_calls_are_logged :
    Writes [.write greeting, .drain, .write warning] ["ü\r", "Warning: x"] ∧
    ([.write greeting, .drain, .write warning, .drain].foldl act
      (fresh SystemCall.silentHost)).received.flatMap Event.lines =
        [(.print, "ü"), (.warning, "Warning: x")] := by
  have writes : Writes [.write greeting, .drain, .write warning] ["ü\r", "Warning: x"] :=
    .write greeting_writes (.drain (.write warning_writes .nil))
  have logged : Log.logged ["ü\r", "Warning: x"] =
      [(.print, "ü"), (.warning, "Warning: x")] := by decide +kernel
  refine ⟨writes, ?_⟩
  rw [← logged]
  exact output_is_logged_line_for_line SystemCall.silentHost writes

end Desk

end Guest

end LiveSound
