import LiveSound.Event.Basic
import LiveSound.Data.Record
import LiveSound.Json.Reader
import LiveSound.Json.Writer

/-!
# Events on the wire

An event is a record with its kind under `type`. The reader finds the kind at any place of the
record, passes over unknown members, and also takes a list of the kind and the values in order.
-/

namespace LiveSound.Event

def toData : Event → Data
  | .ready => .record [("type", .text "ready")]
  | .error message => .record [("type", .text "error"), ("message", .text message)]
  | .log text => .record [("type", .text "stdout"), ("text", .text text)]
  | .perf average longest frames rate =>
    .record [("type", .text "perf"), ("avgMs", .float average), ("maxMs", .float longest),
      ("bufferSize", .integer frames), ("sampleRate", .integer rate)]

def toJson (e : Event) : String := Json.write e.toData

def kind? : Data → Option (String × Data)
  | .record members =>
    match members.filter (·.1 == "type") with
    | [(_, .text kind)] => some (kind, .record (members.filter (·.1 != "type")))
    | _ => none
  | .list (.text kind :: rest) => some (kind, .list rest)
  | _ => none

/-- The one text of an error or log event. -/
def oneText? (name : String) (d : Data) : Option String :=
  let field : Field Unit (Option String) :=
    ⟨name, fun d _ => match d with
      | .text s => .ok (some s)
      | _ => .error ()⟩
  match Field.readRecord [field] () none d with
  | .ok text => text
  | .error _ => none

/-- The values of a timing event as they are found. -/
structure PerfValues where
  average : Option Binary64
  longest : Option Binary64
  frames : Option Nat
  rate : Option Nat

def put {α σ : Type} (read : Data → Option α) (set : α → σ → σ) (d : Data) (s : σ) :
    Except Unit σ :=
  match read d with
  | some a => .ok (set a s)
  | none => .error ()

def perfFields : List (Field Unit PerfValues) :=
  [⟨"avgMs", put Data.asFloat? fun a v => { v with average := some a }⟩,
   ⟨"maxMs", put Data.asFloat? fun a v => { v with longest := some a }⟩,
   ⟨"bufferSize", put (Data.asNat? 0x10000000000000000) fun n v => { v with frames := some n }⟩,
   ⟨"sampleRate", put (Data.asNat? 0x100000000) fun n v => { v with rate := some n }⟩]

def perf? (d : Data) : Option Event :=
  match Field.readRecord perfFields () ⟨none, none, none, none⟩ d with
  | .ok ⟨some average, some longest, some frames, some rate⟩ =>
    some (.perf average longest frames rate)
  | _ => none

def ofData? (d : Data) : Option Event :=
  match kind? d with
  | some ("ready", .record _) => some .ready
  | some ("ready", .list []) => some .ready
  | some ("error", rest) => (oneText? "message" rest).map .error
  | some ("stdout", rest) => (oneText? "text" rest).map .log
  | some ("log", rest) => (oneText? "text" rest).map .log
  | some ("perf", rest) => perf? rest
  | _ => none

def ofJson? (text : String) : Option Event := (Json.read? text).bind ofData?

end LiveSound.Event
