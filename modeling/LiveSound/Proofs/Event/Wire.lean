import LiveSound.Event.Wire
import LiveSound.Proofs.Json.Values

/-!
# Events come back from the wire

An event is its kind and its values, and both are read as they were written, whatever the texts are.
Times are the exception: the decimal fraction that is written is the number's own, but the reader may
round it twice. So an event comes back with its times `reread`, and is the same event where the
reader takes their decimal fractions exactly.
-/

namespace LiveSound

/-- The reader makes the nearest number of a decimal fraction. -/
def Json.TakesExactly (d : Decimal) : Prop := scaled d = d.toBinary64

theorem Json.reread_eq {x : Binary64} (finite : x.isFinite = true)
    (exact : TakesExactly (written x)) : reread x = x :=
  exact.trans (written_toBinary64 finite)

namespace Event

open Json (ReturnsAs TakesExactly reread)

def kind : Event → String
  | .ready => "ready"
  | .error _ => "error"
  | .log _ => "stdout"
  | .perf .. => "perf"

def kinds : Event → List String
  | .log _ => ["stdout", "log"]
  | e => [e.kind]

def values : Event → List (String × Data)
  | .ready => []
  | .error message => [("message", .text message)]
  | .log text => [("text", .text text)]
  | .perf average longest frames rate =>
    [("avgMs", .float average), ("maxMs", .float longest), ("bufferSize", .integer frames),
      ("sampleRate", .integer rate)]

theorem toData_eq (e : Event) : e.toData = .record (("type", .text e.kind) :: e.values) := by
  cases e <;> rfl

def times : Event → List Binary64
  | .perf average longest _ _ => [average, longest]
  | _ => []

def mapTimes (f : Binary64 → Binary64) : Event → Event
  | .perf average longest frames rate => .perf (f average) (f longest) frames rate
  | e => e

/-- The sizes are numbers of 64 and of 32 bits. -/
def InRange : Event → Prop
  | .perf _ _ frames rate => frames < 2 ^ 64 ∧ rate < 2 ^ 32
  | _ => True

variable {e : Event}

theorem mapTimes_eq_self {f : Binary64 → Binary64} (h : ∀ x ∈ e.times, f x = x) :
    e.mapTimes f = e := by
  cases e with
  | perf average longest frames rate =>
    rw [mapTimes, h average (by simp [times]), h longest (by simp [times])]
  | _ => rfl

theorem InRange.mapTimes (h : e.InRange) (f : Binary64 → Binary64) : (e.mapTimes f).InRange := by
  cases e <;> exact h

/-! ## Reading the record -/

/-- The kind stands at the beginning and nowhere else. -/
theorem kind?_values (e : Event) (name : String) :
    kind? (.record (("type", .text name) :: e.values)) = some (name, .record e.values) := by
  have others : ∀ m ∈ e.values, (m.1 == "type") = false := by
    cases e <;> simp [values]
  have none_kept : e.values.filter (·.1 == "type") = [] :=
    List.filter_eq_nil_iff.mpr fun m hm => by simp [others m hm]
  have all_kept : e.values.filter (·.1 != "type") = e.values :=
    List.filter_eq_self.mpr fun m hm => by simp [bne, others m hm]
  simp [kind?, none_kept, all_kept]

theorem oneText?_values (name text : String) :
    oneText? name (.record [(name, .text text)]) = some text := by
  simp [oneText?, Field.readRecord, Field.readMembers]

theorem asNat?_natural (limit : Nat) {n : Nat} (lt : n < limit) :
    Data.asNat? limit (.integer n) = some n := by
  simp [Data.asNat?, lt]

theorem perf?_values {average longest : Binary64} {frames rate : Nat}
    (range : InRange (.perf average longest frames rate)) :
    perf? (.record (values (.perf average longest frames rate))) =
      some (.perf average longest frames rate) := by
  have frames_read := asNat?_natural 0x10000000000000000 range.1
  have rate_read := asNat?_natural 0x100000000 range.2
  simp [perf?, values, Field.readRecord, Field.readMembers, perfFields, put, Data.asFloat?,
    frames_read, rate_read]

theorem ofData?_of_kind (range : e.InRange) {name : String} (known : name ∈ e.kinds) :
    ofData? (.record (("type", .text name) :: e.values)) = some e := by
  unfold ofData?
  rw [kind?_values]
  cases e with
  | ready =>
    obtain rfl : name = "ready" := by simpa [kinds, kind] using known
    rfl
  | error message =>
    obtain rfl : name = "error" := by simpa [kinds, kind] using known
    exact congrArg (Option.map Event.error) (oneText?_values "message" message)
  | log text =>
    have read := congrArg (Option.map Event.log) (oneText?_values "text" text)
    obtain rfl | rfl : name = "stdout" ∨ name = "log" := by simpa [kinds] using known
    · exact read
    · exact read
  | perf average longest frames rate =>
    obtain rfl : name = "perf" := by simpa [kinds, kind] using known
    exact perf?_values range

/-! ## Reading the text -/

def textAs (e : Event) (name : String) : String :=
  Json.write (.record (("type", .text name) :: e.values))

theorem toJson_eq (e : Event) : e.toJson = e.textAs e.kind := by
  rw [toJson, toData_eq, textAs]

theorem values_returnAs (range : e.InRange) (finite : ∀ x ∈ e.times, x.isFinite = true) :
    List.Forall₂ (fun m m' => m.1 = m'.1 ∧ ReturnsAs 0 m.2 m'.2) e.values
      (e.mapTimes reread).values := by
  cases e with
  | ready => exact .nil
  | error message => exact .cons ⟨rfl, Json.returns_text message⟩ .nil
  | log text => exact .cons ⟨rfl, Json.returns_text text⟩ .nil
  | perf average longest frames rate =>
    obtain ⟨frames_fit, rate_fits⟩ := range
    have average_read := Json.returnsAs_float (finite average (by simp [times]))
    have longest_read := Json.returnsAs_float (finite longest (by simp [times]))
    exact .cons ⟨rfl, average_read⟩ (.cons ⟨rfl, longest_read⟩
      (.cons ⟨rfl, Json.returns_natural frames_fit⟩
        (.cons ⟨rfl, Json.returns_natural (by omega)⟩ .nil)))

/-- Under each name of its kind an event comes back. -/
theorem ofJson?_textAs (range : e.InRange) (finite : ∀ x ∈ e.times, x.isFinite = true)
    {name : String} (known : name ∈ e.kinds) :
    ofJson? (e.textAs name) = some (e.mapTimes reread) := by
  have returns : ReturnsAs 1 (.record (("type", .text name) :: e.values))
      (.record (("type", .text name) :: (e.mapTimes reread).values)) :=
    Json.returnsAs_record (.cons ⟨rfl, Json.returns_text name⟩ (values_returnAs range finite))
  have known' : name ∈ (e.mapTimes reread).kinds := by cases e <;> exact known
  rw [ofJson?, textAs, returns.read?_write (by decide)]
  exact ofData?_of_kind (range.mapTimes reread) known'

/-- What would be written for an event for which there is no text. -/
def placeholder : String := "\x7b\"type\":\"error\"\x7d"

theorem ofJson?_placeholder : ofJson? placeholder = none := by
  have text : placeholder = Json.write (.record [("type", .text "error")]) := by decide
  have returns : Json.Returns 1 (.record [("type", .text "error")]) :=
    Json.returns_record (by simpa using Json.returns_text "error")
  rw [text, ofJson?, returns.read?_write (by decide)]
  rfl

theorem textAs_log (text name : String) :
    textAs (.log text) name = "\x7b\"type\":" ++ Json.stringText name ++
      (",\"text\":" ++ Json.stringText text ++ "\x7d") := by
  have type_key : Json.stringChars ['t', 'y', 'p', 'e'] = ['"', 't', 'y', 'p', 'e', '"'] := rfl
  have text_key : Json.stringChars ['t', 'e', 'x', 't'] = ['"', 't', 'e', 'x', 't', '"'] := rfl
  rw [← String.toList_inj]
  simp [textAs, values, Json.write, Json.writeChars, Json.writeMembers, Json.stringText, type_key,
    text_key]

/-- An event comes back from its text with its times as they are reread: the decimal fractions in the
text are their own, and where the reader takes these exactly it is the event that was written. It is
never the placeholder that is written. A log comes back as well under the other name of its kind. -/
theorem events_come_back (range : e.InRange) (finite : ∀ x ∈ e.times, x.isFinite = true) :
    ofJson? e.toJson = some (e.mapTimes reread) ∧
      (∀ x ∈ e.times, (Json.written x).toBinary64 = x) ∧
      ((∀ x ∈ e.times, TakesExactly (Json.written x)) → ofJson? e.toJson = some e) ∧
      e.toJson ≠ placeholder ∧
      ∀ text, e = .log text → ∃ rest, e.toJson = "\x7b\"type\":\"stdout\"" ++ rest ∧
        ofJson? ("\x7b\"type\":\"log\"" ++ rest) = some e := by
  have own : e.kind ∈ e.kinds := by cases e <;> simp [kind, kinds]
  have found : ofJson? e.toJson = some (e.mapTimes reread) := by
    rw [toJson_eq]
    exact ofJson?_textAs range finite own
  refine ⟨found, fun x hx => Json.written_toBinary64 (finite x hx), fun exact => ?_,
    fun same => ?_, ?_⟩
  · rw [found, mapTimes_eq_self fun x hx => Json.reread_eq (finite x hx) (exact x hx)]
  · rw [same, ofJson?_placeholder] at found
    cases found
  · rintro text rfl
    have stdout : Json.stringText "stdout" = "\"stdout\"" := by decide
    have log : Json.stringText "log" = "\"log\"" := by decide
    have known : "log" ∈ (Event.log text).kinds := by simp [kinds]
    have read := ofJson?_textAs range finite known
    refine ⟨",\"text\":" ++ Json.stringText text ++ "\x7d", ?_, ?_⟩
    · rw [toJson_eq, textAs_log, kind, stdout]
      rfl
    · rw [textAs_log, log] at read
      exact read

/-- The times of a report, with at most two digits each. -/
theorem report_comes_back :
    let e : Event := .perf ⟨0x3fbeb851eb851eb8⟩ ⟨0x3fd999999999999a⟩ 128 44100
    e.InRange ∧ (∀ x ∈ e.times, x.isFinite = true) ∧
      (∀ x ∈ e.times, TakesExactly (Json.written x)) ∧
      e.toJson = "\x7b\"type\":\"perf\",\"avgMs\":0.12,\"maxMs\":0.4,\"bufferSize\":128," ++
        "\"sampleRate\":44100\x7d" ∧
      ofJson? e.toJson = some e := by
  intro e
  have range : e.InRange := ⟨by decide, by decide⟩
  have finite : ∀ x ∈ e.times, x.isFinite = true := by decide
  have evaluated : e.toJson = "\x7b\"type\":\"perf\",\"avgMs\":0.12,\"maxMs\":0.4," ++
        "\"bufferSize\":128,\"sampleRate\":44100\x7d" ∧
      ∀ x ∈ e.times,
        (Json.written x).coefficient < 2 ^ 53 ∧ (Json.written x).exponent.natAbs ≤ 22 := by
    decide +kernel
  obtain ⟨text, short⟩ := evaluated
  have exact : ∀ x ∈ e.times, TakesExactly (Json.written x) := fun x hx =>
    Json.scaled_eq_toBinary64 (short x hx).1 (short x hx).2
  exact ⟨range, finite, exact, text, (events_come_back range finite).2.2.1 exact⟩

end Event

end LiveSound
