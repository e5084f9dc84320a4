import LiveSound.Compile.Wire
import LiveSound.Proofs.Data.Records
import LiveSound.Proofs.Json.Values

/-!
# Replies read back from their text

A reply is written field by field, and what is absent or empty is left out. `Reply.given` tells
what is written for each field. Every value given is read as what it was made of, and a field
without one keeps the value of the empty draft, so the text of a reply is read as the reply.
-/

namespace LiveSound.Compile.Reply

/-! ## What is written -/

def givenOptional (s : Option String) : Option Data := s.map .text

def givenTexts : List String → Option Data
  | [] => none
  | items => some (.list (items.map .text))

def givenModule (b : Option Bytes) : Option Data :=
  b.map fun bytes => .list (bytes.map fun b => .integer b.toNat)

def given (r : Reply) : List (Field ReplyFault Draft × Option Data) :=
  fields.zip [some (.bool r.success), givenOptional r.output, givenTexts r.warnings,
    givenModule r.module, givenOptional r.error, givenTexts r.details, givenOptional r.stdout,
    givenOptional r.stderr]

theorem optional_eq {α : Type} (name : String) (write : α → Data) (o : Option α) :
    optional name write o = ((o.map write).map (name, ·)).toList := by
  cases o <;> rfl

theorem texts_eq (name : String) (items : List String) :
    texts name items = ((givenTexts items).map (name, ·)).toList := by
  cases items <;> rfl

theorem toData_eq (r : Reply) : r.toData = .record (Field.written r.given) := by
  simp only [toData, optional_eq, texts_eq, Field.written, given, fields, List.zip_cons_cons,
    List.zip_nil_right, List.flatMap_cons, List.flatMap_nil, List.append_assoc, List.append_nil]
  rfl

/-! ## What is read -/

theorem readOptional_text (s : String) : readOptional (.text s) = .ok (some s) := rfl

theorem readTexts_texts (items : List String) :
    readTexts (.list (items.map .text)) = .ok items := by
  have readable : Data.isReadable (.list (items.map .text)) = true := by
    rw [Data.isReadable, Data.readableItems_iff]
    intro d hd
    obtain ⟨s, -, rfl⟩ := List.mem_map.mp hd
    rfl
  rw [readTexts, readable]
  simp only [Bool.not_true, Bool.false_eq_true, if_false, List.map_map]
  exact congrArg Except.ok (List.map_id items)

theorem readModule_bytes (bytes : Bytes) :
    readModule (.list (bytes.map fun b => .integer b.toNat)) = .ok (some bytes) := by
  have readable : Data.isReadable (.list (bytes.map fun b => .integer b.toNat)) = true := by
    rw [Data.isReadable, Data.readableItems_iff]
    intro d hd
    obtain ⟨b, -, rfl⟩ := List.mem_map.mp hd
    rfl
  have each (b : UInt8) : readByte (.integer b.toNat) = .ok b := by
    have small : b.toNat < 256 := b.toNat_lt
    rw [readByte, if_pos (by omega), Int.toNat_natCast, UInt8.ofNat_toNat]
  have all : (bytes.map fun b => Data.integer b.toNat).mapM readByte = .ok bytes := by
    clear readable
    induction bytes with
    | nil => rfl
    | cons b bytes ih =>
      rw [List.map_cons, List.mapM_cons, each, ih]
      rfl
  rw [readModule, readable]
  simp only [all, Bool.not_true, Bool.false_eq_true, if_false, Except.map]

section Put

variable {α : Type} {name : String} {set : α → Reply → Reply} {draft : Draft}

/-- A field is put in, or keeps a value that putting it in would not change. -/
theorem take_put {read : Data → Except ReplyFault α} {value : Option Data} {a : α}
    (there : ∀ d, value = some d → read d = .ok a)
    (absent : value = none → set a draft.reply = draft.reply) :
    Field.take draft (⟨name, put read set⟩, value) =
      .ok { draft with reply := set a draft.reply } := by
  cases value with
  | none =>
    rw [absent rfl]
    rfl
  | some d =>
    show (read d).map _ = _
    rw [there d rfl]
    rfl

theorem take_given {β : Type} {read : Data → Except ReplyFault (Option β)} {write : β → Data}
    (reads : ∀ b, read (write b) = .ok (some b)) {set : Option β → Reply → Reply} {value : Option β}
    (absent : set none draft.reply = draft.reply) :
    Field.take draft (⟨name, put read set⟩, value.map write) =
      .ok { draft with reply := set value draft.reply } := by
  refine take_put (fun d hd => ?_) (fun missing => ?_)
  · obtain ⟨b, rfl, rfl⟩ := Option.map_eq_some_iff.mp hd
    exact reads b
  · rw [Option.map_eq_none_iff.mp missing, absent]

theorem take_optional {set : Option String → Reply → Reply} {s : Option String}
    (absent : set none draft.reply = draft.reply) :
    Field.take draft (⟨name, put readOptional set⟩, givenOptional s) =
      .ok { draft with reply := set s draft.reply } :=
  take_given readOptional_text absent

theorem take_texts {set : List String → Reply → Reply} {items : List String}
    (absent : set [] draft.reply = draft.reply) :
    Field.take draft (⟨name, put readTexts set⟩, givenTexts items) =
      .ok { draft with reply := set items draft.reply } := by
  cases items with
  | nil => exact take_put nofun fun _ => absent
  | cons s items =>
    refine take_put (fun d hd => ?_) nofun
    rw [← Option.some.inj hd]
    exact readTexts_texts (s :: items)

theorem take_module {set : Option Bytes → Reply → Reply} {b : Option Bytes}
    (absent : set none draft.reply = draft.reply) :
    Field.take draft (⟨name, put readModule set⟩, givenModule b) =
      .ok { draft with reply := set b draft.reply } :=
  take_given readModule_bytes absent

end Put

theorem foldlM_given (r : Reply) :
    r.given.foldlM Field.take Draft.empty =
      .ok ⟨some r.success, { r with success := false }⟩ := by
  simp only [given, fields, List.zip_cons_cons, List.zip_nil_right]
  rw [Field.foldlM_take rfl, Field.foldlM_take (take_optional rfl),
    Field.foldlM_take (take_texts rfl), Field.foldlM_take (take_module rfl),
    Field.foldlM_take (take_optional rfl), Field.foldlM_take (take_texts rfl),
    Field.foldlM_take (take_optional rfl), Field.foldlM_take (take_optional rfl)]
  rfl

/-! ## The text -/

/-- The text of a value that is not nested too deep for a member reads back. -/
def Readable (d : Data) : Prop := Json.Reads d ∧ d.cut (Json.maxNesting - 1) = d

theorem readable_optional {s : Option String} {d : Data} (h : givenOptional s = some d) :
    Readable d := by
  obtain ⟨text, -, rfl⟩ := Option.map_eq_some_iff.mp h
  exact ⟨Json.reads_text text, rfl⟩

theorem readable_list {α : Type} {f : α → Data} (reads : ∀ a, Json.Reads (f a))
    (flat : ∀ a depth, (f a).cut depth = f a) (items : List α) :
    Readable (.list (items.map f)) := by
  constructor
  · refine Json.reads_list fun d hd => ?_
    obtain ⟨a, -, rfl⟩ := List.mem_map.mp hd
    exact reads a
  · show Data.list (Data.cutItems 125 (items.map f)) = _
    rw [Data.cutItems_eq_map, List.map_map]
    exact congrArg Data.list (List.map_congr_left fun a _ => flat a 125)

theorem readable_texts {items : List String} {d : Data} (h : givenTexts items = some d) :
    Readable d := by
  cases items with
  | nil => cases h
  | cons s items =>
    rw [← Option.some.inj h]
    exact readable_list Json.reads_text (fun s depth => by cases depth <;> rfl) (s :: items)

theorem readable_module {b : Option Bytes} {d : Data} (h : givenModule b = some d) :
    Readable d := by
  obtain ⟨bytes, -, rfl⟩ := Option.map_eq_some_iff.mp h
  refine readable_list (fun b => ?_) (fun b depth => by cases depth <;> rfl) bytes
  have small : b.toNat < 256 := b.toNat_lt
  exact Json.reads_natural (by omega)

theorem readable_given (r : Reply) : ∀ m ∈ Field.written r.given, Readable m.2 := by
  intro m hm
  obtain ⟨g, hg, hd⟩ := Field.mem_written hm
  simp only [given, fields, List.zip_cons_cons, List.zip_nil_right, List.mem_cons,
    List.not_mem_nil, or_false] at hg
  rcases hg with rfl | rfl | rfl | rfl | rfl | rfl | rfl | rfl
  · rw [← Option.some.inj hd]
    exact ⟨Json.reads_bool _, rfl⟩
  · exact readable_optional hd
  · exact readable_texts hd
  · exact readable_module hd
  · exact readable_optional hd
  · exact readable_texts hd
  · exact readable_optional hd
  · exact readable_optional hd

theorem document_toJson (r : Reply) :
    Json.document r.toJson = .record (Field.written r.given) true := by
  rw [toJson, toData_eq, Json.document_write fun m hm => (readable_given r m hm).1,
    Data.cutMembers_of_cut fun m hm => (readable_given r m hm).2]

theorem readRecord_toJson (r : Reply) :
    Json.readRecord fields .malformed Draft.empty r.toJson =
      .ok ⟨some r.success, { r with success := false }⟩ := by
  have distinct : (fields.map (·.name)).Nodup := by decide
  have names : r.given.map (·.1.name) = fields.map (·.name) := rfl
  have known : ∀ g ∈ r.given, g.1 ∈ fields := fun g hg => (List.of_mem_zip hg).1
  have members : Field.readMembers fields .malformed [] Draft.empty (Field.written r.given) =
      .ok ⟨some r.success, { r with success := false }⟩ := by
    rw [Field.readMembers_written distinct known (names ▸ distinct)
      (fun g _ => List.not_mem_nil), foldlM_given]
  rw [Json.readRecord, document_toJson]
  simp only [members]
  rfl

/-- The text of a reply is read as the reply, whatever texts and bytes are in it. -/
theorem ofJson_toJson (r : Reply) : ofJson r.toJson = .ok r := by
  rw [ofJson, readRecord_toJson]

end LiveSound.Compile.Reply
