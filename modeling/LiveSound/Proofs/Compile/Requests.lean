import LiveSound.Proofs.Compile.Exchanging
import LiveSound.Proofs.Compile.Replies

/-!
# Requests read back from their text

A request is posted as a text of two members, the source and the options. The options stand there
under their long names, and two of them under a short name as well. A reader of options knows the
long names only, and takes what it does not find for a default, so a member that were left out or
stood there twice would go unnoticed. None does: the text of a request holds all of it, once.
-/

namespace LiveSound.Compile

open Json (Returns returns_bool returns_text returns_natural returns_list returns_record)
open Net (requestFor?)

namespace Options

variable {o : Options}

/-! ## Options -/

def given (o : Options) : List (Field Unit Options × Option Data) :=
  fields.zip [some (.integer o.optimizationLevel), some (.bool o.sdlEnabled),
    some (texts o.exportedFunctions), some (texts o.additionalFlags)]

theorem toMembers_eq (o : Options) : o.toMembers = Field.written o.given := rfl

theorem take_put {α : Type} {name : String} {read : Data → Option α}
    {set : α → Options → Options} {d : Data} {a : α} (h : read d = some a) (start : Options) :
    Field.take start (⟨name, put read set⟩, some d) = .ok (set a start) := by
  simp only [Field.take, put, h]

/-- Options that are put in leave nothing of those that were there. -/
theorem foldlM_given (level : o.optimizationLevel < 256) (start : Options) :
    o.given.foldlM Field.take start = .ok o := by
  have small : Data.asNat? 256 (.integer o.optimizationLevel) = some o.optimizationLevel := by
    simp [Data.asNat?, level]
  have flag : (Data.bool o.sdlEnabled).asBool? = some o.sdlEnabled := rfl
  have read (items : List String) : (texts items).asTexts? = some items :=
    Data.asTexts?_texts items
  simp only [given, fields, List.zip_cons_cons, List.zip_nil_right]
  rw [Field.foldlM_take (take_put small _), Field.foldlM_take (take_put flag _),
    Field.foldlM_take (take_put (read _) _), Field.foldlM_take (take_put (read _) _)]
  rfl

theorem readMembers_toMembers (level : o.optimizationLevel < 256) {extra : List (String × Data)}
    (foreign : ∀ m ∈ extra, ∀ f ∈ fields, f.name ≠ m.1) (start : Options) :
    Field.readMembers fields () [] start (o.toMembers ++ extra) = .ok o := by
  have distinct : (fields.map (·.name)).Nodup := by decide
  have names : o.given.map (·.1.name) = fields.map (·.name) := rfl
  have known : ∀ g ∈ o.given, g.1 ∈ fields := fun g hg => (List.of_mem_zip hg).1
  rw [Field.readMembers_append foreign, toMembers_eq, Field.readMembers_written distinct known
    (names ▸ distinct) (fun g _ => List.not_mem_nil), foldlM_given level]

end Options

namespace Request

variable {r : Request}

/-! ## Members -/

def shortMembers (r : Request) : List (String × Data) :=
  [("optimization", .integer r.options.optimizationLevel), ("sdl", .bool r.options.sdlEnabled)]

def optionMembers (r : Request) : List (String × Data) := r.options.toMembers ++ r.shortMembers

def members (r : Request) : List (String × Data) :=
  [("code", .text r.source), ("options", .record r.optionMembers)]

theorem toData_eq (r : Request) : r.toData = .record r.members := rfl

theorem shortMembers_foreign :
    ∀ m ∈ r.shortMembers, ∀ f ∈ Options.fields, f.name ≠ m.1 := by
  simp [shortMembers, Options.fields]

theorem returns_optionMembers (level : r.options.optimizationLevel < 256) :
    ∀ m ∈ r.optionMembers, Returns 1 m.2 := by
  have number : Returns 1 (.integer r.options.optimizationLevel) :=
    (returns_natural (by omega)).mono (Nat.zero_le 1)
  have flag : Returns 1 (.bool r.options.sdlEnabled) := (returns_bool _).mono (Nat.zero_le 1)
  have list (items : List String) : Returns 1 (Options.texts items) := by
    refine returns_list fun d hd => ?_
    obtain ⟨s, -, rfl⟩ := List.mem_map.mp hd
    exact returns_text s
  intro m hm
  simp only [optionMembers, Options.toMembers, shortMembers, List.cons_append, List.nil_append,
    List.mem_cons, List.not_mem_nil, or_false] at hm
  rcases hm with rfl | rfl | rfl | rfl | rfl | rfl
  · exact number
  · exact flag
  · exact list _
  · exact list _
  · exact number
  · exact flag

theorem returns_members (level : r.options.optimizationLevel < 256) :
    ∀ m ∈ r.members, Returns 2 m.2 := by
  intro m hm
  simp only [members, List.mem_cons, List.not_mem_nil, or_false] at hm
  rcases hm with rfl | rfl
  · exact (returns_text _).mono (Nat.zero_le 2)
  · exact returns_record (returns_optionMembers level)

def optionText (r : Request) : String := Json.write (.record r.optionMembers)

theorem optionText_infix : r.optionText.toList <:+: (Json.write r.toData).toList := by
  rw [toData_eq, members, optionText, Json.write, Json.write, String.toList_ofList,
    String.toList_ofList]
  refine ⟨'\x7b' :: (Json.stringChars "code".toList ++ ':' :: (Json.stringChars r.source.toList ++
    ',' :: (Json.stringChars "options".toList ++ [':']))), ['\x7d'], ?_⟩
  simp only [Json.writeChars, Json.writeMembers, List.cons_append, List.append_assoc,
    List.nil_append]

/-! ## What a text conveys -/

/-- A text as it is opened: its members, the text of the options in it, and their members. -/
structure Opened where
  body : List (String × Data)
  optionText : String
  options : List (String × Data)

/-- What is found in a text is the request: the source, the options as they are decoded from their
text or from their record, and the short names. No name occurs twice. -/
structure Opened.Conveys (x : Opened) (text : String) (r : Request) : Prop where
  read : Json.read? text = some (.record x.body)
  once : (x.body.map (·.1)).Nodup
  code : (Data.record x.body).member? "code" = some (.text r.source)
  options : (Data.record x.body).member? "options" = some (.record x.options)
  enclosed : x.optionText.toList <:+: text.toList
  readOptions : Json.read? x.optionText = some (.record x.options)
  onceOptions : (x.options.map (·.1)).Nodup
  decoded : Options.ofJson? x.optionText = some r.options
  decodedRecord :
    Field.readRecord Options.fields () Options.default (.record x.options) = .ok r.options
  level : (Data.record x.options).member? "optimization" =
    some (.integer r.options.optimizationLevel)
  longLevel : (Data.record x.options).member? "optimizationLevel" =
    some (.integer r.options.optimizationLevel)
  sdl : (Data.record x.options).member? "sdl" = some (.bool r.options.sdlEnabled)
  longSdl : (Data.record x.options).member? "sdlEnabled" = some (.bool r.options.sdlEnabled)

theorem conveys_write (level : r.options.optimizationLevel < 256) :
    Opened.Conveys ⟨r.members, r.optionText, r.optionMembers⟩ (Json.write r.toData) r where
  read := (returns_record (returns_members level)).read?_write (by decide)
  once := by
    show ["code", "options"].Nodup
    decide
  code := rfl
  options := rfl
  enclosed := optionText_infix
  readOptions := (returns_record (returns_optionMembers level)).read?_write (by decide)
  onceOptions := by
    show (Options.fields.map (·.name) ++ ["optimization", "sdl"]).Nodup
    decide
  decoded := by
    rw [Options.ofJson?, Json.readRecord, optionText,
      Json.document_of_returns (returns_optionMembers level) (by decide), optionMembers]
    simp only [Options.readMembers_toMembers level shortMembers_foreign]
    rfl
  decodedRecord := Options.readMembers_toMembers level shortMembers_foreign _
  level := rfl
  longLevel := rfl
  sdl := rfl
  longSdl := rfl

end Request

/-! ## What is posted -/

namespace Errand

/-- The text that is posted for a request conveys it, whatever texts are in it, and nothing else
that is sent has a body. -/
theorem posted_text_conveys_request (e : Errand)
    (level : e.request.options.optimizationLevel < 256) :
    ∃ text x fetches, Request.Opened.Conveys x text e.request ∧
      e.run.2.requests = e.remote.requests ++
        (requestFor? .post e.settings.endpoint (some text)).toList ++ fetches ∧
      ∀ fetch ∈ fetches, fetch.method = .get ∧ fetch.body = none := by
  obtain ⟨fetches, requests, -, sent⟩ := e.requests_run
  refine ⟨_, _, fetches, Request.conveys_write level, requests, fun fetch hf => ?_⟩
  obtain ⟨reply, moment, url, -, fetched⟩ := (sent fetch).mp hf
  obtain ⟨u, -, rfl⟩ := Option.map_eq_some_iff.mp fetched
  exact ⟨rfl, rfl⟩

/-- Quotes, control characters and options without defaults, for a service that is not there. -/
def awkward : Errand where
  settings := ⟨"http://localhost:3000/api/rebuild", none, 30000⟩
  request := ⟨"puts(\"\\\x01é\n\");", ⟨255, true, ["hear_c_init", ""], ["-DNAME=\"a,b\""]⟩⟩
  remote := ⟨fun _ _ => .never, []⟩

/-- The one request that is sent is a POST of such a text. -/
theorem awkward_request_is_conveyed :
    awkward.request.options.optimizationLevel < 256 ∧
      ∃ posted text x, posted ∈ awkward.run.2.requests ∧ posted.method = .post ∧
        posted.body = some text ∧ Request.Opened.Conveys x text awkward.request := by
  have level : awkward.request.options.optimizationLevel < 256 := by decide
  obtain ⟨text, x, fetches, conveys, requests, -⟩ := posted_text_conveys_request awkward level
  have parsed : (Net.Url.parse awkward.settings.endpoint).toOption.isSome = true := by
    decide +kernel
  obtain ⟨u, hu⟩ := Option.isSome_iff_exists.mp parsed
  refine ⟨level, ⟨.post, u, some text⟩, text, x, ?_, rfl, rfl, conveys⟩
  rw [requests, requestFor?, hu]
  simp

end Errand

end LiveSound.Compile
