import LiveSound.Compile.Wire
import LiveSound.Proofs.Compile.Replies
import LiveSound.Proofs.Data.Frames
import LiveSound.Proofs.Text.Base64

/-!
# Several spellings of a reply

A module can be spelled as a list of bytes or in base64, and a single warning or detail as a text or
as a list. `Tells` says that a text is a reply with a given value in one field, whatever else is in
it; so two texts that tell two values in the same frame differ in nothing but these. Values that the
field takes for the same make replies that decode alike, and one that it refuses spoils the reply.
-/

namespace LiveSound.Text

theorem dropWhile_of_clear {cs : List Char} (clear : ∀ c ∈ cs, isBlank c = false) :
    cs.dropWhile isBlank = cs := by
  cases cs with
  | nil => rfl
  | cons c cs => exact List.dropWhile_cons_of_neg (by simp [clear c List.mem_cons_self])

/-- White space around a text without any is all that is trimmed. -/
theorem trimChars_surrounded {left middle right : List Char}
    (blank : ∀ c ∈ left ++ right, isBlank c = true) (clear : ∀ c ∈ middle, isBlank c = false)
    (some : middle ≠ []) : trimChars (left ++ middle ++ right) = middle := by
  obtain ⟨hleft, hright⟩ := List.forall_mem_append.mp blank
  have start : (middle ++ right).dropWhile isBlank = middle ++ right := by
    rw [List.dropWhile_append, dropWhile_of_clear clear]
    simp [some]
  have reversed : ∀ c ∈ middle.reverse, isBlank c = false :=
    fun c hc => clear c (List.mem_reverse.mp hc)
  unfold trimChars dropWhileEnd
  rw [List.append_assoc, List.dropWhile_append_of_pos hleft, start, List.reverse_append,
    List.dropWhile_append_of_pos fun c hc => hright c (List.mem_reverse.mp hc),
    dropWhile_of_clear reversed, List.reverse_reverse]

end LiveSound.Text

namespace LiveSound.Base64

theorem Spells.not_isBlank {cs : List Char} {bytes : Bytes} (h : Spells cs bytes) :
    ∀ c ∈ cs, Text.isBlank c = false := by
  obtain ⟨digits, padding, -, text⟩ := h
  intro c hc
  have there : some c ∈ cs.map some := List.mem_map.mpr ⟨c, hc, rfl⟩
  rw [text, List.mem_append] at there
  rcases there with letter | mark
  · obtain ⟨n, -, hn⟩ := List.mem_map.mp letter
    have mem : c ∈ letters := List.mem_of_getElem? hn
    have all : (letters.all fun c => !Text.isBlank c) = true := by decide
    simpa using List.all_eq_true.mp all c mem
  · obtain rfl := Option.some.inj (List.eq_of_mem_replicate mark)
    rfl

end LiveSound.Base64

namespace LiveSound.Compile.Reply

/-- The text is a reply with this value in the field, in the place that the frame leaves. -/
structure Tells (frame : Frame) (name : String) (d : Data) (text : String) : Prop where
  document : Json.document text = frame.fill name d
  fits : frame.Fits fields name

/-- Replies that differ in nothing but these two values of the field decode alike. -/
def Alike (name : String) (d d' : Data) : Prop :=
  ∀ frame text text', Tells frame name d text → Tells frame name d' text' →
    ofJson text = ofJson text'

/-- No reply with this value in the field can be decoded. -/
def Spoils (name : String) (d : Data) : Prop :=
  ∀ frame text, Tells frame name d text → ∃ fault, ofJson text = .error fault

/-- A reply with this value is decoded as the same reply without a module, but has these bytes for
its module. -/
def Encloses (d : Data) (bytes : Bytes) : Prop :=
  ∀ frame text, Tells frame "wasm" d text →
    (∀ reply, ofJson text = .ok reply → reply.module = some bytes) ∧
    ∀ bare, Tells frame "wasm" .null bare →
      ofJson text = (ofJson bare).map fun reply => { reply with module := some bytes }

theorem tells_write {before after : List (String × Data)} {name : String} {d : Data}
    (known : name ∈ fields.map (·.name))
    (readable : ∀ m ∈ before ++ (name, d) :: after, Readable m.2) :
    Tells (.members before after) name d
      (Json.write (.record (before ++ (name, d) :: after))) where
  document := by
    rw [Json.document_write fun m hm => (readable m hm).1,
      Data.cutMembers_of_cut fun m hm => (readable m hm).2]
    rfl
  fits := known

/-! ## From the field to the reply -/

/-- What is left to do when all members were read. -/
def Draft.finish : Except ReplyFault Draft → Except ReplyFault Reply
  | .ok ⟨some success, reply⟩ => .ok { reply with success := success }
  | .ok ⟨none, _⟩ => .error .malformed
  | .error fault => .error fault

theorem distinct_fields : (fields.map (·.name)).Nodup := by decide

variable {frame : Frame} {name text : String} {d d' : Data} {bytes : Bytes}

theorem Tells.ofJson_eq (h : Tells frame name d text) :
    ofJson text = Draft.finish (frame.read fields .malformed Draft.empty name d) := by
  rw [← Frame.readRecord_of_fill h.document]
  unfold ofJson Draft.finish
  rfl

theorem alike_of_read (same : ∀ f ∈ fields, f.name = name → ∀ r, f.read d r = f.read d' r) :
    Alike name d d' := by
  intro frame text text' h h'
  have unchanged (found : Except ReplyFault Draft) : found.map id = found := by
    cases found <;> rfl
  have read : frame.read fields .malformed Draft.empty name d =
      (frame.read fields .malformed Draft.empty name d').map id :=
    Frame.read_map h.fits distinct_fields (fun f _ _ x r => (unchanged (f.read x r)).symm)
      fun f mem named r => by rw [same f mem named, unchanged]
  rw [h.ofJson_eq, h'.ofJson_eq, read, unchanged]

theorem spoils_of_refused
    (refused : ∀ f ∈ fields, f.name = name → ∀ r, ∃ e, f.read d r = .error e) :
    Spoils name d := by
  intro frame text h
  obtain ⟨e, he⟩ := Frame.read_refused h.fits distinct_fields refused
  exact ⟨e, by rw [h.ofJson_eq, he]; rfl⟩

/-! ## The module -/

theorem read_wasm {f : Field ReplyFault Draft} (mem : f ∈ fields) (named : f.name = "wasm") :
    f.read = put readModule fun b r => { r with module := b } := by
  have found := Field.find?_name distinct_fields mem
  rw [named] at found
  obtain rfl := Option.some.inj found
  rfl

def Draft.enclose (bytes : Bytes) (draft : Draft) : Draft :=
  { draft with reply := { draft.reply with module := some bytes } }

theorem put_enclose {α : Type} {name : String} {read : Data → Except ReplyFault α}
    {set : α → Reply → Reply}
    (apart : ∀ a r, set a { r with module := some bytes } = { set a r with module := some bytes })
    (x : Data) (draft : Draft) :
    (Field.mk name (put read set)).read x (draft.enclose bytes) =
      ((Field.mk name (put read set)).read x draft).map (Draft.enclose bytes) := by
  simp only [put]
  cases read x with
  | error e => rfl
  | ok a => simp only [Except.map, Draft.enclose, apart]

theorem unseen_enclose (bytes : Bytes) : Frame.Unseen fields "wasm" (Draft.enclose bytes) := by
  intro f mem ne
  simp only [fields, List.mem_cons, List.not_mem_nil, or_false] at mem
  rcases mem with rfl | rfl | rfl | rfl | rfl | rfl | rfl | rfl
  case inl =>
    intro x draft
    cases x <;> rfl
  case inr.inr.inr.inl => exact (ne rfl).elim
  all_goals exact put_enclose fun _ _ => rfl

theorem finish_map_enclose (found : Except ReplyFault Draft) :
    Draft.finish (found.map (Draft.enclose bytes)) =
      (Draft.finish found).map fun reply => { reply with module := some bytes } := by
  obtain e | ⟨success, reply⟩ := found
  · rfl
  · cases success <;> rfl

theorem encloses_of_read (h : readModule d = .ok (some bytes)) : Encloses d bytes := by
  intro frame text tells
  have found : ofJson text =
      (Draft.finish (frame.read fields .malformed Draft.empty "wasm" .null)).map
        fun reply => { reply with module := some bytes } := by
    rw [tells.ofJson_eq, ← finish_map_enclose]
    congr 1
    refine Frame.read_map tells.fits distinct_fields (unseen_enclose bytes) fun f mem named r => ?_
    rw [read_wasm mem named, put, h]
    rfl
  refine ⟨fun reply ok => ?_, fun bare bareTells => by rw [found, bareTells.ofJson_eq]⟩
  rw [found] at ok
  cases bare : Draft.finish (frame.read fields .malformed Draft.empty "wasm" .null) with
  | error e =>
    rw [bare] at ok
    cases ok
  | ok reply =>
    rw [bare] at ok
    cases ok
    rfl

theorem alike_wasm (h : readModule d = readModule d') : Alike "wasm" d d' :=
  alike_of_read fun f mem named r => by rw [read_wasm mem named, put, put, h]

theorem spoils_wasm {fault : ReplyFault} (h : readModule d = .error fault) : Spoils "wasm" d :=
  spoils_of_refused fun f mem named r => ⟨fault, by rw [read_wasm mem named, put, h]; rfl⟩

theorem readModule_text {s : String} (filled : s ≠ "") :
    readModule (.text s) =
      (Base64.decode? (Text.trim s)).elim (.error .badBase64) fun bytes => .ok (some bytes) := by
  have there : s.isEmpty = false := by simpa using filled
  simp only [readModule, Data.isReadable, there, Bool.not_true, Bool.false_eq_true, if_false]
  cases Base64.decode? (Text.trim s) <;> rfl

theorem readModule_code {code left right : List Char} (filled : bytes ≠ [])
    (spells : Base64.Spells code bytes) (blank : ∀ c ∈ left ++ right, Text.isBlank c = true) :
    readModule (.text (String.ofList (left ++ code ++ right))) = .ok (some bytes) := by
  have decoded := Base64.decodeChars?_eq_some_iff.mpr spells
  have written : code ≠ [] := by
    rintro rfl
    exact filled (Option.some.inj decoded).symm
  have there : String.ofList (left ++ code ++ right) ≠ "" := by
    simp [written]
  have trimmed : Base64.decode? (Text.trim (String.ofList (left ++ code ++ right))) =
      some bytes := by
    rw [Base64.decode?, Text.trim, String.toList_ofList, String.toList_ofList,
      Text.trimChars_surrounded blank spells.not_isBlank written, decoded]
  rw [readModule_text there, trimmed, Option.elim_some]

theorem readModule_uncoded {s : String} (filled : s ≠ "")
    (uncoded : ∀ bytes, ¬ Base64.Spells (Text.trim s).toList bytes) :
    readModule (.text s) = .error .badBase64 := by
  have refused : Base64.decode? (Text.trim s) = none :=
    Option.eq_none_iff_forall_ne_some.mpr fun bytes decoded =>
      uncoded bytes (Base64.decodeChars?_eq_some_iff.mp decoded)
  rw [readModule_text filled, refused, Option.elim_none]

theorem readByte_odd (odd : ∀ n : Nat, n < 256 → d ≠ .integer n) :
    readByte d = .error .byteRange := by
  cases d with
  | integer n =>
    rw [readByte, if_neg]
    rintro ⟨low, high⟩
    refine odd n.toNat (by omega) ?_
    rw [Int.toNat_of_nonneg low]
  | _ => rfl

theorem mapM_readByte {items : List Data} (odd : ∃ d ∈ items, readByte d = .error .byteRange) :
    ∃ fault, items.mapM readByte = .error fault := by
  obtain ⟨d, mem, hd⟩ := odd
  induction items with
  | nil => cases mem
  | cons x items ih =>
    rw [List.mapM_cons]
    rcases List.mem_cons.mp mem with rfl | mem
    · exact ⟨_, by rw [hd]; rfl⟩
    · obtain ⟨fault, more⟩ := ih mem
      cases readByte x with
      | error e => exact ⟨e, rfl⟩
      | ok b => exact ⟨fault, by rw [more]; rfl⟩

theorem readModule_odd {items : List Data}
    (odd : ∃ d ∈ items, ∀ n : Nat, n < 256 → d ≠ .integer n) :
    ∃ fault, readModule (.list items) = .error fault := by
  obtain ⟨d, mem, hd⟩ := odd
  obtain ⟨fault, bytes⟩ := mapM_readByte ⟨d, mem, readByte_odd hd⟩
  unfold readModule
  split
  · exact ⟨_, rfl⟩
  · exact ⟨fault, by simp only [bytes]; rfl⟩

/-! ## Warnings and details -/

theorem read_texts {f : Field ReplyFault Draft} (mem : f ∈ fields) {name : String}
    (texts : name = "warnings" ∨ name = "errorDetails") (named : f.name = name) :
    ∃ set, f = ⟨name, put readTexts set⟩ := by
  have found := Field.find?_name distinct_fields mem
  rw [named] at found
  rcases texts with rfl | rfl
  · exact ⟨_, (Option.some.inj found).symm⟩
  · exact ⟨_, (Option.some.inj found).symm⟩

theorem readTexts_one {t : String} (filled : t ≠ "") :
    readTexts (.text t) = readTexts (.list [.text t]) := by
  have there : t.isEmpty = false := by simpa using filled
  unfold readTexts
  simp [Data.isReadable, Data.readableItems, there]

/-! ## All spellings -/

/-- A module decodes alike as a list of bytes and in base64 with white space around it, and so does
a warning or a detail alone and in a list. What is neither base64 nor a list of bytes makes a reply
that is not decoded. -/
theorem spellings_decode_alike :
    (∀ bytes : Bytes, bytes ≠ [] → ∀ code left right : List Char, Base64.Spells code bytes →
      (∀ c ∈ left ++ right, Text.isBlank c = true) →
      Alike "wasm" (.list (bytes.map fun b => .integer b.toNat))
        (.text (String.ofList (left ++ code ++ right))) ∧
      Encloses (.list (bytes.map fun b => .integer b.toNat)) bytes ∧
      Encloses (.text (String.ofList (left ++ code ++ right))) bytes) ∧
    (∀ name t : String, name = "warnings" ∨ name = "errorDetails" → t ≠ "" →
      Alike name (.text t) (.list [.text t])) ∧
    (∀ s : String, s ≠ "" → (∀ bytes, ¬ Base64.Spells (Text.trim s).toList bytes) →
      Spoils "wasm" (.text s)) ∧
    ∀ items : List Data, (∃ d ∈ items, ∀ n : Nat, n < 256 → d ≠ .integer n) →
      Spoils "wasm" (.list items) := by
  refine ⟨fun bytes filled code left right spells blank => ?_, fun name t texts filled => ?_,
    fun s filled uncoded => spoils_wasm (readModule_uncoded filled uncoded), fun items odd => ?_⟩
  · have listed := readModule_bytes bytes
    have coded := readModule_code filled spells blank
    exact ⟨alike_wasm (listed.trans coded.symm), encloses_of_read listed, encloses_of_read coded⟩
  · refine alike_of_read fun f mem named r => ?_
    obtain ⟨set, rfl⟩ := read_texts mem texts named
    simp only [put, readTexts_one filled]
  · obtain ⟨fault, refused⟩ := readModule_odd odd
    exact spoils_wasm refused

/-- The empty module, spelled in two ways and in a way that leaves a bit over. -/
theorem empty_module_is_spelled_twice :
    let bytes : Bytes := [0, 97, 115, 109, 1, 0, 0, 0]
    let listed : Data := .list (bytes.map fun b => .integer b.toNat)
    let reply (wasm warnings : Data) : String :=
      Json.write (.record [("success", .bool true), ("wasm", wasm), ("warnings", warnings)])
    let coded := reply (.text " AGFzbQEAAAA=\n") (.text "slow")
    coded = "\x7b\"success\":true,\"wasm\":\" AGFzbQEAAAA=\\n\",\"warnings\":\"slow\"\x7d" ∧
      ofJson coded = .ok ⟨true, none, ["slow"], some bytes, none, [], none, none⟩ ∧
      ofJson (reply listed (.text "slow")) = ofJson coded ∧
      ofJson (reply listed (.text "slow")) = ofJson (reply listed (.list [.text "slow"])) ∧
      (∃ fault, ofJson (reply (.text "AGFzbQEAAAB=") .null) = .error fault) ∧
      ∃ fault, ofJson (reply (.list [.integer 0, .integer 256]) .null) = .error fault := by
  intro bytes listed reply coded
  obtain ⟨modules, texts, codes, lists⟩ := spellings_decode_alike
  have plain (wasm warnings : Data) (hw : Readable wasm) (hv : Readable warnings) :
      Tells (.members [("success", .bool true)] [("warnings", warnings)]) "wasm" wasm
          (reply wasm warnings) ∧
        Tells (.members [("success", .bool true), ("wasm", wasm)] []) "warnings" warnings
          (reply wasm warnings) := by
    have readable : ∀ m ∈ [("success", .bool true), ("wasm", wasm), ("warnings", warnings)],
        Readable m.2 := by
      simp only [List.forall_mem_cons, hw, hv, true_and]
      exact ⟨⟨Json.reads_bool true, rfl⟩, nofun⟩
    exact ⟨tells_write (by decide) readable, tells_write (by decide) readable⟩
  have text (s : String) : Readable (.text s) := ⟨Json.reads_text s, rfl⟩
  have null : Readable .null := ⟨Json.reads_null, rfl⟩
  have list : Readable listed := readable_module (b := some bytes) rfl
  have slow : Readable (.list [.text "slow"]) :=
    readable_list Json.reads_text (fun s depth => by cases depth <;> rfl) ["slow"]
  have odd : Readable (.list [.integer 0, .integer 256]) := by
    refine ⟨Json.reads_list ?_, rfl⟩
    simp only [List.forall_mem_cons]
    exact ⟨Json.reads_natural (n := 0) (by decide), Json.reads_natural (n := 256) (by decide),
      nofun⟩
  have spells : Base64.Spells "AGFzbQEAAAA=".toList bytes :=
    Base64.decodeChars?_eq_some_iff.mp (by decide)
  have blank : ∀ c ∈ [' '] ++ ['\n'], Text.isBlank c = true := List.all_eq_true.mp (by decide)
  have alike := modules bytes (by decide) "AGFzbQEAAAA=".toList [' '] ['\n'] spells blank
  refine ⟨by decide +kernel, by decide +kernel, ?_, ?_, ?_, ?_⟩
  · exact alike.1 _ _ _ (plain _ _ list (text _)).1 (plain _ _ (text _) (text _)).1
  · exact texts "warnings" "slow" (.inl rfl) (by decide) _ _ _ (plain _ _ list (text _)).2
      (plain _ _ list slow).2
  · refine codes "AGFzbQEAAAB=" (by decide) (fun bytes spells => ?_) _ _ (plain _ _ (text _) null).1
    have none : Base64.decodeChars? (Text.trim "AGFzbQEAAAB=").toList = none := by decide
    rw [Base64.decodeChars?_eq_some_iff.mpr spells] at none
    cases none
  · refine lists _ ⟨.integer 256, by simp, fun n hn same => ?_⟩ _ _ (plain _ _ odd null).1
    have value := Data.integer.inj same
    omega

end LiveSound.Compile.Reply
