import LiveSound.Proofs.Data.Records
import LiveSound.Proofs.Json.Scaling
import LiveSound.Proofs.Json.Texts

/-!
# Values read back

`ReadsAs d e` says that the text of the value `d`, up to what ends it, is read as `e`. Most values
read back as they are (`Reads`); a number of 64 bits is read with the roundings of the reader. Each
kind of value has a lemma for it, and lists and records follow from what they hold, so the lemmas
put together tell what a whole text is read as (`document_write`, `tree?_write`). What is not nested
too deep `ReturnsAs` it is read, and a value that `Returns` is read as it was written.

Every value takes at most three steps for each of its characters, and the reader has that many.
-/

namespace LiveSound.Json

/-- The text of a value begins like one, and is read as `e`. -/
structure ReadsAs (d e : Data) : Prop where
  start : ∃ c cs, writeChars d = c :: cs ∧ isSpace c = false ∧ c ≠ ']'
  value : ∀ fuel rest, 3 * (writeChars d).length ≤ fuel → Ended rest →
    value fuel (writeChars d ++ rest) = some (e, rest)

/-- The text of a value reads back. -/
abbrev Reads (d : Data) : Prop := ReadsAs d d

theorem skip_cons {c : Char} (h : isSpace c = false) (rest : List Char) :
    skip (c :: rest) = c :: rest := by
  rw [skip, List.dropWhile_cons_of_neg (by simp [h])]

/-! ## Words -/

theorem reads_null : Reads .null where
  start := ⟨'n', ['u', 'l', 'l'], rfl, rfl, by decide⟩
  value fuel rest h _ := by
    obtain ⟨fuel, rfl⟩ : ∃ n, fuel = n + 1 := ⟨fuel - 1, by simp [writeChars] at h; omega⟩
    rfl

theorem reads_bool (b : Bool) : Reads (.bool b) where
  start := by
    cases b
    · exact ⟨'f', ['a', 'l', 's', 'e'], rfl, rfl, by decide⟩
    · exact ⟨'t', ['r', 'u', 'e'], rfl, rfl, by decide⟩
  value fuel rest h _ := by
    obtain ⟨fuel, rfl⟩ : ∃ n, fuel = n + 1 :=
      ⟨fuel - 1, by cases b <;> simp [writeChars] at h <;> omega⟩
    cases b <;> rfl

/-! ## Texts -/

theorem reads_text (s : String) : Reads (.text s) where
  start := ⟨'"', _, rfl, rfl, by decide⟩
  value fuel rest h _ := by
    obtain ⟨fuel, rfl⟩ : ∃ n, fuel = n + 1 :=
      ⟨fuel - 1, by simp [writeChars, stringChars] at h; omega⟩
    rw [writeChars, stringChars, value, List.cons_append, skip_cons rfl]
    simp only [List.append_assoc, List.cons_append, List.nil_append, string_stringChars,
      Option.map_some, Option.elim_some, String.ofList_toList]

/-! ## Numbers -/

theorem readsAs_literal {d : Data} {l : Literal} (text : writeChars d = l.chars)
    (sound : l.Sound) : ReadsAs d (numberOf l.decimal l.isWhole) := by
  obtain ⟨c, cs, chars, start⟩ := Literal.exists_start sound
  constructor
  case start =>
    refine ⟨c, cs, text.trans chars, ?_, ?_⟩
    · rcases start with digit | rfl
      · rw [Char.isDigit_iff_toNat] at digit
        simp only [isSpace, Bool.or_eq_false_iff, beq_eq_false_iff_ne, ne_eq]
        refine ⟨⟨⟨?_, ?_⟩, ?_⟩, ?_⟩ <;> rintro rfl <;> revert digit <;> decide
      · rfl
    · rintro rfl
      revert start
      decide
  case value =>
    intro fuel rest h ended
    rw [text] at h ⊢
    obtain ⟨fuel, rfl⟩ : ∃ n, fuel = n + 1 := ⟨fuel - 1, by rw [chars] at h; simp at h; omega⟩
    have first := Literal.value_start start fuel (cs ++ rest)
    rw [← List.cons_append, ← chars] at first
    rw [first, Literal.number_literal sound ended]

theorem reads_natural {n : Nat} (hn : n < 2 ^ 64) : Reads (.integer n) := by
  have text : writeChars (.integer n) = (Literal.natural n).chars := by
    simp [writeChars, integerText, Literal.chars_natural]
  have read := readsAs_literal text (Literal.sound_natural n)
  rwa [Literal.numberOf_natural hn] at read

theorem readsAs_float {x : Binary64} (finite : x.isFinite = true) :
    ReadsAs (.float x) (.float (reread x)) := by
  obtain ⟨l, text, sound, whole, decimal⟩ := exists_literal finite
  have read := readsAs_literal (d := .float x) (by rw [writeChars, text]) sound
  have number : numberOf (written x) false = .float (reread x) := if_pos (isFinite_reread finite)
  rwa [whole, decimal, number] at read

/-! ## Lists -/

theorem itemsFrom_writeItems {items : List Data} (hne : items ≠ []) (h : ∀ d ∈ items, Reads d)
    {fuel : Nat} (hfuel : 3 * (writeItems items).length + 1 ≤ fuel) (rest : List Char) :
    itemsFrom fuel (writeItems items ++ ']' :: rest) = (items, some rest) := by
  induction items generalizing fuel with
  | nil => exact (hne rfl).elim
  | cons d items ih =>
    obtain ⟨fuel, rfl⟩ : ∃ n, fuel = n + 1 := ⟨fuel - 1, by omega⟩
    have first := h d List.mem_cons_self
    cases items with
    | nil =>
      rw [writeItems] at hfuel ⊢
      rw [itemsFrom, first.value fuel _ (by omega) (ended_cons (by simp) rest)]
      simp only [skip_cons (c := ']') rfl]
    | cons e items =>
      rw [writeItems] at hfuel ⊢
      simp only [List.length_append, List.length_cons] at hfuel
      rw [List.append_assoc, List.cons_append, itemsFrom,
        first.value fuel _ (by omega) (ended_cons (by simp) _)]
      simp only [skip_cons (c := ',') rfl]
      rw [ih (by simp) (fun d hd => h d (List.mem_cons_of_mem _ hd)) (by omega)]

theorem writeItems_start {items : List Data} (hne : items ≠ []) (h : ∀ d ∈ items, Reads d) :
    ∃ c cs, writeItems items = c :: cs ∧ isSpace c = false ∧ c ≠ ']' := by
  match items, hne with
  | [d], _ => exact (h d List.mem_cons_self).start
  | d :: e :: items, _ =>
    obtain ⟨c, cs, hcs, hc⟩ := (h d List.mem_cons_self).start
    exact ⟨c, cs ++ ',' :: writeItems (e :: items), by rw [writeItems, hcs]; rfl, hc⟩

theorem items_writeItems {items : List Data} (h : ∀ d ∈ items, Reads d) {fuel : Nat}
    (hfuel : 3 * (writeItems items).length + 2 ≤ fuel) (rest : List Char) :
    Json.items fuel (writeItems items ++ ']' :: rest) = (items, some rest) := by
  obtain ⟨fuel, rfl⟩ : ∃ n, fuel = n + 1 := ⟨fuel - 1, by omega⟩
  by_cases hne : items = []
  · subst hne
    rfl
  · obtain ⟨c, cs, hcs, hspace, hclose⟩ := writeItems_start hne h
    have enough : 3 * (writeItems items).length + 1 ≤ fuel := by omega
    have more := itemsFrom_writeItems hne h enough rest
    rw [hcs, List.cons_append] at more ⊢
    rw [Json.items, skip_cons hspace]
    split
    case h_1 heq => exact (hclose (List.cons.inj heq).1).elim
    case h_2 => exact more

theorem reads_list {items : List Data} (h : ∀ d ∈ items, Reads d) : Reads (.list items) where
  start := ⟨'[', _, rfl, rfl, by decide⟩
  value fuel rest hfuel _ := by
    rw [writeChars] at hfuel ⊢
    simp only [List.length_cons, List.length_append, List.length_nil] at hfuel
    obtain ⟨fuel, rfl⟩ : ∃ n, fuel = n + 1 := ⟨fuel - 1, by omega⟩
    have enough : 3 * (writeItems items).length + 2 ≤ fuel := by omega
    rw [List.cons_append, List.append_assoc, value, skip_cons rfl]
    simp only [List.cons_append, List.nil_append, items_writeItems h enough rest]

/-! ## Records -/

/-- The values of members are read as those of others. -/
abbrev MembersReadAs : List (String × Data) → List (String × Data) → Prop :=
  List.Forall₂ fun m m' => m.1 = m'.1 ∧ ReadsAs m.2 m'.2

theorem membersReadAs_self {members : List (String × Data)} (h : ∀ m ∈ members, Reads m.2) :
    MembersReadAs members members :=
  List.forall₂_same.mpr fun m hm => ⟨rfl, h m hm⟩

/-- What is read from a member on: the member alone or with others, as the mark after it says. -/
theorem membersFrom_member (name : String) {d e : Data} (reads : ReadsAs d e) {fuel : Nat}
    (enough : 3 * (writeChars d).length ≤ fuel) {mark : Char} (hmark : mark = ',' ∨ mark = '\x7d')
    (after : List Char) :
    membersFrom (fuel + 1) (stringChars name.toList ++ ':' :: (writeChars d ++ mark :: after)) =
      if mark = ',' then ((name, e) :: (membersFrom fuel after).1, (membersFrom fuel after).2)
      else ([(name, e)], .closed after) := by
  rw [stringChars, List.cons_append, membersFrom, skip_cons rfl]
  simp only [List.append_assoc, List.cons_append, List.nil_append, string_stringChars,
    skip_cons (c := ':') rfl]
  rw [reads.value fuel _ enough (ended_cons (hmark.imp_right .inr) after)]
  rcases hmark with rfl | rfl
  · simp [skip_cons (c := ',') rfl, addMember]
  · simp [skip_cons (c := '\x7d') rfl, addMember]

theorem membersFrom_writeMembers {members found : List (String × Data)} (hne : members ≠ [])
    (h : MembersReadAs members found) {fuel : Nat}
    (hfuel : 3 * (writeMembers members).length + 1 ≤ fuel) (rest : List Char) :
    membersFrom fuel (writeMembers members ++ '\x7d' :: rest) = (found, .closed rest) := by
  induction h generalizing fuel with
  | nil => exact (hne rfl).elim
  | @cons m m' members found first others ih =>
    obtain ⟨name, d⟩ := m
    obtain ⟨name', e⟩ := m'
    obtain ⟨rfl, reads⟩ : name = name' ∧ ReadsAs d e := first
    obtain ⟨fuel, rfl⟩ : ∃ n, fuel = n + 1 := ⟨fuel - 1, by omega⟩
    cases others with
    | nil =>
      rw [writeMembers] at hfuel ⊢
      simp only [List.length_append, List.length_cons] at hfuel
      rw [List.append_assoc, List.cons_append, membersFrom_member name reads (by omega) (.inr rfl),
        if_neg (by decide)]
    | cons second others =>
      rw [writeMembers] at hfuel ⊢
      simp only [List.length_append, List.length_cons] at hfuel
      rw [List.append_assoc, List.cons_append, List.append_assoc, List.cons_append,
        membersFrom_member name reads (by omega) (.inl rfl), if_pos rfl, ih (by simp) (by omega)]

theorem writeMembers_start {members : List (String × Data)} (hne : members ≠ []) :
    ∃ cs, writeMembers members = '"' :: cs := by
  match members, hne with
  | [(name, d)], _ => exact ⟨_, rfl⟩
  | (name, d) :: e :: members, _ => exact ⟨_, rfl⟩

theorem members_writeMembers {members found : List (String × Data)}
    (h : MembersReadAs members found) {fuel : Nat}
    (hfuel : 3 * (writeMembers members).length + 2 ≤ fuel) (rest : List Char) :
    Json.members fuel (writeMembers members ++ '\x7d' :: rest) = (found, .closed rest) := by
  obtain ⟨fuel, rfl⟩ : ∃ n, fuel = n + 1 := ⟨fuel - 1, by omega⟩
  by_cases hne : members = []
  · subst hne
    cases h
    rfl
  · obtain ⟨cs, hcs⟩ := writeMembers_start hne
    have enough : 3 * (writeMembers members).length + 1 ≤ fuel := by omega
    have more := membersFrom_writeMembers hne h enough rest
    rw [hcs, List.cons_append] at more ⊢
    rw [Json.members, skip_cons rfl]
    exact more

theorem readsAs_record {members found : List (String × Data)} (h : MembersReadAs members found) :
    ReadsAs (.record members) (.record found) where
  start := ⟨'\x7b', _, rfl, rfl, by decide⟩
  value fuel rest hfuel _ := by
    rw [writeChars] at hfuel ⊢
    simp only [List.length_cons, List.length_append, List.length_nil] at hfuel
    obtain ⟨fuel, rfl⟩ : ∃ n, fuel = n + 1 := ⟨fuel - 1, by omega⟩
    have enough : 3 * (writeMembers members).length + 2 ≤ fuel := by omega
    rw [List.cons_append, List.append_assoc, value, skip_cons rfl]
    simp only [List.cons_append, List.nil_append, members_writeMembers h enough rest]

/-! ## Whole texts -/

/-- The text of a record is a document that holds its members, as deep as they are read. -/
theorem document_write {members : List (String × Data)} (h : ∀ m ∈ members, Reads m.2) :
    document (write (.record members)) =
      .record (Data.cutMembers (maxNesting - 1) members) true := by
  have text : (write (.record members)).toList =
      '\x7b' :: (writeMembers members ++ ['\x7d']) := by
    rw [write, String.toList_ofList, writeChars]
  unfold document
  simp only [text, skip_cons (c := '\x7b') rfl]
  have enough : 3 * (writeMembers members).length + 2 ≤
      3 * ('\x7b' :: (writeMembers members ++ ['\x7d'])).length + 3 := by
    rw [List.length_cons, List.length_append]
    omega
  rw [members_writeMembers (membersReadAs_self h) ?fuel []]
  case fuel => exact enough
  rfl

theorem tree?_write {d e : Data} (reads : ReadsAs d e) :
    tree? (write d) = some (e.cut maxNesting) := by
  have first : value (3 * (writeChars d).length + 3) (writeChars d) = some (e, []) := by
    have whole := reads.value (3 * (writeChars d).length + 3) [] (by omega) ended_nil
    rwa [List.append_nil] at whole
  simp only [tree?, write, String.toList_ofList]
  split
  case h_1 found =>
    obtain ⟨rfl, rfl⟩ := Prod.mk.inj (Option.some.inj (found.symm.trans first))
    rfl
  case h_2 lost => cases lost.symm.trans first

/-! ## Values that return -/

/-- The value is read as `e`, in which lists and records are nested so deep at most. -/
structure ReturnsAs (nesting : Nat) (d e : Data) : Prop where
  reads : ReadsAs d e
  uncut : ∀ depth, nesting ≤ depth → e.cut depth = e
  readable : e.isReadable = true

/-- The value is read as it was written. -/
abbrev Returns (nesting : Nat) (d : Data) : Prop := ReturnsAs nesting d d

theorem returns_bool (b : Bool) : Returns 0 (.bool b) :=
  ⟨reads_bool b, fun depth _ => by cases depth <;> rfl, rfl⟩

theorem returns_text (s : String) : Returns 0 (.text s) :=
  ⟨reads_text s, fun depth _ => by cases depth <;> rfl, rfl⟩

theorem returns_natural {n : Nat} (hn : n < 2 ^ 64) : Returns 0 (.integer n) :=
  ⟨reads_natural hn, fun depth _ => by cases depth <;> rfl, rfl⟩

theorem returnsAs_float {x : Binary64} (finite : x.isFinite = true) :
    ReturnsAs 0 (.float x) (.float (reread x)) :=
  ⟨readsAs_float finite, fun depth _ => by cases depth <;> rfl, rfl⟩

theorem returns_list {nesting : Nat} {items : List Data} (h : ∀ d ∈ items, Returns nesting d) :
    Returns (nesting + 1) (.list items) where
  reads := reads_list fun d hd => (h d hd).reads
  uncut depth deep := by
    obtain ⟨depth, rfl⟩ : ∃ n, depth = n + 1 := ⟨depth - 1, by omega⟩
    have each : items.map (Data.cut depth) = items.map id :=
      List.map_congr_left fun d hd => (h d hd).uncut depth (by omega)
    rw [Data.cut, Data.cutItems_eq_map, each, List.map_id]
  readable := Data.readableItems_iff.mpr fun d hd => (h d hd).readable

theorem returnsAs_record {nesting : Nat} {members found : List (String × Data)}
    (h : List.Forall₂ (fun m m' => m.1 = m'.1 ∧ ReturnsAs nesting m.2 m'.2) members found) :
    ReturnsAs (nesting + 1) (.record members) (.record found) := by
  have each : ∀ m ∈ found, (∀ depth, nesting ≤ depth → m.2.cut depth = m.2) ∧
      m.2.isReadable = true := by
    induction h with
    | nil => simp
    | cons first _ ih =>
      exact List.forall_mem_cons.mpr ⟨⟨first.2.uncut, first.2.readable⟩, ih⟩
  constructor
  case reads => exact readsAs_record (h.imp fun _ _ m => ⟨m.1, m.2.reads⟩)
  case uncut =>
    intro depth deep
    obtain ⟨depth, rfl⟩ : ∃ n, depth = n + 1 := ⟨depth - 1, by omega⟩
    rw [Data.cut, Data.cutMembers_of_cut fun m hm => (each m hm).1 depth (by omega)]
  case readable => exact Data.readableMembers_iff.mpr fun m hm => (each m hm).2

theorem returns_record {nesting : Nat} {members : List (String × Data)}
    (h : ∀ m ∈ members, Returns nesting m.2) : Returns (nesting + 1) (.record members) :=
  returnsAs_record (List.forall₂_same.mpr fun m hm => ⟨rfl, h m hm⟩)

theorem Returns.mono {nesting more : Nat} {d : Data} (h : Returns nesting d)
    (le : nesting ≤ more) : Returns more d :=
  ⟨h.reads, fun depth deep => h.uncut depth (Nat.le_trans le deep), h.readable⟩

theorem ReturnsAs.read?_write {nesting : Nat} {d e : Data} (h : ReturnsAs nesting d e)
    (shallow : nesting ≤ maxNesting) : read? (write d) = some e := by
  rw [read?, tree?_write h.reads, h.uncut _ shallow, Option.filter_some, if_pos h.readable]

theorem document_of_returns {nesting : Nat} {members : List (String × Data)}
    (h : ∀ m ∈ members, Returns nesting m.2) (shallow : nesting < maxNesting) :
    document (write (.record members)) = .record members true := by
  rw [document_write fun m hm => (h m hm).reads,
    Data.cutMembers_of_cut fun m hm => (h m hm).uncut _ (by omega)]

end LiveSound.Json
