import LiveSound.Proofs.Data.Keyed
import LiveSound.Proofs.Toml.Statements
import Mathlib.Data.Option.Basic

/-!
# Written documents read back

The statements of a document build the record of its sections, each with the members that have a
value. So a document of sections with names of their own is read as it was written, less the members
without a value.
-/

namespace LiveSound.Toml

/-- A document whose names are not used twice. -/
structure IsDocument (document : List Section) : Prop where
  sections : ∀ s ∈ document, s.IsPlain
  names : (document.map Section.name).Nodup
  members : ∀ s ∈ document, (s.written.map Prod.fst).Nodup

/-! ## Tables -/

namespace Members

variable {ms : Members} {name : String}

theorem lookup_cons_none {m : String × Item} (h : List.lookup name (m :: ms) = none) :
    m.1 ≠ name ∧ ms.lookup name = none := by
  rw [Keyed.lookup_eq_none_iff, List.map_cons, List.mem_cons, not_or] at h
  exact ⟨fun same => h.1 same.symm, Keyed.lookup_eq_none_iff.mpr h.2⟩

theorem set_new (h : ms.lookup name = none) (i : Item) : ms.set name i = ms ++ [(name, i)] := by
  induction ms with
  | nil => rfl
  | cons m ms ih =>
    obtain ⟨hne, htail⟩ := lookup_cons_none h
    rw [set, if_neg hne, ih htail]
    rfl

theorem set_last (h : ms.lookup name = none) (i j : Item) :
    set name i (ms ++ [(name, j)]) = ms ++ [(name, i)] := by
  induction ms with
  | nil => simp [set]
  | cons m ms ih =>
    obtain ⟨hne, htail⟩ := lookup_cons_none h
    rw [List.cons_append, set, if_neg hne, ih htail]
    rfl

theorem lookup_last (h : ms.lookup name = none) (i : Item) :
    (ms ++ [(name, i)]).lookup name = some i := by
  rw [List.lookup_append, h]
  simp

end Members

namespace Draft

theorem add?_table {b : Draft} {name : String} (h : b.root.lookup name = none) :
    b.add? (.table ⟨[], name⟩) = some ⟨[name], b.root ++ [(name, .table .header [])]⟩ := by
  simp [add?, Members.within?, Members.openTable?, h, Members.set_new h]

theorem add?_assign {root ms : Members} {header name : String} (hroot : root.lookup header = none)
    (hname : ms.lookup name = none) (d : Data) :
    add? ⟨[header], root ++ [(header, .table .header ms)]⟩ (.assign ⟨[], name⟩ d) =
      some ⟨[header], root ++ [(header, .table .header (ms ++ [(name, .value d)]))]⟩ := by
  have hassign : ms.assign? ⟨[], name⟩ d .header = some (ms ++ [(name, .value d)]) := by
    simp [Members.assign?, Members.within?, Members.define?, hname, Members.set_new hname, guard]
  simp [add?, Members.within?, Members.lookup_last hroot, Members.set_last hroot, hassign, guard]

def values (members : List (String × Data)) : Members := members.map fun m => (m.1, .value m.2)

theorem foldlM_assignments {root ms : Members} {header : String} (hroot : root.lookup header = none)
    {members : List (String × Data)} (hnew : ∀ m ∈ members, m.1 ∉ ms.map Prod.fst)
    (hnames : (members.map Prod.fst).Nodup) :
    (members.map assignment).foldlM add? ⟨[header], root ++ [(header, .table .header ms)]⟩ =
      some ⟨[header], root ++ [(header, .table .header (ms ++ values members))]⟩ := by
  induction members generalizing ms with
  | nil => simp [values]
  | cons m members ih =>
    obtain ⟨hm, hnames⟩ := List.nodup_cons.mp hnames
    have hlookup := Keyed.lookup_eq_none_iff.mpr (hnew m List.mem_cons_self)
    have hrest : ∀ n ∈ members, n.1 ∉ (ms ++ [(m.1, Item.value m.2)]).map Prod.fst := by
      intro n hn
      have hne : n.1 ≠ m.1 := fun heq => hm (heq ▸ List.mem_map_of_mem hn)
      simpa [hne] using hnew n (List.mem_cons_of_mem m hn)
    rw [List.map_cons, List.foldlM_cons, assignment, add?_assign hroot hlookup]
    simpa [values] using ih hrest hnames

def tables (document : List Section) : Members :=
  document.map fun s => (s.name, .table .header (values s.written))

theorem foldlM_statements {b : Draft} {document : List Section}
    (hnew : ∀ s ∈ document, s.name ∉ b.root.map Prod.fst)
    (hnames : (document.map Section.name).Nodup)
    (hmembers : ∀ s ∈ document, (s.written.map Prod.fst).Nodup) :
    ((document.flatMap Section.statements).foldlM add? b).map Draft.root =
      some (b.root ++ tables document) := by
  induction document generalizing b with
  | nil => simp [tables]
  | cons s document ih =>
    obtain ⟨hs, hnames⟩ := List.nodup_cons.mp hnames
    have hlookup := Keyed.lookup_eq_none_iff.mpr (hnew s List.mem_cons_self)
    have hsection : s.statements.foldlM add? b =
        some ⟨[s.name], b.root ++ [(s.name, .table .header (values s.written))]⟩ := by
      have hempty : ∀ m ∈ s.written, m.1 ∉ ([] : Members).map Prod.fst := by simp
      rw [Section.statements, List.foldlM_cons, add?_table hlookup]
      exact foldlM_assignments hlookup hempty (hmembers s List.mem_cons_self)
    have hrest : ∀ t ∈ document,
        t.name ∉ (b.root ++ [(s.name, Item.table .header (values s.written))]).map Prod.fst := by
      intro t ht
      have hne : t.name ≠ s.name := fun heq => hs (heq ▸ List.mem_map_of_mem ht)
      simpa [hne] using hnew t (List.mem_cons_of_mem s ht)
    rw [List.flatMap_cons, List.foldlM_append, hsection]
    have htail := ih (b := ⟨[s.name], b.root ++ [(s.name, .table .header (values s.written))]⟩) hrest
      hnames fun t ht => hmembers t (List.mem_cons_of_mem s ht)
    simpa [tables] using htail

end Draft

/-! ## Records -/

theorem membersData_values (members : List (String × Data)) :
    membersData (Draft.values members) = members := by
  induction members with
  | nil => rfl
  | cons m members ih =>
    have hcons : Draft.values (m :: members) = (m.1, .value m.2) :: Draft.values members := rfl
    rw [hcons, membersData, Item.toData, ih]

theorem membersData_tables (document : List Section) :
    membersData (Draft.tables document) = document.map fun s => (s.name, .record s.written) := by
  induction document with
  | nil => rfl
  | cons s document ih =>
    have hcons : Draft.tables (s :: document) =
      (s.name, .table .header (Draft.values s.written)) :: Draft.tables document := rfl
    rw [hcons, membersData, Item.toData, membersData_values, ih]
    rfl

theorem build?_statements {document : List Section} (h : IsDocument document) :
    build? (document.flatMap Section.statements) =
      some (.record (document.map fun s => (s.name, .record s.written))) := by
  have hfold := Draft.foldlM_statements (b := .empty) (fun _ _ => by simp [Draft.empty]) h.names
    h.members
  obtain ⟨b, hb, hroot⟩ := Option.map_eq_some_iff.mp hfold
  have hroot : b.root = Draft.tables document := by simpa [Draft.empty] using hroot
  unfold build?
  rw [hb]
  simp [hroot, membersData_tables]

/-- A document reads back, less the members without a value. -/
theorem read?_write? {document : List Section} (h : IsDocument document) {text : String}
    (htext : write? document = some text) :
    read? text = some (.record (document.map fun s => (s.name, .record s.written))) := by
  have hchars : text.toList = documentChars document := by
    unfold write? at htext
    split at htext
    · rw [← Option.some.inj htext, String.toList_ofList]
    · cases htext
  have hmark : dropMark (documentChars document) = documentChars document := by
    cases document with
    | nil => rfl
    | cons s rest => cases rest <;> rfl
  unfold read?
  rw [hchars, hmark]
  simp only [reads_documentChars h.sections _ (Nat.lt_succ_self _)]
  exact build?_statements h

end LiveSound.Toml
