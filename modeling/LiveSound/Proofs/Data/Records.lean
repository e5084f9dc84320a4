import LiveSound.Data.Record
import Mathlib.Data.List.Nodup

/-!
# Records read back

`Field.written given` are the members of a record of which some fields are left out. They are read
by putting in what is given for each field, one after the other (`readMembers_written`), whatever
the fields are. What is not nested too deep is not cut.
-/

namespace LiveSound

namespace Field

variable {ε σ : Type} {fields : List (Field ε σ)} {fault : ε}

/-- The members of a record of which some fields are left out. -/
def written (given : List (Field ε σ × Option Data)) : List (String × Data) :=
  given.flatMap fun g => (g.2.map (g.1.name, ·)).toList

def take (record : σ) (g : Field ε σ × Option Data) : Except ε σ :=
  match g.2 with
  | some d => g.1.read d record
  | none => .ok record

theorem foldlM_take {given : List (Field ε σ × Option Data)} {g : Field ε σ × Option Data}
    {record next : σ} (h : take record g = .ok next) :
    (g :: given).foldlM take record = given.foldlM take next := by
  rw [List.foldlM_cons, h]
  rfl

theorem mem_written {given : List (Field ε σ × Option Data)} {m : String × Data}
    (h : m ∈ written given) : ∃ g ∈ given, g.2 = some m.2 := by
  obtain ⟨g, hg, hm⟩ := List.mem_flatMap.mp h
  obtain ⟨d, hd, rfl⟩ := Option.map_eq_some_iff.mp (Option.mem_toList.mp hm)
  exact ⟨g, hg, hd⟩

theorem find?_name (distinct : (fields.map (·.name)).Nodup) {f : Field ε σ} (hf : f ∈ fields) :
    fields.find? (·.name == f.name) = some f := by
  have found : (fields.find? (·.name == f.name)).isSome :=
    List.find?_isSome.mpr ⟨f, hf, beq_self_eq_true _⟩
  obtain ⟨g, hg⟩ := Option.isSome_iff_exists.mp found
  have name : g.name = f.name := by simpa using List.find?_some hg
  rw [hg, List.inj_on_of_nodup_map distinct (List.mem_of_find?_eq_some hg) hf name]

/-- What is given for fields with names of their own is put in one after the other. -/
theorem readMembers_written (distinct : (fields.map (·.name)).Nodup)
    {given : List (Field ε σ × Option Data)} (known : ∀ g ∈ given, g.1 ∈ fields)
    (once : (given.map (·.1.name)).Nodup) {seen : List String}
    (fresh : ∀ g ∈ given, g.1.name ∉ seen) (record : σ) :
    readMembers fields fault seen record (written given) = given.foldlM take record := by
  induction given generalizing seen record with
  | nil => rfl
  | cons g given ih =>
    obtain ⟨f, value⟩ := g
    obtain ⟨hf, others⟩ := List.forall_mem_cons.mp known
    obtain ⟨new, unseen⟩ := List.forall_mem_cons.mp fresh
    obtain ⟨only, rest⟩ := List.nodup_cons.mp once
    rw [List.foldlM_cons]
    cases value with
    | none => exact ih others rest unseen record
    | some d =>
      show readMembers fields fault seen record ((f.name, d) :: written given) = _
      rw [readMembers, find?_name distinct hf]
      simp only [List.contains_eq_mem, new, decide_false, take]
      cases f.read d record with
      | error e => rfl
      | ok record =>
        refine ih others rest (fun g hg same => ?_) record
        rcases List.mem_cons.mp same with same | same
        · exact only (List.mem_map.mpr ⟨g, hg, same⟩)
        · exact unseen g hg same

theorem readMembers_foreign {extra : List (String × Data)}
    (foreign : ∀ m ∈ extra, ∀ f ∈ fields, f.name ≠ m.1) (seen : List String) (record : σ) :
    readMembers fields fault seen record extra = .ok record := by
  induction extra with
  | nil => rfl
  | cons m extra ih =>
    obtain ⟨name, d⟩ := m
    obtain ⟨first, others⟩ := List.forall_mem_cons.mp foreign
    have unknown : fields.find? (·.name == name) = none := by simpa using first
    rw [readMembers, unknown]
    exact ih others

theorem readMembers_append {extra : List (String × Data)}
    (foreign : ∀ m ∈ extra, ∀ f ∈ fields, f.name ≠ m.1) (members : List (String × Data))
    (seen : List String) (record : σ) :
    readMembers fields fault seen record (members ++ extra) =
      readMembers fields fault seen record members := by
  induction members generalizing seen record with
  | nil => exact readMembers_foreign foreign seen record
  | cons m members ih =>
    obtain ⟨name, d⟩ := m
    rw [List.cons_append, readMembers, readMembers]
    cases fields.find? (·.name == name) with
    | none => exact ih seen record
    | some f =>
      simp only
      split
      · rfl
      · cases f.read d record with
        | error e => rfl
        | ok record => exact ih (name :: seen) record

end Field

namespace Data

theorem cutItems_eq_map (depth : Nat) (items : List Data) :
    cutItems depth items = items.map (cut depth) := by
  induction items with
  | nil => rfl
  | cons d items ih => rw [cutItems, ih, List.map_cons]

/-- Members that are not too deep stay as they are. -/
theorem cutMembers_of_cut {depth : Nat} {members : List (String × Data)}
    (h : ∀ m ∈ members, m.2.cut depth = m.2) : cutMembers depth members = members := by
  induction members with
  | nil => rfl
  | cons m members ih =>
    obtain ⟨first, others⟩ := List.forall_mem_cons.mp h
    rw [cutMembers, first, ih others]

theorem readableItems_iff {items : List Data} :
    readableItems items = true ↔ ∀ d ∈ items, d.isReadable = true := by
  induction items with
  | nil => simp [readableItems]
  | cons d items ih => simp [readableItems, ih]

theorem readableMembers_iff {members : List (String × Data)} :
    readableMembers members = true ↔ ∀ m ∈ members, m.2.isReadable = true := by
  induction members with
  | nil => simp [readableMembers]
  | cons m members ih => simp [readableMembers, ih]

@[simp] theorem asTexts?_texts (items : List String) :
    (Data.list (items.map .text)).asTexts? = some items := by
  unfold asTexts?
  induction items with
  | nil => rfl
  | cons t items ih => simp_all [asText?]

end Data

end LiveSound
