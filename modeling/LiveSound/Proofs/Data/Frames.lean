import LiveSound.Data.Record
import LiveSound.Json.Record
import Mathlib.Data.List.Nodup

/-!
# What one field makes of a record

A `Frame` is a record with a gap where the value of one field stands: between members that are
named, or between values in the order of the fields. Two values of the field give records that
differ only by what the field makes of them (`Frame.read_map`), however many other members there are
and whatever is wrong with them; and a value that the field refuses spoils the record.
-/

namespace LiveSound

/-- A record without the value of one field. -/
inductive Frame where
  | members (before after : List (String × Data))
  | items (before after : List Data)

namespace Frame

def fill (name : String) (d : Data) : Frame → Json.Document
  | members before after => .record (before ++ (name, d) :: after) true
  | items before after => .list (before ++ d :: after) true

variable {ε σ : Type} {fields : List (Field ε σ)} {fault : ε} {name : String} {d d' : Data}

def Fits (fields : List (Field ε σ)) (name : String) : Frame → Prop
  | members .. => name ∈ fields.map (·.name)
  | items before _ => (fields.map (·.name))[before.length]? = some name

/-- What is read when the value is put in. -/
def read (fields : List (Field ε σ)) (fault : ε) (start : σ) (name : String) (d : Data) :
    Frame → Except ε σ
  | members before after =>
    Field.readMembers fields fault [] start (before ++ (name, d) :: after)
  | items before after => Field.readItems fault fields start (before ++ d :: after)

theorem readRecord_of_fill {frame : Frame} {text : String}
    (h : Json.document text = frame.fill name d) (start : σ) :
    Json.readRecord fields fault start text = frame.read fields fault start name d := by
  rw [Json.readRecord, h]
  cases frame with
  | members before after =>
    show (Field.readMembers ..).bind .ok = _
    rw [read]
    cases Field.readMembers fields fault [] start (before ++ (name, d) :: after) <;> rfl
  | items before after =>
    show (Field.readItems ..).bind .ok = _
    rw [read]
    cases Field.readItems fault fields start (before ++ d :: after) <;> rfl

/-! ## Around the gap -/

/-- A change of the record that the fields of other names do not see. -/
def Unseen (fields : List (Field ε σ)) (name : String) (g : σ → σ) : Prop :=
  ∀ f ∈ fields, f.name ≠ name → ∀ x r, f.read x (g r) = (f.read x r).map g

/-- What comes before the gap leads to a record or a fault, the field `f` takes the value in, and
what comes after it takes no notice of a change that other fields do not see. -/
structure Splits (fields : List (Field ε σ)) (name : String) (reads : Data → Except ε σ)
    (f : Field ε σ) (early : Except ε σ) (late : σ → Except ε σ) : Prop where
  mem : f ∈ fields
  named : f.name = name
  read : ∀ d, reads d = (early.bind (f.read d)).bind late
  after : ∀ g, Unseen fields name g → ∀ r, late (g r) = (late r).map g

theorem readMembers_map {g : σ → σ} (unseen : Unseen fields name g) {seen : List String}
    (known : name ∈ seen) (r : σ) (after : List (String × Data)) :
    Field.readMembers fields fault seen (g r) after =
      (Field.readMembers fields fault seen r after).map g := by
  induction after generalizing seen r with
  | nil => rfl
  | cons m after ih =>
    obtain ⟨other, x⟩ := m
    rw [Field.readMembers, Field.readMembers]
    cases found : fields.find? (·.name == other) with
    | none => exact ih known r
    | some f =>
      obtain rfl : f.name = other := by simpa using List.find?_some found
      simp only
      split
      · rfl
      · rename_i fresh
        have ne : f.name ≠ name := by
          rintro rfl
          exact fresh (List.contains_iff_mem.mpr known)
        rw [unseen f (List.mem_of_find?_eq_some found) ne]
        cases f.read x r with
        | error e => rfl
        | ok r => exact ih (List.mem_cons_of_mem _ known) r

theorem readItems_map {g : σ → σ}
    (unseen : ∀ f ∈ fields, ∀ x r, f.read x (g r) = (f.read x r).map g) (r : σ)
    (after : List Data) :
    Field.readItems fault fields (g r) after = (Field.readItems fault fields r after).map g := by
  induction after generalizing fields r with
  | nil => cases fields <;> rfl
  | cons x after ih =>
    cases fields with
    | nil => rfl
    | cons f fields =>
      obtain ⟨first, later⟩ := List.forall_mem_cons.mp unseen
      rw [Field.readItems, Field.readItems, first]
      cases f.read x r with
      | error e => rfl
      | ok r => exact ih later r

theorem splits_members (known : name ∈ fields.map (·.name)) (seen : List String) (start : σ)
    (before after : List (String × Data)) :
    ∃ f early late, Splits fields name
      (fun d => Field.readMembers fields fault seen start (before ++ (name, d) :: after))
      f early late := by
  induction before generalizing seen start with
  | nil =>
    obtain ⟨f, found⟩ : ∃ f, fields.find? (·.name == name) = some f := by
      obtain ⟨f, mem, named⟩ := List.mem_map.mp known
      exact Option.isSome_iff_exists.mp (List.find?_isSome.mpr ⟨f, mem, by simpa using named⟩)
    refine ⟨f, if seen.contains name then .error fault else .ok start,
      fun r => Field.readMembers fields fault (name :: seen) r after,
      List.mem_of_find?_eq_some found, by simpa using List.find?_some found, fun d => ?_,
      fun g unseen r => readMembers_map unseen List.mem_cons_self r after⟩
    simp only [List.nil_append, Field.readMembers, found]
    split
    · rfl
    · simp only [Except.bind]
      cases f.read d start <;> rfl
  | cons m before ih =>
    obtain ⟨other, x⟩ := m
    simp only [List.cons_append, Field.readMembers]
    cases fields.find? (·.name == other) with
    | none => exact ih seen start
    | some h =>
      simp only
      obtain ⟨f, early, late, splits⟩ := ih (other :: seen) start
      split
      · exact ⟨f, .error fault, late, splits.mem, splits.named, fun _ => rfl, splits.after⟩
      · cases h.read x start with
        | error e => exact ⟨f, .error e, late, splits.mem, splits.named, fun _ => rfl, splits.after⟩
        | ok r => exact ih (other :: seen) r

theorem splits_items (distinct : (fields.map (·.name)).Nodup) {before : List Data}
    (place : (fields.map (·.name))[before.length]? = some name) (start : σ) (after : List Data) :
    ∃ f early late, Splits fields name
      (fun d => Field.readItems fault fields start (before ++ d :: after)) f early late := by
  induction before generalizing fields start with
  | nil =>
    cases fields with
    | nil => cases place
    | cons f fields =>
      obtain ⟨new, distinct⟩ := List.nodup_cons.mp distinct
      obtain rfl : f.name = name := Option.some.inj place
      refine ⟨f, .ok start, fun r => Field.readItems fault fields r after, List.mem_cons_self, rfl,
        fun d => ?_, fun g unseen r => readItems_map (fun h mem => ?_) r after⟩
      · simp only [List.nil_append, Field.readItems, Except.bind]
        cases f.read d start <;> rfl
      · refine unseen h (List.mem_cons_of_mem _ mem) fun same => ?_
        exact new (List.mem_map.mpr ⟨h, mem, same⟩)
  | cons x before ih =>
    cases fields with
    | nil => cases place
    | cons h fields =>
      have later (r : σ) : ∃ f early late, Splits (h :: fields) name
          (fun d => Field.readItems fault fields r (before ++ d :: after)) f early late := by
        obtain ⟨f, early, late, splits⟩ := ih (List.nodup_cons.mp distinct).2 place r
        exact ⟨f, early, late, List.mem_cons_of_mem _ splits.mem, splits.named, splits.read,
          fun g unseen => splits.after g fun f mem => unseen f (List.mem_cons_of_mem _ mem)⟩
      simp only [List.cons_append, Field.readItems]
      cases h.read x start with
      | error e =>
        obtain ⟨f, early, late, splits⟩ := later start
        exact ⟨f, .error e, late, splits.mem, splits.named, fun _ => rfl, splits.after⟩
      | ok r => exact later r

theorem splits (fault : ε) {frame : Frame} (fits : frame.Fits fields name)
    (distinct : (fields.map (·.name)).Nodup) (start : σ) :
    ∃ f early late,
      Splits fields name (frame.read fields fault start name) f early late := by
  cases frame with
  | members before after => exact splits_members fits [] start before after
  | items before after => exact splits_items distinct fits start after

/-! ## The gap -/

variable {frame : Frame} {start : σ}

/-- Two values of a field that differ by `g` give records that do. -/
theorem read_map {g : σ → σ} (fits : frame.Fits fields name)
    (distinct : (fields.map (·.name)).Nodup) (unseen : Unseen fields name g)
    (one : ∀ f ∈ fields, f.name = name → ∀ r, f.read d r = (f.read d' r).map g) :
    frame.read fields fault start name d = (frame.read fields fault start name d').map g := by
  obtain ⟨f, early, late, splits⟩ := splits fault fits distinct start
  rw [splits.read, splits.read]
  cases early with
  | error e => rfl
  | ok r =>
    simp only [Except.bind]
    rw [one f splits.mem splits.named]
    cases f.read d' r with
    | error e => rfl
    | ok r => exact splits.after g unseen r

theorem read_refused (fits : frame.Fits fields name) (distinct : (fields.map (·.name)).Nodup)
    (refused : ∀ f ∈ fields, f.name = name → ∀ r, ∃ e, f.read d r = .error e) :
    ∃ e, frame.read fields fault start name d = .error e := by
  obtain ⟨f, early, late, splits⟩ := splits fault fits distinct start
  rw [splits.read]
  cases early with
  | error e => exact ⟨e, rfl⟩
  | ok r =>
    obtain ⟨e, he⟩ := refused f splits.mem splits.named r
    exact ⟨e, by simp only [Except.bind, he]⟩

end Frame

end LiveSound
