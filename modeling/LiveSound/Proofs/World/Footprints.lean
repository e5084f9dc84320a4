import LiveSound.Proofs.World.Moves

/-!
# What programs leave alone

Every operation on files changes what stands at some places and nothing else: its `Footprint`.
There may be places where all that can come of it is a directory, if nothing was there. `Differs`
says that since another world nothing else has changed, and `Confined` that a program keeps it so,
from any world that it may come to run in. What is confined step after step is so as a whole.
-/

namespace LiveSound

/-! ## Places -/

/-- Where files may change. -/
structure Footprint where
  /-- Whatever may come of what is there. -/
  written : Place → Prop
  /-- A directory may be made, if nothing is there. -/
  made : Place → Prop

namespace Footprint

variable {part whole : Footprint} {condition : Prop}

def nowhere : Footprint := ⟨fun _ => False, fun _ => False⟩

/-- Those places, but only under a condition. -/
def given (condition : Prop) (places : Footprint) : Footprint :=
  ⟨fun q => condition ∧ places.written q, fun q => condition ∧ places.made q⟩

structure Within (part whole : Footprint) : Prop where
  written : ∀ q, part.written q → whole.written q
  made : ∀ q, part.made q → whole.made q

theorem Within.refl (places : Footprint) : places.Within places := ⟨fun _ => id, fun _ => id⟩

theorem Within.given (h : part.Within whole) (implied : condition) :
    part.Within (whole.given condition) :=
  ⟨fun q at_q => ⟨implied, h.written q at_q⟩, fun q at_q => ⟨implied, h.made q at_q⟩⟩

theorem Within.trans {more : Footprint} (h : part.Within whole) (h' : whole.Within more) :
    part.Within more :=
  ⟨fun q => h'.written q ∘ h.written q, fun q => h'.made q ∘ h.made q⟩

end Footprint

namespace World

open Files (destination route)
open Net (Network)

variable {places : Footprint} {w₀ w w' : World} {α β : Type} {p p' : String}

/-! ## Worlds -/

/-- At a place there is a directory now, where nothing was. -/
def Made (w w' : World) (q : Place) : Prop :=
  w.files.entry? q = none ∧ w'.files.entry? q = some .directory

/-- All that stands elsewhere in the file tree is as it was. -/
structure Differs (places : Footprint) (w w' : World) : Prop where
  directory : w'.directory = w.directory
  cache : w'.cache = w.cache
  unpacker : w'.unpacker = w.unpacker
  entries : ∀ q, ¬ places.written q →
    w'.files.entry? q = w.files.entry? q ∨ places.made q ∧ Made w w' q

theorem Differs.refl (places : Footprint) (w : World) : Differs places w w :=
  ⟨rfl, rfl, rfl, fun _ _ => .inl rfl⟩

theorem Differs.onFiles {f : Files} (h : Differs places w₀ w)
    (same : ∀ q, ¬ places.written q → f.entry? q = w.files.entry? q) :
    Differs places w₀ { w with files := f } := by
  refine ⟨h.directory, h.cache, h.unpacker, fun q off => ?_⟩
  unfold Made
  rw [same q off]
  exact h.entries q off

theorem Differs.makeDirectories {f : Files} (h : Differs places w₀ w)
    (there : ∀ q ∈ route w₀.directory p, places.written q ∨ places.made q)
    (made : w.files.makeDirectories w.directory p = .ok f) :
    Differs places w₀ { w with files := f } := by
  refine ⟨h.directory, h.cache, h.unpacker, fun q off => ?_⟩
  unfold Made
  rcases Files.makeDirectories_grows made q with same | ⟨empty, directory⟩
  · rw [same]
    exact h.entries q off
  · rcases h.entries q off with before | ⟨-, -, directory'⟩
    · by_cases on : q ∈ route w₀.directory p
      · exact .inr ⟨(there q on).resolve_left off, before ▸ empty, directory⟩
      · rw [← h.directory] at on
        exact .inl ((Files.makeDirectories_off_route made on).trans before)
    · rw [directory'] at empty
      cases empty

/-! ## Programs -/

/-- Since `w₀` only these places change, also by this program. -/
def Confined (places : Footprint) (w₀ : World) (x : StateM World α) : Prop :=
  ∀ w, Differs places w₀ w → Differs places w₀ (x w).2

/-- What a program may give. -/
def Answers (x : StateM World α) (a : α) : Prop := ∃ w, (x w).1 = a

theorem answers_pure {a a' : α} (h : Answers (pure a) a') : a' = a := by
  obtain ⟨w, same⟩ := h
  exact same.symm

theorem answers_bind {x : StateM World α} {rest : α → StateM World β} {b : β}
    (h : Answers (x >>= rest) b) : ∃ a, Answers x a ∧ Answers (rest a) b := by
  obtain ⟨w, same⟩ := h
  exact ⟨(x w).1, ⟨w, rfl⟩, (x w).2, same⟩

theorem confined_pure (a : α) : Confined places w₀ (pure a) := fun _ same => same

theorem Confined.bind {x : StateM World α} {rest : α → StateM World β}
    (hx : Confined places w₀ x) (hrest : ∀ a, Answers x a → Confined places w₀ (rest a)) :
    Confined places w₀ (x >>= rest) :=
  fun w same => hrest (x w).1 ⟨w, rfl⟩ (x w).2 (hx w same)

theorem Confined.differs {x : StateM World α} {a : α} (hx : Confined places w₀ x)
    (same : Differs places w₀ w) (ran : x w = (a, w')) : Differs places w₀ w' := by
  have after := hx w same
  rwa [ran] at after

theorem confined_of_kept {x : StateM World α}
    (kept : ∀ w, (x w).2.files = w.files ∧ (x w).2.directory = w.directory ∧
      (x w).2.cache = w.cache ∧ (x w).2.unpacker = w.unpacker) : Confined places w₀ x := by
  intro w same
  obtain ⟨files, directory, cache, unpacker⟩ := kept w
  refine ⟨directory.trans same.directory, cache.trans same.cache, unpacker.trans same.unpacker,
    fun q off => ?_⟩
  unfold Made
  rw [files]
  exact same.entries q off

theorem confined_print (text : String) :
    Confined places w₀ (Terminal.print (m := StateM World) text) :=
  confined_of_kept fun _ => ⟨rfl, rfl, rfl, rfl⟩

theorem confined_timedFetch (method : Net.Method) (url : String) (body : Option String)
    (timeout : Nat) :
    Confined places w₀ (Net.timedFetch (m := StateM World) method url body timeout) := by
  unfold Net.timedFetch
  split
  · exact confined_pure _
  · exact confined_pure _
  · exact Confined.bind (confined_of_kept fun _ => ⟨rfl, rfl, rfl, rfl⟩) fun _ _ => confined_pure _

theorem confined_fetch (method : Net.Method) (url : String) (body : Option String)
    (timeout : Nat) :
    Confined places w₀ (Net.fetch (m := StateM World) method url body timeout) :=
  (confined_timedFetch method url body timeout).bind fun _ _ => confined_pure _

theorem confined_program (i : Invocation) (timeout : Nat) :
    Confined places w₀ (Programs.run (m := StateM World) i timeout) := by
  refine confined_of_kept fun w => ?_
  have run : (Programs.run (m := StateM World) i timeout) w = w.run i := rfl
  rw [run, World.run]
  split
  · exact ⟨rfl, rfl, rfl, rfl⟩
  · split <;> exact ⟨rfl, rfl, rfl, rfl⟩

/-! ## Programs that may fail -/

theorem confined_run_pure (a : α) :
    Confined places w₀ (pure a : ExceptT String (StateM World) α).run := confined_pure _

theorem confined_given (given : Except String α) :
    Confined places w₀ (ExceptT.mk (pure given : StateM World (Except String α))).run :=
  confined_pure _

theorem confined_run_bind {x : ExceptT String (StateM World) α}
    {rest : α → ExceptT String (StateM World) β} (hx : Confined places w₀ x.run)
    (hrest : ∀ a, Confined places w₀ (rest a).run) : Confined places w₀ (x >>= rest).run := by
  intro w same
  have after := hx w same
  change Differs places w₀ ((x >>= rest).run w).2
  rw [run_bind]
  split <;> rename_i ran <;> rw [ran] at after
  · exact hrest _ _ after
  · exact after

theorem confined_inquire {question : StateM World α} (h : Confined places w₀ question) :
    Confined places w₀ (inquire question).run := h

theorem confined_attempt {ε : Type} {operation : StateM World (Except ε α)}
    (h : Confined places w₀ operation) (words : ε → String) :
    Confined places w₀ (attempt operation words).run := h

theorem confined_question {question : StateM World α} (asks : ∀ w, (question w).2 = w) :
    Confined places w₀ (inquire question).run :=
  confined_inquire fun w same => by rwa [asks w]

/-- It fails, and in the end only these places have changed since `w₀`. -/
def Fails (places : Footprint) (w₀ w : World) (x : ExceptT String (StateM World) α) : Prop :=
  ∃ message w', x.run w = (.error message, w') ∧ Differs places w₀ w'

theorem Confined.fails {x : ExceptT String (StateM World) α} (h : Confined places w₀ x.run)
    (same : Differs places w₀ w) (refused : ∃ message, (x.run w).1 = .error message) :
    Fails places w₀ w x := by
  obtain ⟨message, refused⟩ := refused
  exact ⟨message, (x.run w).2, Prod.ext refused rfl, h w same⟩

/-- Nothing comes after a part that fails. -/
theorem Fails.bind {x : ExceptT String (StateM World) α} (h : Fails places w₀ w x)
    (rest : α → ExceptT String (StateM World) β) : Fails places w₀ w (x >>= rest) := by
  obtain ⟨message, w', ran, same⟩ := h
  exact ⟨message, w', by rw [run_bind, ran], same⟩

theorem fails_bind_ok {x : ExceptT String (StateM World) α}
    {rest : α → ExceptT String (StateM World) β} {a : α} (ran : x.run w = (.ok a, w'))
    (h : Fails places w₀ w' (rest a)) : Fails places w₀ w (x >>= rest) := by
  obtain ⟨message, w'', failed, same⟩ := h
  exact ⟨message, w'', by rw [run_bind_ok ran, failed], same⟩

/-! ## Operations on files -/

theorem confined_onFiles {change : Files → Place → Except OsFault Files}
    {operation : StateM World (Except OsFault Unit)} (h : operation = onFiles change)
    (within : ∀ {w : World} {f : Files}, Differs places w₀ w →
      change w.files w.directory = .ok f → Differs places w₀ { w with files := f }) :
    Confined places w₀ operation := by
  intro w same
  rw [h, onFiles]
  split
  · rename_i f changed
    exact within same changed
  · exact same

theorem confined_makeDirectories
    (there : ∀ q ∈ route w₀.directory p, places.written q ∨ places.made q) :
    Confined places w₀ (FileSystem.makeDirectories (m := StateM World) p) :=
  confined_onFiles rfl fun same made => same.makeDirectories there made

theorem confined_writeFile {content : Bytes} (here : places.written (destination w₀.directory p)) :
    Confined places w₀ (FileSystem.writeFile (m := StateM World) p content) := by
  refine confined_onFiles rfl fun same written => same.onFiles fun q off => ?_
  refine (Files.write_entries written).2.2 q ?_
  rintro rfl
  rw [same.directory] at off
  exact off here

theorem confined_setMode {mode : Nat} (here : places.written (destination w₀.directory p)) :
    Confined places w₀ (FileSystem.setMode (m := StateM World) p mode) := by
  refine confined_onFiles rfl fun {w f} same set => same.onFiles fun q off => ?_
  rw [← same.directory] at here
  rcases Files.setMode_eq_ok set with ⟨content, old, -, rfl⟩ | ⟨-, rfl⟩
  · refine Files.entry?_put_ne w.files ?_ _
    rintro rfl
    exact off here
  · rfl

theorem confined_removeTree (within : ∀ q, destination w₀.directory p <+: q → places.written q) :
    Confined places w₀ (FileSystem.removeTree (m := StateM World) p) := by
  refine confined_onFiles rfl fun same removed => same.onFiles fun q off => ?_
  rw [Files.removeTree_eq_ok removed, same.directory]
  exact Files.entry?_drop_other fun inside => off (within q inside)

theorem confined_rename (source : ∀ q, destination w₀.directory p <+: q → places.written q)
    (target : ∀ q, destination w₀.directory p' <+: q → places.written q) :
    Confined places w₀ (FileSystem.rename (m := StateM World) p p') := by
  refine confined_onFiles rfl fun same renamed => same.onFiles fun q off => ?_
  rcases Files.rename_eq_ok renamed with ⟨-, rfl⟩ | ⟨rfl, -⟩
  · rfl
  · rw [same.directory]
    exact Files.entry?_move_other (fun inside => off (target q inside))
      fun inside => off (source q inside)

end World

end LiveSound
