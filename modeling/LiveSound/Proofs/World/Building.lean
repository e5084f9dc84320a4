import LiveSound.Proofs.World.Files
import LiveSound.Proofs.World.Runs

/-!
# What building leaves alone

A program that makes directories and writes files builds on a file tree. Making directories changes
nothing that was there (`Grows`). A file that was there can change only if one of the paths that are
written leads to it, and such a path leads there from then on (`Built.file`).

In a tree in which everything stands in a directory (`Grounded`) nothing lies below a place that
was empty. So a directory that has to be made and whose path does not lead up again has no file
below it yet (`Grounded.empty_below`).

`World.Builds` says of a program that all it does to the files is building.
-/

namespace LiveSound.Files

variable {f f' f'' : Files} {base place : Place} {p : String}

/-! ## Making directories -/

/-- Nothing but directories is added. -/
def Grows (f f' : Files) : Prop :=
  ∀ place, f'.entry? place = f.entry? place ∨
    (f.entry? place = none ∧ f'.entry? place = some .directory)

theorem Grows.refl (f : Files) : f.Grows f := fun _ => .inl rfl

theorem Grows.entry (h : f.Grows f') {e : Entry} (entry : f.entry? place = some e) :
    f'.entry? place = some e := by
  rcases h place with same | ⟨empty, -⟩
  · rw [same, entry]
  · rw [entry] at empty
    cases empty

theorem Grows.trans (h : f.Grows f') (h' : f'.Grows f'') : f.Grows f'' := by
  intro place
  rcases h place with same | ⟨empty, made⟩
  · rw [← same]
    exact h' place
  · exact .inr ⟨empty, h'.entry made⟩

theorem makeDirectory_eq_ok (h : f.makeDirectory base p = .ok f') :
    ∃ place, f.locate base p = .ok place ∧ f.entry? place = none ∧
      f' = f.put place .directory := by
  unfold makeDirectory at h
  split at h
  · cases h
  · rename_i place located
    split at h
    · cases h
    · rename_i empty
      split at h
      · cases h
        exact ⟨place, located, empty, rfl⟩
      · cases h
      · cases h

theorem ne_nil_of_empty (h : f.entry? place = none) : place ≠ [] := by
  rintro rfl
  cases h

theorem grows_put (h : f.entry? place = none) : f.Grows (f.put place .directory) := by
  intro other
  by_cases same : other = place
  · subst same
    exact .inr ⟨h, entry?_put_self f (ne_nil_of_empty h) .directory⟩
  · exact .inl (entry?_put_ne f same .directory)

theorem find?_of_makeDirectory (h : f.makeDirectory base p = .ok f') :
    f'.find? base p = some .directory := by
  obtain ⟨place, located, empty, rfl⟩ := makeDirectory_eq_ok h
  obtain ⟨hp, followed, -⟩ := locate_eq_ok_iff.mp located
  refine find?_directory_iff.mpr ⟨hp, place, follow_put ?_ _ followed, ?_⟩
  · rw [empty]
    simp
  · exact entry?_put_self f (ne_nil_of_empty empty) .directory

/-- Making a directory with those above it adds directories, the one that was asked for included. -/
theorem makeUpTo_eq_ok {fuel : Nat} (h : makeUpTo base fuel f p = .ok f') :
    f.Grows f' ∧ (p ≠ "" → f'.find? base p = some .directory) := by
  have grows {f f' : Files} {p : String} (h : f.makeDirectory base p = .ok f') : f.Grows f' := by
    obtain ⟨place, -, empty, rfl⟩ := makeDirectory_eq_ok h
    exact grows_put empty
  induction fuel generalizing f p f' with
  | zero => cases h
  | succ fuel ih =>
    rw [makeUpTo] at h
    split at h
    · rename_i hp
      cases h
      exact ⟨.refl f, fun hne => absurd (String.isEmpty_iff.mp hp) hne⟩
    · split at h
      · rename_i made
        cases h
        exact ⟨grows made, fun _ => find?_of_makeDirectory made⟩
      · split at h
        · cases h
        · rename_i above _
          split at h
          · cases h
          · rename_i f₁ below
            have first := (ih below).1
            split at h
            · rename_i made
              cases h
              exact ⟨first.trans (grows made), fun _ => find?_of_makeDirectory made⟩
            · split at h
              · rename_i there
                cases h
                exact ⟨first, fun _ => there⟩
              · cases h
      · split at h
        · rename_i there
          cases h
          exact ⟨.refl f, fun _ => there⟩
        · cases h

theorem makeDirectories_grows (h : f.makeDirectories base p = .ok f') : f.Grows f' :=
  (makeUpTo_eq_ok h).1

theorem find?_of_makeDirectories (h : f.makeDirectories base p = .ok f') (hp : p ≠ "") :
    f'.find? base p = some .directory :=
  (makeUpTo_eq_ok h).2 hp

/-! ## Building -/

/-- Directories were made, and files written where and with the content that `writes` allows. -/
inductive Built (base : Place) (writes : String → Bytes → Prop) (f : Files) : Files → Prop where
  | refl : Built base writes f f
  | grow {f' f'' : Files} : Built base writes f f' → f'.Grows f'' → Built base writes f f''
  | write {f' f'' : Files} {p : String} {content : Bytes} : Built base writes f f' →
      writes p content → f'.write base p content = .ok f'' → Built base writes f f''

theorem locate_of_directories
    (kept : ∀ place, f.entry? place = some .directory → f'.entry? place = some .directory)
    (slash : p.endsWith "/" = false) (h : f.locate base p = .ok place) :
    f'.locate base p = .ok place := by
  obtain ⟨hp, followed, -⟩ := locate_eq_ok_iff.mp h
  refine locate_eq_ok_iff.mpr ⟨hp, follow_of_directories kept followed, fun ends => ?_⟩
  rw [slash] at ends
  cases ends

theorem write_directories {content : Bytes} (h : f.write base p content = .ok f')
    (directory : f.entry? place = some .directory) : f'.entry? place = some .directory := by
  obtain ⟨written, mode, -, -, free, rfl⟩ := write_eq_ok h
  have other : place ≠ written := fun same => free (same ▸ directory)
  rw [entry?_put_ne f other, directory]

theorem write_file {content old : Bytes} {mode : Nat} (located : f.locate base p = .ok place)
    (file : f.entry? place = some (.file old mode)) :
    f.write base p content = .ok (f.put place (.file content mode)) := by
  unfold write
  rw [located]
  simp only [file]

variable {writes : String → Bytes → Prop}

theorem Built.trans (h : Built base writes f f') (h' : Built base writes f' f'') :
    Built base writes f f'' := by
  induction h' with
  | refl => exact h
  | grow _ grows ih => exact ih.grow grows
  | write _ allowed written ih => exact ih.write allowed written

theorem Built.directory (h : Built base writes f f')
    (directory : f.entry? place = some .directory) :
    f'.entry? place = some .directory := by
  induction h with
  | refl => exact directory
  | grow _ grows ih => exact grows.entry ih
  | write _ _ written ih => exact write_directories written ih

theorem Built.find?_directory (h : Built base writes f f')
    (directory : f.find? base p = some .directory) : f'.find? base p = some .directory := by
  obtain ⟨hp, place, followed, entry⟩ := find?_directory_iff.mp directory
  exact find?_directory_iff.mpr
    ⟨hp, place, follow_of_directories (fun _ => h.directory) followed, h.directory entry⟩

/-- A file stays as it is, unless a path that is written leads to it. -/
theorem Built.file (h : Built base writes f f') {content : Bytes} {mode : Nat}
    (entry : f.entry? place = some (.file content mode)) :
    f'.entry? place = some (.file content mode) ∨
      ∃ p new, writes p new ∧ p.endsWith "/" = false ∧ f'.locate base p = .ok place ∧
        f'.entry? place = some (.file new mode) := by
  induction h with
  | refl => exact .inl entry
  | grow _ grows ih =>
    rcases ih with same | ⟨p, new, allowed, slash, located, file⟩
    · exact .inl (grows.entry same)
    · exact .inr ⟨p, new, allowed, slash,
        locate_of_directories (fun _ => grows.entry) slash located, grows.entry file⟩
  | @write f' f'' p content' _ allowed written ih =>
    obtain ⟨old, file⟩ : ∃ old, f'.entry? place = some (.file old mode) := by
      rcases ih with same | ⟨-, new, -, -, -, file⟩
      · exact ⟨content, same⟩
      · exact ⟨new, file⟩
    obtain ⟨target, -, located, slash, free, -⟩ := write_eq_ok written
    by_cases here : place = target
    · subst here
      rw [write_file located file] at written
      cases written
      exact .inr ⟨p, content', allowed, slash, locate_put free slash located _,
        entry?_put_self f' (ne_nil_of_not_directory free) _⟩
    · have other : f''.entry? place = f'.entry? place := by
        obtain ⟨target', mode', located', -, -, rfl⟩ := write_eq_ok written
        rw [located] at located'
        cases located'
        exact entry?_put_ne f' here _
      rcases ih with same | ⟨q, new, allowed', slash', located', file'⟩
      · exact .inl (other.trans same)
      · exact .inr ⟨q, new, allowed', slash',
          locate_of_directories (fun _ => write_directories written) slash' located',
          other.trans file'⟩

/-- Every file is as it was. -/
def Kept (f f' : Files) : Prop :=
  ∀ place content mode, f.entry? place = some (.file content mode) →
    f'.entry? place = some (.file content mode)

/-! ## Places below -/

/-- Everything but the root stands in a directory. -/
def Grounded (f : Files) : Prop :=
  ∀ place e, f.entry? place = some e → place ≠ [] → f.entry? place.dropLast = some .directory

theorem grounded_of_entries (h : ∀ e ∈ f.entries, f.entry? e.1.dropLast = some .directory) :
    f.Grounded := by
  intro place e entry ne
  have empty : place.isEmpty = false := by simpa using ne
  unfold Files.entry? at entry
  rw [empty] at entry
  obtain ⟨before, after, split, -⟩ := List.lookup_eq_some_iff.mp entry
  exact h (place, e) (by simp [split])

theorem Grounded.above (h : f.Grounded) {rest : List String} {e : Entry} (hrest : rest ≠ [])
    (entry : f.entry? (place ++ rest) = some e) : f.entry? place = some .directory := by
  induction rest generalizing place e with
  | nil => exact absurd rfl hrest
  | cons part rest ih =>
    have next : ∃ e', f.entry? (place ++ [part]) = some e' := by
      by_cases last : rest = []
      · exact ⟨e, by rwa [last] at entry⟩
      · exact ⟨.directory, ih last (by rwa [List.append_assoc])⟩
    obtain ⟨e', entry'⟩ := next
    have above := h _ e' entry' (by simp)
    rwa [List.dropLast_concat] at above

/-- Without single dots. -/
def plain (parts : List String) : List String := parts.filter (· != ".")

theorem plain_append (parts more : List String) :
    plain (parts ++ more) = plain parts ++ plain more :=
  List.filter_append ..

theorem foldl_enter_plain {parts : List String} (down : ".." ∉ parts) (start : Place) :
    parts.foldl enter start = start ++ plain parts := by
  induction parts generalizing start with
  | nil => simp [plain]
  | cons part parts ih =>
    have ne : part ≠ ".." := fun same => down (same ▸ List.mem_cons_self)
    rw [List.foldl_cons, ih (fun mem => down (List.mem_cons_of_mem part mem))]
    by_cases dot : part = "." <;> simp [enter, plain, dot, ne]

/-- Where a path leads that never goes up again. -/
theorem follow_plain {start : Place} {parts : List String} (down : ".." ∉ parts)
    (h : f.follow start parts = .ok place) : place = start ++ plain parts :=
  (follow_eq_foldl h).trans (foldl_enter_plain down start)

theorem locate_plain (down : ".." ∉ Path.parts p) (h : f.locate base p = .ok place) :
    place = start base p ++ plain (Path.parts p) :=
  follow_plain down (locate_eq_ok_iff.mp h).2.1

theorem plain_of_names {names : List String} (h : ∀ name ∈ names, Path.IsName name) :
    plain names = names :=
  List.filter_eq_self.mpr fun name mem => by simpa using (h name mem).ne_dot

/-- In a tree that is grounded a path that never goes up again leads to a directory, if there is
one where its parts are. -/
theorem Grounded.follow (h : f.Grounded) {start : Place} {parts : List String}
    (down : ".." ∉ parts) (root : f.entry? start = some .directory)
    (directory : f.entry? (start ++ plain parts) = some .directory) :
    f.follow start parts = .ok (start ++ plain parts) := by
  induction parts generalizing start with
  | nil => simp [Files.follow, plain]
  | cons part parts ih =>
    have rest : ".." ∉ parts := fun mem => down (List.mem_cons_of_mem part mem)
    have ne : part ≠ ".." := fun same => down (same ▸ List.mem_cons_self)
    rw [follow_cons, root]
    simp only
    by_cases dot : part = "."
    · have same : plain (part :: parts) = plain parts := by simp [plain, dot]
      rw [same] at directory ⊢
      rw [enter, if_pos dot]
      exact ih rest root directory
    · have same : start ++ plain (part :: parts) = (start ++ [part]) ++ plain parts := by
        simp [plain, dot]
      rw [same] at directory ⊢
      rw [enter, if_neg dot, if_neg ne]
      refine ih rest ?_ directory
      by_cases last : plain parts = []
      · rwa [last, List.append_nil] at directory
      · exact h.above last directory

theorem Grounded.empty_below (h : f.Grounded) (hp : p ≠ "") (down : ".." ∉ Path.parts p)
    (root : f.entry? (start base p) = some .directory) (absent : f.find? base p = none)
    (made : f.makeDirectories base p = .ok f') (rest : List String) :
    f.entry? (start base p ++ plain (Path.parts p) ++ rest) = none := by
  obtain ⟨-, place, followed, directory⟩ :=
    find?_directory_iff.mp (find?_of_makeDirectories made hp)
  rw [follow_plain down followed] at directory
  have not_there : f.entry? (start base p ++ plain (Path.parts p)) ≠ some .directory := by
    intro there
    have found := find?_directory_iff.mpr ⟨hp, _, h.follow down root there, there⟩
    rw [absent] at found
    cases found
  have empty : f.entry? (start base p ++ plain (Path.parts p)) = none := by
    rcases makeDirectories_grows made (start base p ++ plain (Path.parts p)) with same | ⟨empty, -⟩
    · exact absurd (same ▸ directory) not_there
    · exact empty
  by_cases hrest : rest = []
  · rw [hrest, List.append_nil, empty]
  · rw [Option.eq_none_iff_forall_ne_some]
    intro e entry
    exact not_there (h.above hrest entry)

end LiveSound.Files

namespace LiveSound.World

variable {α β : Type} {writes : String → Bytes → Prop}

/-! ## Programs that build -/

/-- All that a program does to the files is to build on them, with these writes. -/
def Builds (writes : String → Bytes → Prop) (x : ExceptT String (StateM World) α) : Prop :=
  ∀ w, (x.run w).2.directory = w.directory ∧
    Files.Built w.directory writes w.files (x.run w).2.files

theorem builds_pure (a : α) : Builds writes (pure a) := fun _ => ⟨rfl, .refl⟩

theorem Builds.bind {x : ExceptT String (StateM World) α}
    {rest : α → ExceptT String (StateM World) β} (hx : Builds writes x)
    (hrest : ∀ a, Builds writes (rest a)) : Builds writes (x >>= rest) := by
  intro w
  obtain ⟨same, built⟩ := hx w
  rw [run_bind]
  split <;> rename_i w' ran <;> rw [ran] at same built
  · rename_i a
    obtain ⟨same', built'⟩ := hrest a w'
    rw [same] at same' built'
    exact ⟨same', built.trans built'⟩
  · exact ⟨same, built⟩

theorem builds_print (text : String) :
    Builds writes (inquire (Terminal.print (m := StateM World) text)) := fun _ => ⟨rfl, .refl⟩

theorem builds_makeDirectories (p : String) (words : OsFault → String) :
    Builds writes (attempt (FileSystem.makeDirectories (m := StateM World) p) words) := by
  intro w
  rw [attempt_makeDirectories_run]
  split
  · rename_i made
    exact ⟨rfl, .grow .refl (Files.makeDirectories_grows made)⟩
  · exact ⟨rfl, .refl⟩

theorem builds_writeFile {p : String} {content : Bytes} (allowed : writes p content)
    (words : OsFault → String) :
    Builds writes (attempt (FileSystem.writeFile (m := StateM World) p content) words) := by
  intro w
  rw [attempt_writeFile_run]
  split
  · rename_i written
    exact ⟨rfl, .write .refl allowed written⟩
  · exact ⟨rfl, .refl⟩

theorem builds_makeParent (p : String) (words : String → OsFault → String) :
    Builds writes (makeParent (m := StateM World) p words) := by
  unfold makeParent
  split
  · exact builds_pure ()
  · split
    · exact builds_makeDirectories _ _
    · exact builds_pure ()

/-! ## The current directory -/

/-- The path of the current directory. -/
def here (w : World) : String := "/" ++ String.intercalate "/" w.directory

/-- A world as a system keeps it: everything stands in a directory, and so does the program. -/
structure Grounded (w : World) : Prop where
  files : w.files.Grounded
  names : ∀ name ∈ w.directory, Path.IsName name
  home : w.files.entry? w.directory = some .directory

theorem here_toList (w : World) :
    w.here.toList = '/' :: (String.intercalate "/" w.directory).toList := by
  simp [here]

theorem here_ne_empty (w : World) : w.here ≠ "" := by
  rw [Ne, ← String.toList_inj, here_toList]
  simp

theorem isAbsolute_here (w : World) : Path.isAbsolute w.here = true := by
  rw [Path.isAbsolute_iff, here_toList]
  exact ⟨_, rfl⟩

theorem Grounded.parts_here {w : World} (h : w.Grounded) : Path.parts w.here = w.directory :=
  Path.parts_absolute h.names

theorem Grounded.find?_here {w : World} (h : w.Grounded) :
    w.files.find? w.directory w.here = some .directory := by
  have plain := Files.plain_of_names h.names
  have down : ".." ∉ w.directory := fun mem => (h.names _ mem).ne_dots rfl
  have root : w.files.entry? [] = some .directory := rfl
  have home : w.files.entry? ([] ++ Files.plain w.directory) = some .directory := by
    rw [plain]
    exact h.home
  have followed := h.files.follow down root home
  rw [plain, List.nil_append] at followed
  refine Files.find?_directory_iff.mpr ⟨w.here_ne_empty, w.directory, ?_, h.home⟩
  rw [Files.start, w.isAbsolute_here, h.parts_here]
  exact followed

end LiveSound.World
