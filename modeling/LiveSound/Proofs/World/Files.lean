import LiveSound.Proofs.Data.Keyed
import LiveSound.Proofs.World.Paths
import LiveSound.World.Files

/-!
# Written files

Writing a file changes what stands at one place that is no directory, so every path that led
somewhere leads there still, and the path that was written leads to what was written. A name in a
directory that is there can be written unless a directory has it.
-/

namespace LiveSound.Files

variable {f f' : Files} {base place : Place}

/-! ## Places -/

theorem entry?_put_self (f : Files) (hplace : place ≠ []) (e : Entry) :
    entry? (f.put place e) place = some e := by
  simp [put, entry?, hplace]

theorem entry?_put_ne (f : Files) {other : Place} (hne : other ≠ place) (e : Entry) :
    entry? (f.put place e) other = f.entry? other := by
  have hkey : (other == place) = false := by simpa using hne
  unfold entry? put
  rw [List.lookup_cons, hkey, Keyed.lookup_filter_ne hne]

def enter (place : Place) (part : String) : Place :=
  if part = "." then place else if part = ".." then place.dropLast else place ++ [part]

theorem follow_cons (f : Files) (start : Place) (part : String) (parts : List String) :
    f.follow start (part :: parts) =
      match f.entry? start with
      | none => .error .notFound
      | some (.file _ _) => .error .notDirectory
      | some .directory => f.follow (enter start part) parts := by
  rw [follow]
  cases f.entry? start with
  | none => rfl
  | some e =>
    cases e with
    | file content mode => rfl
    | directory =>
      unfold enter
      by_cases hdot : part = "."
      · simp [hdot]
      · by_cases hdots : part = ".." <;> simp [hdot, hdots]

/-- Directories stay directories, so what led somewhere goes on leading there. -/
theorem follow_of_directories
    (kept : ∀ place, f.entry? place = some .directory → f'.entry? place = some .directory)
    {start found : Place} {parts : List String} (h : f.follow start parts = .ok found) :
    f'.follow start parts = .ok found := by
  induction parts generalizing start with
  | nil => exact h
  | cons part parts ih =>
    rw [follow_cons] at h ⊢
    split at h
    · cases h
    · cases h
    · rename_i directory
      rw [kept start directory]
      exact ih h

/-- A path that leads through directories does so after a file is put where none of them is. -/
theorem follow_put (hplace : f.entry? place ≠ some .directory) (e : Entry) {start found : Place}
    {parts : List String} (h : f.follow start parts = .ok found) :
    (f.put place e).follow start parts = .ok found := by
  refine follow_of_directories (fun q directory => ?_) h
  have hne : q ≠ place := fun heq => hplace (heq ▸ directory)
  rw [entry?_put_ne f hne, directory]

/-- Where parts lead does not depend on the files. -/
theorem follow_eq_foldl {start : Place} {parts : List String}
    (h : f.follow start parts = .ok place) : place = parts.foldl enter start := by
  induction parts generalizing start with
  | nil =>
    cases h
    rfl
  | cons part parts ih =>
    rw [follow_cons] at h
    split at h
    · cases h
    · cases h
    · exact ih h

theorem follow_append (f : Files) (start : Place) (before after : List String) :
    f.follow start (before ++ after) = (f.follow start before).bind (f.follow · after) := by
  induction before generalizing start with
  | nil => rfl
  | cons part before ih =>
    rw [List.cons_append, follow_cons, follow_cons]
    cases f.entry? start with
    | none => rfl
    | some e =>
      cases e with
      | file content mode => rfl
      | directory => exact ih _

/-- Where the parts of a path start. -/
def start (base : Place) (p : String) : Place := if Path.isAbsolute p then [] else base

theorem locate_eq {p : String} (hp : p ≠ "") :
    f.locate base p = (f.follow (start base p) (Path.parts p)).bind fun place =>
      match p.endsWith "/", f.entry? place with
      | true, some (.file _ _) => .error .notDirectory
      | _, _ => .ok place := by
  have hne : p.isEmpty = false := by simpa using hp
  unfold locate start
  rw [hne]
  simp only [Bool.false_eq_true, if_false]
  cases f.follow (if Path.isAbsolute p then [] else base) (Path.parts p) <;> rfl

theorem locate_empty (f : Files) (base : Place) : f.locate base "" = .error .notFound := rfl

/-- Only a path that ends in a slash is refused where its parts lead somewhere. -/
theorem locate_eq_ok_iff {p : String} :
    f.locate base p = .ok place ↔
      p ≠ "" ∧ f.follow (start base p) (Path.parts p) = .ok place ∧
        (p.endsWith "/" = true → ∀ content mode, f.entry? place ≠ some (.file content mode)) := by
  by_cases hp : p = ""
  · rw [hp, locate_empty]
    exact ⟨nofun, fun h => absurd rfl h.1⟩
  · rw [locate_eq hp]
    cases f.follow (start base p) (Path.parts p) with
    | error e => exact ⟨nofun, nofun⟩
    | ok found =>
      simp only [Except.bind]
      constructor
      · intro h
        split at h
        case h_1 => cases h
        case h_2 hends =>
          cases h
          exact ⟨hp, rfl, fun hslash content mode hfile => hends content mode hslash hfile⟩
      · rintro ⟨-, hfound, hends⟩
        cases hfound
        split
        case h_1 content mode hslash hfile => exact absurd hfile (hends hslash content mode)
        case h_2 => rfl

theorem find?_directory_iff {p : String} :
    f.find? base p = some .directory ↔
      p ≠ "" ∧ ∃ place, f.follow (start base p) (Path.parts p) = .ok place ∧
        f.entry? place = some .directory := by
  unfold find?
  constructor
  · intro h
    cases hlocate : f.locate base p with
    | error e =>
      rw [hlocate] at h
      cases h
    | ok place =>
      rw [hlocate] at h
      obtain ⟨hp, hfollow, -⟩ := locate_eq_ok_iff.mp hlocate
      exact ⟨hp, place, hfollow, h⟩
  · rintro ⟨hp, place, hfollow, hentry⟩
    have hlocate : f.locate base p = .ok place :=
      locate_eq_ok_iff.mpr ⟨hp, hfollow, fun _ _ _ => by simp [hentry]⟩
    rw [hlocate]
    exact hentry

/-! ## Writing and reading -/

theorem ne_nil_of_not_directory (h : f.entry? place ≠ some .directory) : place ≠ [] := by
  rintro rfl
  exact h rfl

/-- A path leads to the file that is put where it leads, unless a directory is there. -/
theorem locate_put {p : String} (hplace : f.entry? place ≠ some .directory)
    (hslash : p.endsWith "/" = false) (h : f.locate base p = .ok place) (e : Entry) :
    (f.put place e).locate base p = .ok place := by
  obtain ⟨hp, hfollow, -⟩ := locate_eq_ok_iff.mp h
  refine locate_eq_ok_iff.mpr ⟨hp, follow_put hplace e hfollow, fun hends => ?_⟩
  rw [hslash] at hends
  cases hends

theorem write_eq_ok {p : String} {content : Bytes} {f' : Files}
    (h : f.write base p content = .ok f') :
    ∃ place mode, f.locate base p = .ok place ∧ p.endsWith "/" = false ∧
      f.entry? place ≠ some .directory ∧ f' = f.put place (.file content mode) := by
  unfold write at h
  split at h
  case h_1 => cases h
  case h_2 place hlocate =>
    split at h
    case h_1 old mode hentry =>
      cases h
      refine ⟨place, mode, hlocate, ?_, by simp [hentry], rfl⟩
      rw [Bool.eq_false_iff]
      intro hends
      exact (locate_eq_ok_iff.mp hlocate).2.2 hends old mode hentry
    case h_2 => cases h
    case h_3 hentry =>
      split at h
      case isTrue => cases h
      case isFalse hends =>
        split at h
        case h_1 =>
          cases h
          exact ⟨place, 0o644, hlocate, by simpa using hends, by simp [hentry], rfl⟩
        case h_2 => cases h
        case h_3 => cases h

/-- What was written is found and can be read under the same path. -/
theorem read_of_write {p : String} {content : Bytes} {f' : Files}
    (h : f.write base p content = .ok f') :
    f'.read base p = .ok content ∧ ∃ mode, f'.find? base p = some (.file content mode) := by
  obtain ⟨place, mode, hlocate, hslash, hplace, rfl⟩ := write_eq_ok h
  have hput := locate_put hplace hslash hlocate (.file content mode)
  have hentry := entry?_put_self f (ne_nil_of_not_directory hplace) (.file content mode)
  refine ⟨?_, mode, ?_⟩
  · rw [read, hput]
    simp only [hentry]
  · rw [find?, hput]
    exact hentry

/-! ## Names in a directory -/

theorem find?_directory_slash {cs : List Char} (hcs : cs ≠ []) :
    f.find? base (String.ofList (cs ++ ['/'])) = some .directory ↔
      f.find? base (String.ofList cs) = some .directory := by
  have hne : String.ofList (cs ++ ['/']) ≠ "" := by
    rw [Ne, ← String.toList_inj]
    simp
  have hne' : String.ofList cs ≠ "" := by
    rw [Ne, ← String.toList_inj]
    simpa using hcs
  simp only [find?_directory_iff, start, Path.parts_slash, Path.isAbsolute_append hcs, hne, hne',
    true_and, ne_eq, not_false_eq_true]

theorem find?_directory_dot {cs : List Char} (hcs : cs ≠ [])
    (h : f.find? base (String.ofList (cs ++ ['/', '.'])) = some .directory) :
    f.find? base (String.ofList cs) = some .directory := by
  obtain ⟨-, place, hfollow, hentry⟩ := find?_directory_iff.mp h
  have hdot : Path.parts (String.ofList ['.']) = ["."] := rfl
  rw [start, Path.isAbsolute_append hcs, Path.parts_ofList_append, hdot, follow_append] at hfollow
  have hne : String.ofList cs ≠ "" := by
    rw [Ne, ← String.toList_inj]
    simpa using hcs
  rw [find?_directory_iff]
  refine ⟨hne, ?_⟩
  unfold start
  cases hbefore : f.follow (if Path.isAbsolute (String.ofList cs) then [] else base)
      (Path.parts (String.ofList cs)) with
  | error e =>
    rw [hbefore] at hfollow
    cases hfollow
  | ok found =>
    rw [hbefore] at hfollow
    simp only [Except.bind, follow_cons] at hfollow
    split at hfollow
    case h_1 => cases hfollow
    case h_2 => cases hfollow
    case h_3 hdirectory => exact ⟨found, rfl, hdirectory⟩

theorem find?_root (f : Files) (base : Place) :
    f.find? base (String.ofList ['/']) = some .directory := by
  have hparts : Path.parts (String.ofList ['/']) = [] := Path.parts_slash []
  have habsolute : Path.isAbsolute (String.ofList ['/']) = true := by
    refine (Path.isAbsolute_iff _).mpr ⟨[], ?_⟩
    simp
  rw [find?_directory_iff, start, hparts, habsolute]
  exact ⟨by simp [← String.toList_inj], [], rfl, rfl⟩

/-- What is taken off the end of a path leads nowhere else. -/
theorem find?_trimReversed {cs : List Char}
    (h : f.find? base (String.ofList cs.reverse) = some .directory) :
    f.find? base (String.ofList (Path.trimReversed cs).reverse) = some .directory := by
  fun_induction Path.trimReversed cs with
  | case1 => exact h
  | case2 rest hrest ih =>
    rw [List.reverse_cons] at h
    exact ih ((find?_directory_slash (by simpa using hrest)).mp h)
  | case3 => exact find?_root f base
  | case4 rest hrest ih =>
    refine ih (find?_directory_dot (by simpa using hrest) ?_)
    simpa using h
  | case5 => exact h

/-- The path above a name in a directory leads to that directory. -/
theorem find?_parent_join {directory name parent : String} (hname : Path.IsName name)
    (h : f.find? base directory = some .directory)
    (hparent : Path.parent? (Path.join directory name) = some parent) :
    f.find? base parent = some .directory := by
  have hne := (find?_directory_iff.mp h).1
  rw [Path.parent?_join hname hne] at hparent
  cases hparent
  refine find?_trimReversed ?_
  rw [List.reverse_reverse]
  unfold Path.leading
  split
  · rw [String.ofList_toList]
    exact h
  · refine (find?_directory_slash (by simpa using hne)).mpr ?_
    rw [String.ofList_toList]
    exact h

/-- Making a directory that is there changes nothing. -/
theorem makeDirectories_directory {p : String} (h : f.find? base p = some .directory) :
    f.makeDirectories base p = .ok f := by
  obtain ⟨hp, place, hfollow, hentry⟩ := find?_directory_iff.mp h
  have hlocate : f.locate base p = .ok place :=
    locate_eq_ok_iff.mpr ⟨hp, hfollow, fun _ _ _ => by simp [hentry]⟩
  have hmake : f.makeDirectory base p = .error .fileExists := by
    rw [makeDirectory, hlocate]
    simp only [hentry]
  have hempty : p.isEmpty = false := by simpa using hp
  rw [makeDirectories, makeUpTo, hempty, hmake]
  simp [h]

theorem locate_join {directory name : String} (hname : Path.IsName name)
    (h : f.find? base directory = some .directory) :
    ∃ above, f.entry? above = some .directory ∧
      f.locate base (Path.join directory name) = .ok (above ++ [name]) := by
  obtain ⟨hne, above, hfollow, hentry⟩ := find?_directory_iff.mp h
  refine ⟨above, hentry, locate_eq_ok_iff.mpr ⟨?_, ?_, fun hends => ?_⟩⟩
  · intro hempty
    have htext := Path.join_name hname hne
    rw [hempty] at htext
    exact hname.ne_empty (String.toList_eq_nil_iff.mp (List.append_eq_nil_iff.mp htext.symm).2)
  · have henter : enter above name = above ++ [name] := by
      rw [enter, if_neg hname.ne_dot, if_neg hname.ne_dots]
    rw [start, Path.isAbsolute_join hname hne, Path.parts_join hname hne, follow_append]
    unfold start at hfollow
    rw [hfollow]
    simp only [Except.bind, follow_cons, hentry, henter]
    rfl
  · rw [Path.endsWith_join hname hne] at hends
    cases hends

/-- A name in a directory can be written, unless a directory has it. -/
theorem write_join {directory name : String} (hname : Path.IsName name)
    (h : f.find? base directory = some .directory)
    (hfree : f.find? base (Path.join directory name) ≠ some .directory) (content : Bytes) :
    ∃ f', f.write base (Path.join directory name) content = .ok f' := by
  obtain ⟨above, habove, hlocate⟩ := locate_join hname h
  have hne := (find?_directory_iff.mp h).1
  rw [find?, hlocate] at hfree
  unfold write
  rw [hlocate, Path.endsWith_join hname hne]
  simp only [List.dropLast_concat, habove]
  cases hentry : f.entry? (above ++ [name]) with
  | none => exact ⟨_, rfl⟩
  | some e =>
    cases e with
    | file old mode => exact ⟨_, rfl⟩
    | directory => exact (hfree hentry).elim

end LiveSound.Files
