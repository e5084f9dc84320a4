import LiveSound.World.Path
import LiveSound.Proofs.Text.Lines

/-!
# Joined paths

A name put after a directory is the last part of the path and what stands before it is the
directory, less slashes and dots that mean nothing.
-/

namespace LiveSound

namespace Path

/-- A name of something in a directory. -/
structure IsName (name : String) : Prop where
  ne_empty : name ≠ ""
  no_slash : '/' ∉ name.toList
  ne_dot : name ≠ "."
  ne_dots : name ≠ ".."

instance (name : String) : Decidable (IsName name) :=
  decidable_of_iff (name ≠ "" ∧ '/' ∉ name.toList ∧ name ≠ "." ∧ name ≠ "..")
    ⟨fun ⟨h₁, h₂, h₃, h₄⟩ => ⟨h₁, h₂, h₃, h₄⟩, fun ⟨h₁, h₂, h₃, h₄⟩ => ⟨h₁, h₂, h₃, h₄⟩⟩

theorem isAbsolute_iff (p : String) : isAbsolute p = true ↔ ['/'] <+: p.toList := by
  simp [isAbsolute]

theorem isAbsolute_eq_false_iff (p : String) : isAbsolute p = false ↔ ¬ ['/'] <+: p.toList := by
  rw [← Bool.not_eq_true, isAbsolute_iff]

theorem endsWith_slash_iff (p : String) : p.endsWith "/" = true ↔ ['/'] <:+ p.toList := by
  have h : p.endsWith "/" = p.toSlice.endsWith "/" := rfl
  rw [h, String.Slice.endsWith_string_iff, String.copy_toSlice]
  rfl

/-! ## Parts -/

theorem parts_eq (p : String) :
    parts p = ((Text.pieces '/' p.toList).map String.ofList).filter (· != "") := rfl

theorem parts_ofList_append (before after : List Char) :
    parts (String.ofList (before ++ '/' :: after)) =
      parts (String.ofList before) ++ parts (String.ofList after) := by
  simp only [parts_eq, String.toList_ofList, Text.pieces_append, List.map_append,
    List.filter_append]

theorem parts_empty : parts (String.ofList []) = [] := rfl

theorem parts_slash (cs : List Char) :
    parts (String.ofList (cs ++ ['/'])) = parts (String.ofList cs) := by
  rw [parts_ofList_append, parts_empty, List.append_nil]

theorem isAbsolute_append {cs : List Char} (hcs : cs ≠ []) (rest : List Char) :
    isAbsolute (String.ofList (cs ++ rest)) = isAbsolute (String.ofList cs) := by
  obtain ⟨c, cs, rfl⟩ := List.exists_cons_of_ne_nil hcs
  rw [Bool.eq_iff_iff, isAbsolute_iff, isAbsolute_iff, String.toList_ofList, String.toList_ofList]
  simp

theorem parts_name {name : String} (h : IsName name) : parts name = [name] := by
  rw [parts_eq, Text.pieces_of_notMem h.no_slash]
  simp [h.ne_empty]

/-! ## Joining -/

/-- What comes before a name in a directory. -/
def leading (directory : String) : List Char :=
  if directory.endsWith "/" then directory.toList else directory.toList ++ ['/']

theorem leading_ends (directory : String) : ∃ cs, leading directory = cs ++ ['/'] := by
  unfold leading
  split
  case isTrue h =>
    obtain ⟨cs, hcs⟩ := (endsWith_slash_iff directory).mp h
    exact ⟨cs, hcs.symm⟩
  case isFalse => exact ⟨_, rfl⟩

theorem isAbsolute_name {name : String} (h : IsName name) : isAbsolute name = false := by
  rw [isAbsolute_eq_false_iff]
  intro hstart
  exact h.no_slash (hstart.subset List.mem_cons_self)

theorem toList_join {directory p : String} (hp : isAbsolute p = false)
    (hdirectory : directory ≠ "") :
    (join directory p).toList = leading directory ++ p.toList := by
  have hempty : directory.isEmpty = false := by simpa using hdirectory
  unfold join leading
  rw [hp, hempty]
  simp only [Bool.or_self, Bool.false_eq_true, if_false]
  split
  · rw [String.toList_append]
  · rw [String.toList_append, String.toList_append]
    rfl

theorem join_name {directory name : String} (hname : IsName name) (hdirectory : directory ≠ "") :
    (join directory name).toList = leading directory ++ name.toList :=
  toList_join (isAbsolute_name hname) hdirectory

theorem parts_leading (directory : String) :
    parts (String.ofList (leading directory)) = parts directory := by
  unfold leading
  split
  · rw [String.ofList_toList]
  · rw [parts_slash, String.ofList_toList]

theorem parts_join_relative {directory p : String} (hp : isAbsolute p = false)
    (hdirectory : directory ≠ "") : parts (join directory p) = parts directory ++ parts p := by
  obtain ⟨cs, hcs⟩ := leading_ends directory
  have htext : join directory p = String.ofList (cs ++ '/' :: p.toList) := by
    rw [← String.toList_inj, String.toList_ofList, toList_join hp hdirectory, hcs,
      List.append_assoc]
    rfl
  rw [htext, parts_ofList_append, String.ofList_toList, ← parts_slash, ← hcs, parts_leading]

theorem parts_join {directory name : String} (hname : IsName name) (hdirectory : directory ≠ "") :
    parts (join directory name) = parts directory ++ [name] := by
  rw [parts_join_relative (isAbsolute_name hname) hdirectory, parts_name hname]

theorem isAbsolute_join_relative {directory p : String} (hp : isAbsolute p = false)
    (hdirectory : directory ≠ "") : isAbsolute (join directory p) = isAbsolute directory := by
  have hne : directory.toList ≠ [] := by simpa using hdirectory
  obtain ⟨rest, hrest⟩ : ∃ rest, join directory p = String.ofList (directory.toList ++ rest) := by
    have htext := toList_join hp hdirectory
    unfold leading at htext
    split at htext
    · exact ⟨p.toList, by rw [← String.toList_inj, String.toList_ofList, htext]⟩
    · exact ⟨'/' :: p.toList, by
        rw [← String.toList_inj, String.toList_ofList, htext, List.append_assoc]
        rfl⟩
  rw [hrest, isAbsolute_append hne, String.ofList_toList]

theorem isAbsolute_join {directory name : String} (hname : IsName name)
    (hdirectory : directory ≠ "") : isAbsolute (join directory name) = isAbsolute directory :=
  isAbsolute_join_relative (isAbsolute_name hname) hdirectory

theorem join_ne_empty {directory p : String} (hp : isAbsolute p = false)
    (hdirectory : directory ≠ "") : join directory p ≠ "" := by
  intro hempty
  have htext := toList_join hp hdirectory
  obtain ⟨cs, hcs⟩ := leading_ends directory
  rw [hempty, hcs] at htext
  simp at htext

theorem endsWith_join {directory name : String} (hname : IsName name)
    (hdirectory : directory ≠ "") :
    (join directory name).endsWith "/" = false := by
  rw [Bool.eq_false_iff, Ne, endsWith_slash_iff, join_name hname hdirectory]
  intro hsuffix
  have hne : name.toList ≠ [] := by simpa using hname.ne_empty
  rcases List.suffix_or_suffix_of_suffix hsuffix (List.suffix_append _ name.toList) with h | h
  · exact hname.no_slash (h.subset List.mem_cons_self)
  · obtain ⟨c, cs, hcs⟩ := List.exists_cons_of_ne_nil hne
    have hc : c ∈ name.toList := by
      rw [hcs]
      exact List.mem_cons_self
    obtain rfl : c = '/' := by simpa using h.subset hc
    exact hname.no_slash hc

theorem join_join {directory name name' : String} (hname : IsName name) (hname' : IsName name')
    (hdirectory : directory ≠ "") :
    join (join directory name) name' = join directory (name ++ "/" ++ name') := by
  have hrelative : isAbsolute (name ++ "/" ++ name') = false := by
    have htext : name ++ "/" ++ name' = String.ofList (name.toList ++ ('/' :: name'.toList)) := by
      rw [← String.toList_inj]
      simp
    have hne : name.toList ≠ [] := by simpa using hname.ne_empty
    rw [htext, isAbsolute_append hne, String.ofList_toList, isAbsolute_name hname]
  have hjoin := join_ne_empty (isAbsolute_name hname) hdirectory
  rw [← String.toList_inj, toList_join hrelative hdirectory, join_name hname' hjoin, leading,
    endsWith_join hname hdirectory, join_name hname hdirectory]
  simp

/-! ## Places as paths -/

theorem parts_intercalate {names : List String} (h : ∀ name ∈ names, IsName name) :
    parts (String.intercalate "/" names) = names := by
  induction names with
  | nil => rfl
  | cons name names ih =>
    have first := parts_name (h name List.mem_cons_self)
    cases names with
    | nil => rw [String.intercalate_singleton, first]
    | cons next names =>
      have htext : String.intercalate "/" (name :: next :: names) =
          String.ofList (name.toList ++ '/' :: (String.intercalate "/" (next :: names)).toList) := by
        rw [String.intercalate_cons_cons, ← String.toList_inj]
        simp
      rw [htext, parts_ofList_append, String.ofList_toList, String.ofList_toList, first,
        ih fun name hmem => h name (List.mem_cons_of_mem _ hmem), List.singleton_append]

/-- Names from the root, written as a path. -/
theorem parts_absolute {names : List String} (h : ∀ name ∈ names, IsName name) :
    parts ("/" ++ String.intercalate "/" names) = names := by
  have htext : "/" ++ String.intercalate "/" names =
      String.ofList ([] ++ '/' :: (String.intercalate "/" names).toList) := by
    rw [← String.toList_inj]
    simp
  rw [htext, parts_ofList_append, parts_empty, String.ofList_toList, parts_intercalate h,
    List.nil_append]

/-! ## The last part -/

/-- Nothing is taken off a name. -/
theorem trimReversed_name {cs rest : List Char} (hne : cs ≠ []) (hslash : '/' ∉ cs)
    (hdot : cs ≠ ['.']) : trimReversed (cs ++ '/' :: rest) = cs ++ '/' :: rest := by
  obtain ⟨c, cs, rfl⟩ := List.exists_cons_of_ne_nil hne
  have hc : c ≠ '/' := fun heq => hslash (heq ▸ List.mem_cons_self)
  rw [List.cons_append, trimReversed.eq_def]
  split
  case h_1 heq => exact (hc (List.cons.inj heq).1).elim
  case h_2 heq => exact (hc (List.cons.inj heq).1).elim
  case h_3 heq =>
    cases cs with
    | nil => simp_all
    | cons d cs => simp at heq
  case h_4 heq =>
    obtain ⟨rfl, hrest⟩ := List.cons.inj heq
    cases cs with
    | nil => exact (hdot rfl).elim
    | cons d cs =>
      obtain rfl := (List.cons.inj hrest).1
      exact (hslash (by simp)).elim
  case h_5 => rfl

theorem last?_join {directory name : String} (hname : IsName name) (hdirectory : directory ≠ "") :
    last? (join directory name) = some ⟨leading directory, name.toList⟩ := by
  obtain ⟨cs, hcs⟩ := leading_ends directory
  have hne : name.toList.reverse ≠ [] := by simpa using hname.ne_empty
  have hslash : '/' ∉ name.toList.reverse := by simpa using hname.no_slash
  have hdot : name.toList.reverse ≠ ['.'] := by
    intro heq
    refine hname.ne_dot (String.toList_inj.mp ?_)
    rw [List.reverse_eq_iff.mp heq]
    rfl
  have hplain : ∀ c ∈ name.toList.reverse, (c != '/') = true := by
    intro c hc
    have : c ≠ '/' := fun heq => hslash (heq ▸ hc)
    simpa using this
  have hreverse : (join directory name).toList.reverse =
      name.toList.reverse ++ '/' :: cs.reverse := by
    rw [join_name hname hdirectory, hcs]
    simp
  unfold last?
  rw [hreverse, trimReversed_name hne hslash hdot]
  split
  case h_1 heq => simp at heq
  case h_2 heq =>
    obtain ⟨c, rest, hc⟩ := List.exists_cons_of_ne_nil hne
    rw [hc] at heq
    simp at heq
  case h_3 =>
    rw [List.takeWhile_append_of_pos hplain, List.dropWhile_append_of_pos hplain]
    simp [hcs]

theorem parent?_join {directory name : String} (hname : IsName name) (hdirectory : directory ≠ "") :
    parent? (join directory name) =
      some (String.ofList (trimReversed (leading directory).reverse).reverse) := by
  rw [parent?, last?_join hname hdirectory]
  rfl

theorem extension?_join {directory name : String} (hname : IsName name)
    (hdirectory : directory ≠ "") (hstem : stem name.toList ≠ name.toList) :
    extension? (join directory name) =
      some (String.ofList (name.toList.drop ((stem name.toList).length + 1))) := by
  have hdot : name.toList ≠ ['.'] := fun heq => hname.ne_dot (String.toList_inj.mp heq)
  have hdots : name.toList ≠ ['.', '.'] := fun heq => hname.ne_dots (String.toList_inj.mp heq)
  rw [extension?, last?_join hname hdirectory]
  simp [hdot, hdots, hstem]

end Path

end LiveSound
