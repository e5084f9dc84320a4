import LiveSound.Proofs.World.Routes
import Mathlib.Data.List.TakeWhile

/-!
# Names with other extensions

A name in a directory with another extension is another name in the same directory, and its
extension is the one that was asked for.
-/

namespace LiveSound.Path

variable {name directory extension : String}

/-! ## Stems -/

theorem stem_isPrefix (name : List Char) : stem name <+: name := by
  have upTo : (name.reverse.dropWhile (· != '.')).reverse <+: name := by
    have suffix := List.dropWhile_suffix (l := name.reverse) (· != '.')
    rwa [← List.reverse_prefix, List.reverse_reverse] at suffix
  unfold stem
  split
  · exact List.prefix_refl _
  · exact List.prefix_refl _
  · exact (List.dropLast_prefix _).trans upTo

theorem stem_ne_nil {name : List Char} (h : name ≠ []) : stem name ≠ [] := by
  unfold stem
  cases back : name.reverse.dropWhile (· != '.') with
  | nil => exact h
  | cons c rest =>
    have dot := List.head?_dropWhile_not (· != '.') name.reverse
    rw [back] at dot
    obtain rfl : c = '.' := by simpa using dot
    cases rest with
    | nil => exact h
    | cons d rest =>
      have long : ('.' :: d :: rest).reverse.length = rest.length + 2 := by simp
      split
      · rename_i empty
        rw [empty] at long
        cases long
      · rename_i single
        rw [single] at long
        simp at long
      · intro empty
        have short := congrArg List.length empty
        rw [List.length_dropLast, long] at short
        simp at short

/-- What stands before the last dot, unless that is the first character. -/
theorem stem_append {front back : List Char} (hfront : front ≠ []) (hback : '.' ∉ back) :
    stem (front ++ '.' :: back) = front := by
  have plain : ∀ c ∈ back.reverse, (c != '.') = true := by
    intro c mem
    have : c ≠ '.' := by
      rintro rfl
      exact hback (List.mem_reverse.mp mem)
    simpa using this
  have upTo : ((front ++ '.' :: back).reverse.dropWhile (· != '.')).reverse = front ++ ['.'] := by
    rw [List.reverse_append, List.reverse_cons, List.append_assoc,
      List.dropWhile_append_of_pos plain]
    simp
  obtain ⟨c, rest, rfl⟩ := List.exists_cons_of_ne_nil hfront
  unfold stem
  rw [upTo]
  split
  · rename_i empty
    simp at empty
  · rename_i single
    simp at single
  · exact List.dropLast_concat

/-! ## Names by themselves -/

theorem trimReversed_of_notMem {cs : List Char} (h : '/' ∉ cs) : trimReversed cs = cs := by
  fun_cases trimReversed cs with
  | case1 => rfl
  | case2 => simp at h
  | case3 => simp at h
  | case4 => simp at h
  | case5 => rfl

theorem last?_name (hname : IsName name) : last? name = some ⟨[], name.toList⟩ := by
  have hslash : '/' ∉ name.toList.reverse := by simpa using hname.no_slash
  have plain : ∀ c ∈ name.toList.reverse, (c != '/') = true := by
    intro c mem
    have : c ≠ '/' := by
      rintro rfl
      exact hslash mem
    simpa using this
  unfold last?
  rw [trimReversed_of_notMem hslash]
  split
  · rename_i empty
    exact absurd (String.toList_eq_nil_iff.mp (List.reverse_eq_nil_iff.mp empty)) hname.ne_empty
  · rename_i slash
    rw [slash] at hslash
    simp at hslash
  · rw [List.takeWhile_eq_self_iff.mpr plain, List.dropWhile_eq_nil_iff.mpr plain]
    simp

/-- The last part of a name in a directory; before it stands the same for all names. -/
theorem exists_before (directory : String) :
    ∃ before, ∀ name, IsName name →
      (join directory name).toList = before ++ name.toList ∧
        last? (join directory name) = some ⟨before, name.toList⟩ := by
  by_cases hdirectory : directory = ""
  · refine ⟨[], fun name hname => ?_⟩
    rw [hdirectory, join_empty]
    exact ⟨rfl, last?_name hname⟩
  · exact ⟨leading directory, fun name hname =>
      ⟨join_name hname hdirectory, last?_join hname hdirectory⟩⟩

theorem toList_ne_dots (hname : IsName name) :
    ¬ (name.toList = ['.'] ∨ name.toList = ['.', '.']) := by
  rintro (dot | dots)
  · exact hname.ne_dot (String.toList_inj.mp dot)
  · exact hname.ne_dots (String.toList_inj.mp dots)

theorem fileName?_join (hname : IsName name) (directory : String) :
    fileName? (join directory name) = some name := by
  obtain ⟨before, h⟩ := exists_before directory
  rw [fileName?, (h name hname).2]
  simp [toList_ne_dots hname]

/-! ## Extensions -/

/-- What can stand after the last dot of a name. -/
structure IsExtension (extension : String) : Prop where
  ne_empty : extension ≠ ""
  no_slash : '/' ∉ extension.toList
  no_dot : '.' ∉ extension.toList

instance (extension : String) : Decidable (IsExtension extension) :=
  decidable_of_iff (extension ≠ "" ∧ '/' ∉ extension.toList ∧ '.' ∉ extension.toList)
    ⟨fun ⟨h₁, h₂, h₃⟩ => ⟨h₁, h₂, h₃⟩, fun ⟨h₁, h₂, h₃⟩ => ⟨h₁, h₂, h₃⟩⟩

theorem withExtension_toList (hname : IsName name) (extension : String) :
    (withExtension name extension).toList = stem name.toList ++ '.' :: extension.toList := by
  rw [withExtension, last?_name hname]
  simp [toList_ne_dots hname]

theorem isName_withExtension (hname : IsName name) (hextension : IsExtension extension) :
    IsName (withExtension name extension) := by
  have text := withExtension_toList hname extension
  have front : stem name.toList ≠ [] := stem_ne_nil (by simpa using hname.ne_empty)
  have back : extension.toList ≠ [] := by simpa using hextension.ne_empty
  obtain ⟨c, cs, hc⟩ := List.exists_cons_of_ne_nil front
  obtain ⟨d, ds, hd⟩ := List.exists_cons_of_ne_nil back
  have long : (withExtension name extension).toList.length = cs.length + ds.length + 3 := by
    rw [text, hc, hd]
    simp only [List.length_append, List.length_cons]
    omega
  refine ⟨?_, ?_, ?_, ?_⟩
  · intro empty
    rw [empty] at long
    simp at long
  · rw [text, List.mem_append, List.mem_cons]
    rintro (mem | eq | mem)
    · exact hname.no_slash ((stem_isPrefix _).subset mem)
    · cases eq
    · exact hextension.no_slash mem
  · intro dot
    rw [dot] at long
    simp at long
  · intro dots
    rw [dots] at long
    simp at long

theorem extension?_withExtension (hname : IsName name) (hextension : IsExtension extension) :
    extension? (withExtension name extension) = some extension := by
  have front : stem name.toList ≠ [] := stem_ne_nil (by simpa using hname.ne_empty)
  have another := isName_withExtension hname hextension
  have text := withExtension_toList hname extension
  have same : stem (withExtension name extension).toList = stem name.toList := by
    rw [text, stem_append front hextension.no_dot]
  have hne : stem name.toList ≠ (withExtension name extension).toList := by
    rw [text]
    simp
  have plain := toList_ne_dots another
  rw [extension?, last?_name another]
  simp only [same, hne, or_false, plain, if_false]
  rw [text, List.drop_append]
  simp

theorem withExtension_join (hname : IsName name) (hextension : IsExtension extension)
    (directory : String) :
    withExtension (join directory name) extension =
      join directory (withExtension name extension) := by
  obtain ⟨before, h⟩ := exists_before directory
  have another := isName_withExtension hname hextension
  rw [← String.toList_inj, (h _ another).1, withExtension_toList hname, withExtension,
    (h name hname).2]
  simp [toList_ne_dots hname]

end LiveSound.Path
