import LiveSound.Proofs.World.Building

/-!
# Routes

A path leads from place to place, and every place on its route but the last has to be a directory.
Where it ends does not depend on the files (`destination`). The path above another one has a
beginning of its route, so making a directory changes nothing off the route.

A route that comes by a place below some directory and ends outside of it passes that directory
(`mem_scanl_of_within`).
-/

namespace LiveSound

namespace Path

/-! ## The path above -/

theorem trimReversed_suffix (cs : List Char) : trimReversed cs <:+ cs := by
  fun_induction trimReversed cs with
  | case1 => exact List.suffix_refl _
  | case2 rest _ ih => exact ih.trans (List.suffix_cons _ _)
  | case3 => exact List.suffix_cons _ _
  | case4 rest _ ih =>
    exact ih.trans ((List.suffix_cons _ _).trans (List.suffix_cons _ _))
  | case5 => exact List.suffix_refl _

/-- Only parts that are single dots are taken off the end of a path. -/
theorem parts_trimReversed (cs : List Char) :
    ∃ dots, parts (String.ofList cs.reverse) =
      parts (String.ofList (trimReversed cs).reverse) ++ dots := by
  fun_induction trimReversed cs with
  | case1 => exact ⟨[], by rw [List.append_nil]⟩
  | case2 rest _ ih =>
    obtain ⟨dots, same⟩ := ih
    exact ⟨dots, by rw [List.reverse_cons, parts_slash, same]⟩
  | case3 => exact ⟨["."], rfl⟩
  | case4 rest _ ih =>
    obtain ⟨dots, same⟩ := ih
    have text : ('.' :: '/' :: rest).reverse = rest.reverse ++ '/' :: ['.'] := by simp
    exact ⟨dots ++ parts (String.ofList ['.']), by
      rw [text, parts_ofList_append, same, List.append_assoc]⟩
  | case5 => exact ⟨[], by rw [List.append_nil]⟩

theorem last?_text {p : String} {l : Last} (h : last? p = some l) :
    l.before ++ l.name = (trimReversed p.toList.reverse).reverse := by
  unfold last? at h
  split at h
  · cases h
  · cases h
  · cases h
    rw [← List.reverse_append, List.takeWhile_append_dropWhile]

/-- What stands before the last part is empty or ends in a slash. -/
theorem last?_before {p : String} {l : Last} (h : last? p = some l) :
    l.before = [] ∨ ∃ cs, l.before = cs ++ ['/'] := by
  unfold last? at h
  generalize trimReversed p.toList.reverse = cs at h
  split at h
  · cases h
  · cases h
  · cases h
    cases rest : cs.dropWhile (· != '/') with
    | nil => exact .inl (by simp)
    | cons c more =>
      have slash := List.head?_dropWhile_not (· != '/') cs
      rw [rest] at slash
      obtain rfl : c = '/' := by simpa using slash
      exact .inr ⟨more.reverse, by simp⟩

theorem parts_before_append {before : List Char} (h : before = [] ∨ ∃ cs, before = cs ++ ['/'])
    (name : List Char) :
    parts (String.ofList (before ++ name)) =
      parts (String.ofList before) ++ parts (String.ofList name) := by
  rcases h with rfl | ⟨cs, rfl⟩
  · rw [List.nil_append, parts_empty, List.nil_append]
  · rw [List.append_assoc, List.singleton_append, parts_ofList_append, parts_slash]

theorem parts_parent? {p above : String} (h : parent? p = some above) :
    ∃ more, parts p = parts above ++ more := by
  obtain ⟨l, last, rfl⟩ := Option.map_eq_some_iff.mp h
  obtain ⟨dots, whole⟩ := parts_trimReversed p.toList.reverse
  obtain ⟨dots', front⟩ := parts_trimReversed l.before.reverse
  rw [List.reverse_reverse, String.ofList_toList, ← last?_text last,
    parts_before_append (last?_before last)] at whole
  rw [List.reverse_reverse] at front
  rw [whole, front, List.append_assoc, List.append_assoc]
  exact ⟨_, rfl⟩

theorem parent?_isPrefix {p above : String} (h : parent? p = some above) :
    above.toList <+: p.toList := by
  obtain ⟨l, last, rfl⟩ := Option.map_eq_some_iff.mp h
  have front : (trimReversed l.before.reverse).reverse <+: l.before := by
    have suffix := trimReversed_suffix l.before.reverse
    rwa [← List.reverse_prefix, List.reverse_reverse] at suffix
  have whole : (trimReversed p.toList.reverse).reverse <+: p.toList := by
    have suffix := trimReversed_suffix p.toList.reverse
    rwa [← List.reverse_prefix, List.reverse_reverse] at suffix
  rw [String.toList_ofList]
  refine front.trans (List.IsPrefix.trans ?_ whole)
  rw [← last?_text last]
  exact List.prefix_append _ _

theorem isAbsolute_parent? {p above : String} (h : parent? p = some above) (hne : above ≠ "") :
    isAbsolute p = isAbsolute above := by
  obtain ⟨rest, text⟩ := parent?_isPrefix h
  have front : above.toList ≠ [] := by simpa using hne
  rw [← String.ofList_toList (s := p), ← text, isAbsolute_append front, String.ofList_toList]

/-! ## Names in any directory, the empty path included -/

theorem join_empty (p : String) : join "" p = p := by simp [join]

theorem parts_join_name {name : String} (hname : IsName name) (directory : String) :
    parts (join directory name) = parts directory ++ [name] := by
  by_cases hdirectory : directory = ""
  · rw [hdirectory, join_empty, parts_name hname]
    rfl
  · exact parts_join hname hdirectory

theorem isAbsolute_join_name {name : String} (hname : IsName name) (directory : String) :
    isAbsolute (join directory name) = isAbsolute directory := by
  by_cases hdirectory : directory = ""
  · rw [hdirectory, join_empty, isAbsolute_name hname]
    rfl
  · exact isAbsolute_join hname hdirectory

theorem join_name_ne_empty {name : String} (hname : IsName name) (directory : String) :
    join directory name ≠ "" := by
  by_cases hdirectory : directory = ""
  · rw [hdirectory, join_empty]
    exact hname.ne_empty
  · exact join_ne_empty (isAbsolute_name hname) hdirectory

end Path

namespace Files

variable {f f' : Files} {base place q : Place} {p directory name : String}

/-! ## Places on the way -/

/-- Where a path leads, if it leads anywhere. -/
def destination (base : Place) (p : String) : Place := (Path.parts p).foldl enter (start base p)

/-- The places that a path leads through, its destination included. -/
def route (base : Place) (p : String) : List Place := (Path.parts p).scanl enter (start base p)

theorem enter_name (hname : Path.IsName name) (place : Place) :
    enter place name = place ++ [name] := by
  rw [enter, if_neg hname.ne_dot, if_neg hname.ne_dots]

theorem foldl_enter_names {names : List String} (h : ∀ name ∈ names, Path.IsName name)
    (place : Place) : names.foldl enter place = place ++ names := by
  induction names generalizing place with
  | nil => simp
  | cons name names ih =>
    rw [List.foldl_cons, enter_name (h name List.mem_cons_self),
      ih fun other mem => h other (List.mem_cons_of_mem _ mem), List.append_assoc]
    rfl

theorem mem_scanl_end (start : Place) (parts : List String) :
    parts.foldl enter start ∈ parts.scanl enter start := by
  induction parts generalizing start with
  | nil => simp
  | cons part parts ih =>
    rw [List.scanl_cons, List.foldl_cons]
    exact List.mem_cons_of_mem _ (ih _)

theorem mem_scanl_append {start : Place} {parts more : List String} :
    q ∈ (parts ++ more).scanl enter start ↔
      q ∈ parts.scanl enter start ∨ q ∈ more.scanl enter (parts.foldl enter start) := by
  rw [List.scanl_append, List.mem_append]
  have last := mem_scanl_end start parts
  cases more with
  | nil =>
    simp only [List.scanl_nil, List.tail_cons, List.not_mem_nil, or_false, List.mem_singleton]
    exact ⟨.inl, fun h => h.elim id fun same => same ▸ last⟩
  | cons part more =>
    rw [List.scanl_cons, List.tail_cons, List.mem_cons]
    refine ⟨fun h => h.imp_right .inr, fun h => ?_⟩
    rcases h with h | rfl | h
    · exact .inl h
    · exact .inl last
    · exact .inr h

theorem destination_mem_route (base : Place) (p : String) :
    destination base p ∈ route base p := mem_scanl_end _ _

/-- Parts lead to a directory if all places on the way are directories. -/
theorem follow_directory_iff {start : Place} {parts : List String} :
    (∃ place, f.follow start parts = .ok place ∧ f.entry? place = some .directory) ↔
      ∀ q ∈ parts.scanl enter start, f.entry? q = some .directory := by
  induction parts generalizing start with
  | nil => simp [follow]
  | cons part parts ih =>
    rw [List.scanl_cons, List.forall_mem_cons, ← ih]
    constructor
    · rintro ⟨place, followed, directory⟩
      rw [follow_cons] at followed
      split at followed
      · cases followed
      · cases followed
      · rename_i here
        exact ⟨here, place, followed, directory⟩
    · rintro ⟨here, place, followed, directory⟩
      refine ⟨place, ?_, directory⟩
      rw [follow_cons, here]
      exact followed

theorem locate_eq_destination (h : f.locate base p = .ok place) :
    place = destination base p :=
  follow_eq_foldl (locate_eq_ok_iff.mp h).2.1

/-- A path that leads somewhere leads there through directories. -/
theorem directory_of_located (h : f.locate base p = .ok place) (mem : q ∈ route base p) :
    q = destination base p ∨ f.entry? q = some .directory := by
  have followed := (locate_eq_ok_iff.mp h).2.1
  unfold route at mem
  unfold destination
  rcases List.eq_nil_or_concat (Path.parts p) with none | ⟨front, last, parts⟩
  · rw [none] at mem ⊢
    exact .inl (by simpa using mem)
  · rw [List.concat_eq_append] at parts
    rw [parts] at mem followed ⊢
    have last : q ∈ front.scanl enter (start base p) ∨
        q = (front ++ [last]).foldl enter (start base p) := by
      rw [mem_scanl_append, List.scanl_cons, List.scanl_nil, List.mem_cons,
        List.mem_singleton] at mem
      rw [List.foldl_append]
      rcases mem with mem | rfl | mem
      · exact .inl mem
      · exact .inl (mem_scanl_end _ _)
      · exact .inr mem
    rcases last with mem | rfl
    · refine .inr (follow_directory_iff.mp ?_ q mem)
      rw [follow_append] at followed
      cases up : f.follow (start base p) front with
      | error e =>
        rw [up] at followed
        cases followed
      | ok above =>
        rw [up] at followed
        simp only [Except.bind, follow_cons] at followed
        split at followed
        · cases followed
        · cases followed
        · rename_i directory
          exact ⟨above, rfl, directory⟩
    · exact .inl rfl

/-! ## Open paths -/

/-- All places on the route are directories. -/
def Open (f : Files) (base : Place) (p : String) : Prop :=
  ∀ q ∈ route base p, f.entry? q = some .directory

theorem find?_eq_directory_iff (hp : p ≠ "") :
    f.find? base p = some .directory ↔ f.Open base p := by
  rw [find?_directory_iff, follow_directory_iff]
  exact ⟨fun h => h.2, fun h => ⟨hp, h⟩⟩

theorem Open.destination (h : f.Open base p) :
    f.entry? (destination base p) = some .directory := h _ (destination_mem_route base p)

theorem Open.of_directories (h : f.Open base p)
    (kept : ∀ q ∈ route base p, f.entry? q = some .directory → f'.entry? q = some .directory) :
    f'.Open base p := fun q mem => kept q mem (h q mem)

theorem start_join (hname : Path.IsName name) (base : Place) (directory : String) :
    start base (Path.join directory name) = start base directory := by
  rw [start, start, Path.isAbsolute_join_name hname]

theorem destination_join (hname : Path.IsName name) (base : Place) (directory : String) :
    destination base (Path.join directory name) = destination base directory ++ [name] := by
  rw [destination, start_join hname, Path.parts_join_name hname, List.foldl_append,
    List.foldl_cons, List.foldl_nil, enter_name hname]
  rfl

theorem mem_route_join (hname : Path.IsName name) :
    q ∈ route base (Path.join directory name) ↔
      q ∈ route base directory ∨ q = destination base (Path.join directory name) := by
  have last := destination_mem_route base directory
  rw [destination_join hname, route, start_join hname, Path.parts_join_name hname,
    mem_scanl_append, List.scanl_cons, List.scanl_nil, enter_name hname, List.mem_cons,
    List.mem_singleton]
  refine ⟨fun h => h.elim .inl fun h => h.elim (fun here => .inl ?_) .inr,
    fun h => h.imp_right .inr⟩
  rw [here]
  exact last

theorem mem_scanl_names {names : List String} (h : ∀ name ∈ names, Path.IsName name) {top : Place} :
    q ∈ names.scanl enter top ↔ ∃ front, front <+: names ∧ q = top ++ front := by
  induction names generalizing top with
  | nil =>
    constructor
    · intro mem
      exact ⟨[], List.prefix_refl _, by simpa using mem⟩
    · rintro ⟨front, first, rfl⟩
      simp [List.prefix_nil.mp first]
  | cons name names ih =>
    rw [List.scanl_cons, List.mem_cons, ih fun other mem => h other (List.mem_cons_of_mem _ mem),
      enter_name (h name List.mem_cons_self)]
    constructor
    · rintro (rfl | ⟨front, first, rfl⟩)
      · exact ⟨[], List.nil_prefix, (List.append_nil _).symm⟩
      · exact ⟨name :: front, List.cons_prefix_cons.mpr ⟨rfl, first⟩, by simp⟩
    · rintro ⟨front, first, rfl⟩
      cases front with
      | nil => exact .inl (List.append_nil _)
      | cons other front =>
        obtain ⟨rfl, below⟩ := List.cons_prefix_cons.mp first
        exact .inr ⟨front, below, by simp⟩

/-! ### A path that goes down from a directory -/

section Relative

variable (hp : Path.isAbsolute p = false) (hdirectory : directory ≠ "")
  (names : ∀ name ∈ Path.parts p, Path.IsName name)

include hp hdirectory names

theorem destination_join_relative :
    destination base (Path.join directory p) = destination base directory ++ Path.parts p := by
  rw [destination, start, Path.isAbsolute_join_relative hp hdirectory,
    Path.parts_join_relative hp hdirectory, List.foldl_append, foldl_enter_names names]
  rfl

theorem mem_route_join_relative :
    q ∈ route base (Path.join directory p) ↔ q ∈ route base directory ∨
      ∃ front, front <+: Path.parts p ∧ q = destination base directory ++ front := by
  rw [route, start, Path.isAbsolute_join_relative hp hdirectory,
    Path.parts_join_relative hp hdirectory, mem_scanl_append, mem_scanl_names names]
  rfl

end Relative

theorem Open.locate (h : f.Open base directory) (hname : Path.IsName name) :
    f.locate base (Path.join directory name) =
      .ok (Files.destination base directory ++ [name]) := by
  obtain ⟨place, followed, here⟩ := follow_directory_iff.mpr h
  have same := follow_eq_foldl followed
  refine locate_eq_ok_iff.mpr ⟨Path.join_name_ne_empty hname directory, ?_, fun ends => ?_⟩
  · rw [start_join hname, Path.parts_join_name hname, follow_append, followed]
    simp only [Except.bind, follow_cons, here, enter_name hname]
    rw [same]
    rfl
  · have slash : (Path.join directory name).endsWith "/" = false := by
      by_cases hdirectory : directory = ""
      · rw [hdirectory, Path.join_empty, Bool.eq_false_iff, Ne, Path.endsWith_slash_iff]
        exact fun suffix => hname.no_slash (suffix.subset List.mem_cons_self)
      · exact Path.endsWith_join hname hdirectory
    rw [slash] at ends
    cases ends

/-! ## Leaving a directory -/

theorem prefix_dropLast {top place : Place} (h : top <+: place) (hne : top ≠ place) :
    top <+: place.dropLast := by
  obtain ⟨rest, rfl⟩ := h
  have more : rest ≠ [] := by
    rintro rfl
    exact hne (List.append_nil top).symm
  rw [List.dropLast_append_of_ne_nil more]
  exact List.prefix_append _ _

/-- The only way out of a directory is through it. -/
theorem mem_scanl_of_leaves {top start : Place} {parts : List String} (inside : top <+: start)
    (outside : ¬ top <+: parts.foldl enter start) : top ∈ parts.scanl enter start := by
  induction parts generalizing start with
  | nil => exact absurd inside outside
  | cons part parts ih =>
    rw [List.scanl_cons]
    by_cases here : top = start
    · exact here ▸ List.mem_cons_self
    · refine List.mem_cons_of_mem _ (ih ?_ outside)
      unfold enter
      split
      · exact inside
      · split
        · exact prefix_dropLast inside here
        · exact inside.trans (List.prefix_append _ _)

theorem mem_scanl_of_within {top start : Place} {parts : List String}
    (mem : q ∈ parts.scanl enter start) (inside : top <+: q)
    (outside : ¬ top <+: parts.foldl enter start) : top ∈ parts.scanl enter start := by
  induction parts generalizing start with
  | nil =>
    obtain rfl : q = start := by simpa using mem
    exact absurd inside outside
  | cons part parts ih =>
    rw [List.scanl_cons, List.mem_cons] at mem
    rcases mem with rfl | mem
    · exact mem_scanl_of_leaves inside outside
    · rw [List.scanl_cons]
      exact List.mem_cons_of_mem _ (ih mem outside)

/-- A route that ends in a directory and does not pass an entry of it has no place below it. -/
theorem not_within_of_notMem_route (h : destination base directory ++ [name] ∉ route base directory)
    (mem : q ∈ route base directory) : ¬ destination base directory ++ [name] <+: q := by
  intro inside
  refine h (mem_scanl_of_within mem inside fun long => ?_)
  have := long.length_le
  rw [List.length_append] at this
  exact absurd this (Nat.not_succ_le_self _)

/-! ## Making directories -/

theorem route_parent? {above : String} (h : Path.parent? p = some above) (hne : above ≠ "")
    (mem : q ∈ route base above) : q ∈ route base p := by
  obtain ⟨more, parts⟩ := Path.parts_parent? h
  rw [route, start, Path.isAbsolute_parent? h hne, parts, List.scanl_append]
  exact List.mem_append_left _ mem

theorem makeUpTo_empty {fuel : Nat} (h : makeUpTo base fuel f "" = .ok f') : f' = f := by
  cases fuel with
  | zero => cases h
  | succ fuel =>
    rw [makeUpTo] at h
    cases h
    rfl

/-- What making one directory on the route preserves, making all that are missing does. -/
theorem makeUpTo_preserves {P : Files → Prop} {fuel : Nat} {f f' : Files} {p : String}
    (step : ∀ {f f' : Files} {p' : String}, (∀ q ∈ route base p', q ∈ route base p) → P f →
      f.makeDirectory base p' = .ok f' → P f')
    (hf : P f) (h : makeUpTo base fuel f p = .ok f') : P f' := by
  have whole {f f' : Files} (hf : P f) (made : f.makeDirectory base p = .ok f') : P f' :=
    step (fun _ mem => mem) hf made
  induction fuel generalizing f p f' with
  | zero => cases h
  | succ fuel ih =>
    rw [makeUpTo] at h
    split at h
    · cases h
      exact hf
    · split at h
      · rename_i made
        cases h
        exact whole hf made
      · split at h
        · cases h
        · rename_i above parent
          split at h
          · cases h
          · rename_i f₁ below
            have first : P f₁ := by
              by_cases hne : above = ""
              · rw [hne] at below
                rwa [makeUpTo_empty below]
              · have up (q : Place) (mem : q ∈ route base above) : q ∈ route base p :=
                  route_parent? parent hne mem
                exact ih (fun on => step fun q mem => up q (on q mem)) hf below
                  fun hf made => step up hf made
            split at h
            · rename_i made
              cases h
              exact whole first made
            · split at h
              · cases h
                exact first
              · cases h
      · split at h
        · cases h
          exact hf
        · cases h

theorem makeDirectories_off_route (h : f.makeDirectories base p = .ok f')
    (off : q ∉ route base p) : f'.entry? q = f.entry? q := by
  refine makeUpTo_preserves (P := fun f₁ => f₁.entry? q = f.entry? q) ?_ rfl h
  intro f₁ f₂ p' on same made
  obtain ⟨place, located, -, rfl⟩ := makeDirectory_eq_ok made
  have other : q ≠ place := by
    rintro rfl
    rw [locate_eq_destination located] at off
    exact off (on _ (destination_mem_route base p'))
  rw [entry?_put_ne f₁ other, same]

theorem makeDirectories_open (h : f.makeDirectories base p = .ok f') (hp : p ≠ "") :
    f'.Open base p := (find?_eq_directory_iff hp).mp (find?_of_makeDirectories h hp)

theorem makeDirectories_no_file (h : f.makeDirectories base p = .ok f') (hp : p ≠ "")
    (mem : q ∈ route base p) (content : Bytes) (mode : Nat) :
    f.entry? q ≠ some (.file content mode) := by
  intro file
  have kept := (makeDirectories_grows h).entry file
  rw [makeDirectories_open h hp q mem] at kept
  cases kept

end Files

end LiveSound
