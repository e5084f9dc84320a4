import LiveSound.Proofs.World.Routes

/-!
# Files that are removed and moved

What stands where after a tree was removed or got another name, and that a tree in which everything
stands in a directory stays so under every operation.
-/

namespace LiveSound.Files

variable {f f' : Files} {base place source target q : Place} {p p' : String}

/-! ## Trees that go -/

theorem isWithin_iff {top place : Place} : isWithin top place = true ↔ top <+: place :=
  List.isPrefixOf_iff_prefix

theorem entry?_drop_within (hq : q ≠ []) (inside : place <+: q) :
    entry? (f.drop place) q = none := by
  have empty : q.isEmpty = false := by simpa using hq
  rw [ entry?, empty, drop]
  refine Keyed.lookup_eq_none_iff.mpr fun mem => ?_
  obtain ⟨e, kept, rfl⟩ := List.mem_map.mp mem
  have outside := (List.mem_filter.mp kept).2
  rw [isWithin_iff.mpr inside] at outside
  cases outside

theorem entry?_drop_other (outside : ¬ place <+: q) :
    entry? (f.drop place) q = f.entry? q := by
  let stays (place' : Place) : Bool := !isWithin place place'
  have here : stays q = true := by
    rw [Bool.not_eq_true', Bool.eq_false_iff, Ne, isWithin_iff]
    exact outside
  have same : (f.entries.filter fun e => stays e.1).lookup q = f.entries.lookup q :=
    Keyed.lookup_filter_key here
  rw [ entry?, entry?, drop, same]

/-! ## Trees with another name -/

theorem lookup_moved (entries : List (Place × Entry)) (source target rest : Place) :
    ((entries.filter fun e => isWithin source e.1).map
      fun e => (target ++ e.1.drop source.length, e.2)).lookup (target ++ rest) =
      entries.lookup (source ++ rest) := by
  induction entries with
  | nil => rfl
  | cons e entries ih =>
    by_cases inside : source <+: e.1
    · obtain ⟨below, here⟩ := inside
      have kept : isWithin source e.1 = true := isWithin_iff.mpr ⟨below, here⟩
      have same : (target ++ rest == target ++ below) = (source ++ rest == source ++ below) := by
        rw [Bool.eq_iff_iff, beq_iff_eq, beq_iff_eq, List.append_cancel_left_eq,
          List.append_cancel_left_eq]
      rw [List.filter_cons_of_pos (by exact kept), List.map_cons, List.lookup_cons,
        List.lookup_cons, ih, ← here, List.drop_left, same]
    · have gone : ¬ isWithin source e.1 = true := fun within => inside (isWithin_iff.mp within)
      have other : (source ++ rest == e.1) = false := by
        rw [beq_eq_false_iff_ne]
        rintro same
        exact inside ⟨rest, same⟩
      rw [List.filter_cons_of_neg (by exact gone), ih, List.lookup_cons, other]

theorem entry?_move (hplace : q ≠ []) :
    entry? (f.move source target) q =
      (((f.entries.filter fun e => isWithin source e.1).map
        fun e => (target ++ e.1.drop source.length, e.2)).lookup q).or
        ( entry? ((f.drop source).drop target) q) := by
  have empty : q.isEmpty = false := by simpa using hplace
  rw [ entry?, entry?, empty, move]
  simp only [Bool.false_eq_true, if_false]
  rw [List.lookup_append]

/-- A tree under its new name. -/
theorem entry?_move_target (hsource : source ≠ []) (htarget : target ≠ []) (rest : Place) :
    entry? (f.move source target) (target ++ rest) = f.entry? (source ++ rest) := by
  have empty : (source ++ rest).isEmpty = false := by simp [hsource]
  have ne : target ++ rest ≠ [] := by simp [htarget]
  rw [entry?_move ne, lookup_moved, entry?_drop_within ne (List.prefix_append target rest),
    Option.or_none, entry?, empty]
  rfl

theorem entry?_move_off_target (hq : q ≠ []) (off : ¬ target <+: q) :
    entry? (f.move source target) q = entry? (f.drop source) q := by
  have none : ((f.entries.filter fun e => isWithin source e.1).map
      fun e => (target ++ e.1.drop source.length, e.2)).lookup q = none := by
    refine Keyed.lookup_eq_none_iff.mpr fun mem => off ?_
    rw [List.map_map, List.mem_map] at mem
    obtain ⟨e, -, rfl⟩ := mem
    exact List.prefix_append _ _
  rw [entry?_move hq, none, Option.none_or, entry?_drop_other off]

/-- Nothing is left under the old name. -/
theorem entry?_move_source (hsource : source ≠ []) (off : ¬ target <+: q) (inside : source <+: q) :
    entry? (f.move source target) q = none := by
  have hq : q ≠ [] := by
    rintro rfl
    exact hsource (List.prefix_nil.mp inside)
  rw [entry?_move_off_target hq off, entry?_drop_within hq inside]

theorem entry?_move_other (off : ¬ target <+: q) (outside : ¬ source <+: q) :
    entry? (f.move source target) q = f.entry? q := by
  by_cases hq : q = []
  · subst hq
    rfl
  · rw [entry?_move_off_target hq off, entry?_drop_other outside]

/-! ## Operations that succeeded -/

theorem removeTree_eq_ok (h : f.removeTree base p = .ok f') :
    f' = f.drop (destination base p) := by
  unfold removeTree at h
  split at h
  · cases h
  · rename_i place located
    rw [← locate_eq_destination located]
    split at h
    · cases h
    · cases h
    · cases h
      rfl

/-- A file stands where it was written, and everything else is as it was. -/
theorem write_entries {content : Bytes} (written : f.write base p content = .ok f') :
    f.entry? (destination base p) ≠ some .directory ∧
      (∃ mode, f'.entry? (destination base p) = some (.file content mode)) ∧
      ∀ q, q ≠ destination base p → f'.entry? q = f.entry? q := by
  obtain ⟨place, mode, located, -, free, rfl⟩ := write_eq_ok written
  rw [← locate_eq_destination located]
  exact ⟨free, ⟨mode, entry?_put_self f (ne_nil_of_not_directory free) _⟩,
    fun q other => entry?_put_ne f other _⟩

theorem setMode_eq_ok {mode : Nat} (h : f.setMode base p mode = .ok f') :
    (∃ content old, f.entry? (destination base p) = some (.file content old) ∧
        f' = f.put (destination base p) (.file content mode)) ∨
      (f.entry? (destination base p) = some .directory ∧ f' = f) := by
  unfold setMode at h
  split at h
  · cases h
  · rename_i place located
    rw [← locate_eq_destination located]
    split at h
    · rename_i content old file
      cases h
      exact .inl ⟨content, old, file, rfl⟩
    · rename_i directory
      cases h
      exact .inr ⟨directory, rfl⟩
    · cases h

theorem setMode_entries {content : Bytes} {old mode : Nat}
    (file : f.entry? (destination base p) = some (.file content old))
    (set : f.setMode base p mode = .ok f') :
    f'.entry? (destination base p) = some (.file content mode) ∧
      ∀ q, q ≠ destination base p → f'.entry? q = f.entry? q := by
  rcases setMode_eq_ok set with ⟨_, _, there, rfl⟩ | ⟨directory, -⟩
  · rw [file] at there
    cases there
    have hplace : destination base p ≠ [] :=
      ne_nil_of_not_directory (f := f) (by simp [file])
    exact ⟨entry?_put_self f hplace _, fun q other => entry?_put_ne f other _⟩
  · rw [file] at directory
    cases directory

/-- What is renamed is moved, unless it has the name already. What is no directory never takes the
place of one. -/
theorem rename_eq_ok (h : f.rename base p p' = .ok f') :
    (destination base p = destination base p' ∧ f' = f) ∨
      (f' = f.move (destination base p) (destination base p') ∧
        (f.entry? (destination base p) ≠ some .directory →
          f.entry? (destination base p') ≠ some .directory)) := by
  unfold rename at h
  split at h
  · cases h
  · cases h
  · rename_i source target located located'
    rw [← locate_eq_destination located, ← locate_eq_destination located']
    split at h
    case h_1 | h_2 | h_3 => cases h
    case h_4 free =>
      split at h
      · cases h
      · split at h
        · cases h
          exact .inr ⟨rfl, fun _ => by simp [free]⟩
        · cases h
    case h_5 free =>
      split at h
      · cases h
      · split at h
        · cases h
          exact .inr ⟨rfl, fun _ => by simp [free]⟩
        · cases h
    case h_6 file =>
      split at h
      · rename_i same
        cases h
        exact .inl ⟨same, rfl⟩
      · cases h
        exact .inr ⟨rfl, fun _ => by simp [file]⟩
    case h_7 directory _ =>
      split at h
      · rename_i same
        cases h
        exact .inl ⟨same, rfl⟩
      · split at h
        · cases h
        · split at h
          · cases h
          · cases h
            exact .inr ⟨rfl, fun other => absurd directory other⟩

theorem rename_of_ne (hne : destination base p ≠ destination base p')
    (h : f.rename base p p' = .ok f') :
    f' = f.move (destination base p) (destination base p') ∧
      (f.entry? (destination base p) ≠ some .directory →
        f.entry? (destination base p') ≠ some .directory) := by
  rcases rename_eq_ok h with ⟨same, -⟩ | moved
  · exact absurd same hne
  · exact moved

/-! ## Trees that are grounded -/

theorem Grounded.empty_within (h : f.Grounded) (hplace : f.entry? place ≠ some .directory)
    {rest : List String} (hrest : rest ≠ []) : f.entry? (place ++ rest) = none := by
  rw [Option.eq_none_iff_forall_ne_some]
  exact fun e entry => hplace (h.above hrest entry)

theorem Grounded.not_within (h : f.Grounded) (hplace : f.entry? place ≠ some .directory)
    (directory : f.entry? q = some .directory) : ¬ place <+: q := by
  rintro ⟨rest, rfl⟩
  by_cases hrest : rest = []
  · rw [hrest, List.append_nil] at directory
    exact hplace directory
  · rw [h.empty_within hplace hrest] at directory
    cases directory

theorem Grounded.put (h : f.Grounded) {e : Entry}
    (above : f.entry? place.dropLast = some .directory)
    (keeps : e = .directory ∨ f.entry? place ≠ some .directory) : (f.put place e).Grounded := by
  intro other e' entry ne
  by_cases hplace : place = []
  · subst hplace
    have rest (q : Place) : entry? (f.put [] e) q = f.entry? q := by
      by_cases root : q = []
      · subst root
        rfl
      · exact entry?_put_ne f root e
    rw [rest] at entry ⊢
    exact h other e' entry ne
  · have up : place.dropLast ≠ place := by
      intro same
      have := congrArg List.length same
      rw [List.length_dropLast] at this
      have := List.length_pos_iff.mpr hplace
      omega
    by_cases here : other = place
    · rw [here, entry?_put_ne f up, above]
    · rw [entry?_put_ne f here] at entry
      have parent := h other e' entry ne
      by_cases child : other.dropLast = place
      · rw [child] at parent ⊢
        rcases keeps with rfl | free
        · exact entry?_put_self f hplace _
        · exact absurd parent free
      · rw [entry?_put_ne f child, parent]

theorem Grounded.drop (h : f.Grounded) (place : Place) : (f.drop place).Grounded := by
  intro other e entry ne
  have outside : ¬ place <+: other := by
    intro inside
    rw [entry?_drop_within ne inside] at entry
    cases entry
  rw [entry?_drop_other outside] at entry
  rw [entry?_drop_other fun inside => outside (inside.trans (List.dropLast_prefix other))]
  exact h other e entry ne

theorem Grounded.move (h : f.Grounded) (hsource : source ≠ []) (htarget : target ≠ [])
    (above : f.entry? target.dropLast = some .directory) (apart : ¬ source <+: target.dropLast) :
    (f.move source target).Grounded := by
  intro other e entry ne
  by_cases inside : target <+: other
  · obtain ⟨rest, rfl⟩ := inside
    rw [entry?_move_target hsource htarget] at entry
    by_cases hrest : rest = []
    · have up : ¬ target <+: target.dropLast := by
        intro long
        have := long.length_le
        rw [List.length_dropLast] at this
        have := List.length_pos_iff.mpr htarget
        omega
      rw [hrest, List.append_nil, entry?_move_other up apart, above]
    · have parent := h _ e entry (by simp [hsource])
      rw [List.dropLast_append_of_ne_nil hrest] at parent ⊢
      rw [entry?_move_target hsource htarget, parent]
  · have outside : ¬ source <+: other := by
      intro within
      rw [entry?_move_source hsource inside within] at entry
      cases entry
    rw [entry?_move_other inside outside] at entry
    rw [entry?_move_other (fun within => inside (within.trans (List.dropLast_prefix other)))
      fun within => outside (within.trans (List.dropLast_prefix other))]
    exact h other e entry ne

theorem Grounded.makeDirectory (h : f.Grounded) (made : f.makeDirectory base p = .ok f') :
    f'.Grounded := by
  unfold Files.makeDirectory at made
  split at made
  · cases made
  · split at made
    · cases made
    · split at made
      · rename_i above
        cases made
        exact h.put above (.inl rfl)
      · cases made
      · cases made

theorem Grounded.makeDirectories (h : f.Grounded) (made : f.makeDirectories base p = .ok f') :
    f'.Grounded := makeUpTo_preserves (fun _ grounded one => grounded.makeDirectory one) h made

theorem Grounded.write (h : f.Grounded) {content : Bytes}
    (written : f.write base p content = .ok f') : f'.Grounded := by
  unfold Files.write at written
  split at written
  · cases written
  · split at written
    · rename_i place _ _ old mode file
      cases written
      have hplace : place ≠ [] := by
        rintro rfl
        cases file
      exact h.put (h place _ file hplace) (.inr (by simp [file]))
    · cases written
    · rename_i empty
      split at written
      · cases written
      · split at written
        · rename_i above
          cases written
          exact h.put above (.inr (by simp [empty]))
        · cases written
        · cases written

theorem Grounded.setMode (h : f.Grounded) {mode : Nat} (set : f.setMode base p mode = .ok f') :
    f'.Grounded := by
  rcases setMode_eq_ok set with ⟨content, old, file, rfl⟩ | ⟨-, rfl⟩
  · have hplace : destination base p ≠ [] := by
      intro root
      rw [root] at file
      cases file
    exact h.put (h _ _ file hplace) (.inr (by simp [file]))
  · exact h

/-! ## Changes below a place -/

/-- Only what is at a place and below it changes, and directories stay. -/
structure Below (top : Place) (f f' : Files) : Prop where
  outside : ∀ q, ¬ top <+: q → f'.entry? q = f.entry? q
  directory : ∀ q, f.entry? q = some .directory → f'.entry? q = some .directory
  grounded : f.Grounded → f'.Grounded

theorem Below.refl (top : Place) (f : Files) : Below top f f := ⟨fun _ _ => rfl, fun _ => id, id⟩

theorem Below.trans {top : Place} {f'' : Files} (h : Below top f f') (h' : Below top f' f'') :
    Below top f f'' where
  outside q off := (h'.outside q off).trans (h.outside q off)
  directory q there := h'.directory q (h.directory q there)
  grounded there := h'.grounded (h.grounded there)

theorem below_put {top : Place} {e : Entry} (inside : top <+: place)
    (free : f.entry? place ≠ some .directory) (grounded : f.Grounded → (f.put place e).Grounded) :
    Below top f (f.put place e) where
  outside q off := by
    refine entry?_put_ne f ?_ e
    rintro rfl
    exact off inside
  directory q there := by
    rwa [entry?_put_ne f]
    rintro rfl
    exact free there
  grounded := grounded

theorem below_write {top : Place} {content : Bytes} (inside : top <+: destination base p)
    (written : f.write base p content = .ok f') : Below top f f' := by
  have grounded := fun h : f.Grounded => h.write written
  obtain ⟨place, mode, located, -, free, rfl⟩ := write_eq_ok written
  rw [← locate_eq_destination located] at inside
  exact below_put inside free grounded

theorem below_setMode {top : Place} {mode : Nat} (inside : top <+: destination base p)
    (set : f.setMode base p mode = .ok f') : Below top f f' := by
  have grounded := fun h : f.Grounded => h.setMode set
  rcases setMode_eq_ok set with ⟨content, old, file, rfl⟩ | ⟨-, rfl⟩
  · exact below_put inside (by simp [file]) grounded
  · exact .refl _ _

end LiveSound.Files
