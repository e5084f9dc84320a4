import LiveSound.Text.Blank

/-!
# Texts made of lines

A text that is put together from lines, each with a newline at its end, is taken apart into the
same lines; only a carriage return at the end of a line is lost.
-/

namespace LiveSound.Text

@[simp] theorem pieces_nil (mark : Char) : pieces mark [] = [[]] := rfl

theorem pieces_cons (mark c : Char) (cs : List Char) :
    pieces mark (c :: cs) =
      if c = mark then [] :: pieces mark cs
      else
        match pieces mark cs with
        | piece :: rest => (c :: piece) :: rest
        | [] => [[c]] :=
  rfl

theorem pieces_ne_nil (mark : Char) (cs : List Char) : pieces mark cs ≠ [] := by
  cases cs with
  | nil => simp
  | cons c cs =>
    rw [pieces_cons]
    split
    · simp
    · split <;> simp

theorem pieces_append (mark : Char) (before after : List Char) :
    pieces mark (before ++ mark :: after) = pieces mark before ++ pieces mark after := by
  induction before with
  | nil => simp [pieces_cons]
  | cons c before ih =>
    rw [List.cons_append, pieces_cons, pieces_cons, ih]
    by_cases hc : c = mark
    · simp [hc]
    · obtain ⟨piece, rest, hpieces⟩ := List.exists_cons_of_ne_nil (pieces_ne_nil mark before)
      simp [hc, hpieces]

theorem pieces_of_notMem {mark : Char} {cs : List Char} (h : mark ∉ cs) :
    pieces mark cs = [cs] := by
  induction cs with
  | nil => rfl
  | cons c cs ih =>
    have hc : c ≠ mark := fun heq => h (heq ▸ List.mem_cons_self)
    rw [pieces_cons, if_neg hc, ih fun hmem => h (List.mem_cons_of_mem c hmem)]

theorem notMem_of_mem_pieces {mark : Char} {cs piece : List Char} (h : piece ∈ pieces mark cs) :
    mark ∉ piece := by
  induction cs generalizing piece with
  | nil => simp_all
  | cons c cs ih =>
    obtain ⟨first, rest, hpieces⟩ := List.exists_cons_of_ne_nil (pieces_ne_nil mark cs)
    rw [pieces_cons, hpieces] at h
    rw [hpieces] at ih
    by_cases hc : c = mark
    · rcases List.mem_cons.mp (if_pos hc ▸ h) with rfl | hmem
      · exact List.not_mem_nil
      · exact ih hmem
    · rcases List.mem_cons.mp (if_neg hc ▸ h) with rfl | hmem
      · exact List.not_mem_cons_of_ne_of_not_mem (Ne.symm hc) (ih List.mem_cons_self)
      · exact ih (List.mem_cons_of_mem first hmem)

theorem newline_notMem_of_mem_splitLines {cs line : List Char} (h : line ∈ splitLines cs) :
    '\n' ∉ line :=
  notMem_of_mem_pieces h

theorem splitLines_eq_splitOn (cs : List Char) : splitLines cs = cs.splitOn '\n' := by
  induction cs with
  | nil => rfl
  | cons c cs ih =>
    rw [splitLines] at ih ⊢
    obtain ⟨first, rest, hpieces⟩ := List.exists_cons_of_ne_nil (pieces_ne_nil '\n' cs)
    rw [List.splitOn_cons_eq_if_modifyHead, ← ih, pieces_cons, hpieces]
    by_cases hc : c = '\n' <;> simp [hc]

/-! ## Lines with their ends -/

def endedChars : List (List Char) → List Char
  | [] => []
  | line :: rest => line ++ '\n' :: endedChars rest

theorem splitLines_endedChars {lines : List (List Char)} (whole : ∀ line ∈ lines, '\n' ∉ line) :
    splitLines (endedChars lines) = lines ++ [[]] := by
  induction lines with
  | nil => rfl
  | cons line rest ih =>
    have first : pieces '\n' line = [line] := pieces_of_notMem (whole line List.mem_cons_self)
    have others := ih fun line hline => whole line (List.mem_cons_of_mem _ hline)
    rw [splitLines] at others
    rw [splitLines, endedChars, pieces_append, first, others]
    rfl

theorem lineChars_endedChars {lines : List (List Char)} (whole : ∀ line ∈ lines, '\n' ∉ line) :
    lineChars (endedChars lines) = lines.map dropReturn := by
  rw [lineChars, splitLines_endedChars whole, List.reverse_append]
  simp

theorem dropReturn_eq (line : List Char) :
    dropReturn line = if line.getLast? = some '\r' then line.dropLast else line := by
  rcases List.eq_nil_or_concat line with rfl | ⟨start, last, rfl⟩
  · rfl
  · unfold dropReturn
    by_cases hlast : last = '\r'
    · simp [hlast]
    · simp [hlast]

/-! ## Characters of lines -/

variable {p : Char → Bool}

theorem all_pieces {mark : Char} (hmark : p mark = true) (cs : List Char) :
    (pieces mark cs).all (·.all p) = cs.all p := by
  induction cs with
  | nil => rfl
  | cons c cs ih =>
    obtain ⟨first, rest, hpieces⟩ := List.exists_cons_of_ne_nil (pieces_ne_nil mark cs)
    rw [hpieces, List.all_cons] at ih
    rw [pieces_cons, hpieces, List.all_cons, ← ih]
    by_cases hc : c = mark
    · rw [if_pos hc, hc, hmark]
      rfl
    · rw [if_neg hc, List.all_cons, List.all_cons, Bool.and_assoc]

theorem all_dropReturn (hreturn : p '\r' = true) (line : List Char) :
    (dropReturn line).all p = line.all p := by
  rcases List.eq_nil_or_concat line with rfl | ⟨start, last, rfl⟩
  · rfl
  · rw [dropReturn_eq]
    split
    · rename_i returned
      obtain rfl : last = '\r' := by simpa using returned
      simp [hreturn]
    · rfl

/-- What holds of the ends of lines holds of a whole text if it does of its lines. -/
theorem all_lineChars (hnewline : p '\n' = true) (hreturn : p '\r' = true) (cs : List Char) :
    (lineChars cs).all (·.all p) = cs.all p := by
  have same : ((·.all p) ∘ dropReturn) = (·.all p) := funext (all_dropReturn hreturn)
  obtain ⟨ended, last, split⟩ :=
    (List.eq_nil_or_concat (splitLines cs)).resolve_left (pieces_ne_nil '\n' cs)
  have whole := all_pieces hnewline cs
  rw [← splitLines, split] at whole
  rw [← whole, lineChars, split]
  cases last <;> simp [List.all_map, same]

theorem allBlank_iff_lines (s : String) :
    allBlank s = true ↔ ∀ line ∈ lines s, allBlank line = true := by
  rw [allBlank, ← all_lineChars rfl rfl, List.all_eq_true, lines, List.forall_mem_map]
  simp only [allBlank, String.toList_ofList]

end LiveSound.Text
