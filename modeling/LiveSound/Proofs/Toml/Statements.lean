import LiveSound.Data.Access
import LiveSound.Proofs.Toml.Values

/-!
# Written documents are read as their statements

The lines of a document are headers, assignments and empty lines. `Reads` says that a text is read
as some statements with any fuel that is enough for its length, so that a line can be put before it.
-/

namespace LiveSound.Toml

/-- Names that need no quotes. -/
def IsBareName (name : String) : Prop := name.toList ≠ [] ∧ ∀ c ∈ name.toList, isBare c = true

instance (name : String) : Decidable (IsBareName name) :=
  decidable_of_iff ((!name.toList.isEmpty && name.toList.all isBare) = true)
    (by simp [IsBareName])

def Section.written (s : Section) : List (String × Data) := s.members.filter fun m => !m.2.isNull

def assignment (m : String × Data) : Statement := .assign ⟨[], m.1⟩ m.2

def Section.statements (s : Section) : List Statement :=
  .table ⟨[], s.name⟩ :: s.written.map assignment

/-- Sections whose names and values can be written as they are. -/
structure Section.IsPlain (s : Section) : Prop where
  name : IsBareName s.name
  names : ∀ m ∈ s.members, IsBareName m.1
  values : ∀ m ∈ s.written, IsWritable m.2

/-- A bare name begins with none of the characters that mean something else. -/
theorem IsBareName.start {name : String} (hname : IsBareName name) {d : Char}
    (hd : isBare d = false) (rest tail : List Char) : name.toList ++ rest ≠ d :: tail := by
  obtain ⟨hne, hbare⟩ := hname
  obtain ⟨c, cs, hcs⟩ := List.exists_cons_of_ne_nil hne
  intro heq
  rw [hcs] at heq
  exact ne_of_kind (hbare c (by rw [hcs]; exact List.mem_cons_self)) hd (List.cons.inj heq).1

/-! ## Keys -/

theorem name?_bare {name : String} (hname : IsBareName name) {c : Char} (hc : isBare c = false)
    (rest : List Char) : name? (name.toList ++ c :: rest) = some (name, c :: rest) := by
  have hbare := hname.2
  have htake : (name.toList ++ c :: rest).takeWhile isBare = name.toList := by
    rw [List.takeWhile_append_of_pos hbare]
    simp [hc]
  have hdrop : (name.toList ++ c :: rest).dropWhile isBare = c :: rest := by
    rw [List.dropWhile_append_of_pos hbare]
    simp [hc]
  unfold name?
  split
  case h_1 heq => exact (hname.start rfl _ _ heq).elim
  case h_2 heq => exact (hname.start rfl _ _ heq).elim
  case h_3 =>
    simp only [htake, hdrop]
    rw [if_neg (by simpa using hname.1), String.ofList_toList]

theorem skipBlank_bare {name : String} (hname : IsBareName name) (rest : List Char) :
    skipBlank (name.toList ++ rest) = name.toList ++ rest := by
  obtain ⟨hne, hbare⟩ := hname
  obtain ⟨c, cs, hcs⟩ := List.exists_cons_of_ne_nil hne
  have hc := hbare c (by rw [hcs]; exact List.mem_cons_self)
  rw [hcs]
  exact skipBlank_start (isBlank_of_kind hc rfl rfl) _

/-- A name that is a whole key, up to what is neither a blank nor a point. -/
theorem key?_bare {name : String} (hname : IsBareName name) {c : Char} (hc : isBare c = false)
    {rest : List Char} {d : Char} {tail : List Char} (hskip : skipBlank (c :: rest) = d :: tail)
    (hd : d ≠ '.') : key? (name.toList ++ c :: rest) = some (⟨[], name⟩, d :: tail) := by
  have hnames (fuel : Nat) :
      names? (fuel + 1) (name.toList ++ c :: rest) = some ([name], d :: tail) := by
    rw [names?, skipBlank_bare hname, name?_bare hname hc]
    simp only [Option.bind_eq_bind, Option.bind_some, hskip]
    split
    · simp_all
    · rfl
  unfold key?
  rw [show nestingLimit - 1 = 78 + 1 from rfl, hnames]
  rfl

/-! ## Lines -/

def Reads (cs : List Char) (statements : List Statement) : Prop :=
  ∀ fuel, cs.length < fuel → statements? fuel cs = some statements

theorem Reads.nil : Reads [] [] := by
  intro fuel hfuel
  cases fuel with
  | zero => cases hfuel
  | succ fuel => rfl

variable {cs : List Char} {statements : List Statement}

theorem Reads.emptyLine (h : Reads cs statements) : Reads ('\n' :: cs) statements := by
  intro fuel hfuel
  cases fuel with
  | zero => cases hfuel
  | succ fuel =>
    rw [statements?, skipBlank_start (by decide)]
    exact h fuel (by simp at hfuel; omega)

theorem lineEnd?_newline (cs : List Char) : lineEnd? ('\n' :: cs) = some cs := by
  rw [lineEnd?, skipBlank_start (by decide)]
  rfl

theorem Reads.header {name : String} (hname : IsBareName name) (h : Reads cs statements) :
    Reads ('[' :: (name.toList ++ ']' :: '\n' :: cs)) (.table ⟨[], name⟩ :: statements) := by
  intro fuel hfuel
  cases fuel with
  | zero => cases hfuel
  | succ fuel =>
    have hkey : key? (name.toList ++ ']' :: '\n' :: cs) = some (⟨[], name⟩, ']' :: '\n' :: cs) :=
      key?_bare hname (by decide) (skipBlank_start (by decide) _) (by decide)
    have hheader : header? (name.toList ++ ']' :: '\n' :: cs) =
        some (.table ⟨[], name⟩, cs) := by
      unfold header?
      split
      case h_1 heq => exact (hname.start rfl _ _ heq).elim
      case h_2 =>
        rw [hkey]
        simp [lineEnd?_newline]
    rw [statements?, skipBlank_start (by decide)]
    simp only [hheader, Option.bind_eq_bind, Option.bind_some]
    rw [h fuel (by simp at hfuel; omega)]
    rfl

theorem listChars_start (items : List (List Char)) : ∃ tail, listChars items = '[' :: tail := by
  unfold listChars
  split <;> exact ⟨_, rfl⟩

theorem valueChars_start {d : Data} (hd : IsWritable d) :
    ∃ c tail, valueChars d = c :: tail ∧ isBlank c = false := by
  rcases hd with hd | ⟨items, rfl, -⟩
  · obtain ⟨c, tail, htext, hc⟩ := scalarChars_start hd
    exact ⟨c, tail, (valueChars_scalar hd).trans htext, isBlank_of_kind hc rfl rfl⟩
  · obtain ⟨tail, htext⟩ := listChars_start (items.map scalarChars)
    exact ⟨'[', tail, htext, rfl⟩

theorem Reads.assignment {name : String} {d : Data} (hname : IsBareName name) (hd : IsWritable d)
    (h : Reads cs statements) :
    Reads (name.toList ++ ' ' :: '=' :: ' ' :: (valueChars d ++ '\n' :: cs))
      (.assign ⟨[], name⟩ d :: statements) := by
  intro fuel hfuel
  cases fuel with
  | zero => cases hfuel
  | succ fuel =>
    have hkey : key? (name.toList ++ ' ' :: '=' :: ' ' :: (valueChars d ++ '\n' :: cs)) =
        some (⟨[], name⟩, '=' :: ' ' :: (valueChars d ++ '\n' :: cs)) :=
      key?_bare hname (by decide) rfl (by decide)
    have hskip : skipBlank (' ' :: (valueChars d ++ '\n' :: cs)) = valueChars d ++ '\n' :: cs := by
      obtain ⟨c, tail, htext, hc⟩ := valueChars_start hd
      rw [htext]
      exact skipBlank_start hc _
    have hvalue : value? (3 * (' ' :: (valueChars d ++ '\n' :: cs)).length + 3) nestingLimit
        (valueChars d ++ '\n' :: cs) = some (d, '\n' :: cs) := by
      refine value?_valueChars hd ⟨'\n', cs, rfl, Or.inl rfl⟩ ?_ (by decide)
      simp only [List.length_cons, List.length_append]
      omega
    have hassignment : assignment? (name.toList ++ ' ' :: '=' :: ' ' ::
        (valueChars d ++ '\n' :: cs)) = some (.assign ⟨[], name⟩ d, cs) := by
      unfold assignment?
      rw [hkey]
      simp only [Option.bind_eq_bind, Option.bind_some, hskip, hvalue, lineEnd?_newline]
      rfl
    rw [statements?, skipBlank_bare hname]
    split
    case h_1 heq => exact (hname.1 (List.append_eq_nil_iff.mp heq).1).elim
    case h_6 =>
      rw [hassignment]
      simp only [Option.bind_eq_bind, Option.bind_some]
      rw [h fuel (by simp at hfuel; omega)]
      rfl
    all_goals
      rename_i heq
      exact (hname.start rfl _ _ heq).elim

/-! ## Documents -/

theorem memberChars_written {m : String × Data} (hm : m.2.isNull = false) :
    memberChars m = m.1.toList ++ " = ".toList ++ valueChars m.2 ++ ['\n'] := by
  obtain ⟨name, d⟩ := m
  cases d with
  | null => cases hm
  | _ => rfl

theorem Reads.members {members : List (String × Data)} (hnames : ∀ m ∈ members, IsBareName m.1)
    (hvalues : ∀ m ∈ members.filter fun m => !m.2.isNull, IsWritable m.2)
    (h : Reads cs statements) :
    Reads (members.flatMap memberChars ++ cs)
      ((members.filter fun m => !m.2.isNull).map Toml.assignment ++ statements) := by
  induction members with
  | nil => exact h
  | cons m members ih =>
    have hrest := ih (fun n hn => hnames n (List.mem_cons_of_mem m hn)) fun n hn =>
      hvalues n (List.mem_filter.mpr ⟨List.mem_cons_of_mem m (List.mem_filter.mp hn).1,
        (List.mem_filter.mp hn).2⟩)
    rw [List.flatMap_cons, List.append_assoc]
    cases hm : m.2.isNull with
    | true =>
      have hnone : memberChars m = [] := by
        obtain ⟨name, d⟩ := m
        cases d with
        | null => rfl
        | _ => cases hm
      rw [hnone, List.filter_cons_of_neg (by simp [hm])]
      exact hrest
    | false =>
      have hline := Reads.assignment (hnames m List.mem_cons_self)
        (hvalues m (List.mem_filter.mpr ⟨List.mem_cons_self, by simp [hm]⟩)) hrest
      have htext : memberChars m ++ (members.flatMap memberChars ++ cs) = m.1.toList ++
          ' ' :: '=' :: ' ' :: (valueChars m.2 ++ '\n' :: (members.flatMap memberChars ++ cs)) := by
        simp [memberChars_written hm]
      rw [List.filter_cons_of_pos (by simp [hm]), htext]
      exact hline

theorem Reads.section {s : Section} (hs : s.IsPlain) (h : Reads cs statements) :
    Reads (s.chars ++ cs) (s.statements ++ statements) := by
  have hlines := Reads.header hs.name (Reads.members hs.names hs.values h)
  have htext : s.chars ++ cs =
      '[' :: (s.name.toList ++ ']' :: '\n' :: (s.members.flatMap memberChars ++ cs)) := by
    simp [Section.chars]
  rw [htext]
  exact hlines

theorem reads_documentChars {document : List Section} (hdocument : ∀ s ∈ document, s.IsPlain) :
    Reads (documentChars document) (document.flatMap Section.statements) := by
  fun_induction documentChars document with
  | case1 => exact Reads.nil
  | case2 s =>
    have h := Reads.section (hdocument s List.mem_cons_self) Reads.nil
    simpa using h
  | case3 s rest hne ih =>
    have hrest := ih fun t ht => hdocument t (List.mem_cons_of_mem s ht)
    exact Reads.section (hdocument s List.mem_cons_self) hrest.emptyLine

end LiveSound.Toml
