import LiveSound.Toml.Reader
import LiveSound.Toml.Writer

/-!
# Quoted texts read back

Whichever way a text is quoted, reading what was written gives the text and what follows it. What
follows must not begin with a quote: three quotes could take it in. One lemma says what becomes of a
character, for the two ways that escape and for the two that do not.
-/

namespace LiveSound.Toml

/-- What a reader found, with one more character before it. -/
def prepend (c : Char) (found : List Char × List Char) : List Char × List Char :=
  (c :: found.1, found.2)

theorem isPlain_of_not_isControl {c : Char} (hc : isControl c = false) (hnl : c ≠ '\n') :
    isPlain c = true := by
  by_cases htab : c = '\t'
  · simp [isPlain, htab]
  · simp [isControl, htab, hnl] at hc
    simp [isPlain, htab, hc]

/-! ## Escapes -/

/-- Four digits are enough for a control character, and they give it. -/
theorem numbered?_hexText {c : Char} (hc : isControl c = true) :
    ∃ a b d e, (hexText 4 c.toNat).toList.map Char.toUpper = [a, b, d, e] ∧
      numbered? [a, b, d, e] = some c := by
  have hall : ∀ n < 128,
      ((List.replicate (4 - (Nat.toDigits 16 n).length) '0' ++ Nat.toDigits 16 n).map
        Char.toUpper).length = 4 ∧
      numbered? ((List.replicate (4 - (Nat.toDigits 16 n).length) '0' ++ Nat.toDigits 16 n).map
        Char.toUpper) = some (Char.ofNat n) := by decide +kernel
  have hlt : c.toNat < 128 := by
    simp only [isControl, Bool.or_eq_true, Bool.and_eq_true, decide_eq_true_eq, beq_iff_eq] at hc
    rcases hc with ⟨⟨hc, -⟩, -⟩ | hc
    · have : c.toNat < 32 := hc
      omega
    · rw [hc]
      decide
  obtain ⟨hlength, hvalue⟩ := hall c.toNat hlt
  rw [Char.ofNat_toNat] at hvalue
  unfold hexText
  simp only [String.toList_ofList]
  generalize List.map _ _ = digits at hlength hvalue
  match digits, hlength with
  | [a, b, d, e], _ => exact ⟨a, b, d, e, rfl, hvalue⟩

theorem map_prepend (c : Char) (found : Option (List Char × List Char)) :
    (do let (body, rest) ← found; return (c :: body, rest)) = found.map (prepend c) := by
  cases found <;> rfl

/-- A reader that takes up letters, numbers and plain characters takes up what is escaped. -/
theorem read_escape {read : List Char → Option (List Char × List Char)} {c : Char}
    {rest : List Char}
    (hletter : ∀ {x c}, escaped? x = some c → ∀ rest,
      read ('\\' :: x :: rest) = (read rest).map (prepend c))
    (hnumber : ∀ {a b d e c}, numbered? [a, b, d, e] = some c → ∀ rest,
      read ('\\' :: 'u' :: a :: b :: d :: e :: rest) = (read rest).map (prepend c))
    (hplain : isPlain c = true → c ≠ '\\' → read (c :: rest) = (read rest).map (prepend c))
    (hnl : c ≠ '\n') : read (escape c ++ rest) = (read rest).map (prepend c) := by
  unfold escape
  split
  case h_6 c _ _ _ _ hslash =>
    split
    case isTrue hcontrol =>
      obtain ⟨a, b, d, e, hdigits, hvalue⟩ := numbered?_hexText hcontrol
      rw [hdigits]
      exact hnumber hvalue rest
    case isFalse hcontrol =>
      exact hplain (isPlain_of_not_isControl (Bool.eq_false_iff.mpr hcontrol) hnl) hslash
  all_goals exact hletter rfl rest

/-! ## In double quotes -/

theorem basicBody?_plain {c : Char} (hplain : isPlain c = true) (hquote : c ≠ '"')
    (hslash : c ≠ '\\') (rest : List Char) :
    basicBody? (c :: rest) = (basicBody? rest).map (prepend c) := by
  rw [basicBody?.eq_def]
  split
  case h_6 heq =>
    cases heq
    rw [if_pos (by simp [hplain, hslash])]
    exact map_prepend _ _
  all_goals simp_all

theorem basicBody?_letter {x c : Char} (hx : escaped? x = some c) (rest : List Char) :
    basicBody? ('\\' :: x :: rest) = (basicBody? rest).map (prepend c) := by
  rw [basicBody?.eq_def]
  split
  case h_5 heq =>
    cases heq
    rw [hx]
    exact map_prepend _ _
  case h_6 hslash heq =>
    cases heq
    exact (hslash _ _ rfl rfl).elim
  all_goals simp_all [escaped?]

theorem basicBody?_escape {c : Char} (hquote : c ≠ '"') (hnl : c ≠ '\n') (rest : List Char) :
    basicBody? (escape c ++ rest) = (basicBody? rest).map (prepend c) := by
  refine read_escape (fun hx => basicBody?_letter hx) (fun hvalue rest => ?_)
    (fun hplain hslash => basicBody?_plain hplain hquote hslash rest) hnl
  rw [basicBody?, hvalue]
  exact map_prepend _ _

theorem basicBody?_basicChars (cs rest : List Char) :
    basicBody? (basicChars cs ++ '"' :: rest) = some (cs, rest) := by
  fun_induction basicChars cs with
  | case1 => simp [basicBody?]
  | case2 cs ih =>
    simp only [List.cons_append]
    rw [basicBody?_letter rfl, ih]
    rfl
  | case3 cs ih =>
    simp only [List.cons_append]
    rw [basicBody?_letter rfl, ih]
    rfl
  | case4 c cs hquote hnl ih =>
    rw [List.append_assoc, basicBody?_escape hquote hnl, ih]
    rfl

/-! ## In three double quotes -/

/-- A letter of an escape is no line end and no blank before one. -/
theorem endsLine_letter {x c : Char} (hx : escaped? x = some c) (rest : List Char) :
    endsLine (x :: rest) = false := by
  unfold escaped? at hx
  split at hx
  case h_8 => cases hx
  all_goals rfl

theorem longBasicBody?_letter {x c : Char} (hx : escaped? x = some c) (rest : List Char) :
    longBasicBody? false ('\\' :: x :: rest) = (longBasicBody? false rest).map (prepend c) := by
  rw [longBasicBody?.eq_def]
  split
  case h_9 heq =>
    cases heq
    rw [endsLine_letter hx, hx]
    exact map_prepend _ _
  case h_10 hslash heq _ _ _ =>
    cases heq
    exact (hslash _ _ rfl rfl).elim
  all_goals simp_all [escaped?]

/-- A character that is no delimiter stands for itself, and so does a line end. -/
theorem longBasicBody?_plain {c : Char} (hplain : isPlain c = true ∨ c = '\n') (hslash : c ≠ '\\')
    {rest : List Char} (hquotes : ¬ ['"', '"', '"'] <+: c :: rest) :
    longBasicBody? false (c :: rest) = (longBasicBody? false rest).map (prepend c) := by
  have hcr : c ≠ '\r' := by
    rintro rfl
    simp [isPlain] at hplain
  rw [longBasicBody?.eq_def]
  split
  case h_10 heq _ _ _ =>
    cases heq
    rw [if_pos (by rcases hplain with h | h <;> simp [h, hslash])]
    exact map_prepend _ _
  all_goals simp_all

theorem longBasicBody?_escape {c : Char} (hquote : c ≠ '"') (hnl : c ≠ '\n') (rest : List Char) :
    longBasicBody? false (escape c ++ rest) = (longBasicBody? false rest).map (prepend c) := by
  refine read_escape (fun hx => longBasicBody?_letter hx) (fun hvalue rest => ?_)
    (fun hplain hslash => longBasicBody?_plain (Or.inl hplain) hslash ?_) hnl
  · rw [longBasicBody?, hvalue]
    exact map_prepend _ _
  · simp [hquote.symm]

/-- No character but a quote is written with a quote first. -/
theorem head?_escape {c : Char} (hquote : c ≠ '"') (rest : List Char) :
    (escape c ++ rest).head? ≠ some '"' := by
  unfold escape
  split
  case h_6 c _ _ _ _ _ =>
    split
    · simp
    · simpa using hquote
  all_goals simp

theorem head?_longBasicChars {quotes : Nat} {c : Char} (hc : c = '"' → 2 ≤ quotes)
    (cs rest : List Char) : (longBasicChars quotes (c :: cs) ++ rest).head? ≠ some '"' := by
  rw [longBasicChars.eq_def]
  split
  case h_1 heq => cases heq
  case h_2 heq =>
    cases heq
    rw [if_neg (by have := hc rfl; omega)]
    simp
  case h_3 heq =>
    cases heq
    simp
  case h_4 hquote _ heq =>
    cases heq
    rw [List.append_assoc]
    exact head?_escape (fun h => hquote h) _

theorem longEnd_other {q : Char} {rest : List Char} (hrest : rest.head? ≠ some q) :
    longEnd q rest = ([], rest) := by
  unfold longEnd
  cases rest with
  | nil => rfl
  | cons c rest =>
    have hc : c ≠ q := by simpa using hrest
    simp [hc]

theorem longEnd_one {q : Char} {rest : List Char} (hrest : rest.head? ≠ some q) :
    longEnd q (q :: rest) = ([q], rest) := by
  unfold longEnd
  cases rest with
  | nil => simp
  | cons c rest =>
    have hc : c ≠ q := by simpa using hrest
    simp [hc]

theorem longEnd_two (q : Char) (rest : List Char) : longEnd q (q :: q :: rest) = ([q, q], rest) := by
  simp [longEnd]

theorem not_two_of_head {q : Char} {rest : List Char} (hrest : rest.head? ≠ some q) :
    ¬ [q, q] <+: q :: rest := by
  cases rest with
  | nil => simp
  | cons c rest =>
    have hc : q ≠ c := fun h => hrest (by rw [h]; rfl)
    simp [hc]

theorem not_three_of_head {q : Char} {rest : List Char} (hrest : rest.head? ≠ some q) :
    ¬ [q, q, q] <+: q :: rest ∧ ¬ [q, q, q] <+: q :: q :: rest := by
  cases rest with
  | nil => simp
  | cons c rest =>
    have hc : q ≠ c := fun h => hrest (by rw [h]; rfl)
    simp [hc]

theorem longBasicBody?_end (rest : List Char) :
    longBasicBody? false ('"' :: '"' :: '"' :: rest) = some (longEnd '"' rest) := by
  rw [longBasicBody?]

theorem longBasicBody?_longBasicChars (quotes : Nat) (cs : List Char) {rest : List Char}
    (hrest : rest.head? ≠ some '"') :
    longBasicBody? false (longBasicChars quotes cs ++ '"' :: '"' :: '"' :: rest) =
      some (cs, rest) := by
  fun_induction longBasicChars quotes cs with
  | case1 => rw [List.nil_append, longBasicBody?_end, longEnd_other hrest]
  | case2 quotes cs hlt ih =>
    -- the last quotes of a text are read together with those that end it
    cases cs with
    | nil => exact (longBasicBody?_end _).trans (congrArg some (longEnd_one hrest))
    | cons c cs =>
      by_cases hc : c = '"' → 2 ≤ quotes + 1
      · have hhead := head?_longBasicChars hc cs ('"' :: '"' :: '"' :: rest)
        rw [List.cons_append, longBasicBody?_plain (Or.inl (by decide)) (by decide)
          (not_three_of_head hhead).1, ih]
        rfl
      · obtain ⟨rfl, hquotes⟩ : c = '"' ∧ quotes = 0 := by
          by_cases h : c = '"'
          · exact ⟨h, Nat.eq_zero_of_not_pos fun hpos => hc fun _ => by omega⟩
          · exact (hc fun h' => (h h').elim).elim
        subst hquotes
        cases cs with
        | nil => exact (longBasicBody?_end _).trans (congrArg some (longEnd_two '"' rest))
        | cons d cs =>
          have hhead : (longBasicChars 2 (d :: cs) ++ '"' :: '"' :: '"' :: rest).head? ≠ some '"' :=
            head?_longBasicChars (fun _ => Nat.le_refl 2) cs _
          have htwo : longBasicChars (0 + 1) ('"' :: d :: cs) =
              '"' :: longBasicChars 2 (d :: cs) := by
            rw [longBasicChars, if_pos (by decide)]
          simp only [htwo, List.cons_append] at ih ⊢
          rw [longBasicBody?_plain (Or.inl (by decide)) (by decide)
            (not_three_of_head hhead).2, ih]
          rfl
  | case3 quotes cs hle ih =>
    simp only [List.cons_append]
    rw [longBasicBody?_letter rfl, ih]
    rfl
  | case4 _ cs ih =>
    rw [List.cons_append, longBasicBody?_plain (Or.inr rfl) (by decide) (by simp), ih]
    rfl
  | case5 _ c cs hquote hnl ih =>
    rw [List.append_assoc, longBasicBody?_escape (fun h => hquote h) (fun h => hnl h), ih]
    rfl

/-! ## In single quotes -/

theorem literalBody?_append {cs : List Char} (hplain : ∀ c ∈ cs, isPlain c = true)
    (hquote : '\'' ∉ cs) (rest : List Char) :
    literalBody? (cs ++ '\'' :: rest) = some (cs, rest) := by
  induction cs with
  | nil => simp [literalBody?]
  | cons c cs ih =>
    have hc : c ≠ '\'' := fun h => hquote (by simp [h])
    have hrest := ih (fun d hd => hplain d (List.mem_cons_of_mem c hd))
      (fun h => hquote (List.mem_cons_of_mem c h))
    rw [List.cons_append, literalBody?.eq_def]
    split
    case h_3 heq =>
      cases heq
      rw [if_pos (hplain c List.mem_cons_self), hrest]
      rfl
    all_goals simp_all

theorem le_longestRun (q : Char) (n : Nat) (cs : List Char) : n ≤ longestRun q n cs := by
  induction cs generalizing n with
  | nil => exact Nat.le_refl n
  | cons c cs ih =>
    unfold longestRun
    split
    · exact Nat.le_trans (Nat.le_succ n) (ih (n + 1))
    · exact Nat.le_max_left _ _

theorem longestRun_mono (q : Char) {m n : Nat} (h : m ≤ n) (cs : List Char) :
    longestRun q m cs ≤ longestRun q n cs := by
  induction cs generalizing m n with
  | nil => exact h
  | cons c cs ih =>
    unfold longestRun
    split
    · exact ih (Nat.succ_le_succ h)
    · omega

theorem longestRun_tail {q c : Char} {cs : List Char} {n : Nat} (h : longestRun q 0 (c :: cs) ≤ n) :
    longestRun q 0 cs ≤ n := by
  unfold longestRun at h
  split at h
  · exact Nat.le_trans (longestRun_mono q (Nat.zero_le 1) cs) h
  · omega

theorem longLiteralBody?_plain {c : Char} (hplain : isPlain c = true ∨ c = '\n')
    {rest : List Char} (hquotes : ¬ ['\'', '\'', '\''] <+: c :: rest) :
    longLiteralBody? (c :: rest) = (longLiteralBody? rest).map (prepend c) := by
  have hcr : c ≠ '\r' := by
    rintro rfl
    simp [isPlain] at hplain
  rw [longLiteralBody?.eq_def]
  split
  case h_4 heq =>
    cases heq
    rw [if_pos (by rcases hplain with h | h <;> simp [h])]
    exact map_prepend _ _
  all_goals simp_all

theorem longLiteralBody?_end (rest : List Char) :
    longLiteralBody? ('\'' :: '\'' :: '\'' :: rest) = some (longEnd '\'' rest) := by
  rw [longLiteralBody?]

theorem longLiteralBody?_append {cs : List Char} (hplain : ∀ c ∈ cs, isPlain c = true ∨ c = '\n')
    (hruns : longestRun '\'' 0 cs ≤ 2) {rest : List Char} (hrest : rest.head? ≠ some '\'') :
    longLiteralBody? (cs ++ '\'' :: '\'' :: '\'' :: rest) = some (cs, rest) := by
  induction cs with
  | nil => rw [List.nil_append, longLiteralBody?_end, longEnd_other hrest]
  | cons c cs ih =>
    have htail := ih (fun d hd => hplain d (List.mem_cons_of_mem c hd)) (longestRun_tail hruns)
    by_cases hthree : ['\'', '\'', '\''] <+: c :: (cs ++ '\'' :: '\'' :: '\'' :: rest)
    · -- the last quotes of a text are read together with those that end it
      cases cs with
      | nil =>
        obtain rfl : '\'' = c := by simpa using hthree
        exact (longLiteralBody?_end _).trans (congrArg some (longEnd_one hrest))
      | cons a cs =>
        cases cs with
        | nil =>
          obtain ⟨rfl, rfl⟩ : '\'' = c ∧ '\'' = a := by simpa using hthree
          exact (longLiteralBody?_end _).trans (congrArg some (longEnd_two '\'' rest))
        | cons b cs =>
          obtain ⟨rfl, rfl, rfl⟩ : '\'' = c ∧ '\'' = a ∧ '\'' = b := by simpa using hthree
          have := le_longestRun '\'' (0 + 1 + 1 + 1) cs
          simp only [longestRun, if_true] at hruns
          omega
    · rw [List.cons_append, longLiteralBody?_plain (hplain c List.mem_cons_self) hthree, htail]
      rfl

/-! ## The choice of quotes -/

theorem isPlain_of_clean {cs : List Char} (hclean : cs.any isControl = false) :
    ∀ c ∈ cs, isPlain c = true ∨ c = '\n' := by
  intro c hc
  by_cases hnl : c = '\n'
  · exact Or.inr hnl
  · exact Or.inl (isPlain_of_not_isControl (by simpa using List.any_eq_false.mp hclean c hc) hnl)

theorem choose_literal {cs : List Char} (h : Quoting.choose cs = .literal) :
    (∀ c ∈ cs, isPlain c = true) ∧ '\'' ∉ cs := by
  unfold Quoting.choose at h
  simp only at h
  split at h
  · cases h
  split at h
  case isTrue hcond =>
    simp only [Bool.and_eq_true, Bool.not_eq_true', List.contains_eq_mem, decide_eq_false_iff_not]
      at hcond
    obtain ⟨⟨hclean, hnl⟩, hquote⟩ := hcond
    refine ⟨fun c hc => ?_, hquote⟩
    rcases isPlain_of_clean hclean c hc with h | h
    · exact h
    · exact (hnl (h ▸ hc)).elim
  split at h
  · cases h
  split at h
  · cases h
  split at h <;> cases h

theorem choose_longLiteral {cs : List Char} (h : Quoting.choose cs = .longLiteral) :
    (∀ c ∈ cs, isPlain c = true ∨ c = '\n') ∧ longestRun '\'' 0 cs ≤ 2 := by
  unfold Quoting.choose at h
  simp only at h
  split at h
  · cases h
  split at h
  · cases h
  split at h
  · cases h
  split at h
  case isTrue hcond =>
    simp only [Bool.and_eq_true, Bool.not_eq_true', decide_eq_true_eq] at hcond
    exact ⟨isPlain_of_clean hcond.1, hcond.2⟩
  · split at h <;> cases h

theorem dropNewline_other {body : List Char} (hline : body.head? ≠ some '\n')
    (hreturn : body.head? ≠ some '\r') : dropNewline body = body := by
  unfold dropNewline newline?
  split <;> simp_all

/-- A text without lines is not written with a line end first. -/
theorem dropNewline_longBasicChars {cs : List Char} (hcs : '\n' ∉ cs) (rest : List Char) :
    dropNewline (longBasicChars 0 cs ++ '"' :: rest) = longBasicChars 0 cs ++ '"' :: rest := by
  cases cs with
  | nil => rfl
  | cons c cs =>
    have hnl : c ≠ '\n' := fun h => hcs (by simp [h])
    rw [longBasicChars.eq_def]
    split
    case h_1 heq => cases heq
    case h_2 => rw [if_pos (by decide)]; rfl
    case h_3 heq =>
      cases heq
      exact (hnl rfl).elim
    case h_4 heq =>
      cases heq
      rw [List.append_assoc]
      unfold escape
      split
      case h_6 =>
        split
        · rfl
        case isFalse hcontrol =>
          refine dropNewline_other (by simpa using hnl) ?_
          intro hreturn
          obtain rfl : c = '\r' := by simpa using hreturn
          exact hcontrol (by decide)
      all_goals rfl

theorem dropNewline_plain {cs : List Char} (hplain : ∀ c ∈ cs, isPlain c = true ∨ c = '\n')
    (hcs : '\n' ∉ cs) (rest : List Char) : dropNewline (cs ++ '\'' :: rest) = cs ++ '\'' :: rest := by
  cases cs with
  | nil => rfl
  | cons c cs =>
    have hnl : c ≠ '\n' := fun h => hcs (by simp [h])
    refine dropNewline_other (by simpa using hnl) ?_
    intro hreturn
    obtain rfl : c = '\r' := by simpa using hreturn
    have := hplain '\r' List.mem_cons_self
    simp [isPlain] at this

theorem string?_basic {body : List Char} (h : ¬ ['"', '"'] <+: body) :
    string? ('"' :: body) = basicBody? body := by
  unfold string?
  split <;> simp_all

theorem string?_literal {body : List Char} (h : ¬ ['\'', '\''] <+: body) :
    string? ('\'' :: body) = literalBody? body := by
  unfold string?
  split <;> simp_all

theorem not_two_basicChars (cs : List Char) {rest : List Char} (hrest : rest.head? ≠ some '"') :
    ¬ ['"', '"'] <+: basicChars cs ++ '"' :: rest := by
  rw [basicChars.eq_def]
  split
  case h_1 => exact not_two_of_head hrest
  case h_4 c cs hquote _ =>
    have hhead := head?_escape (fun h => hquote h) (basicChars cs ++ '"' :: rest)
    rw [List.append_assoc]
    intro hprefix
    obtain ⟨tail, htail⟩ := hprefix
    rw [← htail] at hhead
    exact hhead rfl
  all_goals simp

/-- The line end at the start of a text that has lines. -/
theorem dropNewline_first {cs body : List Char} (hbody : '\n' ∉ cs → dropNewline body = body) :
    dropNewline ((if cs.contains '\n' then ['\n'] else []) ++ body) = body := by
  by_cases hcs : '\n' ∈ cs
  · rw [if_pos (by simpa using hcs)]
    rfl
  · rw [if_neg (by simpa using hcs)]
    exact hbody hcs

/-- A quoted text reads back, whatever follows it but a quote. -/
theorem string?_quote (cs : List Char) {rest : List Char} (hdouble : rest.head? ≠ some '"')
    (hsingle : rest.head? ≠ some '\'') : string? (quote cs ++ rest) = some (cs, rest) := by
  cases hq : Quoting.choose cs with
  | basic =>
    have htext : quote cs ++ rest = '"' :: (basicChars cs ++ '"' :: rest) := by
      simp [quote, hq, Quoting.delimiter, quotedBody]
    rw [htext, string?_basic (not_two_basicChars cs hdouble)]
    exact basicBody?_basicChars cs rest
  | literal =>
    obtain ⟨hplain, hquote⟩ := choose_literal hq
    have htext : quote cs ++ rest = '\'' :: (cs ++ '\'' :: rest) := by
      simp [quote, hq, Quoting.delimiter, quotedBody]
    have htwo : ¬ ['\'', '\''] <+: cs ++ '\'' :: rest := by
      cases cs with
      | nil => exact not_two_of_head hsingle
      | cons c cs =>
        have hc : '\'' ≠ c := fun h => hquote (h ▸ List.mem_cons_self)
        simp [hc]
    rw [htext, string?_literal htwo]
    exact literalBody?_append hplain hquote rest
  | longBasic =>
    have htext : quote cs ++ rest = '"' :: '"' :: '"' ::
        ((if cs.contains '\n' then ['\n'] else []) ++
          (longBasicChars 0 cs ++ '"' :: '"' :: '"' :: rest)) := by
      simp [quote, hq, Quoting.delimiter, quotedBody]
    rw [htext, string?, dropNewline_first fun hcs => dropNewline_longBasicChars hcs _]
    exact longBasicBody?_longBasicChars 0 cs hdouble
  | longLiteral =>
    obtain ⟨hplain, hruns⟩ := choose_longLiteral hq
    have htext : quote cs ++ rest = '\'' :: '\'' :: '\'' ::
        ((if cs.contains '\n' then ['\n'] else []) ++ (cs ++ '\'' :: '\'' :: '\'' :: rest)) := by
      simp [quote, hq, Quoting.delimiter, quotedBody]
    rw [htext, string?, dropNewline_first fun hcs => dropNewline_plain hplain hcs _]
    exact longLiteralBody?_append hplain hruns hsingle

end LiveSound.Toml
