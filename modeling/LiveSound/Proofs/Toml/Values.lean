import LiveSound.Proofs.Numeric.Decimal
import LiveSound.Proofs.Toml.Texts

/-!
# Values read back

A value that a document is written with reads back as itself, up to what ends it: a line end, a
comma or a bracket. Numbers are told from dates by what follows their digits.
-/

namespace LiveSound.Toml

/-- What a value that is no list begins with. -/
def isStart (c : Char) : Bool :=
  c == '"' || c == '\'' || c == '-' || c == 't' || c == 'f' || c.isDigit

/-- What follows a value. -/
def Ended (rest : List Char) : Prop :=
  ∃ c tail, rest = c :: tail ∧ (c = '\n' ∨ c = ',' ∨ c = ']')

/-! ## Digits -/

theorem ne_of_kind {kind : Char → Bool} {c d : Char} (hc : kind c = true) (hd : kind d = false) :
    c ≠ d := by
  rintro rfl
  rw [hc] at hd
  cases hd

theorem isBlank_of_kind {kind : Char → Bool} {c : Char} (hc : kind c = true)
    (hspace : kind ' ' = false) (htab : kind '\t' = false) : isBlank c = false := by
  have hspace : c ≠ ' ' := ne_of_kind hc hspace
  have htab : c ≠ '\t' := ne_of_kind hc htab
  simp [isBlank, hspace, htab]

theorem exists_digit {ds : List Char} (hds : ∀ c ∈ ds, c.isDigit = true) (hne : ds ≠ []) :
    ∃ c cs, ds = c :: cs ∧ c.isDigit = true := by
  obtain ⟨c, cs, rfl⟩ := List.exists_cons_of_ne_nil hne
  exact ⟨c, cs, rfl, hds c List.mem_cons_self⟩

/-- Nothing that continues a run of digits. -/
def Stops (rest : List Char) : Prop := ∀ c, rest.head? = some c → c.isDigit = false ∧ c ≠ '_'

theorem moreDigits_append {ds : List Char} (hds : ∀ c ∈ ds, c.isDigit = true) {rest : List Char}
    (hrest : Stops rest) : moreDigits Char.isDigit (ds ++ rest) = (ds, rest) := by
  induction ds with
  | nil =>
    rw [List.nil_append, moreDigits.eq_def]
    split
    · rfl
    · exact absurd rfl (hrest '_' rfl).2
    case h_3 c _ _ => rw [if_neg (by simp [(hrest c rfl).1])]
  | cons c ds ih =>
    have hc := hds c List.mem_cons_self
    rw [List.cons_append, moreDigits.eq_def]
    split
    case h_1 heq => cases heq
    case h_2 heq =>
      obtain rfl := (List.cons.inj heq).1
      cases hc
    case h_3 heq =>
      cases heq
      rw [if_pos hc, ih fun d hd => hds d (List.mem_cons_of_mem c hd)]

theorem digits?_append {ds : List Char} (hds : ∀ c ∈ ds, c.isDigit = true) (hne : ds ≠ [])
    {rest : List Char} (hrest : Stops rest) :
    digits? Char.isDigit (ds ++ rest) = some (ds, rest) := by
  cases ds with
  | nil => exact (hne rfl).elim
  | cons c ds =>
    rw [List.cons_append, digits?, if_pos (hds c List.mem_cons_self),
      moreDigits_append (fun d hd => hds d (List.mem_cons_of_mem c hd)) hrest]

theorem whole?_append {ds : List Char} (hds : ∀ c ∈ ds, c.isDigit = true) (hne : ds ≠ [])
    (hhead : ds = ['0'] ∨ ds.head? ≠ some '0') {rest : List Char} (hrest : Stops rest) :
    whole? (ds ++ rest) = some (ds, rest) := by
  rcases hhead with rfl | hhead
  · rfl
  · unfold whole?
    split
    case h_1 heq =>
      cases ds with
      | nil => exact (hne rfl).elim
      | cons c ds =>
        cases heq
        exact (hhead rfl).elim
    case h_2 => exact digits?_append hds hne hrest

theorem hexValue?_isDigit {c : Char} (hc : c.isDigit = true) :
    hexValue? c = some (c.toNat - '0'.toNat) := by
  have hrange : '0' ≤ c ∧ c ≤ '9' := by
    rw [Char.isDigit_iff_toNat] at hc
    exact hc
  rw [hexValue?, if_pos hrange]

theorem valueIn_ten {ds : List Char} (hds : ∀ c ∈ ds, c.isDigit = true) :
    valueIn 10 ds = Nat.ofDigitChars 10 ds 0 := by
  have hfold (start : Nat) : ds.foldl (fun n c => n * 10 + (hexValue? c).getD 0) start =
      Nat.ofDigitChars 10 ds start := by
    induction ds generalizing start with
    | nil => rfl
    | cons c ds ih =>
      rw [List.foldl_cons, ih fun d hd => hds d (List.mem_cons_of_mem c hd),
        Nat.ofDigitChars_cons, hexValue?_isDigit (hds c List.mem_cons_self), Option.getD_some,
        Nat.mul_comm]
  exact hfold 0

/-! ## Dates -/

theorem digits?_head {k n m : Nat} {ds rest found : List Char}
    (hrest : ∀ c, rest.head? = some c → c.isDigit = false)
    (h : Moment.digits? k n (ds ++ rest) = some (m, found)) {c : Char}
    (hc : found.head? = some c) : c ∈ ds ∨ rest.head? = some c := by
  induction k generalizing n ds with
  | zero =>
    cases h
    cases ds with
    | nil => exact Or.inr hc
    | cons d ds => exact Or.inl (by simp_all)
  | succ k ih =>
    cases ds with
    | nil =>
      cases rest with
      | nil => cases h
      | cons d rest =>
        simp only [List.nil_append, Moment.digits?, hrest d rfl] at h
        cases h
    | cons d ds =>
      simp only [List.cons_append, Moment.digits?] at h
      split at h
      · exact (ih h).imp (List.mem_cons_of_mem d) id
      · cases h

/-- Digits are no date and no time unless a dash or a colon follows. -/
theorem Moment.rest?_digits {ds rest : List Char} (hds : ∀ c ∈ ds, c.isDigit = true)
    (hrest : ∀ c, rest.head? = some c → c.isDigit = false ∧ c ≠ '-' ∧ c ≠ ':') :
    Moment.rest? (ds ++ rest) = none := by
  have hmark {k n m : Nat} {found : List Char} {d : Char} (hd : d = '-' ∨ d = ':')
      (h : Moment.digits? k n (ds ++ rest) = some (m, found)) : Moment.mark? d found = none := by
    cases found with
    | nil => rfl
    | cons c found =>
      have hne : c ≠ d := by
        rcases digits?_head (fun c hc => (hrest c hc).1) h rfl with hmem | hhead
        · rcases hd with rfl | rfl <;> exact ne_of_kind (hds c hmem) rfl
        · rcases hd with rfl | rfl
          · exact (hrest c hhead).2.1
          · exact (hrest c hhead).2.2
      rw [Moment.mark?, if_neg hne]
  have hdate : Moment.date? (ds ++ rest) = none := by
    unfold Moment.date?
    cases h : Moment.digits? 4 0 (ds ++ rest) with
    | none => rfl
    | some found =>
      simp only [Option.bind_eq_bind, Option.bind_some, hmark (Or.inl rfl) h]
      rfl
  have htime : Moment.time? (ds ++ rest) = none := by
    unfold Moment.time? Moment.upTo?
    cases h : Moment.digits? 2 0 (ds ++ rest) with
    | none => rfl
    | some found =>
      simp only [Option.filter]
      split
      · simp only [Option.bind_eq_bind, Option.bind_some, hmark (Or.inr rfl) h]
        rfl
      · rfl
  rw [Moment.rest?, hdate]
  exact htime

theorem Moment.rest?_minus (cs : List Char) : Moment.rest? ('-' :: cs) = none := rfl

/-! ## Numbers -/

theorem sign_digit {c : Char} (hc : c.isDigit = true) (cs : List Char) :
    sign (c :: cs) = (false, c :: cs) := by
  have hminus : c ≠ '-' := ne_of_kind hc rfl
  have hplus : c ≠ '+' := ne_of_kind hc rfl
  unfold sign
  split <;> simp_all

theorem exponent?_other {cs : List Char} (hlower : cs.head? ≠ some 'e')
    (hupper : cs.head? ≠ some 'E') : exponent? cs = some (none, cs) := by
  unfold exponent?
  split
  case h_1 c rest =>
    rw [if_neg (by simp_all)]
  case h_2 => rfl

theorem places?_other {cs : List Char} (hpoint : cs.head? ≠ some '.') :
    places? cs = some (none, cs) := by
  unfold places?
  split
  · simp_all
  · rfl

/-- What follows a value continues no number. -/
theorem Ended.stops {rest : List Char} (h : Ended rest) : Stops rest := by
  obtain ⟨d, tail, rfl, hd⟩ := h
  intro c hc
  obtain rfl : d = c := by simpa using hc
  rcases hd with rfl | rfl | rfl <;> decide

/-- What follows a value is none of the characters that mean something in one. -/
theorem Ended.head? {rest : List Char} (h : Ended rest) {c : Char}
    (hc : c ≠ '\n' ∧ c ≠ ',' ∧ c ≠ ']') : rest.head? ≠ some c := by
  obtain ⟨d, tail, rfl, hd⟩ := h
  intro heq
  obtain rfl : d = c := by simpa using heq
  rcases hd with hd | hd | hd
  · exact hc.1 hd
  · exact hc.2.1 hd
  · exact hc.2.2 hd

/-- The second character of digits is one more digit, or it follows them. -/
theorem second_isDigit {ds rest tail : List Char} {a b : Char} (hds : ∀ c ∈ ds, c.isDigit = true)
    (hne : ds ≠ []) (heq : ds ++ rest = a :: b :: tail) :
    b.isDigit = true ∨ rest.head? = some b := by
  match ds, hne with
  | [_], _ =>
    have htail : rest = b :: tail := (List.cons.inj heq).2
    exact Or.inr (by rw [htail]; rfl)
  | _ :: d :: _, _ =>
    obtain rfl : d = b := (List.cons.inj (List.cons.inj heq).2).1
    exact Or.inl (hds d (by simp))

theorem number?_digits {ds rest : List Char} (hds : ∀ c ∈ ds, c.isDigit = true) (hne : ds ≠ [])
    (hrest : ∀ c ∈ ['x', 'o', 'b'], rest.head? ≠ some c) :
    number? (ds ++ rest) = decimal? (ds ++ rest) := by
  have hbase {b : Char} {tail : List Char} (hb : b ∈ ['x', 'o', 'b']) :
      ds ++ rest ≠ '0' :: b :: tail := by
    intro heq
    rcases second_isDigit hds hne heq with hdigit | hhead
    · refine ne_of_kind hdigit ?_ rfl
      revert hb
      simp only [List.mem_cons, List.not_mem_nil, or_false]
      rintro (rfl | rfl | rfl) <;> rfl
    · exact hrest b hb hhead
  unfold number?
  split
  case h_1 heq => exact (hbase (by simp) heq).elim
  case h_2 heq => exact (hbase (by simp) heq).elim
  case h_3 heq => exact (hbase (by simp) heq).elim
  case h_4 => rfl

theorem decimal?_of_parts {cs body rest : List Char} {negative : Bool} {whole after : List Char}
    {places : Option (List Char)} (hsign : sign cs = (negative, body))
    (hhead : ∃ c tail, body = c :: tail ∧ c.isDigit = true)
    (hwhole : whole? body = some (whole, after)) (hplaces : places? after = some (places, rest))
    (hrest : Ended rest) :
    decimal? cs = (match places with
      | none => integer? negative (valueIn 10 whole)
      | some places => float? ⟨negative, valueIn 10 (whole ++ places), -(places.length : Int)⟩).map
        (·, rest) := by
  have hexponent := exponent?_other (hrest.head? (c := 'e') (by decide))
    (hrest.head? (c := 'E') (by decide))
  obtain ⟨c, tail, rfl, hc⟩ := hhead
  unfold decimal?
  simp only [hsign]
  split
  case h_1 heq =>
    obtain rfl := (List.cons.inj heq).1
    cases hc
  case h_2 heq =>
    obtain rfl := (List.cons.inj heq).1
    cases hc
  case h_3 =>
    simp only [hwhole, hplaces, hexponent, Option.bind_eq_bind, Option.bind_some]
    cases places with
    | none => cases integer? negative (valueIn 10 whole) <;> simp
    | some places =>
      cases h : float? ⟨negative, valueIn 10 (whole ++ places), -(places.length : Int)⟩ <;>
        simp [h]

theorem number?_digitsOf {n : Nat} (hn : n < 0x8000000000000000) {rest : List Char}
    (hrest : Ended rest) : number? (digitsOf n ++ rest) = some (.integer n, rest) := by
  have hdigits : ∀ c ∈ digitsOf n, c.isDigit = true := fun c hc => isDigit_of_mem_digitsOf hc
  have hwhole : whole? (digitsOf n ++ rest) = some (digitsOf n, rest) := by
    refine whole?_append hdigits (digitsOf_ne_nil n) ?_ hrest.stops
    by_cases h0 : n = 0
    · rw [h0]
      exact Or.inl digitsOf_zero
    · exact Or.inr (head?_digitsOf h0)
  have hplaces := places?_other (hrest.head? (c := '.') (by decide))
  obtain ⟨c, cs, hcs, hc⟩ := exists_digit hdigits (digitsOf_ne_nil n)
  have hsign : sign (digitsOf n ++ rest) = (false, digitsOf n ++ rest) := by
    rw [hcs]
    exact sign_digit hc _
  have hbases : ∀ c ∈ ['x', 'o', 'b'], c ≠ '\n' ∧ c ≠ ',' ∧ c ≠ ']' := by simp
  rw [number?_digits hdigits (digitsOf_ne_nil n) fun c hc => hrest.head? (hbases c hc),
    decimal?_of_parts hsign ⟨c, cs ++ rest, by rw [hcs]; rfl, hc⟩ hwhole hplaces hrest]
  simp only [integer?, valueIn_ten hdigits, value_digitsOf, hn]
  rfl

theorem floatChars_parts {x : Binary64} (hx : x.isFinite) :
    ∃ whole places, floatChars x =
        (if x.shortest.negative then ['-'] else []) ++ (whole ++ '.' :: places) ∧
      x.shortest.Pointed whole places := by
  have hnan : x.isNaN = false := by
    simp only [Binary64.isFinite, decide_eq_true_eq, Binary64.isNaN, decide_eq_false_iff_not,
      UInt64.lt_iff_toNat_lt] at hx ⊢
    omega
  obtain ⟨whole, places, htext, hpointed⟩ := FloatStyle.write_positional x.shortest
  refine ⟨whole, places, ?_, hpointed⟩
  unfold floatChars
  rw [hnan, hx, htext]
  simp

theorem number?_floatChars {x : Binary64} (hx : x.isFinite) {rest : List Char}
    (hrest : Ended rest) : number? (floatChars x ++ rest) = some (.float x, rest) := by
  have hinfinity : x ≠ .infinity := by
    rintro rfl
    exact absurd hx (by decide)
  obtain ⟨whole, places, htext, hpointed⟩ := floatChars_parts hx
  have hvalue := hpointed.value.trans (Binary64.shortest_toBinary64 hx)
  have hchars : floatChars x ++ rest = (if x.shortest.negative then ['-'] else []) ++
      (whole ++ '.' :: (places ++ rest)) := by
    rw [htext]
    simp
  have hplaces : places? ('.' :: (places ++ rest)) = some (some places, rest) := by
    unfold places?
    simp [digits?_append hpointed.places_digits hpointed.places_ne hrest.stops]
  have hpoint : Stops ('.' :: (places ++ rest)) := by
    intro c hc
    obtain rfl : '.' = c := by simpa using hc
    decide
  have hwhole := whole?_append hpointed.whole_digits hpointed.whole_ne hpointed.whole_head hpoint
  have hdigits : ∀ c ∈ whole ++ places, c.isDigit = true := by
    intro c hc
    rcases List.mem_append.mp hc with hc | hc
    · exact hpointed.whole_digits c hc
    · exact hpointed.places_digits c hc
  obtain ⟨c, cs, hcs, hc⟩ := exists_digit hpointed.whole_digits hpointed.whole_ne
  have hfloat : float? ⟨x.shortest.negative, valueIn 10 (whole ++ places),
      -(places.length : Int)⟩ = some (.float x) := by
    unfold float?
    rw [valueIn_ten hdigits, hvalue]
    simp [hinfinity]
  have hhead : ∃ c tail, whole ++ '.' :: (places ++ rest) = c :: tail ∧ c.isDigit = true :=
    ⟨c, cs ++ '.' :: (places ++ rest), by rw [hcs]; rfl, hc⟩
  rw [hchars]
  cases hnegative : x.shortest.negative with
  | true =>
    rw [hnegative] at hfloat
    have hsign : sign ('-' :: (whole ++ '.' :: (places ++ rest))) =
        (true, whole ++ '.' :: (places ++ rest)) := rfl
    refine (decimal?_of_parts hsign hhead hwhole hplaces hrest).trans ?_
    simp only [hfloat]
    rfl
  | false =>
    rw [hnegative] at hfloat
    have hsign : sign (whole ++ '.' :: (places ++ rest)) =
        (false, whole ++ '.' :: (places ++ rest)) := by
      rw [hcs]
      exact sign_digit hc _
    refine (number?_digits hpointed.whole_digits hpointed.whole_ne ?_).trans
      ((decimal?_of_parts hsign hhead hwhole hplaces hrest).trans ?_)
    · simp
    · simp only [hfloat]
      rfl

/-! ## Values of a line -/

/-- Values that are no lists and can be written. -/
def IsScalar : Data → Prop
  | .bool _ => True
  | .integer n => 0 ≤ n ∧ n < 0x8000000000000000
  | .float x => x.isFinite
  | .text _ => True
  | _ => False

theorem quote_start (cs : List Char) : ∃ c tail, quote cs = c :: tail ∧ (c = '"' ∨ c = '\'') := by
  unfold quote
  cases Quoting.choose cs
  · exact ⟨_, _, rfl, Or.inl rfl⟩
  · exact ⟨_, _, rfl, Or.inr rfl⟩
  · exact ⟨_, _, rfl, Or.inl rfl⟩
  · exact ⟨_, _, rfl, Or.inr rfl⟩

/-- A number is no text and no date. -/
theorem scalar?_number {c : Char} {cs : List Char} (hc : c.isDigit = true ∨ c = '-')
    (hmoment : Moment.rest? (c :: cs) = none) : scalar? (c :: cs) = number? (c :: cs) := by
  have hstring : string? (c :: cs) = none := by
    unfold string?
    split <;> simp_all
  have hnone : moment? (c :: cs) = none := by
    unfold moment?
    rw [hmoment]
    rfl
  unfold scalar?
  split
  · simp_all
  · simp_all
  · rw [hstring, hnone]
    rfl

theorem scalar?_quote (cs : List Char) {rest : List Char} (hrest : Ended rest) :
    scalar? (quote cs ++ rest) = some (.text (String.ofList cs), rest) := by
  have hstring := string?_quote cs (hrest.head? (c := '"') (by decide))
    (hrest.head? (c := '\'') (by decide))
  obtain ⟨c, tail, htext, hc⟩ := quote_start cs
  unfold scalar?
  split
  case h_1 heq =>
    rw [htext] at heq
    obtain rfl := (List.cons.inj heq).1
    simp at hc
  case h_2 heq =>
    rw [htext] at heq
    obtain rfl := (List.cons.inj heq).1
    simp at hc
  case h_3 => rw [hstring]

theorem scalar?_digitsOf {n : Nat} (hn : n < 0x8000000000000000) {rest : List Char}
    (hrest : Ended rest) : scalar? (digitsOf n ++ rest) = some (.integer n, rest) := by
  have hdigits : ∀ c ∈ digitsOf n, c.isDigit = true := fun c hc => isDigit_of_mem_digitsOf hc
  have hmoment : Moment.rest? (digitsOf n ++ rest) = none := by
    refine Moment.rest?_digits hdigits fun c hc => ⟨(hrest.stops c hc).1, ?_, ?_⟩
    · rintro rfl
      exact hrest.head? (by decide) hc
    · rintro rfl
      exact hrest.head? (by decide) hc
  rw [← number?_digitsOf hn hrest]
  obtain ⟨c, cs, hcs, hc⟩ := exists_digit hdigits (digitsOf_ne_nil n)
  rw [hcs] at hmoment ⊢
  exact scalar?_number (Or.inl hc) hmoment

theorem scalar?_floatChars {x : Binary64} (hx : x.isFinite) {rest : List Char}
    (hrest : Ended rest) : scalar? (floatChars x ++ rest) = some (.float x, rest) := by
  rw [← number?_floatChars hx hrest]
  obtain ⟨whole, places, htext, hpointed⟩ := floatChars_parts hx
  rw [htext, List.append_assoc, List.append_assoc, List.cons_append]
  cases x.shortest.negative with
  | true => exact scalar?_number (Or.inr rfl) (Moment.rest?_minus _)
  | false =>
    have hmoment : Moment.rest? (whole ++ '.' :: (places ++ rest)) = none := by
      refine Moment.rest?_digits hpointed.whole_digits fun c hc => ?_
      obtain rfl : '.' = c := by simpa using hc
      decide
    obtain ⟨c, cs, hcs, hc⟩ := exists_digit hpointed.whole_digits hpointed.whole_ne
    rw [hcs] at hmoment ⊢
    exact scalar?_number (Or.inl hc) hmoment

theorem scalarChars_integer (n : Nat) : scalarChars (.integer n) = digitsOf n := by
  have hrepr : toString (n : Int) = n.repr := rfl
  rw [scalarChars, hrepr, Nat.toList_repr]
  rfl

/-- A value in a line reads back. -/
theorem scalar?_scalarChars {d : Data} (hd : IsScalar d) {rest : List Char} (hrest : Ended rest) :
    scalar? (scalarChars d ++ rest) = some (d, rest) := by
  cases d with
  | bool b => cases b <;> rfl
  | integer n =>
    obtain ⟨k, rfl⟩ := Int.eq_ofNat_of_zero_le hd.1
    have hk : k < 0x8000000000000000 := by
      have := hd.2
      omega
    rw [scalarChars_integer]
    exact scalar?_digitsOf hk hrest
  | float x => exact scalar?_floatChars hd hrest
  | text s =>
    have hquote := scalar?_quote s.toList hrest
    rw [String.ofList_toList] at hquote
    exact hquote
  | null => exact hd.elim
  | list items => exact hd.elim
  | record members => exact hd.elim
  | unreadable => exact hd.elim

theorem scalarChars_start {d : Data} (hd : IsScalar d) :
    ∃ c tail, scalarChars d = c :: tail ∧ isStart c = true := by
  cases d with
  | bool b => cases b <;> exact ⟨_, _, rfl, rfl⟩
  | integer n =>
    obtain ⟨k, rfl⟩ := Int.eq_ofNat_of_zero_le hd.1
    obtain ⟨c, cs, hcs, hc⟩ :=
      exists_digit (fun c hc => isDigit_of_mem_digitsOf hc) (digitsOf_ne_nil k)
    exact ⟨c, cs, (scalarChars_integer k).trans hcs, by simp [isStart, hc]⟩
  | float x =>
    obtain ⟨whole, places, htext, hpointed⟩ := floatChars_parts hd
    obtain ⟨c, cs, hcs, hc⟩ := exists_digit hpointed.whole_digits hpointed.whole_ne
    rw [scalarChars, htext, hcs]
    cases x.shortest.negative with
    | true => exact ⟨_, _, rfl, rfl⟩
    | false => exact ⟨c, _, rfl, by simp [isStart, hc]⟩
  | text s =>
    obtain ⟨c, tail, htext, hc⟩ := quote_start s.toList
    refine ⟨c, tail, htext, ?_⟩
    rcases hc with rfl | rfl <;> rfl
  | null => exact hd.elim
  | list items => exact hd.elim
  | record members => exact hd.elim
  | unreadable => exact hd.elim

theorem value?_scalar {d : Data} (hd : IsScalar d) {rest : List Char} (hrest : Ended rest)
    (fuel depth : Nat) : value? (fuel + 1) depth (scalarChars d ++ rest) = some (d, rest) := by
  rw [← scalar?_scalarChars hd hrest]
  obtain ⟨c, tail, htext, hc⟩ := scalarChars_start hd
  rw [htext, List.cons_append, value?.eq_def]
  split
  case h_1 heq => cases heq
  case h_2 heq =>
    cases heq
    split
    case h_1 heq =>
      obtain rfl := (List.cons.inj heq).1
      cases hc
    case h_2 heq =>
      obtain rfl := (List.cons.inj heq).1
      cases hc
    case h_3 => rfl

/-! ## Lists -/

theorem skipBlank_start {c : Char} (hc : isBlank c = false) (cs : List Char) :
    skipBlank (c :: cs) = c :: cs := by
  unfold skipBlank
  rw [List.dropWhile_cons_of_neg (by simp [hc])]

/-- Where a value or a bracket stands there are no lines to skip. -/
theorem skipLines_start {c : Char} (hc : isBlank c = false ∧ c ≠ '#' ∧ c ≠ '\n' ∧ c ≠ '\r')
    (fuel : Nat) (cs : List Char) : skipLines (fuel + 1) (c :: cs) = some (c :: cs) := by
  obtain ⟨hblank, hcomment, hline, hreturn⟩ := hc
  rw [skipLines, skipBlank_start hblank]
  split
  case h_1 heq => exact (hcomment (List.cons.inj heq).1).elim
  case h_2 =>
    have hnone : newline? (c :: cs) = none := by
      unfold newline?
      split <;> simp_all
    rw [hnone]

theorem skipLines_newline (fuel : Nat) (cs : List Char) :
    skipLines (fuel + 1) ('\n' :: cs) = skipLines fuel cs := by
  rw [skipLines, skipBlank_start (by decide)]
  rfl

theorem skipLines_indent (fuel : Nat) (cs : List Char) :
    skipLines (fuel + 1) (' ' :: ' ' :: ' ' :: ' ' :: cs) = skipLines (fuel + 1) cs := by
  have hblank : skipBlank (' ' :: ' ' :: ' ' :: ' ' :: cs) = skipBlank cs := by
    simp [skipBlank, isBlank]
  rw [skipLines, skipLines, hblank]

def itemLines (items : List Data) : List Char :=
  items.flatMap fun d => "    ".toList ++ scalarChars d ++ [',', '\n']

theorem listChars_many (items : List Data) (h : 2 ≤ items.length) :
    listChars (items.map scalarChars) = '[' :: '\n' :: itemLines items ++ [']'] := by
  match items, h with
  | a :: b :: items, _ =>
    unfold itemLines
    rw [List.map_cons, List.map_cons, listChars, ← List.map_cons, ← List.map_cons,
      List.flatMap_map]
    · rfl
    · simp
    · simp

theorem skipLines_scalarChars {d : Data} (hd : IsScalar d) (fuel : Nat) (rest : List Char) :
    skipLines (fuel + 1) (scalarChars d ++ rest) = some (scalarChars d ++ rest) := by
  obtain ⟨c, tail, htext, hc⟩ := scalarChars_start hd
  rw [htext]
  exact skipLines_start ⟨isBlank_of_kind hc rfl rfl, ne_of_kind hc rfl, ne_of_kind hc rfl,
    ne_of_kind hc rfl⟩ _ _

/-- One item and what follows it, from where it begins. -/
theorem items?_item {fuel depth : Nat} {cs rest : List Char} {d : Data} (hd : IsScalar d)
    (hskip : skipLines (cs.length + 1) cs = some (scalarChars d ++ rest)) (hrest : Ended rest) :
    items? (fuel + 2) depth cs = (do
      match ← skipLines (rest.length + 1) rest with
      | ']' :: rest => return ([d], rest)
      | ',' :: rest =>
        let (others, rest) ← items? (fuel + 1) depth rest
        return (d :: others, rest)
      | _ => none) := by
  have hvalue := value?_scalar hd hrest fuel depth
  obtain ⟨c, tail, htext, hc⟩ := scalarChars_start hd
  rw [items?, hskip]
  simp only [Option.bind_eq_bind, Option.bind_some]
  split
  case h_1 heq =>
    rw [htext] at heq
    obtain rfl := (List.cons.inj heq).1
    cases hc
  case h_2 =>
    rw [hvalue]
    rfl

theorem items?_last {d : Data} (hd : IsScalar d) (fuel depth : Nat) (rest : List Char) :
    items? (fuel + 2) depth (scalarChars d ++ ']' :: rest) = some ([d], rest) := by
  rw [items?_item hd (skipLines_scalarChars hd _ _) ⟨_, _, rfl, by simp⟩,
    skipLines_start (by decide)]
  rfl

theorem items?_line {d : Data} (hd : IsScalar d) (fuel depth : Nat) (rest : List Char) :
    items? (fuel + 2) depth ('\n' :: ("    ".toList ++ scalarChars d ++ ',' :: rest)) =
      (items? (fuel + 1) depth rest).map fun found => (d :: found.1, found.2) := by
  have hskip : skipLines (('\n' :: ("    ".toList ++ scalarChars d ++ ',' :: rest)).length + 1)
      ('\n' :: ("    ".toList ++ scalarChars d ++ ',' :: rest)) =
      some (scalarChars d ++ ',' :: rest) := by
    rw [List.length_cons, skipLines_newline, List.append_assoc]
    exact (skipLines_indent _ _).trans (skipLines_scalarChars hd _ _)
  rw [items?_item hd hskip ⟨_, _, rfl, by simp⟩, skipLines_start (by decide)]
  simp only [Option.bind_eq_bind, Option.bind_some]
  cases items? (fuel + 1) depth rest <;> rfl

theorem items?_empty (fuel depth : Nat) (rest : List Char) :
    items? (fuel + 1) depth (']' :: rest) = some ([], rest) := by
  rw [items?, skipLines_start (by decide)]
  rfl

theorem items?_close (fuel depth : Nat) (rest : List Char) :
    items? (fuel + 1) depth ('\n' :: ']' :: rest) = some ([], rest) := by
  rw [items?, List.length_cons, skipLines_newline, skipLines_start (by decide)]
  rfl

theorem items?_itemLines {items : List Data} (hitems : ∀ d ∈ items, IsScalar d) (depth : Nat)
    (rest : List Char) {fuel : Nat} (hfuel : items.length < fuel) :
    items? fuel depth ('\n' :: (itemLines items ++ ']' :: rest)) = some (items, rest) := by
  induction items generalizing fuel with
  | nil =>
    obtain ⟨n, rfl⟩ : ∃ n, fuel = n + 1 := ⟨fuel - 1, by omega⟩
    exact items?_close n depth rest
  | cons d items ih =>
    rw [List.length_cons] at hfuel
    obtain ⟨n, rfl⟩ : ∃ n, fuel = n + 2 := ⟨fuel - 2, by omega⟩
    have htext : itemLines (d :: items) ++ ']' :: rest =
        "    ".toList ++ scalarChars d ++ ',' :: '\n' :: (itemLines items ++ ']' :: rest) := by
      simp [itemLines]
    rw [htext, items?_line (hitems d List.mem_cons_self),
      ih (fun e he => hitems e (List.mem_cons_of_mem d he)) (by omega)]
    rfl

theorem length_le_itemLines (items : List Data) : items.length ≤ (itemLines items).length := by
  induction items with
  | nil => exact Nat.zero_le _
  | cons d items ih =>
    have htext : itemLines (d :: items) =
        "    ".toList ++ scalarChars d ++ [',', '\n'] ++ itemLines items := rfl
    rw [htext]
    simp only [List.length_append, List.length_cons]
    omega

theorem value?_list {fuel depth : Nat} (hdepth : 1 < depth) {cs rest : List Char}
    {items : List Data} (h : items? fuel (depth - 1) cs = some (items, rest)) :
    value? (fuel + 1) depth ('[' :: cs) = some (.list items, rest) := by
  rw [value?]
  simp [hdepth, h]

/-- Values that can be written: in a line, or lists of such. -/
def IsWritable (d : Data) : Prop :=
  IsScalar d ∨ ∃ items, d = .list items ∧ ∀ e ∈ items, IsScalar e

theorem valueChars_scalar {d : Data} (hd : IsScalar d) : valueChars d = scalarChars d := by
  cases d with
  | list items => exact hd.elim
  | _ => rfl

/-- A value reads back, given a step for each of its characters. -/
theorem value?_valueChars {d : Data} (hd : IsWritable d) {rest : List Char} (hrest : Ended rest)
    {fuel : Nat} (hfuel : (valueChars d).length + 3 ≤ fuel) {depth : Nat} (hdepth : 1 < depth) :
    value? fuel depth (valueChars d ++ rest) = some (d, rest) := by
  obtain ⟨n, rfl⟩ : ∃ n, fuel = n + 3 := ⟨fuel - 3, by omega⟩
  rcases hd with hd | ⟨items, rfl, hitems⟩
  · rw [valueChars_scalar hd]
    exact value?_scalar hd hrest (n + 2) depth
  · by_cases hmany : 2 ≤ items.length
    · have htext : valueChars (.list items) = '[' :: '\n' :: itemLines items ++ [']'] :=
        listChars_many items hmany
      have hlength := length_le_itemLines items
      rw [htext] at hfuel ⊢
      simp only [List.cons_append, List.append_assoc, List.length_cons, List.length_append]
        at hfuel ⊢
      exact value?_list hdepth (items?_itemLines hitems _ rest (by omega))
    · match items, hitems, hmany with
      | [], _, _ => exact value?_list hdepth (items?_empty (n + 1) _ rest)
      | [e], hitems, _ =>
        have htext : valueChars (.list [e]) ++ rest = '[' :: (scalarChars e ++ ']' :: rest) := by
          simp [valueChars, listChars]
        rw [htext]
        exact value?_list hdepth (items?_last (hitems e List.mem_cons_self) n _ rest)
      | _ :: _ :: _, _, hmany => exact (hmany (by simp)).elim

end LiveSound.Toml
