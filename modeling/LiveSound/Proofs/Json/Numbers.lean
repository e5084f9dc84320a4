import LiveSound.Json.Reader
import LiveSound.Json.Writer
import LiveSound.Proofs.Numeric.Decimal

/-!
# Numbers read back

A `Literal` is the text of a number in its parts: a sign, digits, perhaps more of them after a
point, and perhaps an exponent. The reader finds the parts one after the other, so it finds the
decimal fraction that they stand for (`number_literal`). Whole numbers and those of 64 bits are both
written in this form (`natural`, `exists_literal`).
-/

namespace LiveSound.Json

/-- What follows a value. -/
def Ended (rest : List Char) : Prop :=
  ∀ c, rest.head? = some c → c = ',' ∨ c = ']' ∨ c = '\x7d'

theorem ended_cons {c : Char} (h : c = ',' ∨ c = ']' ∨ c = '\x7d') (rest : List Char) :
    Ended (c :: rest) := by
  intro d hd
  cases hd
  exact h

theorem ended_nil : Ended [] := nofun

/-- No more digits follow. -/
def Stops (rest : List Char) : Prop := ∀ c, rest.head? = some c → c.isDigit = false

theorem Ended.stops {rest : List Char} (h : Ended rest) : Stops rest := by
  intro c hc
  rcases h c hc with rfl | rfl | rfl <;> rfl

theorem stops_cons {c : Char} (h : c.isDigit = false) (rest : List Char) : Stops (c :: rest) := by
  intro d hd
  cases hd
  exact h

/-! ## Runs of digits -/

section Digits

variable {digits rest : List Char}

theorem takeWhile_digits (all : ∀ c ∈ digits, c.isDigit = true) (stops : Stops rest) :
    (digits ++ rest).takeWhile Char.isDigit = digits := by
  rw [List.takeWhile_append_of_pos all]
  cases rest with
  | nil => simp
  | cons c rest =>
    rw [List.takeWhile_cons_of_neg (by simp [stops c rfl]), List.append_nil]

theorem dropWhile_digits (all : ∀ c ∈ digits, c.isDigit = true) (stops : Stops rest) :
    (digits ++ rest).dropWhile Char.isDigit = rest := by
  rw [List.dropWhile_append_of_pos all]
  cases rest with
  | nil => rfl
  | cons c rest => rw [List.dropWhile_cons_of_neg (by simp [stops c rfl])]

theorem valueOf_eq (digits : List Char) : valueOf digits = Nat.ofDigitChars 10 digits 0 := by
  unfold valueOf
  generalize 0 = start
  induction digits generalizing start with
  | nil => rfl
  | cons c digits ih => rw [List.foldl_cons, ih, Nat.ofDigitChars_cons, Nat.mul_comm]

end Digits

/-! ## Literals -/

/-- The text of a number in its parts. -/
structure Literal where
  negative : Bool
  whole : List Char
  /-- The digits after the point, if there is one. -/
  places : Option (List Char)
  exponent : Option Int

namespace Literal

def placesChars : Option (List Char) → List Char
  | none => []
  | some places => '.' :: places

def exponentChars : Option Int → List Char
  | none => []
  | some n => 'e' :: (if n < 0 then '-' else '+') :: digitsOf n.natAbs

/-- The text without its sign. -/
def unsigned (l : Literal) : List Char :=
  l.whole ++ (placesChars l.places ++ exponentChars l.exponent)

def chars (l : Literal) : List Char := if l.negative then '-' :: l.unsigned else l.unsigned

/-- The number that it stands for. -/
def decimal (l : Literal) : Decimal :=
  ⟨l.negative, Nat.ofDigitChars 10 (l.whole ++ l.places.getD []) 0,
    l.exponent.getD 0 - ((l.places.getD []).length : Int)⟩

/-- There is neither a point nor an exponent. -/
def isWhole (l : Literal) : Bool := l.places.isNone && l.exponent.isNone

/-- The parts are digits, as the format has them. -/
structure Sound (l : Literal) : Prop where
  whole_digits : ∀ c ∈ l.whole, c.isDigit = true
  whole_ne : l.whole ≠ []
  /-- Only a zero of its own begins with a zero. -/
  whole_head : l.whole = ['0'] ∨ l.whole.head? ≠ some '0'
  places_digits : ∀ places, l.places = some places → ∀ c ∈ places, c.isDigit = true
  places_ne : ∀ places, l.places = some places → places ≠ []

variable {l : Literal} {rest : List Char}

theorem stops_exponent (n : Option Int) (ended : Ended rest) : Stops (exponentChars n ++ rest) := by
  cases n with
  | none => exact ended.stops
  | some n => exact stops_cons rfl _

theorem wholePart_whole (sound : l.Sound) (stops : Stops rest) :
    wholePart (l.whole ++ rest) = some (l.whole, rest) := by
  rcases sound.whole_head with zero | head
  · rw [zero]
    rfl
  · unfold wholePart
    split
    case h_1 heq =>
      obtain ⟨c, cs, whole⟩ := List.exists_cons_of_ne_nil sound.whole_ne
      rw [whole] at heq head
      cases heq
      exact (head rfl).elim
    case h_2 =>
      rw [takeWhile_digits sound.whole_digits stops, dropWhile_digits sound.whole_digits stops]
      simp [sound.whole_ne]

theorem fractionPart_none (h : rest.head? ≠ some '.') :
    fractionPart rest = some (none, rest) := by
  unfold fractionPart
  split
  case h_1 => exact (h rfl).elim
  case h_2 => rfl

theorem fractionPart_places (sound : l.Sound) (ended : Ended rest) :
    fractionPart (placesChars l.places ++ (exponentChars l.exponent ++ rest)) =
      some (l.places, exponentChars l.exponent ++ rest) := by
  have stops := stops_exponent l.exponent ended
  cases written : l.places with
  | none =>
    refine fractionPart_none fun point => ?_
    cases exponent : l.exponent with
    | none =>
      rw [exponent] at point
      rcases ended '.' point with h | h | h <;> cases h
    | some n =>
      rw [exponent] at point
      cases point
  | some places =>
    have digits := sound.places_digits places written
    rw [placesChars, List.cons_append, fractionPart, takeWhile_digits digits stops,
      dropWhile_digits digits stops]
    simp [sound.places_ne places written]

theorem exponentPart_ended (ended : Ended rest) : exponentPart rest = some (none, rest) := by
  unfold exponentPart
  split
  case h_1 e rest =>
    have other : ¬ (e = 'e' ∨ e = 'E') := by
      rcases ended e rfl with rfl | rfl | rfl <;> decide
    rw [if_neg other]
  case h_2 => rfl

theorem exponentPart_sign {sign : Char} (h : sign = '-' ∨ sign = '+') (m : Nat)
    (ended : Ended rest) :
    exponentPart ('e' :: sign :: (digitsOf m ++ rest)) =
      some (some (if sign = '-' then -(m : Int) else m), rest) := by
  have digits : ∀ c ∈ digitsOf m, c.isDigit = true := fun c hc => isDigit_of_mem_digitsOf hc
  have value : valueOf (digitsOf m) = m := by rw [valueOf_eq, value_digitsOf]
  rcases h with rfl | rfl
  all_goals
    simp [exponentPart, takeWhile_digits digits ended.stops, dropWhile_digits digits ended.stops,
      digitsOf_ne_nil, value]

theorem exponentPart_exponent (n : Option Int) (ended : Ended rest) :
    exponentPart (exponentChars n ++ rest) = some (n, rest) := by
  cases n with
  | none => exact exponentPart_ended ended
  | some n =>
    have number :
        (if (if n < 0 then '-' else '+') = '-' then -(n.natAbs : Int) else n.natAbs) = n := by
      by_cases negative : n < 0
      · rw [if_pos negative, if_pos rfl]
        omega
      · rw [if_neg negative, if_neg (by decide)]
        omega
    have sign : (if n < 0 then '-' else '+') = '-' ∨ (if n < 0 then '-' else '+') = '+' := by
      split <;> simp
    rw [exponentChars, List.cons_append, List.cons_append, exponentPart_sign sign _ ended, number]

theorem exists_whole (sound : l.Sound) : ∃ c cs, l.whole = c :: cs ∧ c.isDigit = true := by
  obtain ⟨c, cs, whole⟩ := List.exists_cons_of_ne_nil sound.whole_ne
  exact ⟨c, cs, whole, sound.whole_digits c (whole ▸ List.mem_cons_self)⟩

theorem number_literal (sound : l.Sound) (ended : Ended rest) :
    number (l.chars ++ rest) = some (numberOf l.decimal l.isWhole, rest) := by
  obtain ⟨c, cs, whole, digit⟩ := exists_whole sound
  have parts : l.unsigned ++ rest =
      l.whole ++ (placesChars l.places ++ (exponentChars l.exponent ++ rest)) := by
    rw [unsigned, List.append_assoc, List.append_assoc]
  have stops : Stops (placesChars l.places ++ (exponentChars l.exponent ++ rest)) := by
    cases l.places with
    | none => exact stops_exponent l.exponent ended
    | some places => exact stops_cons rfl _
  unfold number
  split
  next negative text sign =>
    have split_sign : negative = l.negative ∧ text = l.unsigned ++ rest := by
      unfold chars at sign
      cases negative : l.negative with
      | true =>
        rw [negative] at sign
        cases sign
        exact ⟨rfl, rfl⟩
      | false =>
        rw [negative, if_neg Bool.false_ne_true, unsigned, whole] at sign
        split at sign
        case h_1 heq =>
          -- no digit is a sign
          rw [(List.cons.inj heq).1] at digit
          cases digit
        case h_2 =>
          cases sign
          rw [unsigned, whole]
          exact ⟨rfl, rfl⟩
    obtain ⟨rfl, rfl⟩ := split_sign
    rw [parts]
    simp only [wholePart_whole sound stops, fractionPart_places sound ended,
      exponentPart_exponent l.exponent ended, Option.bind_eq_bind, Option.bind_some, valueOf_eq]
    rfl

/-- A digit or a minus begins nothing but a number. -/
theorem value_start {c : Char} (start : c.isDigit = true ∨ c = '-') (fuel : Nat)
    (rest : List Char) : value (fuel + 1) (c :: rest) = number (c :: rest) := by
  have ne {d : Char} (other : d.isDigit = false ∧ d ≠ '-') : c ≠ d := by
    rintro rfl
    rcases start with digit | minus
    · rw [other.1] at digit
      cases digit
    · exact other.2 minus
  have space : isSpace c = false := by
    simp [isSpace, ne (d := ' ') (by decide), ne (d := '\n') (by decide),
      ne (d := '\t') (by decide), ne (d := '\r') (by decide)]
  rw [value, skip, List.dropWhile_cons_of_neg (by simp [space])]
  split
  case h_1 heq => exact (ne (by decide) (List.cons.inj heq).1).elim
  case h_2 heq => exact (ne (by decide) (List.cons.inj heq).1).elim
  case h_3 heq => exact (ne (by decide) (List.cons.inj heq).1).elim
  case h_4 heq => exact (ne (by decide) (List.cons.inj heq).1).elim
  case h_5 heq => exact (ne (by decide) (List.cons.inj heq).1).elim
  case h_6 heq => exact (ne (by decide) (List.cons.inj heq).1).elim
  case h_7 => rfl

theorem exists_start (sound : l.Sound) :
    ∃ c cs, l.chars = c :: cs ∧ (c.isDigit = true ∨ c = '-') := by
  obtain ⟨c, cs, whole, digit⟩ := exists_whole sound
  unfold chars
  split
  · exact ⟨'-', _, rfl, .inr rfl⟩
  · exact ⟨c, _, by rw [unsigned, whole]; rfl, .inl digit⟩

/-! ## Whole numbers -/

def natural (n : Nat) : Literal := ⟨false, digitsOf n, none, none⟩

theorem chars_natural (n : Nat) : (natural n).chars = digitsOf n := by
  simp [chars, unsigned, natural, placesChars, exponentChars]

theorem sound_natural (n : Nat) : (natural n).Sound where
  whole_digits _ hc := isDigit_of_mem_digitsOf hc
  whole_ne := digitsOf_ne_nil n
  whole_head := by
    by_cases zero : n = 0
    · exact .inl (zero ▸ digitsOf_zero)
    · exact .inr (head?_digitsOf zero)
  places_digits _ h := by cases h
  places_ne _ h := by cases h

theorem numberOf_natural {n : Nat} (small : n < 2 ^ 64) :
    numberOf (natural n).decimal (natural n).isWhole = .integer n := by
  have decimal : (natural n).decimal = ⟨false, n, 0⟩ := by
    simp [natural, Literal.decimal, value_digitsOf]
  rw [decimal]
  simp only [numberOf, natural, isWhole, Option.isNone_none, Bool.and_self, Bool.true_and,
    Bool.not_false, decide_eq_true_eq]
  rw [if_pos (by omega)]

end Literal

/-! ## Numbers of 64 bits -/

def written (x : Binary64) : Decimal :=
  if -4 ≤ x.shortest.position ∧ x.shortest.position ≤ 16 then x.shortest.pointed
  else x.shortest

theorem exists_positional (d : Decimal) : ∃ l : Literal,
    l.unsigned = FloatStyle.positional (digitsOf d.coefficient) d.position ∧
      l.negative = d.negative ∧ l.Sound ∧ l.isWhole = false ∧ l.decimal = d.pointed := by
  obtain ⟨whole, places, text, pointed⟩ := FloatStyle.positional_pointed d
  refine ⟨⟨d.negative, whole, some places, none⟩, ?_, rfl, ?_, rfl, ?_⟩
  · rw [text]
    simp [Literal.unsigned, Literal.placesChars, Literal.exponentChars]
  · refine ⟨pointed.whole_digits, pointed.whole_ne, pointed.whole_head, ?_, ?_⟩
    · rintro _ ⟨⟩
      exact pointed.places_digits
    · rintro _ ⟨⟩
      exact pointed.places_ne
  · rw [← pointed.literal]
    simp [Literal.decimal]

theorem exists_scientific {d : Decimal} (nonzero : d.coefficient ≠ 0) : ∃ l : Literal,
    l.unsigned = FloatStyle.scientific (digitsOf d.coefficient) d.position ∧
      l.negative = d.negative ∧ l.Sound ∧ l.isWhole = false ∧ l.decimal = d := by
  obtain ⟨first, rest, digits⟩ := List.exists_cons_of_ne_nil (digitsOf_ne_nil d.coefficient)
  have all : ∀ c ∈ first :: rest, c.isDigit = true := fun c hc =>
    isDigit_of_mem_digitsOf (digits ▸ hc)
  have head : first ≠ '0' := by
    have := head?_digitsOf nonzero
    rw [digits] at this
    simpa using this
  have position : d.position = (rest.length + 1 : Nat) + d.exponent := by
    rw [Decimal.position, if_neg nonzero, digits, List.length_cons]
  have value : Nat.ofDigitChars 10 (first :: rest) 0 = d.coefficient := by
    rw [← digits, value_digitsOf]
  have sound (places : Option (List Char)) (h : ∀ ps, places = some ps → ps = rest ∧ rest ≠ []) :
      (Literal.mk d.negative [first] places (some (d.position - 1))).Sound := by
    refine ⟨?_, by simp, .inr (by simpa using head), fun ps some_places c hc => ?_,
      fun ps some_places => ?_⟩
    · simpa using all first List.mem_cons_self
    · exact all c (List.mem_cons_of_mem _ ((h ps some_places).1 ▸ hc))
    · exact (h ps some_places).1 ▸ (h ps some_places).2
  cases rest with
  | nil =>
    refine ⟨_, ?_, rfl, sound none nofun, rfl, ?_⟩
    · rw [digits]
      rfl
    · simp only [Literal.decimal, Option.getD_none, List.append_nil, value, position, Option.getD_some]
      congr 1
      rw [List.length_nil]
      omega
  | cons next more =>
    refine ⟨_, ?_, rfl, sound (some (next :: more)) ?_, rfl, ?_⟩
    · rw [digits]
      rfl
    · rintro _ ⟨⟩
      exact ⟨rfl, List.cons_ne_nil _ _⟩
    · simp only [Literal.decimal, Option.getD_some, List.singleton_append, value, position]
      congr 1
      omega

theorem toList_write (d : Decimal) :
    (floatStyle.write d).toList =
      let body :=
        if -4 ≤ d.position ∧ d.position ≤ 16 then
          FloatStyle.positional (digitsOf d.coefficient) d.position
        else FloatStyle.scientific (digitsOf d.coefficient) d.position
      if d.negative then '-' :: body else body := by
  unfold FloatStyle.write floatStyle
  simp only [Option.all_some, String.toList_ofList, Bool.and_eq_true, decide_eq_true_eq]
  rfl

theorem exists_literal {x : Binary64} (finite : x.isFinite = true) : ∃ l : Literal,
    (floatText x).toList = l.chars ∧ l.Sound ∧ l.isWhole = false ∧ l.decimal = written x := by
  have text : (floatText x).toList = (floatStyle.write x.shortest).toList := by
    rw [floatText, if_pos finite]
  rw [text, toList_write]
  unfold written
  by_cases inside : -4 ≤ x.shortest.position ∧ x.shortest.position ≤ 16
  · obtain ⟨l, unsigned, negative, sound, whole, decimal⟩ := exists_positional x.shortest
    refine ⟨l, ?_, sound, whole, ?_⟩
    · rw [Literal.chars, unsigned, negative]
      simp only [if_pos inside]
    · rw [decimal, if_pos inside]
  · have nonzero : x.shortest.coefficient ≠ 0 := by
      intro zero
      exact inside (by rw [Decimal.position, if_pos zero]; decide)
    obtain ⟨l, unsigned, negative, sound, whole, decimal⟩ := exists_scientific nonzero
    refine ⟨l, ?_, sound, whole, ?_⟩
    · rw [Literal.chars, unsigned, negative]
      simp only [if_neg inside]
    · rw [decimal, if_neg inside]

/-- The decimal fraction that is written is the number's own. -/
theorem written_toBinary64 {x : Binary64} (finite : x.isFinite = true) :
    (written x).toBinary64 = x := by
  unfold written
  split
  · rw [Decimal.toBinary64_pointed, Binary64.shortest_toBinary64 finite]
  · exact Binary64.shortest_toBinary64 finite

end LiveSound.Json
