import LiveSound.Numeric.Decimal
import LiveSound.Proofs.Numeric.Widening

/-!
# Decimal text reads back

The digits found for a number of 64 bits are digits of that number: either they were tried, or they
are those of its exact value. Laid out with a point they still have that value.
-/

namespace LiveSound

/-! ## Digits -/

theorem isDigit_of_mem_digitsOf {n : Nat} {c : Char} (hc : c ∈ digitsOf n) : c.isDigit :=
  Nat.isDigit_of_mem_toDigits (by decide) (by decide) hc

theorem digitsOf_ne_nil (n : Nat) : digitsOf n ≠ [] := Nat.toDigits_ne_nil

theorem digitsOf_zero : digitsOf 0 = ['0'] := Nat.toDigits_zero 10

theorem value_digitsOf (n : Nat) : Nat.ofDigitChars 10 (digitsOf n) 0 = n :=
  Nat.ofDigitChars_ten_toDigits

theorem digitsOf_mul_ten {n : Nat} (hn : n ≠ 0) : digitsOf (n * 10) = digitsOf n ++ ['0'] := by
  unfold digitsOf
  rw [Nat.toDigits_of_base_le (by decide) (by omega), Nat.mul_div_cancel _ (by decide),
    Nat.mul_mod_left]
  rfl

/-- No digits begin with a zero but those of zero. -/
theorem head?_digitsOf {n : Nat} (hn : n ≠ 0) : (digitsOf n).head? ≠ some '0' := by
  induction n using Nat.strongRecOn with
  | ind n ih =>
    unfold digitsOf
    rw [Nat.toDigits_eq_if (by decide)]
    by_cases hlt : n < 10
    · rw [if_pos hlt, List.head?_cons]
      intro heq
      have := Nat.toNat_digitChar_sub_48_of_lt_ten hlt
      rw [Option.some.inj heq] at this
      exact hn this.symm
    · have hprefix := ih (n / 10) (by omega) (by omega)
      obtain ⟨c, cs, hcs⟩ := List.exists_cons_of_ne_nil (digitsOf_ne_nil (n / 10))
      unfold digitsOf at hprefix hcs
      rw [hcs] at hprefix
      rw [if_neg hlt, hcs]
      exact hprefix

namespace Decimal

/-- A zero at the end of the digits may as well be in the exponent. -/
theorem toBinary64_mul_ten (negative : Bool) (c : Nat) (e : Int) :
    (mk negative (c * 10) e).toBinary64 = (mk negative c (e + 1)).toBinary64 := by
  by_cases hc : c = 0
  · simp [hc, toBinary64]
  have hlength : (digitsOf (c * 10)).length = (digitsOf c).length + 1 := by
    rw [digitsOf_mul_ten hc, List.length_append, List.length_singleton]
  have htop : (((digitsOf (c * 10)).length : Nat) : Int) + e = (digitsOf c).length + (e + 1) := by
    omega
  have hvalue : Binary64.ofRatio negative (ratio ⟨negative, c * 10, e⟩).1
        (ratio ⟨negative, c * 10, e⟩).2 =
      Binary64.ofRatio negative (ratio ⟨negative, c, e + 1⟩).1 (ratio ⟨negative, c, e + 1⟩).2 := by
    unfold ratio
    by_cases hpos : 0 ≤ e
    · have hsucc : (e + 1).toNat = e.toNat + 1 := by omega
      simp only [hpos, show (0 : Int) ≤ e + 1 by omega, if_true, hsucc, Nat.pow_eq]
      rw [Nat.pow_succ, Nat.mul_comm (10 ^ e.toNat) 10, Nat.mul_assoc]
    · obtain ⟨k, rfl⟩ : ∃ k : Nat, e = -((k : Int) + 1) := ⟨(-e).toNat - 1, by omega⟩
      have hten : Binary64.ofRatio negative (c * 10) (10 ^ (k + 1)) =
          Binary64.ofRatio negative c (10 ^ k) := by
        unfold Binary64.ofRatio
        rw [Nat.pow_succ, Layout.round_mul_mul _ _ _ (by decide)]
      have hnext : (-(-((k : Int) + 1) + 1)).toNat = k := by omega
      have hthis : (-(-((k : Int) + 1))).toNat = k + 1 := by omega
      simp only [hpos, if_false, hthis, Nat.pow_eq, hten]
      split
      · have hk : k = 0 := by omega
        simp [hk]
      · rw [hnext]
  unfold toBinary64
  simp only [htop, hvalue, hc, Nat.mul_eq_zero, or_false, false_or,
    show (10 : Nat) ≠ 0 by decide]

theorem toBinary64_mul_pow (negative : Bool) (c k : Nat) (e : Int) :
    (mk negative (c * 10 ^ k) (e - k)).toBinary64 = (mk negative c e).toBinary64 := by
  induction k generalizing e with
  | zero => simp
  | succ k ih =>
    rw [Nat.pow_succ, ← Nat.mul_assoc, toBinary64_mul_ten,
      show e - ((k + 1 : Nat) : Int) + 1 = e - k by omega]
    exact ih e

theorem ratio_pos (d : Decimal) : 0 < d.ratio.2 := by
  unfold ratio
  split
  · exact Nat.one_pos
  · exact Nat.pow_pos (by decide)

theorem lt_pow_length (n : Nat) : n < 10 ^ (digitsOf n).length :=
  (Nat.length_toDigits_le_iff (by decide) (List.length_pos_iff.mpr (digitsOf_ne_nil n))).mp
    (Nat.le_refl _)

/-- A number with its digits far behind the point is less than one. -/
theorem ratio_lt {d : Decimal}
    (small : d.coefficient = 0 ∨ (digitsOf d.coefficient).length + d.exponent < 0) :
    d.ratio.1 < d.ratio.2 := by
  rcases small with zero | below
  · unfold ratio
    split
    · simp [zero]
    · rw [zero]
      exact Nat.pow_pos (by decide)
  · have negative : ¬ 0 ≤ d.exponent := by omega
    rw [ratio, if_neg negative]
    exact Nat.lt_of_lt_of_le (lt_pow_length d.coefficient)
      (Nat.pow_le_pow_right (by decide) (by omega))

theorem toBinary64_normalize (fuel : Nat) (d : Decimal) :
    (d.normalize fuel).toBinary64 = d.toBinary64 := by
  induction fuel generalizing d with
  | zero => rfl
  | succ fuel ih =>
    unfold normalize
    split
    case isTrue h =>
      rw [ih]
      have hten : d.coefficient / 10 * 10 = d.coefficient :=
        Nat.div_mul_cancel (Nat.dvd_of_mod_eq_zero h.1)
      rw [← toBinary64_mul_ten, hten]
    case isFalse => rfl

end Decimal

namespace Binary64

/-! ## The digits that are found -/

theorem onGrid_some {x : Binary64} {num den : Nat} {exponent : Int} {d : Decimal}
    (h : onGrid x num den exponent = some d) : d.toBinary64 = x := by
  unfold onGrid at h
  simp only at h
  obtain ⟨c, -, hc⟩ := List.exists_of_findSome?_eq_some h
  split at hc
  case isTrue heq =>
    cases hc
    exact heq
  case isFalse => cases hc

theorem units_lt {x : Binary64} (hx : x.isFinite) : x.units < 2 ^ 53 * 2 ^ 2046 := by
  have hlt := x.isFinite_iff.mp hx
  have hmod := Nat.mod_lt x.magnitude.toNat Layout.double.exponentWeight_pos
  have hwhole := Layout.double.shift_mul_add_significand x.magnitude.toNat
  have hweight : Layout.double.exponentWeight = 2 ^ 52 := rfl
  rw [Layout.double_infinity] at hlt
  rw [hweight] at hmod hwhole
  have hsig : Layout.double.significand x.magnitude.toNat < 2 ^ 53 := by
    unfold Layout.significand
    rw [hweight]
    split <;> omega
  have hshift : Layout.double.shift x.magnitude.toNat ≤ 2046 := by omega
  have hpow : 2 ^ Layout.double.shift x.magnitude.toNat ≤ 2 ^ 2046 :=
    Nat.pow_le_pow_right (by decide) hshift
  unfold units
  rw [Layout.units_eq]
  calc _ ≤ Layout.double.significand x.magnitude.toNat * 2 ^ 2046 := Nat.mul_le_mul_left _ hpow
    _ < 2 ^ 53 * 2 ^ 2046 := Nat.mul_lt_mul_of_pos_right hsig (Nat.two_pow_pos 2046)

/-- The exact digits are neither too few nor too many to be read. -/
theorem length_exact {x : Binary64} (hx : x.isFinite) (h0 : x.units ≠ 0) :
    673 < (digitsOf (x.units * 5 ^ Layout.double.lowest)).length ∧
      (digitsOf (x.units * 5 ^ Layout.double.lowest)).length ≤ 1474 := by
  have hlow : 10 ^ 673 ≤ 5 ^ Layout.double.lowest := by decide +kernel
  have hhigh : 2 ^ 53 * 2 ^ 2046 * 5 ^ Layout.double.lowest ≤ 10 ^ 1474 := by decide +kernel
  have hpos : 0 < 5 ^ Layout.double.lowest := Nat.pow_pos (by decide)
  constructor
  · rw [← Nat.not_le]
    intro hle
    refine Nat.not_lt.mpr ?_ ((Nat.length_toDigits_le_iff (by decide) (by decide)).mp hle)
    exact Nat.le_trans hlow (Nat.le_mul_of_pos_left _ (Nat.pos_of_ne_zero h0))
  · refine (Nat.length_toDigits_le_iff (by decide) (by decide)).mpr ?_
    exact Nat.lt_of_lt_of_le (Nat.mul_lt_mul_of_pos_right (units_lt hx) hpos) hhigh

/-- The exact value of a finite number, as a decimal fraction, reads back. -/
theorem exact_toBinary64 {x : Binary64} (hx : x.isFinite) (h0 : x.units ≠ 0) :
    (Decimal.mk x.isNegative (x.units * Nat.pow 5 Layout.double.lowest)
      (-(Layout.double.lowest : Int))).toBinary64 = x := by
  obtain ⟨hlow, hhigh⟩ := length_exact hx h0
  have hlowest : Layout.double.lowest = 1074 := rfl
  have hne : x.units * 5 ^ Layout.double.lowest ≠ 0 :=
    Nat.mul_ne_zero h0 (Nat.pos_iff_ne_zero.mp (Nat.pow_pos (by decide)))
  unfold Decimal.toBinary64
  simp only [Nat.pow_eq, hne, false_or]
  rw [if_neg (by omega), if_neg (by omega)]
  have hneg : ¬ (0 : Int) ≤ -(Layout.double.lowest : Int) := by omega
  simp only [Decimal.ratio, hneg, if_false]
  refine ofRatio_units hx (Nat.pow_pos (by decide)) ?_
  simp only [Int.neg_neg, Int.toNat_natCast, Nat.pow_eq, Layout.one_eq, Nat.mul_assoc,
    ← Nat.mul_pow]

/-- The digits of a finite number read back. -/
theorem shortest_toBinary64 {x : Binary64} (hx : x.isFinite) : x.shortest.toBinary64 = x := by
  unfold shortest
  by_cases h0 : x.units = 0
  · rw [if_pos h0]
    refine ofRatio_units hx (by decide : 0 < 1) ?_
    rw [h0, Nat.zero_mul, Nat.zero_mul]
  · rw [if_neg h0]
    simp only
    split
    case h_1 d hfound =>
      obtain ⟨n, -, hn⟩ := List.exists_of_findSome?_eq_some hfound
      rw [Decimal.toBinary64_normalize]
      exact onGrid_some hn
    case h_2 =>
      rw [Decimal.toBinary64_normalize]
      exact exact_toBinary64 hx h0

end Binary64

/-! ## Digits with a point -/

namespace Decimal

/-- The place of the point, counted from the first digit. -/
def position (d : Decimal) : Int :=
  if d.coefficient = 0 then 1 else (digitsOf d.coefficient).length + d.exponent

/-- The same number with at least one place after its point. -/
def pointed (d : Decimal) : Decimal :=
  if d.coefficient = 0 ∨ 0 ≤ d.exponent then
    ⟨d.negative, d.coefficient * 10 ^ (d.exponent.toNat + 1), -1⟩
  else d

theorem toBinary64_pointed (d : Decimal) : d.pointed.toBinary64 = d.toBinary64 := by
  unfold pointed
  split
  case isTrue h =>
    rcases h with zero | whole
    · simp [toBinary64, zero]
    · have moved := toBinary64_mul_pow d.negative d.coefficient (d.exponent.toNat + 1) d.exponent
      rwa [show d.exponent - ((d.exponent.toNat + 1 : Nat) : Int) = -1 by omega] at moved
  case isFalse => rfl

end Decimal

/-- Digits before and after a point that are a number's. -/
structure Decimal.Pointed (d : Decimal) (whole places : List Char) : Prop where
  whole_digits : ∀ c ∈ whole, c.isDigit
  places_digits : ∀ c ∈ places, c.isDigit
  whole_ne : whole ≠ []
  places_ne : places ≠ []
  /-- Only a zero of its own begins with a zero. -/
  whole_head : whole = ['0'] ∨ whole.head? ≠ some '0'
  literal : Decimal.mk d.negative (Nat.ofDigitChars 10 (whole ++ places) 0)
    (-(places.length : Int)) = d.pointed

theorem Decimal.Pointed.value {d : Decimal} {whole places : List Char}
    (h : d.Pointed whole places) :
    (Decimal.mk d.negative (Nat.ofDigitChars 10 (whole ++ places) 0)
      (-(places.length : Int))).toBinary64 = d.toBinary64 := by
  rw [h.literal, d.toBinary64_pointed]

namespace FloatStyle

theorem isDigit_of_mem_replicate {n : Nat} {c : Char} (hc : c ∈ List.replicate n '0') :
    c.isDigit := by
  rw [List.eq_of_mem_replicate hc]
  rfl

theorem positional_below (d : Decimal) {position : Int} (h0 : d.coefficient ≠ 0)
    (hle : position ≤ 0)
    (hposition : position = (digitsOf d.coefficient).length + d.exponent) :
    ∃ whole places, positional (digitsOf d.coefficient) position = whole ++ '.' :: places ∧
      d.Pointed whole places := by
  refine ⟨['0'], List.replicate (-position).toNat '0' ++ digitsOf d.coefficient, ?_, ?_⟩
  · simp [positional, hle]
  · refine ⟨by simp, ?_, by simp, by simp [digitsOf_ne_nil], Or.inl rfl, ?_⟩
    · intro c hc
      rcases List.mem_append.mp hc with hc | hc
      · exact isDigit_of_mem_replicate hc
      · exact isDigit_of_mem_digitsOf hc
    · have hvalue : Nat.ofDigitChars 10
          (['0'] ++ (List.replicate (-position).toNat '0' ++ digitsOf d.coefficient)) 0 =
          d.coefficient := by
        rw [Nat.ofDigitChars_append, Nat.ofDigitChars_append, Nat.ofDigitChars_cons,
          Nat.ofDigitChars_nil, Nat.ofDigitChars_replicate_zero]
        exact value_digitsOf d.coefficient
      have hexponent : -(((List.replicate (-position).toNat '0' ++
          digitsOf d.coefficient).length : Nat) : Int) = d.exponent := by
        rw [List.length_append, List.length_replicate]
        omega
      have hpos := List.length_pos_iff.mpr (digitsOf_ne_nil d.coefficient)
      have hpointed : d.pointed = d := if_neg (not_or.mpr ⟨h0, by omega⟩)
      rw [hvalue, hexponent, hpointed]

theorem positional_whole (d : Decimal) {position : Int} (h0 : d.coefficient ≠ 0)
    (hle : ((digitsOf d.coefficient).length : Int) ≤ position)
    (hposition : position = (digitsOf d.coefficient).length + d.exponent) :
    ∃ whole places, positional (digitsOf d.coefficient) position = whole ++ '.' :: places ∧
      d.Pointed whole places := by
  have hpos := List.length_pos_iff.mpr (digitsOf_ne_nil d.coefficient)
  obtain ⟨k, hk⟩ : ∃ k : Nat, d.exponent = k := ⟨d.exponent.toNat, by omega⟩
  have hbefore : position.toNat = (digitsOf d.coefficient).length + k := by omega
  refine ⟨digitsOf d.coefficient ++ List.replicate k '0', ['0'], ?_, ?_⟩
  · unfold positional
    rw [if_neg (by omega)]
    simp [hbefore, List.take_of_length_le]
  · refine ⟨?_, by simp, by simp [digitsOf_ne_nil], by simp, Or.inr ?_, ?_⟩
    · intro c hc
      rcases List.mem_append.mp hc with hc | hc
      · exact isDigit_of_mem_digitsOf hc
      · exact isDigit_of_mem_replicate hc
    · obtain ⟨c, cs, hcs⟩ := List.exists_cons_of_ne_nil (digitsOf_ne_nil d.coefficient)
      have hhead := head?_digitsOf h0
      rw [hcs] at hhead ⊢
      exact hhead
    · have hvalue : Nat.ofDigitChars 10 (digitsOf d.coefficient ++ List.replicate k '0' ++ ['0']) 0 =
          d.coefficient * 10 ^ (k + 1) := by
        rw [List.append_assoc, ← List.replicate_succ', Nat.ofDigitChars_append, value_digitsOf,
          Nat.ofDigitChars_replicate_zero, Nat.mul_comm]
      have hpointed : d.pointed =
          ⟨d.negative, d.coefficient * 10 ^ (d.exponent.toNat + 1), -1⟩ :=
        if_pos (Or.inr (by omega))
      rw [hvalue, hpointed, hk, Int.toNat_natCast]
      rfl

theorem positional_between (d : Decimal) {position : Int} (h0 : d.coefficient ≠ 0)
    (hpos : 0 < position) (hlt : position < (digitsOf d.coefficient).length)
    (hposition : position = (digitsOf d.coefficient).length + d.exponent) :
    ∃ whole places, positional (digitsOf d.coefficient) position = whole ++ '.' :: places ∧
      d.Pointed whole places := by
  have hdrop : (digitsOf d.coefficient).drop position.toNat ≠ [] := by
    rw [Ne, List.drop_eq_nil_iff]
    omega
  refine ⟨(digitsOf d.coefficient).take position.toNat,
    (digitsOf d.coefficient).drop position.toNat, ?_, ?_⟩
  · unfold positional
    rw [if_neg (by omega)]
    simp [hdrop, show position.toNat - (digitsOf d.coefficient).length = 0 by omega]
  · obtain ⟨c, cs, hcs⟩ := List.exists_cons_of_ne_nil (digitsOf_ne_nil d.coefficient)
    obtain ⟨n, hn⟩ : ∃ n, position.toNat = n + 1 := ⟨position.toNat - 1, by omega⟩
    have hhead := head?_digitsOf h0
    refine ⟨fun c hc => isDigit_of_mem_digitsOf (List.mem_of_mem_take hc),
      fun c hc => isDigit_of_mem_digitsOf (List.mem_of_mem_drop hc), ?_, hdrop, Or.inr ?_, ?_⟩
    · rw [hcs, hn, List.take_succ_cons]
      exact List.cons_ne_nil _ _
    · rw [hcs] at hhead ⊢
      rw [hn, List.take_succ_cons]
      exact hhead
    · have hexponent : -((((digitsOf d.coefficient).drop position.toNat).length : Nat) : Int) =
          d.exponent := by
        rw [List.length_drop]
        omega
      have hpointed : d.pointed = d := if_neg (not_or.mpr ⟨h0, by omega⟩)
      rw [List.take_append_drop, value_digitsOf, hexponent, hpointed]

/-- A number laid out with a point has its digits on both sides of it. -/
theorem positional_pointed (d : Decimal) :
    ∃ whole places, positional (digitsOf d.coefficient) d.position = whole ++ '.' :: places ∧
      d.Pointed whole places := by
  unfold Decimal.position
  by_cases h0 : d.coefficient = 0
  · refine ⟨['0'], ['0'], ?_, by simp, by simp, by simp, by simp, Or.inl rfl, ?_⟩
    · rw [if_pos h0, h0, digitsOf_zero]
      rfl
    · simp [Decimal.pointed, h0, Nat.ofDigitChars]
  · rw [if_neg h0]
    by_cases hle : ((digitsOf d.coefficient).length : Int) + d.exponent ≤ 0
    · exact positional_below d h0 hle rfl
    · by_cases hexponent : 0 ≤ d.exponent
      · exact positional_whole d h0 (by omega) rfl
      · exact positional_between d h0 (by omega) (by omega) rfl

theorem write_positional (d : Decimal) :
    ∃ whole places, (write ⟨none, none⟩ d).toList =
        (if d.negative then ['-'] else []) ++ (whole ++ '.' :: places) ∧
      d.Pointed whole places := by
  obtain ⟨whole, places, htext, hpointed⟩ := positional_pointed d
  refine ⟨whole, places, ?_, hpointed⟩
  have hbody : positional (digitsOf d.coefficient)
      (if d.coefficient = 0 then 1 else ((digitsOf d.coefficient).length : Int) + d.exponent) =
      whole ++ '.' :: places := htext
  unfold write
  simp only [Option.all_none, Bool.and_self, if_true, hbody, String.toList_ofList]
  split <;> rfl

end FloatStyle

end LiveSound
