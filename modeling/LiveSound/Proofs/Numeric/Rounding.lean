import LiveSound.Numeric.Binary
import Mathlib.Algebra.Group.Nat.Defs

/-!
# Rounding is exact where it can be

A magnitude is its significand times a power of two, so the magnitudes of a layout are exactly the
numbers whose significand is short enough. A fraction that is one of these rounds to it, however
the fraction is written; this is what makes widening lossless and narrowing undo it.
-/

namespace LiveSound

theorem roundHalfEven_mul (q : Nat) {den : Nat} (hden : 0 < den) :
    roundHalfEven (q * den) den = q := by
  unfold roundHalfEven
  simp only [Nat.mul_div_cancel q hden, Nat.mul_mod_left]
  rw [if_pos (Or.inl (by omega))]

theorem roundHalfEven_mul_mul (num den : Nat) {k : Nat} (hk : 0 < k) :
    roundHalfEven (num * k) (den * k) = roundHalfEven num den := by
  have hlt : 2 * (num % den * k) < den * k ↔ 2 * (num % den) < den := by
    rw [← Nat.mul_assoc, Nat.mul_lt_mul_right hk]
  have heq : 2 * (num % den * k) = den * k ↔ 2 * (num % den) = den := by
    rw [← Nat.mul_assoc, Nat.mul_left_inj (by omega)]
  simp only [roundHalfEven, Nat.mul_div_mul_right _ _ hk, Nat.mul_mod_mul_right, hlt, heq]

namespace Layout

variable {l : Layout}

theorem exponentWeight_eq (l : Layout) : l.exponentWeight = 2 ^ l.fractionBits := rfl

theorem one_eq (l : Layout) : l.one = 2 ^ l.lowest := rfl

theorem exponentWeight_pos (l : Layout) : 0 < l.exponentWeight := Nat.two_pow_pos _

theorem one_pos (l : Layout) : 0 < l.one := Nat.two_pow_pos _

/-- The fraction of a magnitude, with the leading bit where there is one. -/
def significand (l : Layout) (magnitude : Nat) : Nat :=
  if magnitude < l.exponentWeight then magnitude
  else l.exponentWeight + magnitude % l.exponentWeight

/-- How far a magnitude's significand is moved to the left. -/
def shift (l : Layout) (magnitude : Nat) : Nat := magnitude / l.exponentWeight - 1

theorem units_eq (l : Layout) (m : Nat) : l.units m = l.significand m * 2 ^ l.shift m := by
  unfold units significand shift
  by_cases hm : m < l.exponentWeight
  · simp [hm, Nat.div_eq_of_lt hm, Nat.mod_eq_of_lt hm]
  · have hdiv : m / l.exponentWeight ≠ 0 := by
      have := Nat.div_pos (Nat.le_of_not_lt hm) l.exponentWeight_pos
      omega
    simp [hm, hdiv]

theorem shift_mul_add_significand (l : Layout) (m : Nat) :
    l.shift m * l.exponentWeight + l.significand m = m := by
  unfold significand shift
  by_cases hm : m < l.exponentWeight
  · simp [hm, Nat.div_eq_of_lt hm]
  · have hdiv : 0 < m / l.exponentWeight :=
      Nat.div_pos (Nat.le_of_not_lt hm) l.exponentWeight_pos
    have hmod := Nat.div_add_mod m l.exponentWeight
    obtain ⟨e, he⟩ := Nat.exists_eq_succ_of_ne_zero (Nat.pos_iff_ne_zero.mp hdiv)
    rw [he, Nat.mul_succ, Nat.mul_comm] at hmod
    simp only [hm, if_false, he, Nat.succ_sub_one]
    omega

/-- The shift is what is left of a magnitude's length without the fraction. -/
theorem log2_units (l : Layout) (m : Nat) :
    Nat.log2 (l.units m) - l.fractionBits = l.shift m := by
  rw [units_eq]
  by_cases hm : m < l.exponentWeight
  · have hshift : l.shift m = 0 := by simp [shift, Nat.div_eq_of_lt hm]
    have hsig : l.significand m = m := by simp [significand, hm]
    rw [hshift, hsig, Nat.pow_zero, Nat.mul_one]
    by_cases h0 : m = 0
    · simp [h0]
    · have := (Nat.log2_lt h0).mpr hm
      omega
  · have hsig : l.significand m = l.exponentWeight + m % l.exponentWeight := by
      simp [significand, hm]
    have hlow : 2 ^ l.fractionBits ≤ l.significand m := by
      rw [hsig, exponentWeight_eq]
      omega
    have hhigh : l.significand m < 2 ^ (l.fractionBits + 1) := by
      have := Nat.mod_lt m l.exponentWeight_pos
      rw [hsig, Nat.pow_succ, ← exponentWeight_eq]
      omega
    have hpos : 0 < 2 ^ l.shift m := Nat.two_pow_pos _
    have hne : l.significand m * 2 ^ l.shift m ≠ 0 :=
      Nat.mul_ne_zero (by have := Nat.two_pow_pos l.fractionBits; omega) (by omega)
    have hlog : Nat.log2 (l.significand m * 2 ^ l.shift m) = l.fractionBits + l.shift m := by
      rw [Nat.log2_eq_iff hne, Nat.pow_add,
        show l.fractionBits + l.shift m + 1 = l.fractionBits + 1 + l.shift m by omega,
        Nat.pow_add 2 (l.fractionBits + 1)]
      exact ⟨Nat.mul_le_mul_right _ hlow, Nat.mul_lt_mul_of_pos_right hhigh hpos⟩
    omega

/-- Only the value of a fraction counts. -/
theorem round_mul_mul (l : Layout) (num den : Nat) {k : Nat} (hk : 0 < k) :
    l.round (num * k) (den * k) = l.round num den := by
  have hnum : num * k * l.one = num * l.one * k := Nat.mul_right_comm ..
  have hden (s : Nat) : den * k * Nat.pow 2 s = den * Nat.pow 2 s * k := Nat.mul_right_comm ..
  simp only [round, hnum, hden, Nat.mul_div_mul_right _ _ hk, roundHalfEven_mul_mul _ _ hk]

theorem round_of_units {num den m : Nat} (hden : 0 < den) (hnum : num * l.one = l.units m * den)
    (hm : m < l.infinity) : l.round num den = m := by
  have hpos : 0 < den * 2 ^ l.shift m := Nat.mul_pos hden (Nat.two_pow_pos _)
  have hdiv : num * l.one / den = l.units m := by rw [hnum, Nat.mul_div_cancel _ hden]
  have hround : roundHalfEven (num * l.one) (den * Nat.pow 2 (l.shift m)) = l.significand m := by
    rw [hnum, units_eq, Nat.mul_assoc, Nat.mul_comm (2 ^ l.shift m)]
    exact roundHalfEven_mul _ hpos
  simp only [round, hdiv, log2_units, hround, shift_mul_add_significand]
  exact Nat.min_eq_right (Nat.le_of_lt hm)

/-- A number with a short significand is a magnitude. -/
theorem exists_units (l : Layout) {a : Nat} (s : Nat) (ha : a < 2 * l.exponentWeight) :
    ∃ m, l.units m = a * 2 ^ s ∧ m ≤ (s + 1) * l.exponentWeight + a := by
  induction s generalizing a with
  | zero =>
    refine ⟨a, ?_, by omega⟩
    by_cases hlt : a < l.exponentWeight
    · rw [units_eq]
      simp [significand, shift, hlt, Nat.div_eq_of_lt hlt]
    · have hdiv : a / l.exponentWeight = 1 :=
        Nat.div_eq_of_lt_le (by omega) (by omega)
      have hmod := Nat.div_add_mod a l.exponentWeight
      rw [units_eq]
      simp only [significand, shift, hlt, hdiv] at hmod ⊢
      simp
      omega
  | succ s ih =>
    -- a significand without a leading bit takes the next power of two in
    by_cases hlt : a < l.exponentWeight
    · obtain ⟨m, hunits, hm⟩ := ih (a := 2 * a) (by omega)
      refine ⟨m, ?_, ?_⟩
      · rw [hunits, Nat.pow_succ, Nat.mul_comm (2 ^ s) 2, ← Nat.mul_assoc, Nat.mul_comm 2 a]
      · rw [Nat.succ_mul]
        omega
    · refine ⟨(s + 1) * l.exponentWeight + a, ?_, by
        rw [Nat.succ_mul (s + 1)]
        omega⟩
      have hdiv : ((s + 1) * l.exponentWeight + a) / l.exponentWeight = s + 2 := by
        refine Nat.div_eq_of_lt_le ?_ ?_ <;> simp only [Nat.succ_mul] <;> omega
      have hmod := Nat.div_add_mod ((s + 1) * l.exponentWeight + a) l.exponentWeight
      have hge : ¬ (s + 1) * l.exponentWeight + a < l.exponentWeight := by
        have := Nat.le_mul_of_pos_left l.exponentWeight (Nat.succ_pos s)
        omega
      rw [units_eq]
      simp only [significand, shift, hge, if_false, hdiv]
      congr 1
      rw [hdiv, Nat.mul_comm, Nat.succ_mul (s + 1)] at hmod
      omega

end Layout

end LiveSound
