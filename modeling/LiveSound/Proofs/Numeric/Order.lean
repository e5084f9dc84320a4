import LiveSound.Proofs.Numeric.Widening
import Mathlib.Algebra.Order.Field.Rat
import Mathlib.Tactic.Ring

/-!
# Rounding keeps the order

Of two fractions the smaller one is not rounded to a larger number. Within one power of two that is
so because rounding to a whole number keeps the order. Across powers of two the last magnitude of
one power is the first of the next.
-/

namespace LiveSound

variable {num den num' den' k : Nat}

/-- The whole part of a larger fraction is not smaller. -/
theorem div_le_of_cross (pos : 0 < den) (pos' : 0 < den') (h : num * den' ≤ num' * den) :
    num / den ≤ num' / den' := by
  refine (Nat.le_div_iff_mul_le pos').mpr (Nat.le_of_mul_le_mul_right ?_ pos)
  calc num / den * den' * den = num / den * den * den' := Nat.mul_right_comm ..
    _ ≤ num * den' := Nat.mul_le_mul_right _ (Nat.div_mul_le_self num den)
    _ ≤ num' * den := h

theorem roundHalfEven_le (pos : 0 < den) (h : num ≤ k * den) : roundHalfEven num den ≤ k := by
  have parts := Nat.div_add_mod num den
  have small := Nat.mod_lt num pos
  unfold roundHalfEven
  simp only
  by_cases lt : num / den < k
  · split <;> omega
  · -- the quotient is `k`, so nothing is left over
    have quotient : num / den = k := by
      have := Nat.div_le_of_le_mul (Nat.mul_comm k den ▸ h)
      omega
    rw [quotient, Nat.mul_comm den k] at parts
    rw [if_pos (by omega)]
    exact Nat.le_of_eq quotient

theorem le_roundHalfEven (pos : 0 < den) (h : k * den ≤ num) : k ≤ roundHalfEven num den := by
  have floor : k ≤ num / den := (Nat.le_div_iff_mul_le pos).mpr h
  unfold roundHalfEven
  simp only
  split <;> omega

/-- Remainders compared with one half: the larger fraction reaches it if the smaller one does, and
the smaller one does not pass it if the larger one does not. -/
theorem halves {r r' : Nat} (pos : 0 < den) (pos' : 0 < den') (h : r * den' ≤ r' * den) :
    (den ≤ 2 * r → den' ≤ 2 * r') ∧ (2 * r' ≤ den' → 2 * r ≤ den) := by
  constructor
  · intro half
    refine Nat.le_of_mul_le_mul_left ?_ pos
    calc den * den' ≤ 2 * r * den' := Nat.mul_le_mul_right _ half
      _ = 2 * (r * den') := Nat.mul_assoc ..
      _ ≤ 2 * (r' * den) := Nat.mul_le_mul_left _ h
      _ = den * (2 * r') := by ring
  · intro half
    refine Nat.le_of_mul_le_mul_right ?_ pos'
    calc 2 * r * den' = 2 * (r * den') := Nat.mul_assoc ..
      _ ≤ 2 * (r' * den) := Nat.mul_le_mul_left _ h
      _ = 2 * r' * den := (Nat.mul_assoc ..).symm
      _ ≤ den' * den := Nat.mul_le_mul_right _ half
      _ = den * den' := Nat.mul_comm ..

theorem roundHalfEven_mono (pos : 0 < den) (pos' : 0 < den') (h : num * den' ≤ num' * den) :
    roundHalfEven num den ≤ roundHalfEven num' den' := by
  have parts := Nat.div_add_mod num den
  have parts' := Nat.div_add_mod num' den'
  have small := Nat.mod_lt num pos
  have floor := div_le_of_cross pos pos' h
  rcases Nat.lt_or_eq_of_le floor with lt | same
  · have up : roundHalfEven num den ≤ num / den + 1 := by
      refine roundHalfEven_le pos ?_
      rw [Nat.add_mul, Nat.mul_comm (num / den)]
      omega
    exact (up.trans lt).trans (le_roundHalfEven pos' (Nat.div_mul_le_self num' den'))
  · -- the remainders are left to compare
    have rest : num % den * den' ≤ num' % den' * den := by
      have left : num * den' = den * (num / den) * den' + num % den * den' := by
        rw [← Nat.add_mul, parts]
      have right : num' * den = den * (num / den) * den' + num' % den' * den := by
        calc num' * den = (den' * (num / den) + num' % den') * den := by rw [same, parts']
          _ = den * (num / den) * den' + num' % den' * den := by ring
      omega
    obtain ⟨reaches, passes⟩ := halves pos pos' rest
    unfold roundHalfEven
    simp only [← same]
    split <;> split <;> omega

namespace Layout

/-- The power of two by which a magnitude with this whole part is scaled. -/
def scale (l : Layout) (whole : Nat) : Nat := Nat.log2 whole - l.fractionBits

theorem round_eq (l : Layout) (num den : Nat) :
    l.round num den = min l.infinity
      (l.scale (num * l.one / den) * l.exponentWeight +
        roundHalfEven (num * l.one) (den * 2 ^ l.scale (num * l.one / den))) := rfl

theorem scale_mono (l : Layout) {whole whole' : Nat} (h : whole ≤ whole') :
    l.scale whole ≤ l.scale whole' := by
  refine Nat.sub_le_sub_right ?_ _
  by_cases zero : whole = 0
  · simp [zero]
  · exact (Nat.le_log2 (by omega)).mpr ((Nat.log2_self_le zero).trans h)

/-- A scaled fraction is less than two of the lowest exponent bit. -/
theorem scaled_le (l : Layout) (pos : 0 < den) :
    num ≤ 2 * l.exponentWeight * (den * 2 ^ l.scale (num / den)) := by
  have log : Nat.log2 (num / den) + 1 ≤ 1 + l.fractionBits + l.scale (num / den) := by
    unfold scale
    omega
  have whole : num / den < 2 ^ (1 + l.fractionBits + l.scale (num / den)) :=
    Nat.lt_log2_self.trans_le (Nat.pow_le_pow_right (by decide) log)
  rw [Nat.pow_add, Nat.pow_add, ← exponentWeight_eq] at whole
  calc num ≤ 2 ^ 1 * l.exponentWeight * 2 ^ l.scale (num / den) * den :=
        ((Nat.div_lt_iff_lt_mul pos).mp whole).le
    _ = 2 * l.exponentWeight * (den * 2 ^ l.scale (num / den)) := by ring

/-- With a power of two in it, it is at least one. -/
theorem le_scaled (l : Layout) (pos : 0 < den) (some : 0 < l.scale (num / den)) :
    l.exponentWeight * (den * 2 ^ l.scale (num / den)) ≤ num := by
  have log : l.fractionBits + l.scale (num / den) ≤ Nat.log2 (num / den) := by
    unfold scale at some ⊢
    omega
  have nonzero : num / den ≠ 0 := by
    intro zero
    rw [zero] at some
    simp [scale] at some
  have whole := (Nat.le_log2 nonzero).mp log
  rw [Nat.pow_add, ← exponentWeight_eq] at whole
  calc l.exponentWeight * (den * 2 ^ l.scale (num / den))
      = l.exponentWeight * 2 ^ l.scale (num / den) * den := by ring
    _ ≤ num := (Nat.le_div_iff_mul_le pos).mp whole

theorem round_mono (l : Layout) (pos : 0 < den) (pos' : 0 < den')
    (h : num * den' ≤ num' * den) : l.round num den ≤ l.round num' den' := by
  have scaled : num * l.one * den' ≤ num' * l.one * den := by
    rw [Nat.mul_right_comm, Nat.mul_right_comm num']
    exact Nat.mul_le_mul_right _ h
  have le := l.scale_mono (div_le_of_cross pos pos' scaled)
  rw [round_eq, round_eq]
  refine min_le_min_left _ ?_
  generalize num * l.one = a at scaled le ⊢
  generalize num' * l.one = a' at scaled le ⊢
  rcases Nat.lt_or_eq_of_le le with lt | same
  · have below : roundHalfEven a (den * 2 ^ l.scale (a / den)) ≤ 2 * l.exponentWeight :=
      roundHalfEven_le (Nat.mul_pos pos (Nat.two_pow_pos _)) (l.scaled_le pos)
    have above : l.exponentWeight ≤ roundHalfEven a' (den' * 2 ^ l.scale (a' / den')) :=
      le_roundHalfEven (Nat.mul_pos pos' (Nat.two_pow_pos _)) (l.le_scaled pos' (by omega))
    have next : (l.scale (a / den) + 1) * l.exponentWeight ≤
        l.scale (a' / den') * l.exponentWeight := Nat.mul_le_mul_right _ lt
    rw [Nat.succ_mul] at next
    omega
  · rw [same]
    refine Nat.add_le_add_left (roundHalfEven_mono (Nat.mul_pos pos (Nat.two_pow_pos _))
      (Nat.mul_pos pos' (Nat.two_pow_pos _)) ?_) _
    rw [← Nat.mul_assoc, ← Nat.mul_assoc]
    exact Nat.mul_le_mul_right _ scaled

theorem round_le_infinity (l : Layout) (num den : Nat) : l.round num den ≤ l.infinity :=
  Nat.min_le_left ..

end Layout

namespace Binary64

/-- Numbers without a sign in their order, infinity last. Larger numbers have larger patterns. -/
structure InOrder (x y : Binary64) : Prop where
  first : x.isNegative = false
  second : y.isNegative = false
  number : y.isNaN = false
  le : x.magnitude ≤ y.magnitude

/-- A fraction without a sign is rounded to a number without one. -/
theorem ofRat_spec {x : Rat} (nonneg : 0 ≤ x) :
    (ofRat x).isNegative = false ∧
      (ofRat x).magnitude.toNat = Layout.double.round x.num.natAbs x.den := by
  have small : Layout.double.round x.num.natAbs x.den < Layout.double.signWeight :=
    Nat.lt_of_le_of_lt (Layout.round_le_infinity ..) (by decide)
  have sign : decide (x < 0) = false := decide_eq_false (not_lt.mpr nonneg)
  have pattern : ofRat x =
      ⟨UInt64.ofNat (Layout.double.signed false (Layout.double.round x.num.natAbs x.den))⟩ := by
    unfold ofRat ofRatio
    rw [sign]
    rfl
  rw [pattern]
  exact ⟨signed_isNegative false small, signed_magnitude false small⟩

theorem ofRat_inOrder {x y : Rat} (nonneg : 0 ≤ x) (h : x ≤ y) : InOrder (ofRat x) (ofRat y) := by
  obtain ⟨first, lower⟩ := ofRat_spec nonneg
  obtain ⟨second, upper⟩ := ofRat_spec (nonneg.trans h)
  have cross : x.num.natAbs * y.den ≤ y.num.natAbs * x.den := by
    have le := (Rat.le_iff x y).mp h
    have left := Int.natAbs_of_nonneg (Rat.num_nonneg.mpr nonneg)
    have right := Int.natAbs_of_nonneg (Rat.num_nonneg.mpr (nonneg.trans h))
    rw [← left, ← right] at le
    exact_mod_cast le
  refine ⟨first, second, ?_, ?_⟩
  · have most := Layout.double.round_le_infinity y.num.natAbs y.den
    rw [← upper, Layout.double_infinity] at most
    simpa [isNaN, UInt64.le_iff_toNat_le] using most
  · rw [UInt64.le_iff_toNat_le, lower, upper]
    exact Layout.double.round_mono x.den_pos y.den_pos cross

end Binary64

end LiveSound
