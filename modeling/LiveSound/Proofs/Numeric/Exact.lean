import LiveSound.Proofs.Numeric.Order

/-!
# Numbers by their units

What a fraction is rounded to has the units of its magnitude, so larger fractions have no fewer
units. Whole numbers with a short significand keep all of theirs, and are not rounded at all.
-/

namespace LiveSound

namespace Layout

theorem significand_lt (l : Layout) (m : Nat) : l.significand m < 2 * l.exponentWeight := by
  have := Nat.mod_lt m l.exponentWeight_pos
  unfold significand
  split <;> omega

theorem le_significand (l : Layout) {m : Nat} (shifted : 0 < l.shift m) :
    l.exponentWeight ≤ l.significand m := by
  have large : ¬ m < l.exponentWeight := by
    intro lt
    simp [shift, Nat.div_eq_of_lt lt] at shifted
  rw [significand, if_neg large]
  exact Nat.le_add_right ..

/-- Larger magnitudes have more units. -/
theorem units_mono (l : Layout) {m m' : Nat} (le : m ≤ m') : l.units m ≤ l.units m' := by
  have parts := l.shift_mul_add_significand m
  have parts' := l.shift_mul_add_significand m'
  have shifts : l.shift m ≤ l.shift m' := Nat.sub_le_sub_right (Nat.div_le_div_right le) 1
  rw [units_eq, units_eq]
  rcases Nat.lt_or_eq_of_le shifts with lt | same
  · -- the significand takes in at least one bit, and the power at least one more
    calc l.significand m * 2 ^ l.shift m
        ≤ 2 * l.exponentWeight * 2 ^ l.shift m := Nat.mul_le_mul_right _ (l.significand_lt m).le
      _ = l.exponentWeight * 2 ^ (l.shift m + 1) := by ring
      _ ≤ l.significand m' * 2 ^ l.shift m' :=
        Nat.mul_le_mul (l.le_significand (by omega)) (Nat.pow_le_pow_right (by decide) lt)
  · rw [← same] at parts' ⊢
    exact Nat.mul_le_mul_right _ (by omega)

end Layout

namespace Binary64

variable {negative : Bool} {num den : Nat}

theorem round_lt_signWeight (num den : Nat) :
    Layout.double.round num den < Layout.double.signWeight :=
  Nat.lt_of_le_of_lt (Layout.round_le_infinity ..) (by decide)

theorem magnitude_ofRatio (negative : Bool) (num den : Nat) :
    (ofRatio negative num den).magnitude.toNat = Layout.double.round num den :=
  signed_magnitude negative (round_lt_signWeight num den)

theorem isNegative_ofRatio (negative : Bool) (num den : Nat) :
    (ofRatio negative num den).isNegative = negative :=
  signed_isNegative negative (round_lt_signWeight num den)

theorem units_ofRatio (negative : Bool) (num den : Nat) :
    (ofRatio negative num den).units = Layout.double.units (Layout.double.round num den) := by
  rw [units, magnitude_ofRatio]

theorem isFinite_ofRatio_iff :
    (ofRatio negative num den).isFinite = true ↔
      Layout.double.round num den < Layout.double.infinity := by
  rw [isFinite_iff, magnitude_ofRatio]

/-- A number is known by its sign and its magnitude. -/
theorem eq_of_magnitude {x y : Binary64} (sign : x.isNegative = y.isNegative)
    (magnitude : x.magnitude = y.magnitude) : x = y := by
  rw [← x.ofNat_signed, ← y.ofNat_signed, sign, magnitude]

theorem and_xor_distrib (a b c : UInt64) : (a ^^^ b) &&& c = (a &&& c) ^^^ (b &&& c) := by
  refine UInt64.toNat_inj.mp ?_
  simp only [UInt64.toNat_and, UInt64.toNat_xor]
  exact Nat.and_xor_distrib_right

theorem magnitude_neg (x : Binary64) : x.neg.magnitude = x.magnitude := by
  unfold neg magnitude
  rw [and_xor_distrib]
  exact UInt64.xor_zero

theorem isFinite_neg (x : Binary64) : x.neg.isFinite = x.isFinite := by
  unfold isFinite
  rw [magnitude_neg]

theorem isNegative_neg {x : Binary64} (h : x.isNegative = false) : x.neg.isNegative = true := by
  have clear : x.bits &&& 0x8000000000000000 = 0 := bne_eq_false_iff_eq.mp h
  unfold neg isNegative
  rw [and_xor_distrib, clear]
  decide

theorem neg_ofRatio (num den : Nat) : (ofRatio false num den).neg = ofRatio true num den := by
  refine eq_of_magnitude ?_ (UInt64.toNat_inj.mp ?_)
  · rw [isNegative_neg (isNegative_ofRatio false num den), isNegative_ofRatio]
  · rw [magnitude_neg, magnitude_ofRatio, magnitude_ofRatio]

theorem ite_neg_ofRatio (negative : Bool) (num den : Nat) :
    (if negative then (ofRatio false num den).neg else ofRatio false num den) =
      ofRatio negative num den := by
  cases negative with
  | false => rfl
  | true => exact neg_ofRatio num den

/-- A whole number with a short significand is not rounded. -/
theorem round_short {a s : Nat} (short : a < 2 ^ 53) (small : s < 900) :
    Layout.double.round (a * 2 ^ s) 1 < Layout.double.infinity ∧
      Layout.double.units (Layout.double.round (a * 2 ^ s) 1) =
        a * 2 ^ s * Layout.double.one := by
  obtain ⟨m, units, le⟩ := Layout.double.exists_units (s + Layout.double.lowest) short
  have value : a * 2 ^ s * Layout.double.one = Layout.double.units m * 1 := by
    rw [Nat.mul_one, units, Layout.one_eq, Nat.pow_add, Nat.mul_assoc]
  have finite : m < Layout.double.infinity := by
    have lowest : Layout.double.lowest = 1074 := rfl
    have weight : Layout.double.exponentWeight = 2 ^ 52 := rfl
    have most : (s + 1074 + 1) * 2 ^ 52 ≤ 1975 * 2 ^ 52 := Nat.mul_le_mul_right _ (by omega)
    rw [lowest, weight] at le
    rw [Layout.double_infinity]
    omega
  rw [Layout.round_of_units Nat.one_pos value finite, value, Nat.mul_one]
  exact ⟨finite, rfl⟩

theorem units_ofNat {a s : Nat} (short : a < 2 ^ 53) (small : s < 900) :
    (ofNat (a * 2 ^ s)).units = a * 2 ^ s * Layout.double.one := by
  rw [ofNat, units_ofRatio, (round_short short small).2]

end Binary64

end LiveSound
