import LiveSound.Proofs.Numeric.Rounding

/-!
# Widening loses nothing

A pattern is a sign and a magnitude. Every finite number of 32 bits is one of 64 bits, and narrowing
it again gives the number that it was.
-/

namespace LiveSound

namespace Layout

def signed (l : Layout) (negative : Bool) (magnitude : Nat) : Nat :=
  if negative then l.signWeight + magnitude else magnitude

theorem signed_lt {l : Layout} {m : Nat} (negative : Bool) (hm : m < l.signWeight) :
    l.signed negative m < 2 * l.signWeight := by
  unfold signed
  split <;> omega

theorem signed_mod {l : Layout} {m : Nat} (negative : Bool) (hm : m < l.signWeight) :
    l.signed negative m % l.signWeight = m := by
  unfold signed
  split
  · rw [Nat.add_mod_left, Nat.mod_eq_of_lt hm]
  · exact Nat.mod_eq_of_lt hm

theorem le_signed {l : Layout} {m : Nat} (negative : Bool) (hm : m < l.signWeight) :
    l.signWeight ≤ l.signed negative m ↔ negative = true := by
  cases negative <;> simp [signed, hm]

/-- A pattern is made of its own sign and magnitude. -/
theorem signed_self {l : Layout} {n : Nat} (hn : n < 2 * l.signWeight) :
    l.signed (decide (l.signWeight ≤ n)) (n % l.signWeight) = n := by
  unfold signed
  by_cases hle : l.signWeight ≤ n
  · have hmod : n % l.signWeight = n - l.signWeight := by
      rw [Nat.mod_eq_sub_mod hle, Nat.mod_eq_of_lt (by omega)]
    simp only [hle, decide_true, if_true, hmod]
    omega
  · simp [hle, Nat.mod_eq_of_lt (Nat.lt_of_not_le hle)]

theorem single_infinity : Layout.single.infinity = 255 * 2 ^ 23 := rfl

theorem double_infinity : Layout.double.infinity = 2047 * 2 ^ 52 := rfl

/-- The smallest positive number of 32 bits as a multiple of that of 64. -/
theorem double_one : Layout.double.one = 2 ^ 925 * Layout.single.one := by
  have hlowest : Layout.double.lowest = 925 + Layout.single.lowest := rfl
  simp only [one_eq, hlowest, Nat.pow_add]

end Layout

/-- The highest bit of a number that has no higher ones. -/
theorem and_two_pow_ne_zero {n k : Nat} (hn : n < 2 ^ (k + 1)) :
    n &&& 2 ^ k ≠ 0 ↔ 2 ^ k ≤ n := by
  constructor
  · intro hne
    refine Nat.le_of_not_lt fun hlt => hne (Nat.eq_of_testBit_eq fun i => ?_)
    rw [Nat.testBit_and, Nat.testBit_two_pow, Nat.zero_testBit]
    by_cases hi : k = i
    · rw [← hi, Nat.testBit_lt_two_pow hlt, Bool.false_and]
    · simp [hi]
  · intro hle hzero
    have hone : n / 2 ^ k = 1 := Nat.div_eq_of_lt_le (by omega) (by rw [Nat.pow_succ] at hn; omega)
    have hbit : (n &&& 2 ^ k).testBit k = true := by
      rw [Nat.testBit_and, Nat.testBit_two_pow_self, Nat.testBit_eq_decide_div_mod_eq, hone]
      rfl
    rw [hzero, Nat.zero_testBit] at hbit
    cases hbit

namespace Binary32

theorem magnitude_toNat (x : Binary32) : x.magnitude.toNat = x.bits.toNat % 2 ^ 31 := by
  unfold magnitude
  rw [UInt32.toNat_and]
  exact Nat.and_two_pow_sub_one_eq_mod _ 31

theorem isNegative_eq (x : Binary32) : x.isNegative = decide (2 ^ 31 ≤ x.bits.toNat) := by
  have hbit : x.bits &&& 0x80000000 ≠ 0 ↔ x.bits.toNat &&& 2 ^ 31 ≠ 0 := by
    rw [Ne, ← UInt32.toNat_inj, UInt32.toNat_and]
    rfl
  rw [Bool.eq_iff_iff, decide_eq_true_iff, ← and_two_pow_ne_zero x.bits.toNat_lt, ← hbit]
  simp [isNegative]

theorem ofNat_signed (x : Binary32) :
    ⟨UInt32.ofNat (Layout.single.signed x.isNegative x.magnitude.toNat)⟩ = x := by
  have hself := Layout.signed_self (l := .single) x.bits.toNat_lt
  rw [isNegative_eq, magnitude_toNat]
  cases x with
  | mk bits =>
    congr 1
    refine UInt32.toNat_inj.mp ?_
    simp only [UInt32.toNat_ofNat']
    rw [show (2 : Nat) ^ 31 = Layout.single.signWeight from rfl, hself]
    exact Nat.mod_eq_of_lt bits.toNat_lt

theorem magnitude_lt_infinity {x : Binary32} (hx : x.isFinite) :
    x.magnitude.toNat < Layout.single.infinity := by
  simpa [isFinite, UInt32.lt_iff_toNat_lt, Layout.single_infinity] using hx

end Binary32

namespace Binary64

theorem magnitude_toNat (x : Binary64) : x.magnitude.toNat = x.bits.toNat % 2 ^ 63 := by
  unfold magnitude
  rw [UInt64.toNat_and]
  exact Nat.and_two_pow_sub_one_eq_mod _ 63

theorem isNegative_eq (x : Binary64) : x.isNegative = decide (2 ^ 63 ≤ x.bits.toNat) := by
  have hbit : x.bits &&& 0x8000000000000000 ≠ 0 ↔ x.bits.toNat &&& 2 ^ 63 ≠ 0 := by
    rw [Ne, ← UInt64.toNat_inj, UInt64.toNat_and]
    rfl
  rw [Bool.eq_iff_iff, decide_eq_true_iff, ← and_two_pow_ne_zero x.bits.toNat_lt, ← hbit]
  simp [isNegative]

theorem ofNat_signed (x : Binary64) :
    ⟨UInt64.ofNat (Layout.double.signed x.isNegative x.magnitude.toNat)⟩ = x := by
  have hself := Layout.signed_self (l := .double) x.bits.toNat_lt
  rw [isNegative_eq, magnitude_toNat]
  cases x with
  | mk bits =>
    congr 1
    refine UInt64.toNat_inj.mp ?_
    simp only [UInt64.toNat_ofNat']
    rw [show (2 : Nat) ^ 63 = Layout.double.signWeight from rfl, hself]
    exact Nat.mod_eq_of_lt bits.toNat_lt

theorem isFinite_iff (x : Binary64) :
    x.isFinite ↔ x.magnitude.toNat < Layout.double.infinity := by
  simp [isFinite, UInt64.lt_iff_toNat_lt, Layout.double_infinity]

theorem bits_toNat_signed {m : Nat} (negative : Bool) (hm : m < Layout.double.signWeight) :
    (UInt64.ofNat (Layout.double.signed negative m)).toNat = Layout.double.signed negative m :=
  UInt64.toNat_ofNat_of_lt (Layout.signed_lt negative hm)

theorem signed_magnitude {m : Nat} (negative : Bool) (hm : m < Layout.double.signWeight) :
    (mk (UInt64.ofNat (Layout.double.signed negative m))).magnitude.toNat = m := by
  rw [magnitude_toNat, bits_toNat_signed negative hm]
  exact Layout.signed_mod negative hm

theorem signed_isNegative {m : Nat} (negative : Bool) (hm : m < Layout.double.signWeight) :
    (mk (UInt64.ofNat (Layout.double.signed negative m))).isNegative = negative := by
  rw [isNegative_eq, bits_toNat_signed negative hm, Bool.eq_iff_iff, decide_eq_true_iff]
  exact Layout.le_signed negative hm

/-- A finite number is the nearest one to its own value, however that is written. -/
theorem ofRatio_units {x : Binary64} (hx : x.isFinite) {num den : Nat} (hden : 0 < den)
    (hnum : num * Layout.double.one = x.units * den) : ofRatio x.isNegative num den = x := by
  have hround := Layout.round_of_units hden hnum (x.isFinite_iff.mp hx)
  unfold ofRatio
  rw [hround]
  exact x.ofNat_signed

end Binary64

namespace Binary32

/-- Widening keeps the sign and the value; the units are `2 ^ 925` times as fine. -/
theorem toBinary64_spec {x : Binary32} (hx : x.isFinite) :
    x.toBinary64.isFinite ∧ x.toBinary64.isNegative = x.isNegative ∧
      x.toBinary64.units = Layout.single.units x.magnitude.toNat * 2 ^ 925 := by
  have hlt := magnitude_lt_infinity hx
  generalize hmag : x.magnitude.toNat = n at hlt ⊢
  have hwhole := Layout.single.shift_mul_add_significand n
  have hsig : Layout.single.significand n < 2 ^ 24 := by
    have hmod := Nat.mod_lt n Layout.single.exponentWeight_pos
    have hweight : Layout.single.exponentWeight = 2 ^ 23 := rfl
    rw [hweight] at hmod
    unfold Layout.significand
    rw [hweight]
    split <;> omega
  have hshift : Layout.single.shift n ≤ 254 := by
    rw [Layout.single_infinity] at hlt
    simp only [Layout.exponentWeight_eq, Layout.single] at hwhole ⊢
    omega
  obtain ⟨m, hunits, hm⟩ := Layout.double.exists_units (a := Layout.single.significand n)
    (Layout.single.shift n + 925) (by
      simp only [Layout.exponentWeight_eq, Layout.double]
      omega)
  have hunits : Layout.double.units m = Layout.single.units n * 2 ^ 925 := by
    simp only [hunits, Layout.units_eq, Nat.pow_add, Nat.mul_assoc]
  have hm : m < Layout.double.infinity := by
    rw [Layout.double_infinity]
    simp only [Layout.exponentWeight_eq, Layout.double] at hm
    omega
  have hround : Layout.double.round (Layout.single.units n) Layout.single.one = m := by
    refine Layout.round_of_units Layout.single.one_pos ?_ hm
    simp only [hunits, Layout.double_one, Nat.mul_assoc]
  have hsign : m < Layout.double.signWeight := Nat.lt_trans hm (by decide)
  have hwide : x.toBinary64 = ⟨UInt64.ofNat (Layout.double.signed x.isNegative m)⟩ := by
    unfold toBinary64 Binary64.ofRatio
    rw [if_pos hx, hmag, hround]
    rfl
  refine ⟨?_, ?_, ?_⟩
  · rw [hwide, Binary64.isFinite_iff, Binary64.signed_magnitude _ hsign]
    exact hm
  · rw [hwide, Binary64.signed_isNegative _ hsign]
  · rw [hwide, Binary64.units, Binary64.signed_magnitude _ hsign, hunits]

theorem toBinary64_isFinite {x : Binary32} (hx : x.isFinite) : x.toBinary64.isFinite :=
  (toBinary64_spec hx).1

/-- Narrowing undoes widening. -/
theorem toBinary64_toBinary32 {x : Binary32} (hx : x.isFinite) :
    x.toBinary64.toBinary32 = x := by
  obtain ⟨hfinite, hsign, hunits⟩ := toBinary64_spec hx
  have hround : Layout.single.round x.toBinary64.units Layout.double.one = x.magnitude.toNat := by
    refine Layout.round_of_units Layout.double.one_pos ?_ (magnitude_lt_infinity hx)
    simp only [hunits, Layout.double_one, Nat.mul_assoc]
  unfold Binary64.toBinary32 ofRatio
  rw [if_pos hfinite, hsign, hround]
  exact x.ofNat_signed

end Binary32

end LiveSound
