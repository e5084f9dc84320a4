import LiveSound.Proofs.Json.Numbers
import LiveSound.Proofs.Numeric.Exact

/-!
# Numbers that are scaled

The reader takes the digits of a number as a whole one and multiplies or divides that by a power of
ten. Where both are short nothing is rounded before the last step, so the number is the one that is
nearest to the decimal fraction (`scaled_eq_toBinary64`). Otherwise it may be one beside it, but what
is written for a finite number is always read as a finite one (`isFinite_reread`): the largest number
is tried, and for the others there is room up to the next one.
-/

namespace LiveSound.Json

/-- A number of 64 bits as it is read after it was written. -/
def reread (x : Binary64) : Binary64 := scaled (written x)

/-! ## Leading digits -/

theorem leading_of_lt {c : Nat} (small : c < 2 ^ 64) (fuel : Nat) (e : Int) :
    leading fuel c e = (c, e) := by
  cases fuel with
  | zero => rfl
  | succ fuel => rw [leading, if_pos (by omega)]

/-- The leading digits of a number are not more than the number. -/
theorem leading_spec (fuel c : Nat) (e : Int) :
    ∃ k : Nat, (leading fuel c e).2 = e + k ∧ (leading fuel c e).1 * 10 ^ k ≤ c := by
  induction fuel generalizing c e with
  | zero => exact ⟨0, by simp [leading], by simp [leading]⟩
  | succ fuel ih =>
    rw [leading]
    split
    · exact ⟨0, by simp, by simp⟩
    · obtain ⟨k, exponent, le⟩ := ih (c / 10) (e + 1)
      refine ⟨k + 1, by rw [exponent]; omega, ?_⟩
      rw [Nat.pow_succ, ← Nat.mul_assoc]
      omega

theorem leading_lt {fuel c : Nat} (enough : c < 2 ^ 64 * 10 ^ fuel) (e : Int) :
    (leading fuel c e).1 < 2 ^ 64 := by
  induction fuel generalizing c e with
  | zero => simpa [leading] using enough
  | succ fuel ih =>
    rw [leading]
    split
    · omega
    · rw [Nat.pow_succ 10, ← Nat.mul_assoc] at enough
      exact ih ((Nat.div_lt_iff_lt_mul (by decide)).mpr enough) _

/-- The size of a number by its leading digits and the exponent that goes with them. -/
def size (digits : Nat) (exponent : Int) : Binary64 :=
  if digits = 0 then .ofNat digits
  else if 308 < exponent then .infinity
  else if 0 ≤ exponent then product (.ofNat digits) (power exponent.toNat)
  else if -308 ≤ exponent then quotient (.ofNat digits) (power (-exponent).toNat)
  else if -616 ≤ exponent then
    quotient (quotient (.ofNat digits) (power 308)) (power (-(exponent + 308)).toNat)
  else .zero

theorem scaled_eq (d : Decimal) :
    scaled d =
      let found := leading (digitsOf d.coefficient).length d.coefficient d.exponent
      if d.negative then (size found.1 found.2).neg else size found.1 found.2 := rfl

theorem product_eq (x y : Binary64) :
    product x y =
      .ofRatio false (x.units * y.units) (Layout.double.one * Layout.double.one) := by
  rw [Layout.one_eq, ← Nat.pow_add, ← Nat.two_mul]
  rfl

/-! ## Short numbers -/

section Exact

variable {x y : Binary64} {a b : Nat}

theorem product_of_units (hx : x.units = a * Layout.double.one)
    (hy : y.units = b * Layout.double.one) : product x y = .ofRatio false (a * b) 1 := by
  have pos := Nat.mul_pos Layout.double.one_pos Layout.double.one_pos
  have value := Layout.double.round_mul_mul (a * b) 1 pos
  rw [Nat.one_mul] at value
  rw [product_eq, hx, hy, Nat.mul_mul_mul_comm]
  unfold Binary64.ofRatio
  rw [value]

theorem quotient_of_units (hx : x.units = a * Layout.double.one)
    (hy : y.units = b * Layout.double.one) : quotient x y = .ofRatio false a b := by
  rw [quotient, hx, hy]
  unfold Binary64.ofRatio
  rw [Layout.round_mul_mul _ _ _ Layout.double.one_pos]

theorem units_short (short : a < 2 ^ 53) :
    (Binary64.ofNat a).units = a * Layout.double.one := by
  have units := Binary64.units_ofNat short (show 0 < 900 by decide)
  rwa [Nat.pow_zero, Nat.mul_one] at units

/-- Up to this one, powers of ten are exact. -/
theorem units_power {n : Nat} (le : n ≤ 22) :
    (power n).units = 10 ^ n * Layout.double.one := by
  have five : 5 ^ n < 2 ^ 53 :=
    Nat.lt_of_le_of_lt (Nat.pow_le_pow_right (by decide) le) (by decide)
  have ten : Nat.pow 10 n = 5 ^ n * 2 ^ n := (Nat.mul_pow 5 2 n)
  rw [power, ten, Binary64.units_ofNat five (by omega), ← Nat.mul_pow]

theorem size_eq_ofRatio {c : Nat} (short : c < 2 ^ 53) (nonzero : c ≠ 0) {e : Int}
    (near : e.natAbs ≤ 22) (negative : Bool) :
    size c e =
      .ofRatio false (Decimal.ratio ⟨negative, c, e⟩).1 (Decimal.ratio ⟨negative, c, e⟩).2 := by
  unfold size Decimal.ratio
  rw [if_neg nonzero, if_neg (by omega)]
  by_cases whole : 0 ≤ e
  · rw [if_pos whole, if_pos whole,
      product_of_units (units_short short) (units_power (by omega))]
    rfl
  · rw [if_neg whole, if_neg whole, if_pos (by omega),
      quotient_of_units (units_short short) (units_power (by omega))]
    rfl

/-- A number with few digits and a small exponent is rounded once. -/
theorem scaled_eq_toBinary64 {d : Decimal} (short : d.coefficient < 2 ^ 53)
    (near : d.exponent.natAbs ≤ 22) : scaled d = d.toBinary64 := by
  rw [scaled_eq, leading_of_lt (by omega)]
  simp only
  by_cases zero : d.coefficient = 0
  · have nothing : size d.coefficient d.exponent = .ofRatio false 0 1 := by
      rw [zero]
      exact if_pos rfl
    rw [nothing, Binary64.ite_neg_ofRatio, Decimal.toBinary64]
    exact (if_pos (.inl zero)).symm
  · have some_digit := List.length_pos_iff.mpr (digitsOf_ne_nil d.coefficient)
    have few : (digitsOf d.coefficient).length ≤ 16 :=
      (Nat.length_toDigits_le_iff (by decide) (by decide)).mpr (by omega)
    have top : ¬ (digitsOf d.coefficient).length + d.exponent < -400 ∧
        ¬ 400 < (digitsOf d.coefficient).length + d.exponent := by omega
    rw [size_eq_ofRatio short zero near d.negative, Binary64.ite_neg_ofRatio, Decimal.toBinary64]
    exact ((if_neg (not_or.mpr ⟨zero, top.1⟩)).trans (if_neg top.2)).symm

end Exact

/-! ## Finite numbers -/

/-- Halfway between the two largest numbers. -/
@[irreducible] def halfway : Nat := (2 ^ 54 - 3) * 2 ^ 970

/-- There is room for 288 digits after any number of 64 bits, but not for as many as 309. What is
past it is rounded to the largest number. -/
theorem halfway_spec :
    (2 ^ 64 - 1) * 10 ^ 288 ≤ halfway ∧ halfway < 10 ^ 309 ∧
      Layout.double.round (halfway + 1) 1 = Layout.double.infinity - 1 := by decide +kernel

section Bounds

variable {x y : Binary64} {a b c : Nat}

theorem units_ofNat_mono (le : a ≤ b) : (Binary64.ofNat a).units ≤ (Binary64.ofNat b).units := by
  rw [Binary64.ofNat, Binary64.ofNat, Binary64.units_ofRatio, Binary64.units_ofRatio]
  refine Layout.double.units_mono (Layout.double.round_mono Nat.one_pos Nat.one_pos ?_)
  exact Nat.mul_le_mul_right 1 le

theorem isFinite_product {x' y' : Binary64} (finite : (product x' y').isFinite = true)
    (hx : x.units ≤ x'.units) (hy : y.units ≤ y'.units) : (product x y).isFinite = true := by
  have pos := Nat.mul_pos Layout.double.one_pos Layout.double.one_pos
  rw [product_eq, Binary64.isFinite_ofRatio_iff] at finite ⊢
  refine Nat.lt_of_le_of_lt (Layout.double.round_mono pos pos ?_) finite
  exact Nat.mul_le_mul_right _ (Nat.mul_le_mul hx hy)

/-- The largest digits for each power of ten that some are read with: as many as fit in 64 bits,
and not so many that the number is past `halfway`. -/
theorem isFinite_largest : ∀ k ≤ 20,
    (product (.ofNat (min (2 ^ 64 - 1) (halfway / 10 ^ (288 + k)))) (power (288 + k))).isFinite =
      true := by
  -- two roundings may carry further than it is from `halfway` to infinity, so each is looked at
  decide +kernel

theorem isFinite_product_power {e : Nat} (le : e ≤ 308) (small : c < 2 ^ 64)
    (below : c * 10 ^ e ≤ halfway) : (product (.ofNat c) (power e)).isFinite = true := by
  rcases Nat.lt_or_ge e 288 with low | high
  · -- any digits can be read with these powers
    have all : min (2 ^ 64 - 1) (halfway / 10 ^ (288 + 0)) = 2 ^ 64 - 1 :=
      Nat.min_eq_left ((Nat.le_div_iff_mul_le (Nat.pow_pos (by decide))).mpr halfway_spec.1)
    have largest := isFinite_largest 0 (by decide)
    rw [all] at largest
    refine isFinite_product largest (units_ofNat_mono (by omega)) (units_ofNat_mono ?_)
    exact Nat.pow_le_pow_right (by decide) low.le
  · obtain ⟨k, rfl⟩ := Nat.exists_eq_add_of_le high
    refine isFinite_product (isFinite_largest k (by omega)) (units_ofNat_mono ?_) le_rfl
    exact Nat.le_min.mpr ⟨by omega, (Nat.le_div_iff_mul_le (Nat.pow_pos (by decide))).mpr below⟩

/-- The units of what is not divided any more. -/
def roomy : Nat := 2 ^ 64 * Layout.double.one

theorem units_ofNat_le_roomy (small : c < 2 ^ 64) : (Binary64.ofNat c).units ≤ roomy := by
  have most := Binary64.units_ofNat (show 1 < 2 ^ 53 by decide) (show 64 < 900 by decide)
  rw [Nat.one_mul] at most
  rw [roomy, ← most]
  exact units_ofNat_mono small.le

theorem one_le_units_power (n : Nat) : Layout.double.one ≤ (power n).units := by
  have one := units_short (show 1 < 2 ^ 53 by decide)
  rw [Nat.one_mul] at one
  rw [← one, power]
  exact units_ofNat_mono (Nat.pow_pos (by decide))

/-- A number does not grow when it is divided. -/
theorem quotient_roomy (hx : x.units ≤ roomy) (hy : Layout.double.one ≤ y.units) :
    (quotient x y).units ≤ roomy ∧ (quotient x y).isFinite = true := by
  have round : Layout.double.round x.units y.units ≤ Layout.double.round (2 ^ 64) 1 := by
    refine Layout.double.round_mono (Nat.lt_of_lt_of_le Layout.double.one_pos hy) Nat.one_pos ?_
    rw [Nat.mul_one]
    exact hx.trans (Nat.mul_le_mul_left _ hy)
  have most := Binary64.round_short (show 1 < 2 ^ 53 by decide) (show 64 < 900 by decide)
  rw [Nat.one_mul] at most
  constructor
  · rw [quotient, Binary64.units_ofRatio, roomy, ← most.2]
    exact Layout.double.units_mono round
  · rw [quotient, Binary64.isFinite_ofRatio_iff]
    exact Nat.lt_of_le_of_lt round most.1

theorem isFinite_size {e : Int} (small : c < 2 ^ 64)
    (below : 0 ≤ e → c * 10 ^ e.toNat ≤ halfway) : (size c e).isFinite = true := by
  unfold size
  split
  case isTrue zero =>
    have finite := Binary64.round_short (show 0 < 2 ^ 53 by decide) (show 0 < 900 by decide)
    rw [zero, Binary64.ofNat]
    exact Binary64.isFinite_ofRatio_iff.mpr finite.1
  case isFalse nonzero =>
    split
    case isTrue high =>
      have power : 10 ^ 309 ≤ c * 10 ^ e.toNat :=
        (Nat.pow_le_pow_right (by decide) (by omega)).trans
          (Nat.le_mul_of_pos_left _ (Nat.pos_of_ne_zero nonzero))
      exact absurd (power.trans (below (by omega))) (Nat.not_le.mpr halfway_spec.2.1)
    case isFalse low =>
      split
      case isTrue whole => exact isFinite_product_power (by omega) small (below whole)
      case isFalse =>
        have first := units_ofNat_le_roomy small
        split
        · exact (quotient_roomy first (one_le_units_power _)).2
        · split
          · have second := (quotient_roomy first (one_le_units_power 308)).1
            exact (quotient_roomy second (one_le_units_power _)).2
          · rfl

end Bounds

/-- A fraction that is rounded to less than the largest number is not past the half before it. -/
theorem le_halfway {d : Decimal}
    (below : d.toBinary64.magnitude.toNat < Layout.double.infinity - 1) {n : Nat}
    (le : n * d.ratio.2 ≤ d.ratio.1) : n ≤ halfway := by
  unfold Decimal.toBinary64 at below
  simp only at below
  split at below
  case isTrue small =>
    have less : n * d.ratio.2 < 1 * d.ratio.2 := by
      rw [Nat.one_mul]
      exact Nat.lt_of_le_of_lt le (Decimal.ratio_lt (by omega))
    have := Nat.lt_of_mul_lt_mul_right less
    omega
  case isFalse =>
    split at below
    case isTrue =>
      have infinite : ∀ negative : Bool, ¬ (Binary64.mk (if negative then 0xfff0000000000000
          else 0x7ff0000000000000)).magnitude.toNat < Layout.double.infinity - 1 := by decide
      exact (infinite _ below).elim
    case isFalse =>
      rw [Binary64.magnitude_ofRatio, ← halfway_spec.2.2] at below
      by_contra past
      have more : (halfway + 1) * d.ratio.2 ≤ d.ratio.1 * 1 := by
        rw [Nat.mul_one]
        exact (Nat.mul_le_mul_right _ (Nat.lt_of_not_le past)).trans le
      exact Nat.not_lt.mpr (Layout.double.round_mono Nat.one_pos d.ratio_pos more) below

/-- The leading digits with their exponent are not more than the number. -/
theorem leading_mul_le (d : Decimal) (fuel : Nat) :
    let found := leading fuel d.coefficient d.exponent
    0 ≤ found.2 → found.1 * 10 ^ found.2.toNat * d.ratio.2 ≤ d.ratio.1 := by
  intro found whole
  obtain ⟨k, exponent, le⟩ : ∃ k : Nat, found.2 = d.exponent + k ∧
      found.1 * 10 ^ k ≤ d.coefficient := leading_spec fuel d.coefficient d.exponent
  unfold Decimal.ratio
  split
  case isTrue positive =>
    have power : found.2.toNat = k + d.exponent.toNat := by omega
    rw [power, Nat.pow_add, ← Nat.mul_assoc, Nat.mul_one]
    exact Nat.mul_le_mul_right _ le
  case isFalse negative =>
    have power : found.2.toNat + (-d.exponent).toNat = k := by omega
    show found.1 * 10 ^ found.2.toNat * 10 ^ (-d.exponent).toNat ≤ d.coefficient
    rw [Nat.mul_assoc, ← Nat.pow_add, power]
    exact le

theorem isFinite_scaled {d : Decimal}
    (below : d.toBinary64.magnitude.toNat < Layout.double.infinity - 1) :
    (scaled d).isFinite = true := by
  have enough : d.coefficient < 2 ^ 64 * 10 ^ (digitsOf d.coefficient).length :=
    Nat.lt_of_lt_of_le (Decimal.lt_pow_length _) (Nat.le_mul_of_pos_left _ (by decide))
  have finite := isFinite_size (leading_lt enough d.exponent) fun whole =>
    le_halfway below (leading_mul_le d _ whole)
  rw [scaled_eq]
  simp only
  split
  · rw [Binary64.isFinite_neg, finite]
  · exact finite

/-- The largest numbers, one of each sign. -/
theorem isFinite_reread_largest : ∀ negative : Bool,
    (reread ⟨if negative then 0xffefffffffffffff else 0x7fefffffffffffff⟩).isFinite = true := by
  decide +kernel

/-- What is written for a finite number is read as one. -/
theorem isFinite_reread {x : Binary64} (finite : x.isFinite = true) :
    (reread x).isFinite = true := by
  have magnitude := x.isFinite_iff.mp finite
  rcases Nat.lt_or_ge x.magnitude.toNat (Layout.double.infinity - 1) with below | most
  · refine isFinite_scaled ?_
    rwa [written_toBinary64 finite]
  · have largest : x.magnitude.toNat = Layout.double.infinity - 1 := by omega
    have pattern : ∀ negative : Bool,
        UInt64.ofNat (Layout.double.signed negative (Layout.double.infinity - 1)) =
          if negative then 0xffefffffffffffff else 0x7fefffffffffffff := by decide
    rw [← x.ofNat_signed, largest, pattern]
    exact isFinite_reread_largest x.isNegative

end LiveSound.Json
