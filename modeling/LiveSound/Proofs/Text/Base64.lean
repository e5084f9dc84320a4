import LiveSound.Text.Base64
import Mathlib.Data.Nat.Digits.Defs
import Mathlib.Tactic.Ring

/-!
# Base64 by its bits

A text spells bytes if its digits hold the bits of the bytes, six in each, and then zeros up to the
end of a digit, and if marks fill the last group of four (`Spells`). Bytes have one spelling, and
the reader takes that one and no other text: `decodeChars?_eq_some_iff`.
-/

namespace LiveSound.Base64

open Nat (ofDigits)

/-- The digits in the order of their values. -/
def letters : List Char :=
  "ABCDEFGHIJKLMNOPQRSTUVWXYZabcdefghijklmnopqrstuvwxyz0123456789+/".toList

/-- The digits, as one number, are the bytes, as one number, with two zero bits after them for each
digit that the last group of four lacks. -/
structure Carries (digits : List Nat) (padding : Nat) (bytes : Bytes) : Prop where
  bits : 6 * digits.length = 8 * bytes.length + 2 * padding
  padded : padding < 3
  value : ofDigits 64 digits.reverse = ofDigits 256 (bytes.map (·.toNat)).reverse * 4 ^ padding

def Spells (cs : List Char) (bytes : Bytes) : Prop :=
  ∃ digits padding, Carries digits padding bytes ∧
    cs.map some = digits.map (letters[·]?) ++ List.replicate padding (some '=')

/-! ## Digits -/

theorem value?_digit {n : Nat} (hn : n < 64) : value? (digit n) = some n := by
  have all : ∀ n < 64, value? (digit n) = some n := by decide
  exact all n hn

theorem getElem?_letters {n : Nat} (hn : n < 64) : letters[n]? = some (digit n) := by
  have all : ∀ n < 64, letters[n]? = some (digit n) := by decide
  exact all n hn

theorem digit_ne_mark {n : Nat} (hn : n < 64) : digit n ≠ '=' := by
  have all : ∀ n < 64, digit n ≠ '=' := by decide
  exact all n hn

theorem ofNat_place {low high c : Char} (hc : low ≤ c ∧ c ≤ high) :
    Char.ofNat (low.toNat + (c.toNat - low.toNat)) = c := by
  have le : low.toNat ≤ c.toNat := hc.1
  rw [Nat.add_sub_cancel' le, Char.ofNat_toNat]

theorem digit_of_value? {c : Char} {n : Nat} (h : value? c = some n) : n < 64 ∧ digit n = c := by
  unfold value? at h
  split at h
  case isTrue hc =>
    obtain rfl := Option.some.inj h
    have high : c.toNat ≤ 90 := hc.2
    have upper : c.toNat - 'A'.toNat < 26 := by simp; omega
    exact ⟨by omega, by rw [digit, if_pos upper, ofNat_place hc]⟩
  split at h
  case isTrue hc =>
    obtain rfl := Option.some.inj h
    have high : c.toNat ≤ 122 := hc.2
    have lower : c.toNat - 'a'.toNat < 26 := by simp; omega
    refine ⟨by omega, ?_⟩
    rw [digit, if_neg (by omega), if_pos (by omega), Nat.add_sub_cancel, ofNat_place hc]
  split at h
  case isTrue hc =>
    obtain rfl := Option.some.inj h
    have high : c.toNat ≤ 57 := hc.2
    have decimal : c.toNat - '0'.toNat < 10 := by simp; omega
    refine ⟨by omega, ?_⟩
    rw [digit, if_neg (by omega), if_neg (by omega), if_pos (by omega), Nat.add_sub_cancel,
      ofNat_place hc]
  split at h
  case isTrue hc =>
    obtain rfl := Option.some.inj h
    exact ⟨by decide, hc.symm⟩
  split at h
  case isTrue hc =>
    obtain rfl := Option.some.inj h
    exact ⟨by decide, hc.symm⟩
  case isFalse => cases h

theorem letter_of_value? {c : Char} {n : Nat} (h : value? c = some n) : letters[n]? = some c := by
  obtain ⟨hn, rfl⟩ := digit_of_value? h
  exact getElem?_letters hn

/-! ## Groups of four -/

section Groups

variable {a b c d : Char} {rest : List Char} {bytes : Bytes}

theorem decodeChars?_two :
    decodeChars? [a, b, '=', '='] = some bytes ↔
      ∃ x y, value? a = some x ∧ value? b = some y ∧ (x * 64 + y) % 16 = 0 ∧
        bytes = [UInt8.ofNat ((x * 64 + y) / 16)] := by
  simp only [decodeChars?, Option.bind_eq_bind, Option.bind_eq_some_iff, Option.guard_eq_some',
    Option.pure_def, Option.some.injEq, exists_const, @eq_comm _ _ bytes]
  grind

theorem decodeChars?_three (hc : c ≠ '=') :
    decodeChars? [a, b, c, '='] = some bytes ↔
      ∃ x y z, value? a = some x ∧ value? b = some y ∧ value? c = some z ∧
        ((x * 64 + y) * 64 + z) % 4 = 0 ∧
        bytes = [UInt8.ofNat (((x * 64 + y) * 64 + z) / 1024),
          UInt8.ofNat (((x * 64 + y) * 64 + z) / 4)] := by
  rw [decodeChars?.eq_3 a b c hc]
  simp only [Option.bind_eq_bind, Option.bind_eq_some_iff, Option.guard_eq_some',
    Option.pure_def, Option.some.injEq, exists_const, @eq_comm _ _ bytes]
  grind

/-- A group that is not the last one, or has no marks. -/
theorem decodeChars?_four (two : c = '=' → d = '=' → rest = [] → False)
    (one : d = '=' → rest = [] → False) :
    decodeChars? (a :: b :: c :: d :: rest) = some bytes ↔
      ∃ x y z w more, value? a = some x ∧ value? b = some y ∧ value? c = some z ∧
        value? d = some w ∧ decodeChars? rest = some more ∧
        bytes = UInt8.ofNat ((((x * 64 + y) * 64 + z) * 64 + w) / 65536) ::
          UInt8.ofNat ((((x * 64 + y) * 64 + z) * 64 + w) / 256) ::
          UInt8.ofNat (((x * 64 + y) * 64 + z) * 64 + w) :: more := by
  rw [decodeChars?.eq_4 _ _ _ _ _ two one]
  simp only [Option.bind_eq_bind, Option.bind_eq_some_iff, Option.pure_def, Option.some.injEq,
    @eq_comm _ _ bytes]
  grind

end Groups

/-! ## What is written -/

/-- A byte is the rest of any number that it is the lowest part of. -/
theorem ofNat_eq {n : Nat} {b : UInt8} (h : n % 256 = b.toNat) : UInt8.ofNat n = b := by
  rw [← UInt8.toNat_inj, UInt8.toNat_ofNat', h]

theorem decodeChars?_encodeChars (bytes : Bytes) :
    decodeChars? (encodeChars bytes) = some bytes := by
  induction bytes using encodeChars.induct with
  | case1 => rfl
  | case2 a =>
    have ha := a.toNat_lt
    rw [encodeChars, decodeChars?_two]
    refine ⟨_, _, value?_digit (by omega), value?_digit (by omega), by omega, ?_⟩
    rw [ofNat_eq (b := a) (by omega)]
  | case3 a b =>
    have ha := a.toNat_lt
    have hb := b.toNat_lt
    rw [encodeChars, decodeChars?_three (digit_ne_mark (by omega))]
    refine ⟨_, _, _, value?_digit (by omega), value?_digit (by omega), value?_digit (by omega),
      by omega, ?_⟩
    rw [ofNat_eq (b := a) (by omega), ofNat_eq (b := b) (by omega)]
  | case4 a b c rest ih =>
    have ha := a.toNat_lt
    have hb := b.toNat_lt
    have hc := c.toNat_lt
    have last : digit (((a.toNat * 256 + b.toNat) * 256 + c.toNat) % 64) ≠ '=' :=
      digit_ne_mark (by omega)
    rw [encodeChars, decodeChars?_four (fun _ h _ => last h) (fun h _ => last h)]
    refine ⟨_, _, _, _, _, value?_digit (by omega), value?_digit (by omega),
      value?_digit (by omega), value?_digit (by omega), ih, ?_⟩
    rw [ofNat_eq (b := a) (by omega), ofNat_eq (b := b) (by omega), ofNat_eq (b := c) (by omega)]

/-! ## What is read -/

theorem ofDigits_four (x y z w : Nat) (digits : List Nat) :
    ofDigits 64 (x :: y :: z :: w :: digits).reverse =
      ofDigits 64 digits.reverse + 64 ^ digits.length * (((x * 64 + y) * 64 + z) * 64 + w) := by
  simp only [Nat.ofDigits_reverse_cons, List.length_cons]
  ring

theorem ofDigits_three (a b c : Nat) (bytes : List Nat) :
    ofDigits 256 (a :: b :: c :: bytes).reverse =
      ofDigits 256 bytes.reverse + 256 ^ bytes.length * ((a * 256 + b) * 256 + c) := by
  simp only [Nat.ofDigits_reverse_cons, List.length_cons]
  ring

namespace Carries

variable {digits digits' : List Nat} {padding padding' : Nat} {bytes : Bytes}

/-- The weight of what stands before the digits is that of what stands before the bytes. -/
theorem weight (h : Carries digits padding bytes) :
    64 ^ digits.length = 256 ^ bytes.length * 4 ^ padding :=
  calc 64 ^ digits.length = 2 ^ (6 * digits.length) := by rw [Nat.pow_mul]
    _ = 2 ^ (8 * bytes.length) * 2 ^ (2 * padding) := by rw [h.bits, Nat.pow_add]
    _ = 256 ^ bytes.length * 4 ^ padding := by rw [Nat.pow_mul, Nat.pow_mul]

theorem group (h : Carries digits padding bytes) {x y z w n : Nat} (hn : n < 16777216)
    (same : ((x * 64 + y) * 64 + z) * 64 + w = n) :
    Carries (x :: y :: z :: w :: digits) padding
      (UInt8.ofNat (n / 65536) :: UInt8.ofNat (n / 256) :: UInt8.ofNat n :: bytes) where
  bits := by
    have := h.bits
    simp only [List.length_cons]
    omega
  padded := h.padded
  value := by
    have number : (n / 65536 % 256 * 256 + n / 256 % 256) * 256 + n % 256 = n := by omega
    rw [ofDigits_four, List.map_cons, List.map_cons, List.map_cons, ofDigits_three, same]
    simp only [UInt8.toNat_ofNat', number, List.length_map]
    rw [h.value, h.weight]
    ring

/-- The number of bytes tells the number of digits, and the number that they are tells each. -/
theorem unique (h : Carries digits padding bytes) (h' : Carries digits' padding' bytes)
    (small : ∀ n ∈ digits, n < 64) (small' : ∀ n ∈ digits', n < 64) :
    digits = digits' ∧ padding = padding' := by
  have bits := h.bits
  have bits' := h'.bits
  have padded := h.padded
  have padded' := h'.padded
  obtain rfl : padding = padding' := by omega
  have length : digits.reverse.length = digits'.reverse.length := by
    simp only [List.length_reverse]
    omega
  have same := Nat.ofDigits_inj_of_len_eq (by decide) length (by simpa using small)
    (by simpa using small') (h.value.trans h'.value.symm)
  exact ⟨List.reverse_inj.mp same, rfl⟩

end Carries

theorem spells_of_decode {cs : List Char} {bytes : Bytes} (h : decodeChars? cs = some bytes) :
    Spells cs bytes := by
  induction cs using decodeChars?.induct generalizing bytes with
  | case1 =>
    obtain rfl := Option.some.inj h
    exact ⟨[], 0, ⟨rfl, by decide, rfl⟩, rfl⟩
  | case2 a b =>
    obtain ⟨x, y, hx, hy, zero, rfl⟩ := decodeChars?_two.mp h
    have xlt := (digit_of_value? hx).1
    have ylt := (digit_of_value? hy).1
    refine ⟨[x, y], 2, ⟨rfl, by decide, ?_⟩, ?_⟩
    · simp only [List.reverse_cons, List.reverse_nil, List.nil_append, List.cons_append,
        List.map_cons, List.map_nil, Nat.ofDigits_cons, Nat.ofDigits_nil, UInt8.toNat_ofNat']
      omega
    · simp [letter_of_value? hx, letter_of_value? hy, List.replicate_succ]
  | case3 a b c other =>
    obtain ⟨x, y, z, hx, hy, hz, zero, rfl⟩ := (decodeChars?_three other).mp h
    have xlt := (digit_of_value? hx).1
    have ylt := (digit_of_value? hy).1
    have zlt := (digit_of_value? hz).1
    refine ⟨[x, y, z], 1, ⟨rfl, by decide, ?_⟩, ?_⟩
    · simp only [List.reverse_cons, List.reverse_nil, List.nil_append, List.cons_append,
        List.map_cons, List.map_nil, Nat.ofDigits_cons, Nat.ofDigits_nil, UInt8.toNat_ofNat']
      omega
    · simp [letter_of_value? hx, letter_of_value? hy, letter_of_value? hz]
  | case4 a b c d rest two one ih =>
    obtain ⟨x, y, z, w, more, hx, hy, hz, hw, hmore, rfl⟩ := (decodeChars?_four two one).mp h
    have xlt := (digit_of_value? hx).1
    have ylt := (digit_of_value? hy).1
    have zlt := (digit_of_value? hz).1
    have wlt := (digit_of_value? hw).1
    obtain ⟨digits, padding, carries, text⟩ := ih hmore
    refine ⟨x :: y :: z :: w :: digits, padding, carries.group (by omega) rfl, ?_⟩
    simp only [List.map_cons, List.cons_append, text, letter_of_value? hx, letter_of_value? hy,
      letter_of_value? hz, letter_of_value? hw]
  | case5 cs empty two one group =>
    rw [decodeChars?.eq_5 _ empty two one group] at h
    cases h

theorem lt_of_letters {cs : List Char} {digits : List Nat} {marks : List (Option Char)}
    (h : cs.map some = digits.map (letters[·]?) ++ marks) : ∀ n ∈ digits, n < 64 := by
  intro n hn
  have there : letters[n]? ∈ cs.map some :=
    h ▸ List.mem_append_left marks (List.mem_map.mpr ⟨n, hn, rfl⟩)
  obtain ⟨c, -, hc⟩ := List.mem_map.mp there
  have below : n < letters.length := (List.getElem?_eq_some_iff.mp hc.symm).1
  exact below

theorem Spells.unique {cs cs' : List Char} {bytes : Bytes} (h : Spells cs bytes)
    (h' : Spells cs' bytes) : cs = cs' := by
  obtain ⟨digits, padding, carries, text⟩ := h
  obtain ⟨digits', padding', carries', text'⟩ := h'
  obtain ⟨rfl, rfl⟩ := carries.unique carries' (lt_of_letters text) (lt_of_letters text')
  exact (List.map_inj_right fun _ _ => Option.some.inj).mp (text.trans text'.symm)

/-- A text is read as the bytes that it spells, and not read if it spells none. -/
theorem decodeChars?_eq_some_iff {cs : List Char} {bytes : Bytes} :
    decodeChars? cs = some bytes ↔ Spells cs bytes := by
  refine ⟨spells_of_decode, fun h => ?_⟩
  have written := decodeChars?_encodeChars bytes
  rw [h.unique (spells_of_decode written), written]

end LiveSound.Base64
