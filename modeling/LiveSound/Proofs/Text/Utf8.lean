import LiveSound.Text.Utf8

/-!
# Text survives its bytes

What is written in UTF-8 is well-formed, and reading it gives the text again. The shape of a first
byte says how many bytes follow and in which range the next one is; one lemma for each shape.
-/

namespace LiveSound.Utf8

theorem toNat_ofNat {n : Nat} (hn : n < 256) : (UInt8.ofNat n).toNat = n :=
  UInt8.toNat_ofNat_of_lt hn

/-- A byte in its range gives its six bits. -/
theorem follow_cons {low high : UInt8} {n value x used : Nat} {rest : Bytes} (hx : x < 64)
    (hlow : low.toNat ≤ x + 128) (hhigh : x + 128 ≤ high.toNat) :
    follow (n + 1) low high value (UInt8.ofNat (x + 128) :: rest) used =
      follow n 0x80 0xBF (value * 64 + x) rest (used + 1) := by
  have hbyte : (UInt8.ofNat (x + 128)).toNat = x + 128 := toNat_ofNat (by omega)
  have hrange : low ≤ UInt8.ofNat (x + 128) ∧ UInt8.ofNat (x + 128) ≤ high := by
    rw [UInt8.le_iff_toNat_le, UInt8.le_iff_toNat_le, hbyte]
    exact ⟨hlow, hhigh⟩
  rw [follow, if_pos hrange, hbyte, Nat.add_sub_cancel]

/-- A byte after the second one. -/
theorem follow_tail {n value used : Nat} (x : Nat) {rest : Bytes} :
    follow (n + 1) 0x80 0xBF value (UInt8.ofNat (x % 64 + 128) :: rest) used =
      follow n 0x80 0xBF (value * 64 + x % 64) rest (used + 1) := by
  have hx : x % 64 < 64 := Nat.mod_lt x (by decide)
  refine follow_cons hx ?_ ?_
  · exact Nat.le_add_left 128 _
  · show x % 64 + 128 ≤ 191
    omega

/-! ## First bytes -/

theorem lead?_one {n : Nat} (hn : n < 128) :
    lead? (UInt8.ofNat n) = some ⟨0, 0x80, 0xBF, n⟩ := by
  have hbyte : (UInt8.ofNat n).toNat = n := toNat_ofNat (by omega)
  simp [lead?, UInt8.lt_iff_toNat_lt, hbyte, hn]

theorem lead?_two {n : Nat} (hlow : 2 ≤ n) (hhigh : n < 32) :
    lead? (UInt8.ofNat (n + 192)) = some ⟨1, 0x80, 0xBF, n⟩ := by
  have hbyte : (UInt8.ofNat (n + 192)).toNat = n + 192 := toNat_ofNat (by omega)
  simp only [lead?, UInt8.lt_iff_toNat_lt, hbyte]
  rw [if_neg (by simp), if_neg (by simp; omega), if_pos (by simp; omega)]
  simp

/-- The range of the byte after a first byte that is followed by two. -/
theorem lead?_three {n : Nat} (hn : n < 16) :
    lead? (UInt8.ofNat (n + 224)) =
      some ⟨2, if n = 0 then 0xA0 else 0x80, if n = 13 then 0x9F else 0xBF, n⟩ := by
  have hall : ∀ n < 16, lead? (UInt8.ofNat (n + 224)) =
      some ⟨2, if n = 0 then 0xA0 else 0x80, if n = 13 then 0x9F else 0xBF, n⟩ := by decide
  exact hall n hn

/-- The range of the byte after a first byte that is followed by three. -/
theorem lead?_four {n : Nat} (hn : n < 5) :
    lead? (UInt8.ofNat (n + 240)) =
      some ⟨3, if n = 0 then 0x90 else 0x80, if n = 4 then 0x8F else 0xBF, n⟩ := by
  have hall : ∀ n < 5, lead? (UInt8.ofNat (n + 240)) =
      some ⟨3, if n = 0 then 0x90 else 0x80, if n = 4 then 0x8F else 0xBF, n⟩ := by decide
  exact hall n hn

/-! ## Characters -/

theorem next_one {v : Nat} (hv : v ≤ 0x7f) (rest : Bytes) :
    next (UInt8.ofNat v) rest = .ok (Char.ofNat v, 0) := by
  simp only [next, lead?_one (show v < 128 by omega), follow]

theorem next_two {v : Nat} (hlow : 0x7f < v) (hhigh : v ≤ 0x7ff) (rest : Bytes) :
    next (UInt8.ofNat (v / 64 % 32 + 192)) (UInt8.ofNat (v % 64 + 128) :: rest) =
      .ok (Char.ofNat v, 1) := by
  have hlead := lead?_two (n := v / 64 % 32) (by omega) (by omega)
  have hsum : v / 64 % 32 * 64 + v % 64 = v := by omega
  simp only [next, hlead]
  rw [follow_tail, follow, hsum]

theorem next_three {v : Nat} (hlow : 0x7ff < v) (hhigh : v ≤ 0xffff)
    (hvalid : v < 0xD800 ∨ 0xDFFF < v) (rest : Bytes) :
    next (UInt8.ofNat (v / 4096 % 16 + 224))
        (UInt8.ofNat (v / 64 % 64 + 128) :: UInt8.ofNat (v % 64 + 128) :: rest) =
      .ok (Char.ofNat v, 2) := by
  have hlead := lead?_three (n := v / 4096 % 16) (by omega)
  have hsecond : (if v / 4096 % 16 = 0 then 0xA0 else 0x80 : UInt8).toNat ≤ v / 64 % 64 + 128 ∧
      v / 64 % 64 + 128 ≤ (if v / 4096 % 16 = 13 then 0x9F else 0xBF : UInt8).toNat := by
    rw [apply_ite UInt8.toNat, apply_ite UInt8.toNat]
    simp only [UInt8.reduceToNat]
    constructor <;> split <;> omega
  have hsum : (v / 4096 % 16 * 64 + v / 64 % 64) * 64 + v % 64 = v := by omega
  simp only [next, hlead]
  rw [follow_cons (by omega) hsecond.1 hsecond.2, follow_tail, follow, hsum]

theorem next_four {v : Nat} (hlow : 0xffff < v) (hhigh : v < 0x110000) (rest : Bytes) :
    next (UInt8.ofNat (v / 262144 % 8 + 240))
        (UInt8.ofNat (v / 4096 % 64 + 128) :: UInt8.ofNat (v / 64 % 64 + 128) ::
          UInt8.ofNat (v % 64 + 128) :: rest) =
      .ok (Char.ofNat v, 3) := by
  have hlead := lead?_four (n := v / 262144 % 8) (by omega)
  have hsecond : (if v / 262144 % 8 = 0 then 0x90 else 0x80 : UInt8).toNat ≤ v / 4096 % 64 + 128 ∧
      v / 4096 % 64 + 128 ≤ (if v / 262144 % 8 = 4 then 0x8F else 0xBF : UInt8).toNat := by
    rw [apply_ite UInt8.toNat, apply_ite UInt8.toNat]
    simp only [UInt8.reduceToNat]
    constructor <;> split <;> omega
  have hsum : ((v / 262144 % 8 * 64 + v / 4096 % 64) * 64 + v / 64 % 64) * 64 + v % 64 = v := by
    omega
  simp only [next, hlead]
  rw [follow_cons (by omega) hsecond.1 hsecond.2, follow_tail, follow_tail, follow, hsum]

/-- The bytes of a character are read as that character, whatever comes after them. -/
theorem next_encodeChar (c : Char) (rest : Bytes) :
    ∃ b following, String.utf8EncodeChar c = b :: following ∧
      next b (following ++ rest) = .ok (c, following.length) := by
  have hvalid : c.val.toNat < 0xD800 ∨ 0xDFFF < c.val.toNat ∧ c.val.toNat < 0x110000 := c.valid
  have hof : Char.ofNat c.val.toNat = c := Char.ofNat_toNat c
  unfold String.utf8EncodeChar
  simp only
  generalize c.val.toNat = v at hvalid hof
  subst hof
  by_cases hone : v ≤ 0x7f
  · rw [if_pos hone]
    exact ⟨_, _, rfl, next_one hone _⟩
  rw [if_neg hone]
  by_cases htwo : v ≤ 0x7ff
  · rw [if_pos htwo]
    exact ⟨_, _, rfl, next_two (by omega) htwo _⟩
  rw [if_neg htwo]
  by_cases hthree : v ≤ 0xffff
  · rw [if_pos hthree]
    exact ⟨_, _, rfl, next_three (by omega) hthree (by omega) _⟩
  · rw [if_neg hthree]
    exact ⟨_, _, rfl, next_four (by omega) (by omega) _⟩

/-! ## Texts -/

theorem decodeChars?_encodeChars (cs : List Char) : decodeChars? (encodeChars cs) = some cs := by
  induction cs with
  | nil => simp [encodeChars, decodeChars?]
  | cons c cs ih =>
    obtain ⟨b, following, hbytes, hnext⟩ := next_encodeChar c (encodeChars cs)
    rw [encodeChars, hbytes, List.cons_append, decodeChars?, hnext]
    simp only [List.drop_left, ih, Option.map_some]

theorem decode?_encode (text : String) : decode? (encode text) = some text := by
  unfold decode? encode
  rw [decodeChars?_encodeChars, Option.map_some, String.ofList_toList]

theorem lossyChars_encodeChars (cs : List Char) : lossyChars (encodeChars cs) = cs := by
  induction cs with
  | nil => simp [encodeChars, lossyChars]
  | cons c cs ih =>
    obtain ⟨b, following, hbytes, hnext⟩ := next_encodeChar c (encodeChars cs)
    rw [encodeChars, hbytes, List.cons_append, lossyChars, hnext]
    simp only [List.drop_left, ih]

/-- Nothing in the bytes of a text is taken for damage. -/
theorem lossy_encode (text : String) : lossy (encode text) = text := by
  unfold lossy encode
  rw [lossyChars_encodeChars, String.ofList_toList]

end LiveSound.Utf8
