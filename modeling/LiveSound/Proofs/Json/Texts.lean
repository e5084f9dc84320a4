import LiveSound.Json.Reader
import LiveSound.Json.Writer

/-!
# Strings read back

What is written between quotes reads back as the characters that were written, whatever they are:
`stringBody_stringChars`. Each character is read by itself, so one lemma per way of writing one is
enough (`stringBody_escape`).
-/

namespace LiveSound.Json

def before (c : Char) (found : List Char × List Char) : List Char × List Char :=
  (c :: found.1, found.2)

theorem map_before (c : Char) (found : Option (List Char × List Char)) :
    (do let (body, rest) ← found; return (c :: body, rest)) = found.map (before c) := by
  cases found <;> rfl

/-- A backslash and a letter other than the one that begins a number. -/
theorem stringBody_letter {x c : Char} (hx : escaped? x = some c) (rest : List Char) :
    stringBody ('\\' :: x :: rest) = (stringBody rest).map (before c) := by
  have hu : x ≠ 'u' := by
    rintro rfl
    simp [escaped?] at hx
  rw [stringBody.eq_def]
  split
  case h_1 heq => cases heq
  case h_2 heq => simp at heq
  case h_3 heq => exact (hu (List.cons.inj (List.cons.inj heq).2).1).elim
  case h_4 heq =>
    cases heq
    rw [hx]
    exact map_before _ _
  case h_5 hslash heq =>
    cases heq
    exact (hslash _ _ rfl rfl).elim

/-- The number of a control character takes two digits, and reads back. -/
theorem unit?_control {c : Char} (hc : c < ' ') :
    unit? '0' '0' (hexDigit (c.toNat / 16)) (hexDigit (c.toNat % 16)) = some c.toNat := by
  have all : ∀ n < 32, unit? '0' '0' (hexDigit (n / 16)) (hexDigit (n % 16)) = some n := by decide
  exact all c.toNat hc

theorem stringBody_control {c : Char} (hc : c < ' ') (rest : List Char) :
    stringBody ('\\' :: 'u' :: '0' :: '0' :: hexDigit (c.toNat / 16) :: hexDigit (c.toNat % 16) ::
      rest) = (stringBody rest).map (before c) := by
  have small : c.toNat < 32 := hc
  have single : ¬ (0xD800 ≤ c.toNat ∧ c.toNat < 0xDC00) := by omega
  have alone : alone? c.toNat = some c := by
    rw [alone?, if_pos (Or.inl (by omega)), Char.ofNat_toNat]
  rw [stringBody, unit?_control hc]
  simp only [Option.bind_eq_bind, Option.bind_some, single, if_false, alone]
  exact map_before _ _

theorem stringBody_plain {c : Char} (hquote : c ≠ '"') (hslash : c ≠ '\\') (hc : ¬ c < ' ')
    (rest : List Char) : stringBody (c :: rest) = (stringBody rest).map (before c) := by
  rw [stringBody.eq_def]
  split
  case h_1 heq => cases heq
  case h_2 heq => exact (hquote (List.cons.inj heq).1).elim
  case h_3 heq => exact (hslash (List.cons.inj heq).1).elim
  case h_4 heq => exact (hslash (List.cons.inj heq).1).elim
  case h_5 heq =>
    cases heq
    rw [if_pos ⟨Char.not_lt.mp hc, hslash⟩]
    exact map_before _ _

/-- However a character is written, it is read. -/
theorem stringBody_escape (c : Char) (rest : List Char) :
    stringBody (escape c ++ rest) = (stringBody rest).map (before c) := by
  unfold escape
  iterate 7
    split
    · subst c
      exact stringBody_letter rfl rest
  split
  · rename_i control
    exact stringBody_control control rest
  · rename_i quote slash _ _ _ _ _ plain
    exact stringBody_plain quote slash plain rest

theorem stringBody_stringChars (cs rest : List Char) :
    stringBody (cs.flatMap escape ++ '"' :: rest) = some (cs, rest) := by
  induction cs with
  | nil => simp [stringBody]
  | cons c cs ih =>
    rw [List.flatMap_cons, List.append_assoc, stringBody_escape, ih]
    rfl

theorem string_stringChars (cs rest : List Char) :
    string (cs.flatMap escape ++ '"' :: rest) = some (some cs, rest) := by
  rw [string, stringBody_stringChars]

end LiveSound.Json
