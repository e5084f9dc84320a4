import LiveSound.Proofs.Numeric.Decimal
import LiveSound.Settings.Basic
import Mathlib.Data.List.Infix

/-!
# The sample rate among the flags

A project gives flags of its own, and the sample rate is added to them unless one of them looks as
if it gave it already. A flag that only begins like the one that does is enough to keep it out, so
the sources of such a project are compiled without a sample rate (`defined_iff`).
-/

namespace LiveSound.Settings

/-- The flag defines the macro of the sample rate, with a value or without. -/
def definesRate (flag : String) : Bool :=
  flag == "-DSAMPLE_RATE" || flag.startsWith "-DSAMPLE_RATE="

/-- It looks as if it defined it. -/
def resemblesRate (flag : String) : Bool := givesRate flag && !definesRate flag

def ownFlags (s : Settings) : List String := s.compilation.options.additionalFlags

def flags (s : Settings) : List String := s.compileOptions.additionalFlags

def rateFlag (s : Settings) : String := "-DSAMPLE_RATE=" ++ toString s.sampleRate

variable {s : Settings}

theorem givesRate_iff {flag : String} :
    givesRate flag = true ↔ "-DSAMPLE_RATE".toList <+: flag.toList := String.startsWith_string_iff

theorem definesRate_iff {flag : String} :
    definesRate flag = true ↔
      flag = "-DSAMPLE_RATE" ∨ "-DSAMPLE_RATE=".toList <+: flag.toList := by
  rw [definesRate, Bool.or_eq_true, beq_iff_eq, String.startsWith_string_iff]

/-- A flag that defines the macro is taken for one that does. -/
theorem givesRate_of_definesRate {flag : String} (h : definesRate flag = true) :
    givesRate flag = true := by
  rw [givesRate_iff]
  rcases definesRate_iff.mp h with rfl | longer
  · exact List.prefix_refl _
  · have shorter : "-DSAMPLE_RATE".toList <+: "-DSAMPLE_RATE=".toList := ⟨['='], by decide⟩
    exact shorter.trans longer

theorem definesRate_rateFlag : definesRate s.rateFlag = true := by
  rw [definesRate_iff, rateFlag, String.toList_append]
  exact .inr (List.prefix_append _ _)

theorem flags_eq : s.flags = s.ownFlags ++ s.rateFlags := rfl

theorem rateFlags_of_given {flag : String} (own : flag ∈ s.ownFlags)
    (gives : givesRate flag = true) : s.rateFlags = [] := by
  have any : s.compilation.options.additionalFlags.any givesRate = true :=
    List.any_eq_true.mpr ⟨flag, own, gives⟩
  rw [rateFlags, if_pos any]

theorem rateFlags_of_not_given (h : ∀ flag ∈ s.ownFlags, givesRate flag = false) :
    s.rateFlags = [s.rateFlag] := by
  have none : s.compilation.options.additionalFlags.any givesRate = false :=
    List.any_eq_false.mpr fun flag own => by simp [h flag own]
  rw [rateFlags, none]
  rfl

/-- Nothing is added to flags that define the macro. -/
theorem flags_of_defined (h : ∃ flag ∈ s.ownFlags, definesRate flag = true) :
    s.flags = s.ownFlags := by
  obtain ⟨flag, own, defines⟩ := h
  rw [flags_eq, rateFlags_of_given own (givesRate_of_definesRate defines), List.append_nil]

/-- The macro is defined, unless no flag of the project defines it and some flag looks like it. -/
theorem defined_iff :
    (∃ flag ∈ s.flags, definesRate flag = true) ↔
      (∃ flag ∈ s.ownFlags, definesRate flag = true) ∨
        ∀ flag ∈ s.ownFlags, resemblesRate flag = false := by
  constructor
  · rintro ⟨flag, hf, defines⟩
    rcases List.mem_append.mp (flags_eq ▸ hf) with own | added
    · exact .inl ⟨flag, own, defines⟩
    · refine .inr fun other own => ?_
      cases gives : givesRate other with
      | true =>
        rw [rateFlags_of_given own gives] at added
        cases added
      | false => rw [resemblesRate, gives, Bool.false_and]
  · rintro (⟨flag, own, defines⟩ | unlike)
    · exact ⟨flag, List.mem_append_left _ own, defines⟩
    · by_cases given : ∃ flag ∈ s.ownFlags, givesRate flag = true
      · obtain ⟨flag, own, gives⟩ := given
        have defines := unlike flag own
        rw [resemblesRate, gives, Bool.true_and, Bool.not_eq_false'] at defines
        exact ⟨flag, List.mem_append_left _ own, defines⟩
      · have none : ∀ flag ∈ s.ownFlags, givesRate flag = false := by simpa using given
        refine ⟨s.rateFlag, ?_, definesRate_rateFlag⟩
        rw [flags_eq, rateFlags_of_not_given none]
        exact List.mem_append_right _ List.mem_cons_self

/-- If no flag of the project defines the macro, only the flag that is added can. -/
theorem eq_rateFlag_of_defines (none : ∀ flag ∈ s.ownFlags, definesRate flag = false)
    {flag : String} (hf : flag ∈ s.flags) (defines : definesRate flag = true) :
    flag = s.rateFlag := by
  rcases List.mem_append.mp (flags_eq ▸ hf) with own | added
  · rw [none flag own] at defines
    cases defines
  · rw [rateFlags] at added
    split at added
    · cases added
    · exact List.mem_singleton.mp added

theorem sampleRate_bounds : 8000 ≤ s.sampleRate ∧ s.sampleRate ≤ 192000 := by
  simp only [sampleRate, clamp]
  omega

/-- The value that the added flag gives, read as a number, is the sample rate. -/
theorem exists_value :
    ∃ value, s.rateFlag = "-DSAMPLE_RATE=" ++ value ∧
      (∀ c ∈ value.toList, c.isDigit = true) ∧
      Nat.ofDigitChars 10 value.toList 0 = s.sampleRate := by
  have digits : (toString s.sampleRate).toList = digitsOf s.sampleRate := String.toList_ofList
  refine ⟨toString s.sampleRate, rfl, ?_, ?_⟩
  · rw [digits]
    exact fun c hc => isDigit_of_mem_digitsOf hc
  · rw [digits, value_digitsOf]

end LiveSound.Settings
