import PodCompiler.Proofs.Quantities
import Mathlib.Tactic.IntervalCases

/-!
# PodCompiler — numbers of thousandths

Computing time is counted in thousandths of a core and written in the largest decimal unit that
leaves a whole number: in thousandths themselves, in cores, in thousands of cores and so on. The
writer knows a notation with an exponent for numbers whose unit has no suffix. In the range of
sixty-four bits it is never used: a number there has at most six factors of a thousand, and the
sixth unit above thousandths still has a suffix.

Main results:

* `Reduced.power_le_six` — the units that are needed.
* `exists_milliForm` — how a number of thousandths is written.
* `value_milli`, `milli_injective` — what is written stands for this number, and for no other one.
* `milli_canonical` — the written form is canonical and exact.
-/

namespace PodCompiler.Quantity

/-- The suffixes of thousandths and of the units above, each a thousand times the one before. -/
def milliSuffixes : List String := ["m", "", "k", "M", "G", "T", "P"]

/-- The canonical form of a number of thousandths: its numeral and its suffix. -/
inductive MilliForm (amount : Int) : Int → String → Prop
  /-- Nothing is written as a zero, in no unit. -/
  | zero (hZero : amount = 0) : MilliForm amount 0 ""
  /-- All others are written in the largest unit that leaves a whole number. -/
  | unit {mantissa : Int} {power : Nat} {suffix : String}
      (hReduced : Reduced 1000 amount mantissa power)
      (hSuffix : milliSuffixes[power]? = some suffix) : MilliForm amount mantissa suffix

/-! ## Units -/

/-- The suffixes stand for powers of a thousand, from a thousandth on. -/
theorem factor_milliSuffixes {power : Nat} {suffix : String}
    (hSuffix : milliSuffixes[power]? = some suffix) :
    factor? suffix = some (1000 ^ power / 1000) := by
  have hPower : power < 7 := (List.getElem?_eq_some_iff.mp hSuffix).1
  interval_cases power
  all_goals
    obtain rfl := Option.some.inj hSuffix
    norm_num [factor?]

/-- The writer's suffixes for thousandths and the units above them. -/
theorem exists_milliSuffix {power : Nat} (hPower : power ≤ 6) :
    ∃ suffix, milliSuffixes[power]? = some suffix ∧
      decimalSuffix (-3 + 3 * (power : Nat)) = some suffix := by
  interval_cases power
  all_goals exact ⟨_, rfl, rfl⟩

/-- The letter of an exponent is in none of the suffixes. -/
theorem exponent_notMem_milliSuffixes {power : Nat} {suffix : String}
    (hSuffix : milliSuffixes[power]? = some suffix) : 'e' ∉ suffix.toList := by
  have hNone : ∀ s ∈ milliSuffixes, 'e' ∉ s.toList := by decide
  exact hNone suffix (List.mem_of_getElem? hSuffix)

/-- A number of sixty-four bits has at most six factors of a thousand, unless it is zero. -/
theorem Reduced.power_le_six {amount : Int64} {mantissa : Int} {power : Nat}
    (hReduced : Reduced 1000 amount.toInt mantissa power) : power ≤ 6 :=
  hReduced.power_le_of_word (by decide) (by norm_num)

/-! ## Writing -/

variable {amount mantissa : Int} {suffix : String}

/-- The numeral times the factor of the suffix is a thousandth of the number. -/
theorem MilliForm.factor (hForm : MilliForm amount mantissa suffix) :
    ∃ factor, factor? suffix = some factor ∧ (mantissa : ℚ) * factor = amount / 1000 := by
  cases hForm with
  | zero hZero => exact ⟨1, rfl, by simp [hZero]⟩
  | unit hReduced hSuffix =>
    refine ⟨_, factor_milliSuffixes hSuffix, ?_⟩
    rw [← hReduced.exact, mul_div_assoc']
    push_cast
    rfl

theorem MilliForm.exponent_notMem (hForm : MilliForm amount mantissa suffix) :
    'e' ∉ (Numeral.ofInt mantissa ++ suffix).toList := by
  have hSuffix : 'e' ∉ suffix.toList := by
    cases hForm with
    | zero hZero => decide
    | unit hReduced hSuffix => exact exponent_notMem_milliSuffixes hSuffix
  -- before the suffix there are a sign and digits
  obtain ⟨sign, d, ds, hText, hSign, hDigits, -⟩ := Numeral.isNumeral_ofInt mantissa
  rw [String.toList_append, hText, List.mem_append, List.mem_append]
  rintro ((hMem | hMem) | hMem)
  · rcases hSign with rfl | rfl
    · cases hMem
    · exact absurd hMem (by decide)
  · exact absurd (hDigits 'e' hMem) (by decide)
  · exact hSuffix hMem

/-- Every number of thousandths is written in its canonical form. -/
theorem exists_milliForm (amount : Int64) :
    ∃ mantissa suffix, milli amount = Numeral.ofInt mantissa ++ suffix ∧
      MilliForm amount.toInt mantissa suffix := by
  rw [milli]
  by_cases hZero : amount.toInt = 0
  · exact ⟨0, "", by rw [hZero]; decide, .zero hZero⟩
  · obtain ⟨mantissa, power, hReduced, hDecimal⟩ := exists_decimal hZero (by decide : (-3) % 3 = 0)
    -- there are few enough factors for the unit to have a suffix
    obtain ⟨suffix, hSuffix, hWritten⟩ := exists_milliSuffix hReduced.power_le_six
    exact ⟨mantissa, suffix, hDecimal suffix hWritten, .unit hReduced hSuffix⟩

/-- What is written stands for a thousandth of the number. -/
theorem value_milli (amount : Int64) : value? (milli amount) = some (amount.toInt / 1000 : ℚ) := by
  obtain ⟨mantissa, suffix, hText, hForm⟩ := exists_milliForm amount
  obtain ⟨factor, hFactor, hExact⟩ := hForm.factor
  rw [hText, value_ofInt_append hFactor, hExact]

/-- Different numbers are written differently. -/
theorem milli_injective : Function.Injective milli := by
  intro amount other hSame
  -- equal texts stand for equal thousandths
  have hNumbers := value_milli amount
  rw [hSame, value_milli other, Option.some.injEq, div_left_inj' (by norm_num)] at hNumbers
  exact Int64.toInt_inj.mp (by exact_mod_cast hNumbers.symm)

/-- **Numbers of thousandths.** A number of thousandths is written as a numeral and a suffix, in its
canonical form and never with an exponent; only for zero is this a plain zero. The text stands for
exactly a thousandth of the number, and no other number is written so. -/
theorem milli_canonical (amount : Int64) :
    (∃ mantissa suffix factor, milli amount = Numeral.ofInt mantissa ++ suffix ∧
      Numeral.IsNumeral (Numeral.ofInt mantissa).toList ∧ MilliForm amount.toInt mantissa suffix ∧
        factor? suffix = some factor ∧ (mantissa : ℚ) * factor = amount.toInt / 1000) ∧
      value? (milli amount) = some (amount.toInt / 1000 : ℚ) ∧
      'e' ∉ (milli amount).toList ∧
      (milli amount = "0" ↔ amount = 0) ∧
      ∀ other, milli other = milli amount ↔ other = amount := by
  obtain ⟨mantissa, suffix, hText, hForm⟩ := exists_milliForm amount
  refine ⟨?form, value_milli amount, hText ▸ hForm.exponent_notMem, ?zero,
    fun other => milli_injective.eq_iff⟩
  case form =>
    obtain ⟨factor, hFactor, hExact⟩ := hForm.factor
    exact ⟨mantissa, suffix, factor, hText, Numeral.isNumeral_ofInt mantissa, hForm, hFactor,
      hExact⟩
  case zero =>
    have hZero : milli 0 = "0" := by decide
    rw [← hZero]
    exact milli_injective.eq_iff

end PodCompiler.Quantity
