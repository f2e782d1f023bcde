import PodCompiler.Proofs.Quantities
import Mathlib.Tactic.IntervalCases

/-!
# PodCompiler — numbers of bytes

A number of bytes from 1024 on is written in the largest binary unit that leaves a whole number; a
smaller one is written in thousands if it can be, and plainly otherwise. In the range of sixty-four
bits the suffixes never run out: behind the sixtieth power of two no factor of 1024 can be left.

Main results:

* `exists_form` — how a number of bytes is written.
* `binary_canonical` — what is written stands for the number, and only for it.
-/

namespace PodCompiler.Quantity

/-- The canonical form of a number of bytes: its numeral and its suffix. -/
inductive ByteForm (amount : Int) : Int → String → Prop
  /-- Nothing is written as a zero. -/
  | zero (hZero : amount = 0) : ByteForm amount 0 ""
  /-- Numbers below 1024 on either side have a decimal suffix, or none. -/
  | decimal {mantissa : Int} {power : Nat} {suffix : String}
      (hSmall : -1024 < amount ∧ amount < 1024) (hReduced : Reduced 1000 amount mantissa power)
      (hSuffix : decimalSuffix (3 * (power : Nat)) = some suffix) : ByteForm amount mantissa suffix
  /-- All others have a binary suffix, or none. -/
  | binary {mantissa : Int} {power : Nat} {suffix : String}
      (hLarge : ¬ (-1024 < amount ∧ amount < 1024)) (hReduced : Reduced 1024 amount mantissa power)
      (hSuffix : binarySuffixes[power]? = some suffix) : ByteForm amount mantissa suffix

/-! ## Factors of suffixes -/

/-- The suffixes of powers of 1024 stand for these powers. -/
theorem factor_binarySuffixes {power : Nat} {suffix : String}
    (hSuffix : binarySuffixes[power]? = some suffix) : factor? suffix = some (1024 ^ power) := by
  have hPower : power < 7 := (List.getElem?_eq_some_iff.mp hSuffix).1
  interval_cases power
  all_goals
    obtain rfl := Option.some.inj hSuffix
    norm_num [factor?]

variable {amount mantissa : Int} {power : Nat} {suffix : String}

/-- Below 1024 there is at most one factor of a thousand. -/
theorem Reduced.power_le_one (hSmall : -1024 < amount ∧ amount < 1024)
    (hReduced : Reduced 1000 amount mantissa power) : power ≤ 1 := by
  have hMillion : amount.natAbs < (1000 ^ 2 : Int).natAbs := by
    norm_num
    omega
  exact hReduced.power_le (by decide) hMillion

theorem ByteForm.factor (hForm : ByteForm amount mantissa suffix) :
    ∃ factor, factor? suffix = some factor ∧ (mantissa : ℚ) * factor = amount := by
  cases hForm with
  | zero hZero => exact ⟨1, rfl, by simp [hZero]⟩
  | decimal hSmall hReduced hSuffix =>
    have hPower := hReduced.power_le_one hSmall
    have hExact := hReduced.exact
    obtain rfl | rfl := Nat.le_one_iff_eq_zero_or_eq_one.mp hPower
    · obtain rfl : "" = suffix := Option.some.inj hSuffix
      refine ⟨1, rfl, ?_⟩
      rw [← hReduced.exact]
      simp
    · obtain rfl : "k" = suffix := Option.some.inj hSuffix
      refine ⟨1000, rfl, ?_⟩
      rw [← hReduced.exact]
      simp
  | binary hLarge hReduced hSuffix =>
    refine ⟨_, factor_binarySuffixes hSuffix, ?_⟩
    exact_mod_cast hReduced.exact

/-! ## Writing -/

/-- The suffixes do not run out: an amount of sixty-four bits has at most six factors of 1024. -/
theorem not_dvd_of_last {bytes : Int64} (hLarge : ¬ (-1024 < bytes.toInt ∧ bytes.toInt < 1024))
    (hExact : mantissa * 1024 ^ 6 = bytes.toInt) : ¬ 1024 ∣ mantissa := by
  rintro ⟨rest, rfl⟩
  have hLow := bytes.le_toInt
  have hHigh := bytes.toInt_lt
  norm_num at hLow hHigh hExact
  omega

/-- Every number of bytes is written in its canonical form. -/
theorem exists_form (bytes : Int64) :
    ∃ mantissa suffix, binary bytes = Numeral.ofInt mantissa ++ suffix ∧
      ByteForm bytes.toInt mantissa suffix := by
  rw [binary]
  by_cases hSmall : -1024 < bytes.toInt ∧ bytes.toInt < 1024
  · rw [if_pos hSmall]
    by_cases hZero : bytes.toInt = 0
    · exact ⟨0, "", by rw [hZero]; decide, .zero hZero⟩
    · obtain ⟨mantissa, power, hReduced, hDecimal⟩ := exists_decimal hZero (Int.zero_emod 3)
      rw [zero_add] at hDecimal
      have hPower := hReduced.power_le_one hSmall
      obtain ⟨suffix, hSuffix⟩ : ∃ suffix, decimalSuffix (3 * (power : Nat)) = some suffix := by
        interval_cases power
        · exact ⟨"", rfl⟩
        · exact ⟨"k", rfl⟩
      exact ⟨mantissa, suffix, hDecimal suffix hSuffix, .decimal hSmall hReduced hSuffix⟩
  · rw [if_neg hSmall]
    have hSome : binarySuffixes ≠ [] := List.cons_ne_nil _ _
    obtain ⟨mantissa, power, suffix, hScale, hSuffix, hExact, hEnd⟩ :=
      scaleBinary_eq bytes.toInt hSome
    refine ⟨mantissa, suffix, by simp only [hScale], ?_⟩
    refine .binary hSmall (reduced_of_not_dvd (by decide) hExact fun hDvd => ?_) hSuffix
    -- only at the last suffix a factor could have been left
    obtain rfl : power = 6 := by simpa [binarySuffixes] using hEnd hDvd
    exact not_dvd_of_last hSmall hExact hDvd

/-- **Numbers of bytes.** A number of bytes is written as a numeral and a suffix, in its canonical
form; the text stands for exactly this number, and no other number is written so. -/
theorem binary_canonical (bytes : Int64) :
    (∃ mantissa suffix factor, binary bytes = Numeral.ofInt mantissa ++ suffix ∧
      Numeral.IsNumeral (Numeral.ofInt mantissa).toList ∧ ByteForm bytes.toInt mantissa suffix ∧
        factor? suffix = some factor ∧ (mantissa : ℚ) * factor = bytes.toInt) ∧
      value? (binary bytes) = some (bytes.toInt : ℚ) ∧
      ∀ other, binary other = binary bytes ↔ other = bytes := by
  have hValue (b : Int64) : value? (binary b) = some (b.toInt : ℚ) := by
    obtain ⟨mantissa, suffix, hText, hForm⟩ := exists_form b
    obtain ⟨factor, hFactor, hExact⟩ := hForm.factor
    rw [hText, value_ofInt_append hFactor, hExact]
  refine ⟨?form, hValue bytes, fun other => ⟨fun hSame => ?apart, fun hSame => hSame ▸ rfl⟩⟩
  case form =>
    obtain ⟨mantissa, suffix, hText, hForm⟩ := exists_form bytes
    obtain ⟨factor, hFactor, hExact⟩ := hForm.factor
    exact ⟨mantissa, suffix, factor, hText, Numeral.isNumeral_ofInt mantissa, hForm, hFactor, hExact⟩
  case apart =>
    -- equal texts stand for equal numbers
    have hNumbers := hValue other
    rw [hSame, hValue bytes] at hNumbers
    exact Int64.toInt_inj.mp (by exact_mod_cast (Option.some.inj hNumbers).symm)

end PodCompiler.Quantity
