import PodCompiler.Quantity
import PodCompiler.Proofs.Numerals
import Mathlib.Tactic.Ring
import Mathlib.Tactic.NormNum
import Mathlib.Tactic.Linarith
import Mathlib.Data.Rat.Cast.Order

/-!
# PodCompiler — what quantities stand for

A quantity is a numeral and a suffix, and stands for the number of the one times the factor of the
other. `Quantity.value?` reads a text so, with the table of all factors that Kubernetes knows; what
is written with an exponent it does not read.

A writer of quantities takes factors of some base out of an amount as long as nothing is left over.
What it has then is the amount in the largest unit that leaves a whole number, `Quantity.Reduced`.
The loop over tens is followed by a step back to a multiple of three, so that together they take out
factors of a thousand.

Main results:

* `value_ofInt_append` — what a numeral with a suffix stands for.
* `exists_decimal` — what the decimal writer takes out of an amount.
* `scaleBinary_eq` — what the binary writer takes out of an amount.
-/

namespace PodCompiler.Quantity

/-! ## Reading -/

/-- What a suffix multiplies by. -/
def factor? : String → Option ℚ
  | "n" => some (1 / 1000000000)
  | "u" => some (1 / 1000000)
  | "m" => some (1 / 1000)
  | "" => some 1
  | "k" => some 1000
  | "M" => some 1000000
  | "G" => some 1000000000
  | "T" => some 1000000000000
  | "P" => some 1000000000000000
  | "E" => some 1000000000000000000
  | "Ki" => some 1024
  | "Mi" => some 1048576
  | "Gi" => some 1073741824
  | "Ti" => some 1099511627776
  | "Pi" => some 1125899906842624
  | "Ei" => some 1152921504606846976
  | _ => none

/-- What digits and a suffix stand for. -/
def magnitude? (cs : List Char) : Option ℚ := do
  let n ← Numeral.readNat 10 (cs.takeWhile Char.isDigit)
  let factor ← factor? (String.ofList (cs.dropWhile Char.isDigit))
  some (n * factor)

/-- The number that a quantity stands for. -/
def value? (text : String) : Option ℚ :=
  match text.toList with
  | '-' :: cs => (magnitude? cs).map fun q => -q
  | cs => magnitude? cs

/-- A suffix does not go on with the digits before it. -/
theorem takeWhile_suffix {suffix : String} {factor : ℚ} (hFactor : factor? suffix = some factor) :
    suffix.toList.takeWhile Char.isDigit = [] ∧
      suffix.toList.dropWhile Char.isDigit = suffix.toList := by
  -- one suffix after the other
  unfold factor? at hFactor
  split at hFactor
  all_goals first | exact ⟨by decide, by decide⟩ | cases hFactor

theorem magnitude_digits {suffix : String} {factor : ℚ} (hFactor : factor? suffix = some factor)
    (n : Nat) : magnitude? (Numeral.digits n ++ suffix.toList) = some (n * factor) := by
  have hDigits : ∀ c ∈ Numeral.digits n, c.isDigit = true := fun _ => Numeral.isDigit_of_mem_digits
  obtain ⟨hNone, hSuffix⟩ := takeWhile_suffix hFactor
  rw [magnitude?, List.takeWhile_append_of_pos hDigits, List.dropWhile_append_of_pos hDigits, hNone,
    hSuffix, List.append_nil, Numeral.readNat_digits, String.ofList_toList, hFactor]
  rfl

/-- A numeral with a suffix stands for its number times the factor. -/
theorem value_ofInt_append {suffix : String} {factor : ℚ} (hFactor : factor? suffix = some factor)
    (n : Int) : value? (Numeral.ofInt n ++ suffix) = some (n * factor) := by
  have hMagnitude := magnitude_digits hFactor n.natAbs
  have hText : (Numeral.ofInt n ++ suffix).toList =
      Numeral.sign n ++ (Numeral.digits n.natAbs ++ suffix.toList) := by
    rw [String.toList_append, Numeral.toList_ofInt, List.append_assoc]
  rw [value?, hText, Numeral.sign]
  by_cases hNegative : n < 0
  · have hCast : (n : ℚ) = -(n.natAbs : ℚ) := by
      rw [← Int.cast_natCast, ← Int.cast_neg]
      congr 1
      omega
    rw [if_pos hNegative, List.singleton_append]
    show (magnitude? _).map _ = _
    rw [hMagnitude, Option.map_some, hCast, neg_mul]
  · have hCast : (n : ℚ) = (n.natAbs : ℚ) := by
      rw [← Int.cast_natCast]
      congr 1
      omega
    rw [if_neg hNegative, List.nil_append, hCast, ← hMagnitude]
    obtain ⟨d, ds, hDigits, hSign⟩ := Numeral.digits_eq_cons n.natAbs
    rw [hDigits, List.cons_append]
    -- there is no sign to be taken off
    split
    next cs hMinus => exact absurd (List.cons.inj hMinus).1 hSign
    next => rfl

/-! ## Taking out factors -/

/-- An amount in the largest of the units that grow by factors of `base` which leaves a whole
number of them. -/
structure Reduced (base amount mantissa : Int) (power : Nat) : Prop where
  exact : mantissa * base ^ power = amount
  whole : ¬ base ∣ mantissa
  largest : ∀ p, base ^ p ∣ amount → p ≤ power

variable {base amount mantissa : Int} {power : Nat}

/-- What is no multiple of the base any more is reduced. -/
theorem reduced_of_not_dvd (hBase : base ≠ 0) (hExact : mantissa * base ^ power = amount)
    (hWhole : ¬ base ∣ mantissa) : Reduced base amount mantissa power := by
  refine ⟨hExact, hWhole, fun p hp => ?_⟩
  by_contra hLarger
  -- a larger power would leave a factor of the base in the mantissa
  have hNext : base * base ^ power ∣ mantissa * base ^ power := by
    rw [hExact, ← pow_succ']
    exact (pow_dvd_pow base (by omega)).trans hp
  exact hWhole ((mul_dvd_mul_iff_right (pow_ne_zero power hBase)).mp hNext)

theorem Reduced.pow_dvd (hReduced : Reduced base amount mantissa power) {p : Nat}
    (hp : p ≤ power) : base ^ p ∣ amount := by
  rw [← hReduced.exact]
  exact (pow_dvd_pow base hp).mul_left mantissa

/-- There is no largest unit for nothing. -/
theorem Reduced.ne_zero (hBase : base ≠ 0) (hReduced : Reduced base amount mantissa power) :
    amount ≠ 0 := by
  rintro rfl
  rcases mul_eq_zero.mp hReduced.exact with rfl | hPower
  · exact hReduced.whole (dvd_zero base)
  · exact pow_ne_zero power hBase hPower

/-- An amount has no more factors of the base than its size allows. -/
theorem Reduced.power_le (hBase : base ≠ 0) (hReduced : Reduced base amount mantissa power)
    {bound : Nat} (hSmall : amount.natAbs < (base ^ (bound + 1)).natAbs) : power ≤ bound := by
  by_contra hLarger
  -- one more factor would make the amount too large
  have hDvd : base ^ (bound + 1) ∣ amount := hReduced.pow_dvd (by omega)
  have hLarge := Int.natAbs_le_of_dvd_ne_zero hDvd (hReduced.ne_zero hBase)
  omega

/-- In sixty-four bits there are at most as many factors as their powers fit. -/
theorem Reduced.power_le_of_word {word : Int64} (hBase : base ≠ 0)
    (hReduced : Reduced base word.toInt mantissa power) {bound : Nat}
    (hLarge : 2 ^ 63 < (base ^ (bound + 1)).natAbs) : power ≤ bound := by
  have hLow := word.le_toInt
  have hHigh := word.toInt_lt
  exact hReduced.power_le hBase (by omega)

/-- Taking out tens ends where there are none any more, and the exponent counts them. -/
theorem stripTens_eq (hNe : amount ≠ 0) (exponent : Int) :
    ∃ mantissa power, stripTens amount exponent = (mantissa, exponent + (power : Nat)) ∧
      Reduced 10 amount mantissa power := by
  induction amount, exponent using stripTens.induct with
  | case1 amount exponent hTen ih =>
    have hExact : amount.tdiv 10 * 10 = amount := Int.tdiv_mul_cancel_of_tmod_eq_zero hTen.2
    have hLess : amount.tdiv 10 ≠ 0 := by
      intro hZero
      rw [hZero, zero_mul] at hExact
      exact hNe hExact.symm
    obtain ⟨mantissa, power, hStrip, hReduced⟩ := ih hLess
    refine ⟨mantissa, power + 1, ?_, reduced_of_not_dvd (by decide) ?_ hReduced.whole⟩
    · rw [stripTens, if_pos hTen, hStrip]
      congr 1
      push_cast
      ring
    · rw [pow_succ, ← mul_assoc, hReduced.exact, hExact]
  | case2 amount exponent hStop =>
    have hWhole : ¬ (10 : Int) ∣ amount :=
      fun hDvd => hStop ⟨hNe, Int.dvd_iff_tmod_eq_zero.mp hDvd⟩
    refine ⟨amount, 0, ?_, reduced_of_not_dvd (by decide) (by simp) hWhole⟩
    rw [stripTens, if_neg hStop]
    simp

/-- Of the tens that were taken out, those beyond a multiple of three are put back. -/
theorem alignThousands_eq {exponent : Int} (hExponent : exponent % 3 = 0) (mantissa : Int)
    (power : Nat) :
    alignThousands mantissa (exponent + power) =
      (mantissa * 10 ^ (power % 3), exponent + 3 * (power / 3 : Nat)) := by
  unfold alignThousands
  obtain hRest | hRest | hRest : power % 3 = 0 ∨ power % 3 = 1 ∨ power % 3 = 2 := by omega
  · rw [if_neg (by omega), if_neg (by omega), hRest]
    ext
    · simp
    · show exponent + power = exponent + 3 * ((power / 3 : Nat) : Int)
      omega
  · rw [if_pos (by omega), hRest]
    ext
    · simp
    · show exponent + power - 1 = exponent + 3 * ((power / 3 : Nat) : Int)
      omega
  · rw [if_neg (by omega), if_pos (by omega), hRest]
    ext
    · simp
    · show exponent + power - 2 = exponent + 3 * ((power / 3 : Nat) : Int)
      omega

/-- Taking out tens and putting some back takes out thousands. -/
theorem reduced_thousand (hReduced : Reduced 10 amount mantissa power) :
    Reduced 1000 amount (mantissa * 10 ^ (power % 3)) (power / 3) := by
  refine reduced_of_not_dvd (by decide) ?exact ?whole
  case exact =>
    calc mantissa * 10 ^ (power % 3) * 1000 ^ (power / 3)
        = mantissa * 10 ^ (power % 3 + 3 * (power / 3)) := by
          rw [pow_add, pow_mul, mul_assoc]
          norm_num
      _ = mantissa * 10 ^ power := by rw [Nat.mod_add_div]
      _ = amount := hReduced.exact
  case whole =>
    -- at most two tens were put back, so one of the three would be the mantissa's own
    have hWhole := hReduced.whole
    obtain hRest | hRest | hRest : power % 3 = 0 ∨ power % 3 = 1 ∨ power % 3 = 2 := by omega
    all_goals
      rw [hRest]
      norm_num
      omega

/-- The decimal writer takes out thousands. -/
theorem exists_decimal (hNe : amount ≠ 0) {exponent : Int} (hExponent : exponent % 3 = 0) :
    ∃ mantissa power, Reduced 1000 amount mantissa power ∧
      ∀ suffix, decimalSuffix (exponent + 3 * (power : Nat)) = some suffix →
        decimal amount exponent = Numeral.ofInt mantissa ++ suffix := by
  obtain ⟨mantissa, power, hStrip, hReduced⟩ := stripTens_eq hNe exponent
  refine ⟨_, _, reduced_thousand hReduced, fun suffix hSuffix => ?_⟩
  rw [decimal, if_neg hNe, hStrip]
  simp only [alignThousands_eq hExponent, hSuffix]

/-- The binary writer goes along the suffixes as long as nothing is left over and there are more. -/
theorem scaleBinary_eq (amount : Int) {suffixes : List String} (hSome : suffixes ≠ []) :
    ∃ mantissa power suffix, scaleBinary amount suffixes = (mantissa, suffix) ∧
      suffixes[power]? = some suffix ∧ mantissa * 1024 ^ power = amount ∧
        (1024 ∣ mantissa → power + 1 = suffixes.length) := by
  induction suffixes generalizing amount with
  | nil => exact absurd rfl hSome
  | cons suffix larger ih =>
    cases larger with
    | nil => exact ⟨amount, 0, suffix, rfl, rfl, by simp, fun _ => rfl⟩
    | cons next more =>
      have hStep : scaleBinary amount (suffix :: next :: more) =
          if amount.tmod 1024 = 0 then scaleBinary (amount.tdiv 1024) (next :: more)
          else (amount, suffix) := rfl
      rw [hStep]
      by_cases hWhole : amount.tmod 1024 = 0
      · obtain ⟨mantissa, power, last, hScale, hLast, hExact, hEnd⟩ :=
          ih (amount.tdiv 1024) (List.cons_ne_nil next more)
        refine ⟨mantissa, power + 1, last, by rw [if_pos hWhole, hScale], ?_, ?_, ?_⟩
        · rw [List.getElem?_cons_succ, hLast]
        · rw [pow_succ, ← mul_assoc, hExact, Int.tdiv_mul_cancel_of_tmod_eq_zero hWhole]
        · intro hDvd
          rw [hEnd hDvd, List.length_cons (a := suffix)]
      · refine ⟨amount, 0, suffix, by rw [if_neg hWhole], rfl, by simp, fun hDvd => ?_⟩
        exact absurd (Int.dvd_iff_tmod_eq_zero.mp hDvd) hWhole

end PodCompiler.Quantity
