import PodCompiler.Numeral
import Mathlib.Data.List.Basic

/-!
# PodCompiler — what numerals look like

The text of a whole number is a minus sign, if the number is negative, and its digits. There is at
least one digit, and none but a lone zero stands in front as a zero, so that a number is written in
one way only. Reading the digits gives the number back.

Main results:

* `readNat_digits` — the digits of a number stand for it.
* `isNumeral_ofInt` — what the text of a whole number looks like.
-/

namespace PodCompiler.Numeral

/-! ## Digits -/

theorem isDigit_of_mem_digits {n : Nat} {c : Char} (hc : c ∈ digits n) : c.isDigit = true :=
  Nat.isDigit_of_mem_toDigits (by decide) (by decide) hc

theorem mem_digits {n : Nat} {c : Char} (hc : c ∈ digits n) : '0' ≤ c ∧ c ≤ '9' := by
  have hDigit := isDigit_of_mem_digits hc
  rw [Char.isDigit, Bool.and_eq_true, decide_eq_true_eq, decide_eq_true_eq] at hDigit
  exact hDigit

theorem digits_ne_nil (n : Nat) : digits n ≠ [] := Nat.toDigits_ne_nil

/-- What stands in front of digits is a digit, and not a sign. -/
theorem digits_eq_cons (n : Nat) : ∃ d ds, digits n = d :: ds ∧ d ≠ '-' := by
  obtain ⟨d, ds, hDigits⟩ := List.exists_cons_of_ne_nil (digits_ne_nil n)
  have hFirst : '0' ≤ d ∧ d ≤ '9' := mem_digits (hDigits ▸ List.mem_cons_self)
  refine ⟨d, ds, hDigits, ?_⟩
  rintro rfl
  exact absurd hFirst (by decide)

theorem readMore_digits {cs : List Char} (hDigits : ∀ c ∈ cs, '0' ≤ c ∧ c ≤ '9') (acc : Nat) :
    readMore 10 acc cs = some (Nat.ofDigitChars 10 cs acc) := by
  induction cs generalizing acc with
  | nil => rfl
  | cons c rest ih =>
    have hc := hDigits c List.mem_cons_self
    have hHigh : c.toNat ≤ 57 := hc.2
    have hLow : 48 ≤ c.toNat := hc.1
    have hValue : digitValue 10 c = some (c.toNat - '0'.toNat) := by
      have hSmall : c.toNat - '0'.toNat < 10 := by
        show c.toNat - 48 < 10
        omega
      rw [digitValue, if_pos hc]
      simp only [Option.filter_some, decide_eq_true hSmall, if_true]
    have hRest := ih fun d hd => hDigits d (List.mem_cons_of_mem c hd)
    rw [readMore, hValue, Option.bind_some, hRest, Nat.ofDigitChars_cons, Nat.mul_comm acc]

theorem readNat_digits (n : Nat) : readNat 10 (digits n) = some n := by
  have hDigits : ∀ c ∈ digits n, '0' ≤ c ∧ c ≤ '9' := fun c hc => mem_digits hc
  have hValue : Nat.ofDigitChars 10 (digits n) 0 = n := Nat.ofDigitChars_ten_toDigits
  have hMore := readMore_digits hDigits 0
  obtain ⟨d, ds, hList⟩ := List.exists_cons_of_ne_nil (digits_ne_nil n)
  rw [hValue, hList] at hMore
  rw [hList]
  exact hMore

/-- Only zero begins with the digit zero. -/
theorem digits_zero {n : Nat} {rest : List Char} (hDigits : digits n = '0' :: rest) :
    rest = [] := by
  induction n using Nat.strongRecOn generalizing rest with
  | ind n ih =>
    by_cases hSmall : n < 10
    · rw [digits, Nat.toDigits_of_lt_base hSmall] at hDigits
      exact (List.cons.inj hDigits).2.symm
    · have hBase : 10 ≤ n := Nat.not_lt.mp hSmall
      rw [digits, Nat.toDigits_of_base_le (by decide) hBase] at hDigits
      obtain ⟨d, ds, hCons⟩ := List.exists_cons_of_ne_nil (digits_ne_nil (n / 10))
      rw [digits] at hCons
      rw [hCons, List.cons_append] at hDigits
      obtain ⟨rfl, -⟩ := List.cons.inj hDigits
      -- the digits before the last one are those of a smaller number, which is not zero
      obtain rfl := ih (n / 10) (Nat.div_lt_self (by omega) (by decide)) hCons
      have hValue : Nat.ofDigitChars 10 (Nat.toDigits 10 (n / 10)) 0 = n / 10 :=
        Nat.ofDigitChars_ten_toDigits
      rw [hCons] at hValue
      have hZero : n / 10 = 0 := hValue.symm
      omega

/-! ## Whole numbers -/

/-- The sign in front of a number. -/
def sign (n : Int) : List Char := if n < 0 then ['-'] else []

theorem toList_ofInt (n : Int) : (ofInt n).toList = sign n ++ digits n.natAbs := by
  rw [ofInt, sign]
  split
  · rw [String.toList_ofList, List.singleton_append]
  · rw [ofNat, String.toList_ofList, List.nil_append]

/-- A minus sign or none, and digits, of which the first is a zero only if there is no other one and
no sign. -/
def IsNumeral (text : List Char) : Prop :=
  ∃ sign d ds, text = sign ++ d :: ds ∧ (sign = [] ∨ sign = ['-']) ∧
    (∀ c ∈ d :: ds, '0' ≤ c ∧ c ≤ '9') ∧ (d = '0' → ds = [] ∧ sign = [])

theorem isNumeral_ofInt (n : Int) : IsNumeral (ofInt n).toList := by
  obtain ⟨d, ds, hDigits⟩ := List.exists_cons_of_ne_nil (digits_ne_nil n.natAbs)
  refine ⟨sign n, d, ds, by rw [toList_ofInt, hDigits], ?sign, ?range, ?zero⟩
  case sign =>
    rw [sign]
    split
    · exact Or.inr rfl
    · exact Or.inl rfl
  case range => exact fun c hc => mem_digits (hDigits ▸ hc)
  case zero =>
    rintro rfl
    obtain rfl := digits_zero hDigits
    -- a lone zero stands for zero, which has no sign
    have hRead := readNat_digits n.natAbs
    rw [hDigits] at hRead
    have hZero : 0 = n.natAbs := Option.some.inj hRead
    refine ⟨rfl, ?_⟩
    rw [sign, if_neg (by omega)]

end PodCompiler.Numeral
