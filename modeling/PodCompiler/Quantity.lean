import PodCompiler.Numeral

/-!
# PodCompiler — resource quantities

Amounts of memory and computing time as Kubernetes writes them: a whole number and a suffix.

* `Quantity.binary` writes a number of bytes, dividing out factors of 1024 from 1024 on.
* `Quantity.milli` writes a number of thousandths.
* `Quantity.decimal` writes `mantissa · 10 ^ exponent` with the largest decimal suffix that leaves
  a whole number.
-/

namespace PodCompiler.Quantity

/-- Takes factors of ten out of a number that is not zero, raising the exponent. -/
def stripTens (amount exponent : Int) : Int × Int :=
  if amount ≠ 0 ∧ amount.tmod 10 = 0 then stripTens (amount.tdiv 10) (exponent + 1)
  else (amount, exponent)
termination_by amount.natAbs
decreasing_by
  rename_i h
  have hten : (amount.tdiv 10).natAbs = amount.natAbs / 10 := by
    rw [Int.natAbs_tdiv]; rfl
  omega

/-- The suffix of a power of ten whose exponent is a multiple of three. -/
def decimalSuffix : Int → Option String
  | -9 => some "n"
  | -6 => some "u"
  | -3 => some "m"
  | 0 => some ""
  | 3 => some "k"
  | 6 => some "M"
  | 9 => some "G"
  | 12 => some "T"
  | 15 => some "P"
  | 18 => some "E"
  | _ => none

/-- Puts one or two tens back so that the exponent is a multiple of three. -/
def alignThousands (amount exponent : Int) : Int × Int :=
  if exponent % 3 = 1 then (amount * 10, exponent - 1)
  else if exponent % 3 = 2 then (amount * 100, exponent - 2)
  else (amount, exponent)

/-- The quantity `mantissa · 10 ^ exponent`. An exponent without a suffix is written as such. -/
def decimal (mantissa exponent : Int) : String :=
  if mantissa = 0 then "0"
  else
    let stripped := stripTens mantissa exponent
    let aligned := alignThousands stripped.1 stripped.2
    match decimalSuffix aligned.2 with
    | some suffix => Numeral.ofInt aligned.1 ++ suffix
    | none => Numeral.ofInt aligned.1 ++ "e" ++ Numeral.ofInt aligned.2

/-- The suffixes of the powers of 1024, from the zeroth on. -/
def binarySuffixes : List String := ["", "Ki", "Mi", "Gi", "Ti", "Pi", "Ei"]

/-- Divides by 1024 as long as nothing is left over and a larger suffix follows. -/
def scaleBinary (amount : Int) : List String → Int × String
  | [] => (amount, "")
  | [suffix] => (amount, suffix)
  | suffix :: larger =>
    if amount.tmod 1024 = 0 then scaleBinary (amount.tdiv 1024) larger else (amount, suffix)

/-- A number of bytes. -/
def binary (bytes : Int64) : String :=
  let amount := bytes.toInt
  if -1024 < amount ∧ amount < 1024 then decimal amount 0
  else
    let scaled := scaleBinary amount binarySuffixes
    Numeral.ofInt scaled.1 ++ scaled.2

/-- A number of thousandths. -/
def milli (amount : Int64) : String := decimal amount.toInt (-3)

end PodCompiler.Quantity
