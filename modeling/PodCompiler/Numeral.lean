/-!
# PodCompiler — numerals

Whole numbers as text: decimal digits for output, digits of any base up to sixteen for input.

* `Numeral.ofInt` writes an integer with a leading minus sign and no leading zeros.
* `Numeral.digitValue` is the value of one digit.
* `Numeral.readNat` reads one or more digits of a base and refuses everything else.
-/

namespace PodCompiler.Numeral

/-- The decimal digits of a natural number, most significant first; zero is a single digit. -/
def digits (n : Nat) : List Char := Nat.toDigits 10 n

/-- A natural number in decimal. -/
def ofNat (n : Nat) : String := String.ofList (digits n)

/-- An integer in decimal, with a minus sign in front of a negative one. -/
def ofInt (n : Int) : String :=
  if n < 0 then String.ofList ('-' :: digits n.natAbs) else ofNat n.natAbs

/-- The value of a digit in a base of at most sixteen; letters count in either case. -/
def digitValue (base : Nat) (c : Char) : Option Nat :=
  let value? :=
    if '0' ≤ c ∧ c ≤ '9' then some (c.toNat - '0'.toNat)
    else if 'a' ≤ c ∧ c ≤ 'f' then some (c.toNat - 'a'.toNat + 10)
    else if 'A' ≤ c ∧ c ≤ 'F' then some (c.toNat - 'A'.toNat + 10)
    else none
  value?.filter (· < base)

/-- Continues reading digits after those whose value is `acc`. -/
def readMore (base : Nat) : Nat → List Char → Option Nat
  | acc, [] => some acc
  | acc, c :: rest => (digitValue base c).bind fun d => readMore base (acc * base + d) rest

/-- Reads a whole text as one or more digits of a base. -/
def readNat (base : Nat) : List Char → Option Nat
  | [] => none
  | c :: rest => readMore base 0 (c :: rest)

/-- The upper-case hexadecimal digit of a value below sixteen. -/
def hexDigit (n : Nat) : Char :=
  if n < 10 then Char.ofNat ('0'.toNat + n) else Char.ofNat ('A'.toNat + (n - 10))

/-- The lowest `width` hexadecimal digits of a number, most significant first. -/
def hexDigits (n : Nat) : Nat → List Char
  | 0 => []
  | width + 1 => hexDigit (n / Nat.pow 16 width % 16) :: hexDigits n width

end PodCompiler.Numeral
