import PodCompiler.Binary64

/-!
# PodCompiler — what plain scalars mean

The value that a scalar without quotes stands for: null, a truth value, a number, or the text
itself.

* `Yaml.Plain.ofText` is the value of a whole text.
* `Yaml.Plain.integer` and `Yaml.Plain.decimal` read numbers; `Yaml.Plain.isPadded` tells digits
  with superfluous zeros, which are no number.
-/

namespace PodCompiler.Yaml

/-- The value of a plain scalar. -/
inductive Plain where
  | null
  | bool (value : Bool)
  | int (value : Int)
  | float (value : Binary64)
  | text
  deriving DecidableEq, Repr

namespace Plain

/-- Whether a text is a spelling of null. -/
def isNull (s : String) : Bool := s = "~" || s = "null" || s = "Null" || s = "NULL"

/-- The truth value that a text spells. -/
def truth (s : String) : Option Bool :=
  if s = "true" || s = "True" || s = "TRUE" then some true
  else if s = "false" || s = "False" || s = "FALSE" then some false
  else none

/-- A text without its sign. -/
def unsigned : List Char → List Char
  | '+' :: rest => rest
  | '-' :: rest => rest
  | cs => cs

/-- A decimal digit. -/
def isDigit (c : Char) : Bool := '0' ≤ c && c ≤ '9'

/-- Whether a text is digits with superfluous zeros in front, perhaps after a sign. -/
def isPadded (cs : List Char) : Bool :=
  match unsigned cs with
  | '0' :: c :: rest => (c :: rest).all isDigit
  | _ => false

/-- A whole number without a sign: hexadecimal, octal and binary behind their marks, or decimal. -/
def magnitude : List Char → Option Nat
  | '0' :: 'x' :: rest => Numeral.readNat 16 rest
  | '0' :: 'o' :: rest => Numeral.readNat 8 rest
  | '0' :: 'b' :: rest => Numeral.readNat 2 rest
  | cs => if isPadded cs then none else Numeral.readNat 10 cs

/-- A whole number with or without a sign. -/
def integer : List Char → Option Int
  | '-' :: rest => (magnitude rest).map fun n => -(n : Int)
  | '+' :: rest => (magnitude rest).map fun n => (n : Int)
  | cs => (magnitude cs).map fun n => (n : Int)

/-- The power of ten behind an exponent mark. -/
def exponent : List Char → Option Int
  | '-' :: rest => (Numeral.readNat 10 rest).map fun n => -(n : Int)
  | '+' :: rest => (Numeral.readNat 10 rest).map fun n => (n : Int)
  | cs => (Numeral.readNat 10 cs).map fun n => (n : Int)

/-- A number in decimal notation without a sign: digits with at most one point among them, at
least one digit, and perhaps an exponent. -/
def decimal (negative : Bool) (cs : List Char) : Option Binary64 := do
  let whole := cs.takeWhile isDigit
  let rest := cs.dropWhile isDigit
  let (fraction, rest) :=
    match rest with
    | '.' :: more => (more.takeWhile isDigit, more.dropWhile isDigit)
    | _ => ([], rest)
  let power ←
    match rest with
    | [] => some 0
    | c :: more => if c = 'e' || c = 'E' then exponent more else none
  let m ← Numeral.readNat 10 (whole ++ fraction)
  some (Binary64.ofDecimal negative m (power - fraction.length))

/-- A number that is not whole, or not finite. A decimal too large for a double is no number. -/
def number (s : String) : Option Binary64 :=
  if s ∈ [".inf", ".Inf", ".INF", "+.inf", "+.Inf", "+.INF"] then some (.infinite false)
  else if s ∈ ["-.inf", "-.Inf", "-.INF"] then some (.infinite true)
  else if s ∈ [".nan", ".NaN", ".NAN"] then some .nan
  else
    let value? :=
      match s.toList with
      | '+' :: rest => decimal false rest
      | '-' :: rest => decimal true rest
      | cs => decimal false cs
    value?.filter (·.isFinite)

/-- Whether a whole number fits a hundred and twenty-eight bits, with or without a sign. -/
def isWhole (n : Int) : Bool :=
  -(Nat.pow 2 127 : Nat) ≤ n && n < (Nat.pow 2 128 : Nat)

/-- The value of a plain scalar. Larger whole numbers are read as doubles, and what is no number
is a text. -/
def ofText (s : String) : Plain :=
  if s = "" || isNull s then .null
  else
    match truth s with
    | some value => .bool value
    | none =>
      match (integer s.toList).filter isWhole with
      | some n => .int n
      | none =>
        if isPadded s.toList then .text
        else
          match number s with
          | some x => .float x
          | none => .text

end Plain
end PodCompiler.Yaml
