import PodCompiler.Numeral

/-!
# PodCompiler — double precision numbers

Numbers of sixty-four bits, held as a sign, a significand and a power of two, so that reading and
writing them is exact integer arithmetic.

* `Binary64.ofDecimal` is the number nearest to a decimal, a tie going to the even significand.
* `Binary64.shortest` is the shortest decimal that reads back as the number, and of the shortest
  the nearest.
* `Binary64.text` writes a number under a `FloatLayout`, which says where positional notation ends.
-/

namespace PodCompiler

/-- A double precision number; a finite one is `± significand · 2 ^ exponent`. -/
inductive Binary64 where
  | finite (negative : Bool) (significand : Nat) (exponent : Int)
  | infinite (negative : Bool)
  | nan
  deriving DecidableEq, Repr, Inhabited

namespace Binary64

/-- The exponent of the smallest positive number. -/
def minExponent : Int := -1074

/-- The largest exponent of a number with a full significand. -/
def maxExponent : Int := 971

/-- The whole number nearest to a quotient; a tie goes to the even one. -/
def roundHalfEven (num den : Nat) : Nat :=
  let q := num / den
  let r := num % den
  if 2 * r < den then q else if den < 2 * r then q + 1 else q + q % 2

/-- The number nearest to the positive quotient `num / den`. -/
def nearest (negative : Bool) (num den : Nat) : Binary64 :=
  let guess : Int := max (num.log2 - den.log2 - 53 : Int) minExponent
  let scaled (q : Int) : Nat × Nat :=
    if 0 ≤ q then (num, den * Nat.pow 2 q.toNat) else (num * Nat.pow 2 (-q).toNat, den)
  let q := if (scaled guess).1 / (scaled guess).2 < Nat.pow 2 53 then guess else guess + 1
  let m := roundHalfEven (scaled q).1 (scaled q).2
  let (m, q) := if m = Nat.pow 2 53 then (Nat.pow 2 52, q + 1) else (m, q)
  if maxExponent < q then .infinite negative else .finite negative m q

/-- The number nearest to `± m · 10 ^ e`. Decimals far outside the range of doubles are answered
from their length alone, before a power of ten is computed. -/
def ofDecimal (negative : Bool) (m : Nat) (e : Int) : Binary64 :=
  let places : Int := (Numeral.digits m).length + e
  if m = 0 ∨ places < -330 then .finite negative 0 minExponent
  else if 310 < places then .infinite negative
  else if 0 ≤ e then nearest negative (m * Nat.pow 10 e.toNat) 1
  else nearest negative m (Nat.pow 10 (-e).toNat)

/-! ## Shortest decimals -/

/-- A positive number with the distances up to which decimals read back as it: all of `value`,
`above` and `below` count in units of `1 / unit`; the ends themselves count if `closed`. -/
structure Interval where
  value : Nat
  below : Nat
  above : Nat
  unit : Nat
  closed : Bool

/-- The decimals that read back as `significand · 2 ^ exponent`: half a step on either side, a
quarter below a power of two. -/
def interval (significand : Nat) (exponent : Int) : Interval :=
  let narrow := significand = Nat.pow 2 52 ∧ minExponent < exponent
  let scale := Nat.pow 2 (exponent - 2).toNat
  { value := 4 * significand * scale
    below := if narrow then scale else 2 * scale
    above := 2 * scale
    unit := Nat.pow 2 (2 - exponent).toNat
    closed := significand % 2 = 0 }

/-- Whether `c · 10 ^ k` reads back as the number of the interval. -/
def Interval.holds (i : Interval) (c : Nat) (k : Int) : Bool :=
  let point := c * Nat.pow 10 k.toNat * i.unit
  let shift := Nat.pow 10 (-k).toNat
  let low := (i.value - i.below) * shift
  let high := (i.value + i.above) * shift
  if i.closed then low ≤ point && point ≤ high else low < point && point < high

/-- The decimal with the least power `10 ^ k` among those of the interval next to its number, if
the grid of that power has one: of two the nearer, of two equally near the even one. -/
def Interval.onGrid (i : Interval) (k : Int) : Option Nat :=
  let num := i.value * Nat.pow 10 (-k).toNat
  let den := i.unit * Nat.pow 10 k.toNat
  let c := num / den
  let r := num % den
  match i.holds c k, i.holds (c + 1) k with
  | true, false => some c
  | false, true => some (c + 1)
  | true, true => some (if 2 * r < den then c else if den < 2 * r then c + 1 else c + c % 2)
  | false, false => none

/-- The number of zeros between the point and the first digit of a quotient below one. -/
def leadingZeros (num den : Nat) : Nat → Nat
  | 0 => 0
  | fuel + 1 => if den ≤ num * 10 then 0 else leadingZeros (num * 10) den fuel + 1

/-- The number of digits before the point, or minus the number of zeros after it. -/
def Interval.point (i : Interval) : Int :=
  if i.unit ≤ i.value then (Numeral.digits (i.value / i.unit)).length
  else -(leadingZeros i.value i.unit 400 : Nat)

/-- Tries the grids of ever more digits, from `count` digits on. The upper neighbour on a grid may
be a power of ten, which is a single digit. -/
def Interval.search (i : Interval) (count : Nat) : Nat → Nat × Int
  | 0 => (i.value / i.unit, 0)
  | fuel + 1 =>
    let k := i.point - count
    match i.onGrid k with
    | some c => if c = Nat.pow 10 count then (1, k + count) else (c, k)
    | none => i.search (count + 1) fuel

/-- The shortest decimal `c · 10 ^ k` that reads back as a positive number. Seventeen digits
always suffice. -/
def shortest (significand : Nat) (exponent : Int) : Nat × Int :=
  (interval significand exponent).search 1 18

/-! ## Text -/

/-- Which numbers are written without an exponent, by the place of their point. -/
structure FloatLayout where
  /-- Whether a number whose first digit stands this many places before the point is positional. -/
  positional : Int → Bool

/-- No number needs an exponent. -/
def FloatLayout.plain : FloatLayout := ⟨fun _ => true⟩

/-- Numbers from `0.00001` up to sixteen digits are positional. -/
def FloatLayout.compact : FloatLayout := ⟨fun point => -5 < point && point ≤ 16⟩

/-- An exponent with its sign. -/
def FloatLayout.exponent (e : Int) : List Char :=
  if e < 0 then (Numeral.ofInt e).toList else '+' :: (Numeral.ofInt e).toList

/-- The text of the decimal with the given digits and point. -/
def FloatLayout.place (layout : FloatLayout) (ds : List Char) (point : Int) : List Char :=
  if layout.positional point then
    if point ≤ 0 then '0' :: '.' :: (List.replicate (-point).toNat '0' ++ ds)
    else if ds.length ≤ point.toNat then
      ds ++ List.replicate (point.toNat - ds.length) '0' ++ ['.', '0']
    else ds.take point.toNat ++ '.' :: ds.drop point.toNat
  else
    ds.take 1 ++ (if ds.length = 1 then [] else '.' :: ds.drop 1) ++
      'e' :: FloatLayout.exponent (point - 1)

/-- A number as text; a whole number keeps a zero after its point. -/
def text (layout : FloatLayout) : Binary64 → String
  | .nan => "NaN"
  | .infinite negative => if negative then "-inf" else "inf"
  | .finite negative significand exponent =>
    let body :=
      if significand = 0 then ['0', '.', '0']
      else
        let (c, k) := shortest significand exponent
        let ds := Numeral.digits c
        layout.place ds (ds.length + k)
    String.ofList (if negative then '-' :: body else body)

/-- Whether a number is finite. -/
def isFinite : Binary64 → Bool
  | .finite .. => true
  | _ => false

end Binary64
end PodCompiler
