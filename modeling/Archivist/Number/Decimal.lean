import Archivist.Number.Binary

/-!
# Decimal Text of Binary Numbers

Three ways to write a floating-point number in decimal.

* `shortest` uses the fewest digits that read back as the same number, and of those the nearest
  to it. The numbers that read back are an interval around the value, whose ends belong to it
  when the mantissa is even.
* `floating` uses the same digits, but gives a very large or very small number an exponent.
* `fixed` keeps a given number of places of the exact value and rounds a half to the even
  neighbour.

`shortest` and `fixed` are positional, never with an exponent, and all three keep the sign of a
negative zero. `nearest` is the way back: the double that is nearest to a decimal.
-/

namespace Archivist.Decimal

/-- `num / den` rounded to a whole number, a half going to the even neighbour. -/
def roundDiv (num den : Nat) : Nat :=
  let q := num / den
  let twice := 2 * (num % den)
  if twice < den then q else if den < twice then q + 1 else if q % 2 = 0 then q else q + 1

/-- A quotient of natural numbers, as numerator and denominator. -/
structure Ratio where
  num : Nat
  den : Nat

/-- `n · 2 ^ e` as a quotient. -/
def scaled2 (n : Nat) (e : Int) : Ratio :=
  if 0 ≤ e then ⟨n * Nat.pow 2 e.toNat, 1⟩ else ⟨n, Nat.pow 2 (-e).toNat⟩

/-- The quotient divided by `10 ^ k`. -/
def Ratio.shift (r : Ratio) (k : Int) : Ratio :=
  if 0 ≤ k then ⟨r.num, r.den * Nat.pow 10 k.toNat⟩ else ⟨r.num * Nat.pow 10 (-k).toNat, r.den⟩

/-- Whether the whole number `d` lies between the quotients, ends included if `closed`. -/
def between (closed : Bool) (low high : Ratio) (d : Nat) : Bool :=
  if closed then decide (low.num ≤ d * low.den ∧ d * high.den ≤ high.num)
  else decide (low.num < d * low.den ∧ d * high.den < high.num)

/-- The whole number nearest to `value` of its two neighbours that lie in the interval, the
smaller one if both are equally near and it is even. -/
def nearestWithin (closed : Bool) (low value high : Ratio) : Option Nat :=
  let d := value.num / value.den
  match between closed low high d, between closed low high (d + 1) with
  | true, true => some (roundDiv value.num value.den)
  | true, false => some d
  | false, true => some (d + 1)
  | false, false => none

/-- The position of the first digit: `10 ^ (k - 1) ≤ r < 10 ^ k` for positive `r`. -/
def leading (r : Ratio) : Int :=
  let guess : Int := (Nat.toDigits 10 r.num).length - (Nat.toDigits 10 r.den).length
  let s := r.shift guess
  if s.den ≤ s.num then guess + 1 else guess

/-- Tries one digit more at a time until a decimal lies in the interval. -/
def search (closed : Bool) (low value high : Ratio) (top : Int) : Nat → Nat → Nat × Int
  | 0, digits =>
    let k := top - digits
    let s := value.shift k
    (roundDiv s.num s.den, k)
  | left + 1, digits =>
    let k := top - digits
    match nearestWithin closed (low.shift k) (value.shift k) (high.shift k) with
    | some d => (d, k)
    | none => search closed low value high top left (digits + 1)

/-- Digits `d` and exponent `k` with `d · 10 ^ k` the shortest decimal that reads back as the
positive number `mantissa · 2 ^ exponent`. -/
def shortestDigits (mantissa : Nat) (exponent : Int) (closeBelow : Bool) : Nat × Int :=
  let value := scaled2 mantissa exponent
  let high := scaled2 (2 * mantissa + 1) (exponent - 1)
  let low := if closeBelow then scaled2 (4 * mantissa - 1) (exponent - 2)
    else scaled2 (2 * mantissa - 1) (exponent - 1)
  search (mantissa % 2 = 0) low value high (leading value) 17 1

/-- `d · 10 ^ k` written positionally. -/
def positional (d : Nat) (k : Int) : String :=
  if 0 ≤ k then toString (d * Nat.pow 10 k.toNat)
  else
    let places := (-k).toNat
    let digits := Nat.toDigits 10 d
    let padded := List.replicate (places + 1 - digits.length) '0' ++ digits
    let whole := padded.length - places
    String.ofList (padded.take whole) ++ "." ++ String.ofList (padded.drop whole)

/-- A decimal without trailing zeros: the digits and the exponent after removing them. -/
def strip : Nat → Nat → Int → Nat × Int
  | 0, d, k => (d, k)
  | fuel + 1, d, k => if d ≠ 0 ∧ d % 10 = 0 then strip fuel (d / 10) (k + 1) else (d, k)

/-- The minus sign of a negative number. -/
def sign (negative : Bool) : String := if negative then "-" else ""

/-- The shortest digits without trailing zeros, and their exponent. -/
def significant (mantissa : Nat) (exponent : Int) (closeBelow : Bool) : Nat × Int :=
  let (d, k) := shortestDigits mantissa exponent closeBelow
  strip 20 d k

/-- The shortest text that reads back as the number. -/
def shortest : Binary → String
  | .nan => "NaN"
  | .infinite negative => sign negative ++ "inf"
  | .finite negative 0 _ _ => sign negative ++ "0"
  | .finite negative mantissa exponent closeBelow =>
    let (d, k) := significant mantissa exponent closeBelow
    sign negative ++ positional d k

/-- `text`, with `.0` added when it has no decimal point. -/
def withPoint (text : String) : String := if text.contains '.' then text else text ++ ".0"

/-- `d · 10 ^ k` with one digit before the point and an exponent, whose sign is always shown. -/
def scientific (d : Nat) (k : Int) : String :=
  let digits := Nat.toDigits 10 d
  let exponent := k + digits.length - 1
  let mantissa := match digits with
    | first :: c :: rest => String.ofList (first :: '.' :: c :: rest)
    | digits => String.ofList digits
  mantissa ++ (if exponent < 0 then "e-" else "e+") ++ toString exponent.natAbs

/-- Where the decimal point may stand, counted from before the first digit, in a number that is
written without an exponent. -/
structure PointRange where
  low : Int
  high : Int

/-- The shortest digits that read back as the number: positional, with a point, if that stands in
the range, and with an exponent otherwise. -/
def floating (range : PointRange) : Binary → String
  | .nan => "NaN"
  | .infinite negative => sign negative ++ "inf"
  | .finite negative 0 _ _ => sign negative ++ "0.0"
  | .finite negative mantissa exponent closeBelow =>
    let (d, k) := significant mantissa exponent closeBelow
    let point := k + (Nat.toDigits 10 d).length
    sign negative ++
      if range.low ≤ point ∧ point ≤ range.high then withPoint (positional d k)
      else scientific d k

/-- The number with `places` digits after the point. -/
def fixed (places : Nat) : Binary → String
  | .nan => "NaN"
  | .infinite negative => sign negative ++ "inf"
  | .finite negative mantissa exponent _ =>
    let r := (scaled2 mantissa exponent).shift (-(places : Int))
    sign negative ++ positional (roundDiv r.num r.den) (-(places : Int))

/-- The double nearest to `m · 10 ^ e`. Exponents far outside the range are decided at once. -/
def nearest (m : Nat) (e : Int) : Float :=
  if m = 0 then 0.0
  else
    let digits : Int := (Nat.toDigits 10 m).length
    if 400 < digits + e then 1.0 / 0.0
    else if digits + e < -400 then 0.0
    else if 0 ≤ e then Float.ofScientific m false e.toNat
    else Float.ofScientific m true (-e).toNat

end Archivist.Decimal
