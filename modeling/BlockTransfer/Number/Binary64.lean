import BlockTransfer.Number.Literal
/-!
# Double-precision numbers

A finite number is kept as `± mantissa · 2 ^ exponent`, with a mantissa below
`2 ^ 53` and an exponent of at least -1074. A decimal literal becomes the
nearest such number, the even mantissa on a tie; one that is too great becomes
an infinity.

A number is written with the fewest digits that read back as the same number,
the nearest of those to it, and always positionally. It is rounded to a natural
number with halves going away from zero.

Key definitions: `Binary64`, `Binary64.ofDecimal`, `Binary64.parse?`,
`Binary64.toNatClamped`, `Binary64.render`.
-/

namespace BlockTransfer

/-- A double-precision number. -/
inductive Binary64 where
  | nan
  | infinity (negative : Bool)
  /-- `± mantissa · 2 ^ exponent`. -/
  | finite (negative : Bool) (mantissa : Nat) (exponent : Int)
  deriving DecidableEq, Repr

namespace Binary64

/-- The least exponent. -/
def minExponent : Int := -1074

/-- The greatest exponent of a full mantissa. -/
def maxExponent : Int := 971

/-- The quotient to the nearest whole number, the even one on a tie. -/
def roundEven (num den : Nat) : Nat :=
  let q := num / den
  let r := num % den
  if den < 2 * r ∨ (2 * r = den ∧ q % 2 = 1) then q + 1 else q

/-- The fraction `num / den · base ^ k` as a fraction of natural numbers. -/
def scale (base num den : Nat) (k : Int) : Nat × Nat :=
  if 0 ≤ k then (num * Nat.pow base k.toNat, den)
  else (num, den * Nat.pow base (-k).toNat)

/-- The exponent at which a positive fraction has a mantissa of 53 bits, or the
least exponent if that is greater. -/
def exponentOf (num den : Nat) : Int :=
  let guess : Int := (num.log2 : Int) - den.log2 - 52
  let (n, d) := scale 2 num den (-guess)
  max minExponent (if n < d <<< 52 then guess - 1 else guess)

/-- The nearest number to a positive fraction. -/
def ofFraction (negative : Bool) (num den : Nat) : Binary64 :=
  let e := exponentOf num den
  let (n, d) := scale 2 num den (-e)
  let m := roundEven n d
  let (m, e) := if m = 1 <<< 53 then (1 <<< 52, e + 1) else (m, e)
  if maxExponent < e then infinity negative else finite negative m e

/-- The number of decimal digits of a positive number. -/
def digitCount (n : Nat) : Nat := (Nat.toDigits 10 n).length

/-- The nearest number to a decimal literal. -/
def ofDecimal (x : DecimalLiteral) : Binary64 :=
  if x.digits = 0 then finite x.negative 0 minExponent
  else
    let magnitude := (digitCount x.digits : Int) + x.exponent
    if 400 < magnitude then infinity x.negative
    else if magnitude < -400 then finite x.negative 0 minExponent
    else
      let (num, den) := scale 10 x.digits 1 x.exponent
      ofFraction x.negative num den

/-- Reads a number: a decimal literal, or `inf`, `infinity` or `nan` in any
case, each with an optional sign. -/
def parse? (s : String) : Option Binary64 :=
  let (negative, rest) := Literal.sign s.toList
  let word := String.ofList (rest.map Char.toLower)
  if word == "inf" || word == "infinity" then some (infinity negative)
  else if word == "nan" then some nan
  else (Literal.unsigned? negative rest).map ofDecimal

/-- Whether the number is zero, of either sign. -/
def isZero : Binary64 → Bool
  | finite _ 0 _ => true
  | _ => false

/-- The nearest natural number, a half going up, kept between 0 and `limit`; a
negative number and a non-number give 0. -/
def toNatClamped (limit : Nat) : Binary64 → Nat
  | nan => 0
  | infinity negative => if negative then 0 else limit
  | finite true _ _ => 0
  | finite false m e =>
    let (num, den) := scale 2 m 1 e
    min limit ((2 * num + den) / (2 * den))

/-! ### Shortest digits -/

/-- The greatest power of ten, as an exponent, that a positive fraction is not
below. -/
def magnitude (num den : Nat) : Int :=
  if den ≤ num then (digitCount (num / den) : Int) - 1
  else
    match (List.range 340).find? (fun j => den ≤ num * Nat.pow 10 (j + 1)) with
    | some j => -(j : Int) - 1
    | none => -341

/-- Whether the fraction `n / d` reads back as the number with that mantissa
and exponent: it lies between the midpoints to the two neighbours, which belong
to an even mantissa. -/
def readsBack (m : Nat) (e : Int) (n d : Nat) : Bool :=
  let (n, d) := scale 2 n d (2 - e)
  let low := if m = 1 <<< 52 ∧ minExponent < e then 4 * m - 1 else 4 * m - 2
  let high := 4 * m + 2
  if m % 2 = 0 then low * d ≤ n && n ≤ high * d else low * d < n && n < high * d

/-- The decimal with `places + 1` digits that reads back, nearest to the number,
if there is one: its digits and its power of ten. -/
def atPlaces? (m : Nat) (e : Int) (num den : Nat) (top : Int) (places : Nat) :
    Option (Nat × Int) :=
  let power := top - places
  let (n, d) := scale 10 num den (-power)
  let below := n / d
  let hits := fun (k : Nat) =>
    let (a, b) := scale 10 k 1 power
    readsBack m e a b
  let nearest := roundEven n d
  if hits nearest then some (nearest, power)
  else if hits below then some (below, power)
  else if hits (below + 1) then some (below + 1, power)
  else none

/-- The fewest digits that read back, and their power of ten. -/
def shortest (m : Nat) (e : Int) : Nat × Int :=
  let (num, den) := scale 2 m 1 e
  let top := magnitude num den
  ((List.range 18).findSome? (atPlaces? m e num den top)).getD (m, e)

/-- Digits times a power of ten, without an exponent. -/
def positional (digits : Nat) (power : Int) : String :=
  let text := Nat.toDigits 10 digits
  if 0 ≤ power then String.ofList (text ++ List.replicate power.toNat '0')
  else
    let places := (-power).toNat
    let padded := List.replicate (places + 1 - text.length) '0' ++ text
    let whole := padded.take (padded.length - places)
    let fraction := (padded.drop (padded.length - places)).reverse.dropWhile (· == '0')
    String.ofList (whole ++ (if fraction.isEmpty then [] else '.' :: fraction.reverse))

/-- The text of a number. -/
def render : Binary64 → String
  | nan => "NaN"
  | infinity negative => if negative then "-inf" else "inf"
  | finite negative m e =>
    let body := if m = 0 then "0" else
      let (digits, power) := shortest m e
      positional digits power
    if negative then "-" ++ body else body

end Binary64
end BlockTransfer
