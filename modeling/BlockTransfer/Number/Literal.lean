/-
# Number literals

Plain decimal integers with an optional sign, and the general decimal literal:
a sign, digits with or without a point among them, and an optional exponent.
A literal is kept exact (`DecimalLiteral`); rounding is not its business.

Key definitions: `Literal.digits?`, `Literal.natural?`, `Literal.integer?`,
`DecimalLiteral`, `Literal.decimal?`.
-/

namespace BlockTransfer

/-- The number `± digits · 10 ^ exponent`. -/
structure DecimalLiteral where
  negative : Bool
  digits : Nat
  exponent : Int
  deriving DecidableEq, Repr

namespace Literal

/-- The value of a digit character below the base. -/
def digit? (base : Nat) (c : Char) : Option Nat :=
  let value :=
    if c.isDigit then some (c.toNat - '0'.toNat)
    else if 'a' ≤ c ∧ c ≤ 'f' then some (c.toNat - 'a'.toNat + 10)
    else if 'A' ≤ c ∧ c ≤ 'F' then some (c.toNat - 'A'.toNat + 10)
    else none
  value.filter (· < base)

/-- The value of digits after the value read so far. -/
def digitsFrom? (base : Nat) : Nat → List Char → Option Nat
  | acc, [] => some acc
  | acc, c :: cs =>
    match digit? base c with
    | none => none
    | some d => digitsFrom? base (acc * base + d) cs

/-- The value of one or more digits. -/
def digits? (base : Nat) (cs : List Char) : Option Nat :=
  if cs.isEmpty then none else digitsFrom? base 0 cs

/-- A decimal number of at most `limit`, with an optional plus. -/
def natural? (limit : Nat) (cs : List Char) : Option Nat :=
  let body := match cs with
    | '+' :: rest => rest
    | _ => cs
  (digits? 10 body).filter (· ≤ limit)

/-- A decimal number with an optional sign, from `-limit` to `limit - 1`. -/
def integer? (limit : Nat) (cs : List Char) : Option Int :=
  match cs with
  | '-' :: rest => ((digits? 10 rest).filter (· ≤ limit)).map fun n => -(n : Int)
  | _ => (natural? (limit - 1) cs).map Int.ofNat

/-- The exponent after an `e`: digits with an optional sign. -/
def exponent? (cs : List Char) : Option Int :=
  match cs with
  | '-' :: rest => (digits? 10 rest).map fun n => -(n : Int)
  | '+' :: rest => (digits? 10 rest).map Int.ofNat
  | _ => (digits? 10 cs).map Int.ofNat

/-- Splits a list before the first element that satisfies `p`. -/
def splitAtFirst (p : Char → Bool) (cs : List Char) : List Char × List Char :=
  (cs.takeWhile fun c => !p c, cs.dropWhile fun c => !p c)

/-- A decimal literal without a sign: at least one digit, a point anywhere
among them or at an end, and an optional exponent. -/
def unsigned? (negative : Bool) (cs : List Char) : Option DecimalLiteral := do
  let (mantissa, tail) := splitAtFirst (fun c => c == 'e' || c == 'E') cs
  let exponent ← match tail with
    | [] => some 0
    | _ :: rest => exponent? rest
  let (whole, fraction) := splitAtFirst (· == '.') mantissa
  let fraction := fraction.drop 1
  let digits ← digits? 10 (whole ++ fraction)
  some ⟨negative, digits, exponent - fraction.length⟩

/-- The rest after a sign, and whether the sign is a minus. -/
def sign : List Char → Bool × List Char
  | '-' :: rest => (true, rest)
  | '+' :: rest => (false, rest)
  | cs => (false, cs)

/-- A decimal literal with an optional sign. -/
def decimal? (cs : List Char) : Option DecimalLiteral :=
  let (negative, rest) := sign cs
  unsigned? negative rest

end Literal
end BlockTransfer
