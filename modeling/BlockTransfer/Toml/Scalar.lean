import BlockTransfer.Value
/-!
# TOML: numbers, dates and truth values

A scalar is a run of characters without blanks: `true` or `false`, a whole
number in one of four bases, a floating-point number, or a date, a time, or both.
Underscores may stand between digits, and a decimal number has no leading zeros.

Key definitions: `Toml.scalar`, `Toml.integer?`, `Toml.float?`,
`Toml.datetime?`.
-/

namespace BlockTransfer
namespace Toml

/-- Digits with single underscores between them, without the underscores. -/
def ungroup? : List Char → Option (List Char)
  | [] => none
  | [c] => if c = '_' then none else some [c]
  | c :: '_' :: rest => if c = '_' then none else (ungroup? rest).map (c :: ·)
  | c :: rest => if c = '_' then none else (ungroup? rest).map (c :: ·)

/-- Decimal digits without a leading zero, with underscores between them. -/
def decimalDigits? (cs : List Char) : Option (List Char) := do
  let digits ← ungroup? cs
  match digits with
  | '0' :: _ :: _ => none
  | _ => if digits.all Char.isDigit then some digits else none

/-- Whether the text carries a sign. -/
def isSigned : List Char → Bool
  | '+' :: _ | '-' :: _ => true
  | _ => false

/-- A whole number. -/
def integer? (cs : List Char) : Option Int :=
  let based := fun (base : Nat) (rest : List Char) => do
    let digits ← ungroup? rest
    let n ← Literal.digits? base digits
    some (Int.ofNat n)
  match cs with
  | '0' :: 'x' :: rest => based 16 rest
  | '0' :: 'o' :: rest => based 8 rest
  | '0' :: 'b' :: rest => based 2 rest
  | _ => do
    let (negative, rest) := Literal.sign cs
    let digits ← decimalDigits? rest
    let n ← Literal.digits? 10 digits
    some (if negative then -(n : Int) else n)

/-- The digits after a point. -/
def fraction? : List Char → Option (List Char)
  | '.' :: rest => do
    let digits ← ungroup? rest
    if digits.all Char.isDigit then some digits else none
  | [] => some []
  | _ => none

/-- The digits after the mark of an exponent, with their sign. -/
def exponent? : List Char → Option Int
  | [] => some 0
  | _ :: rest => do
    let (negative, rest) := Literal.sign rest
    let digits ← ungroup? rest
    if digits.all Char.isDigit then
      let n ← Literal.digits? 10 digits
      some (if negative then -(n : Int) else n)
    else none

/-- A floating-point number; one written in digits has a fraction or an exponent,
and is finite. -/
def float? (cs : List Char) : Option Binary64 :=
  let (negative, rest) := Literal.sign cs
  if rest = ['i', 'n', 'f'] then some (.infinity negative)
  else if rest = ['n', 'a', 'n'] then some .nan
  else do
    let (mantissa, power) := Literal.splitAtFirst (fun c => c == 'e' || c == 'E') rest
    let (whole, places) := Literal.splitAtFirst (· == '.') mantissa
    if power.isEmpty && places.isEmpty then none
    else
      let whole ← decimalDigits? whole
      let places ← fraction? places
      let power ← exponent? power
      let n ← Literal.digits? 10 (whole ++ places)
      match Binary64.ofDecimal ⟨negative, n, power - places.length⟩ with
      | .infinity _ => none
      | x => some x

/-! ### Dates and times -/

/-- A fixed number of decimal digits. -/
def fixedDigits? (count : Nat) (cs : List Char) : Option (Nat × List Char) := do
  let body := cs.take count
  if body.length < count then none
  else
    let n ← Literal.digits? 10 body
    some (n, cs.drop count)

/-- The rest after one expected character. -/
def expect? (c : Char) : List Char → Option (List Char)
  | d :: rest => if c = d then some rest else none
  | [] => none

/-- The number of days of a month. -/
def daysIn (year month : Nat) : Nat :=
  if month = 2 then
    if year % 4 = 0 ∧ (year % 100 ≠ 0 ∨ year % 400 = 0) then 29 else 28
  else if month = 4 ∨ month = 6 ∨ month = 9 ∨ month = 11 then 30 else 31

/-- A date, and the characters after it. -/
def date? (cs : List Char) : Option (List Char × List Char) := do
  let (year, rest) ← fixedDigits? 4 cs
  let rest ← expect? '-' rest
  let (month, rest) ← fixedDigits? 2 rest
  let rest ← expect? '-' rest
  let (day, rest) ← fixedDigits? 2 rest
  if 1 ≤ month ∧ month ≤ 12 ∧ 1 ≤ day ∧ day ≤ daysIn year month then some (cs.take 10, rest)
  else none

/-- The decimals of a second, at most nine of them, without zeros at the end. -/
def secondFraction? (cs : List Char) : Option (List Char × List Char) :=
  let digits := cs.takeWhile Char.isDigit
  if digits.isEmpty then none
  else
    let kept := ((digits.take 9).reverse.dropWhile (· == '0')).reverse
    some ('.' :: (if kept.isEmpty then ['0'] else kept), cs.drop digits.length)

/-- The seconds of a time, which may be left out. -/
def seconds? (cs : List Char) : Option (List Char × List Char) :=
  match cs with
  | ':' :: rest => do
    let (second, after) ← fixedDigits? 2 rest
    if 60 < second then none
    else match after with
      | '.' :: after => do
        let (fraction, after) ← secondFraction? after
        some (':' :: rest.take 2 ++ fraction, after)
      | _ => some (':' :: rest.take 2, after)
  | _ => some ([], cs)

/-- A time of day, and the characters after it. -/
def time? (cs : List Char) : Option (List Char × List Char) := do
  let (hour, rest) ← fixedDigits? 2 cs
  let rest ← expect? ':' rest
  let (minute, rest) ← fixedDigits? 2 rest
  if 23 < hour ∨ 59 < minute then none
  else
    let (seconds, rest) ← seconds? rest
    some (cs.take 5 ++ seconds, rest)

/-- The offset from universal time, which may be left out. -/
def offset? : List Char → Option (List Char)
  | [] => some []
  | ['Z'] | ['z'] => some ['Z']
  | c :: rest =>
    if c = '+' ∨ c = '-' then do
      let (hour, after) ← fixedDigits? 2 rest
      let after ← expect? ':' after
      let (minute, after) ← fixedDigits? 2 after
      if after.isEmpty && hour ≤ 23 && minute ≤ 59 then
        some ((if hour = 0 ∧ minute = 0 then '+' else c) :: rest)
      else none
    else none

/-- A date, a time, or a date with a time and maybe an offset, in the form in
which it is shown. -/
def datetime? (cs : List Char) : Option (List Char) :=
  match date? cs with
  | some (date, []) => some date
  | some (date, mark :: rest) =>
    if mark = 'T' ∨ mark = 't' ∨ mark = ' ' then do
      let (time, rest) ← time? rest
      let offset ← offset? rest
      some (date ++ 'T' :: time ++ offset)
    else none
  | none =>
    match time? cs with
    | some (time, []) => some time
    | _ => none

/-! ### Scalars -/

/-- A character that can be part of a scalar. -/
def isScalarChar (c : Char) : Bool :=
  c.isAlphanum || c == '+' || c == '-' || c == '_' || c == '.' || c == ':'

/-- The characters of a scalar: a run without blanks, or a date, one space, and
the time after it. -/
def scalarRun (cs : List Char) : List Char :=
  let first := cs.takeWhile isScalarChar
  match date? first, cs.drop first.length with
  | some (_, []), ' ' :: rest =>
    let second := rest.takeWhile isScalarChar
    if (second.head?.map Char.isDigit).getD false then first ++ ' ' :: second else first
  | _, _ => first

/-- The value of a scalar's characters. -/
def scalarValue? (run : List Char) : Option Value :=
  if run = "true".toList then some (.bool true)
  else if run = "false".toList then some (.bool false)
  else match integer? run with
    | some i => some (.int i)
    | none =>
      match float? run with
      | some x => some (.float x)
      | none => (datetime? run).map fun text => .datetime (String.ofList text)

/-- A scalar, and the characters after it. -/
def scalar (cs : List Char) : Option (Value × List Char) :=
  let run := scalarRun cs
  (scalarValue? run).map fun v => (v, cs.drop run.length)

end Toml
end BlockTransfer
