import BlockTransfer.Number.Literal
import BlockTransfer.Word
/-!
# Sizes in bytes

A size is a decimal number, with an optional plus and leading zeros, and at most
one suffix `K`, `M` or `G` of either case for a binary multiple. White space
around it does not count. Number and product both fit 64 bits.

Key definitions: `Size.parse`, `Size.Written`.
-/

namespace BlockTransfer

/-- Why a text is no size; the text is kept without the white space around it. -/
inductive SizeError where
  | invalid (text : String)
  | tooLarge (text : String)
  deriving DecidableEq, Repr

/-- The wording of the error. -/
def SizeError.message : SizeError → String
  | invalid s => s!"invalid size '{s}': expected a number with optional K, M or G"
  | tooLarge s => s!"size '{s}' is too large"

namespace Size

/-- The greatest size. -/
def max : Nat := Word.max

/-- The white space of Unicode. -/
def isWhiteSpace (c : Char) : Bool :=
  let n := c.toNat
  (0x9 ≤ n && n ≤ 0xd) || n == 0x20 || n == 0x85 || n == 0xa0 || n == 0x1680 ||
    (0x2000 ≤ n && n ≤ 0x200a) || n == 0x2028 || n == 0x2029 || n == 0x202f || n == 0x205f ||
    n == 0x3000

/-- The characters without the white space at both ends. -/
def trim (cs : List Char) : List Char :=
  ((cs.dropWhile isWhiteSpace).reverse.dropWhile isWhiteSpace).reverse

/-- How many bits a suffix shifts by. -/
def shift? (c : Char) : Option Nat :=
  if c = 'k' ∨ c = 'K' then some 10
  else if c = 'm' ∨ c = 'M' then some 20
  else if c = 'g' ∨ c = 'G' then some 30
  else none

/-- The characters before a suffix, and how many bits it shifts by. -/
def splitSuffix (cs : List Char) : List Char × Nat :=
  match cs.getLast?.bind shift? with
  | some bits => (cs.dropLast, bits)
  | none => (cs, 0)

/-- Reads a size. -/
def parse (s : String) : Except SizeError Nat :=
  let cs := trim s.toList
  let (digits, bits) := splitSuffix cs
  match Literal.natural? max digits with
  | none => .error (.invalid (String.ofList cs))
  | some n =>
    if n <<< bits ≤ max then .ok (n <<< bits) else .error (.tooLarge (String.ofList cs))

/-! ### The grammar -/

/-- The value of decimal digits. -/
def valueOf (ds : List Char) : Nat := ds.foldl (fun n c => 10 * n + (c.toNat - '0'.toNat)) 0

/-- What may follow the digits, and how many bits it shifts by. -/
inductive Suffix : List Char → Nat → Prop
  | none : Suffix [] 0
  | kilo (c : Char) : c = 'k' ∨ c = 'K' → Suffix [c] 10
  | mega (c : Char) : c = 'm' ∨ c = 'M' → Suffix [c] 20
  | giga (c : Char) : c = 'g' ∨ c = 'G' → Suffix [c] 30

/-- `Written cs v bits`: the characters are an optional plus, one or more digits
of value `v`, and a suffix that shifts by `bits`. -/
def Written (cs : List Char) (v bits : Nat) : Prop :=
  ∃ plus ds suffix, cs = plus ++ ds ++ suffix ∧ (plus = [] ∨ plus = ['+']) ∧ ds ≠ [] ∧
    (∀ c ∈ ds, c.isDigit = true) ∧ valueOf ds = v ∧ Suffix suffix bits

end Size
end BlockTransfer
