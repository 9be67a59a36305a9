import BlockTransfer.Number.Literal
/-!
# TOML: blanks, comments and strings

The pieces of a TOML document that carry text. Every reader here takes the
characters ahead and gives back what it read and the characters after it, or
nothing if they do not start with what it reads.

A basic string has escapes, a literal string has none; either may be written
over several lines between tripled quotes, where a line break right after the
opening is dropped and up to two quotes may stand before the closing.

Key definitions: `Toml.endOfLine?`, `Toml.skipTrivia?`, `Toml.string?`.
-/

namespace BlockTransfer
namespace Toml

def isBlank (c : Char) : Bool := c == ' ' || c == '\t'

/-- A control character; none may stand in a document except a tab and line
breaks. -/
def isControl (c : Char) : Bool := (c.toNat < 0x20 && c != '\t') || c.toNat == 0x7f

def skipBlanks (cs : List Char) : List Char := cs.dropWhile isBlank

/-- A line break. -/
def newline? : List Char → Option (List Char)
  | '\n' :: rest => some rest
  | '\r' :: '\n' :: rest => some rest
  | _ => none

/-- A comment, up to the line break that ends it. -/
def skipComment? : List Char → Option (List Char)
  | '#' :: rest =>
    let body := rest.takeWhile fun c => c != '\n' && c != '\r'
    if body.any isControl then none else some (rest.drop body.length)
  | cs => some cs

/-- Blanks and a comment up to the end of the line, and the line break. -/
def endOfLine? (cs : List Char) : Option (List Char) := do
  let rest ← skipComment? (skipBlanks cs)
  if rest.isEmpty then some [] else newline? rest

/-- Blanks, comments and line breaks, at most `fuel` lines of them. -/
def skipTriviaFuel? : Nat → List Char → Option (List Char)
  | 0, cs => some cs
  | fuel + 1, cs => do
    let rest ← skipComment? (skipBlanks cs)
    match newline? rest with
    | some after => skipTriviaFuel? fuel after
    | none => some rest

/-- Blanks, comments and line breaks. -/
def skipTrivia? (cs : List Char) : Option (List Char) := skipTriviaFuel? (cs.length + 1) cs

/-! ### Strings -/

/-- The character of a code point, if it is one. -/
def scalar? (n : Nat) : Option Char :=
  if n < 0xd800 ∨ (0xdfff < n ∧ n ≤ 0x10ffff) then some (Char.ofNat n) else none

/-- A character written with a fixed number of hexadecimal digits. -/
def hexScalar? (count : Nat) (cs : List Char) : Option (Char × List Char) := do
  let body := cs.take count
  if body.length < count then none
  else
    let n ← Literal.digits? 16 body
    let c ← scalar? n
    some (c, cs.drop count)

/-- An escaped character, after the backslash. -/
def escape? : List Char → Option (Char × List Char)
  | 'b' :: rest => some ('\x08', rest)
  | 't' :: rest => some ('\t', rest)
  | 'n' :: rest => some ('\n', rest)
  | 'f' :: rest => some ('\x0c', rest)
  | 'r' :: rest => some ('\r', rest)
  | 'e' :: rest => some ('\x1b', rest)
  | '"' :: rest => some ('"', rest)
  | '\\' :: rest => some ('\\', rest)
  | 'x' :: rest => hexScalar? 2 rest
  | 'u' :: rest => hexScalar? 4 rest
  | 'U' :: rest => hexScalar? 8 rest
  | _ => none

/-- What a reader of text gives: the characters read, and the rest. -/
abbrev Reading := Option (List Char × List Char)

/-- The reading with a character put in front of what was read. -/
def Reading.cons (c : Char) (r : Reading) : Reading := r.map fun (cs, rest) => (c :: cs, rest)

/-- The body of a basic string up to its closing quote. -/
def basicBody : Nat → List Char → Reading
  | 0, _ => none
  | _ + 1, [] => none
  | fuel + 1, c :: rest =>
    if c = '"' then some ([], rest)
    else if c = '\\' then do
      let (c, rest) ← escape? rest
      Reading.cons c (basicBody fuel rest)
    else if isControl c then none
    else Reading.cons c (basicBody fuel rest)

/-- The body of a literal string up to its closing quote. -/
def literalBody (cs : List Char) : Reading :=
  let body := cs.takeWhile (· != '\'')
  match cs.drop body.length with
  | [] => none
  | _ :: rest => if body.any isControl then none else some (body, rest)

/-- Up to two quotes that stand before a closing of three, which is behind us. -/
def closingQuotes (quote : Char) (cs : List Char) : List Char × List Char :=
  let extra := (cs.take 2).takeWhile (· == quote)
  (extra, cs.drop extra.length)

/-- A backslash at the end of a line: everything up to the next text is left
out. -/
def continuation? (cs : List Char) : Option (List Char) := do
  let rest ← newline? (skipBlanks cs)
  some (rest.dropWhile fun c => isBlank c || c == '\n' || c == '\r')

/-- The body of a string over several lines, up to its closing quotes. -/
def multilineBody (quote : Char) (escapes : Bool) : Nat → List Char → Reading
  | 0, _ => none
  | _ + 1, [] => none
  | fuel + 1, c :: rest =>
    if c = quote ∧ rest.take 2 = [quote, quote] then
      some (closingQuotes quote (rest.drop 2))
    else if c = '\\' ∧ escapes then
      match continuation? rest with
      | some rest => multilineBody quote escapes fuel rest
      | none => do
        let (c, rest) ← escape? rest
        Reading.cons c (multilineBody quote escapes fuel rest)
    else match newline? (c :: rest) with
      | some rest => Reading.cons '\n' (multilineBody quote escapes fuel rest)
      | none =>
        if isControl c then none else Reading.cons c (multilineBody quote escapes fuel rest)

/-- The body of a string over several lines; a line break right after the
opening is dropped. -/
def multiline (quote : Char) (escapes : Bool) (cs : List Char) : Reading :=
  multilineBody quote escapes (cs.length + 1) ((newline? cs).getD cs)

/-- A string on one line, of either kind. -/
def lineString? : List Char → Reading
  | '"' :: rest => basicBody (rest.length + 1) rest
  | '\'' :: rest => literalBody rest
  | _ => none

/-- A string of any kind. -/
def string? : List Char → Reading
  | '"' :: '"' :: '"' :: rest => multiline '"' true rest
  | '\'' :: '\'' :: '\'' :: rest => multiline '\'' false rest
  | cs => lineString? cs

end Toml
end BlockTransfer
