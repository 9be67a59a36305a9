import BlockTransfer.Value
import BlockTransfer.Word
/-!
# Writing TOML documents

A table is written as its plain entries followed by its subtables, each under a
header with its full name and after an empty line. A table without plain entries
of its own has no header if it has subtables. Nothing is left out of a document
but entries that are nothing.

A text is written in the first of five styles that needs no escape for it: basic,
literal, the two over several lines, and basic with escapes.

Key definitions: `Toml.quote`, `Toml.render?`.
-/

namespace BlockTransfer
namespace Toml

/-! ### Strings -/

/-- What decides how a text is quoted. -/
structure Traits where
  /-- It has control characters other than tabs and line feeds. -/
  control : Bool
  backslash : Bool
  /-- The longest run of double quotes. -/
  doubleRun : Nat
  /-- The longest run of single quotes. -/
  singleRun : Nat
  newline : Bool
  deriving DecidableEq, Repr

/-- The longest run of a character, given the length of the run before. -/
def longestRun (c : Char) : Nat → List Char → Nat
  | run, [] => run
  | run, d :: rest => if d = c then longestRun c (run + 1) rest else max run (longestRun c 0 rest)

def isEscapedControl (c : Char) : Bool :=
  (c.toNat ≤ 0x1f && c != '\t' && c != '\n') || c.toNat == 0x7f

def Traits.of (cs : List Char) : Traits where
  control := cs.any isEscapedControl
  backslash := cs.contains '\\'
  doubleRun := longestRun '"' 0 cs
  singleRun := longestRun '\'' 0 cs
  newline := cs.contains '\n'

/-- How a text is quoted. -/
inductive Style where
  | basic | literal | multilineBasic | multilineLiteral
  deriving DecidableEq, Repr

/-- The style of a text. -/
def Traits.style (t : Traits) : Style :=
  if !t.control && !t.backslash && t.doubleRun == 0 && !t.newline then .basic
  else if !t.control && t.singleRun == 0 && !t.newline then .literal
  else if !t.control && !t.backslash && t.doubleRun ≤ 2 then .multilineBasic
  else if !t.control && t.singleRun ≤ 2 then .multilineLiteral
  else if t.newline then .multilineBasic
  else .basic

/-- The four hexadecimal digits of a code point, in capitals. -/
def hex4 (n : Nat) : List Char :=
  let digits := (Nat.toDigits 16 n).map Char.toUpper
  List.replicate (4 - digits.length) '0' ++ digits

/-- A character other than a double quote in a basic string. -/
def escapeChar (multiline : Bool) (c : Char) : List Char :=
  if c = '\x08' then ['\\', 'b']
  else if c = '\t' then ['\\', 't']
  else if c = '\n' then (if multiline then ['\n'] else ['\\', 'n'])
  else if c = '\x0c' then ['\\', 'f']
  else if c = '\r' then ['\\', 'r']
  else if c = '\\' then ['\\', '\\']
  else if isEscapedControl c then ['\\', 'u'] ++ hex4 c.toNat
  else [c]

/-- The body of a basic string. At most `allowed` double quotes stand next to
one another without an escape; `run` of them stand before. -/
def escapeBody (multiline : Bool) (allowed : Nat) : Nat → List Char → List Char
  | _, [] => []
  | run, c :: rest =>
    if c = '"' then
      if run < allowed then '"' :: escapeBody multiline allowed (run + 1) rest
      else '\\' :: '"' :: escapeBody multiline allowed 0 rest
    else escapeChar multiline c ++ escapeBody multiline allowed 0 rest

/-- A text as a TOML string. -/
def quoteChars (cs : List Char) : List Char :=
  let t := Traits.of cs
  let lead := if t.newline then ['\n'] else []
  match t.style with
  | .basic => '"' :: escapeBody false 0 0 cs ++ ['"']
  | .literal => '\'' :: cs ++ ['\'']
  | .multilineBasic => ['"', '"', '"'] ++ lead ++ escapeBody true 2 0 cs ++ ['"', '"', '"']
  | .multilineLiteral => ['\'', '\'', '\''] ++ lead ++ cs ++ ['\'', '\'', '\'']

def quote (s : String) : String := String.ofList (quoteChars s.toList)

/-! ### Documents -/

/-- The greatest whole number of a document. -/
def maxInteger : Int := Word.max

/-- The least whole number of a document. -/
def minInteger : Int := -Word.signedLimit

/-- The text of a plain value: a truth value, a number in range, or a text. -/
def plain? : Value → Option String
  | .bool b => some (if b then "true" else "false")
  | .int i => if minInteger ≤ i ∧ i ≤ maxInteger then some (toString i) else none
  | .text s => some (quote s)
  | _ => none

/-- The lines of a table's plain entries. Keys are bare. -/
def plainLines? : List (String × Value) → Option (List String)
  | [] => some []
  | (_, .nil) :: rest | (_, .table _) :: rest => plainLines? rest
  | (k, v) :: rest => do
    let text ← plain? v
    let lines ← plainLines? rest
    some (s!"{k} = {text}" :: lines)

/-- Whether an entry is a subtable. -/
def isTable : String × Value → Bool
  | (_, .table _) => true
  | _ => false

/-- The lines under a table's header; without plain entries the header stands
only if there are no subtables. -/
def section? (path : List String) (entries : List (String × Value)) :
    Option (List (List String)) := do
  let lines ← plainLines? entries
  let header := if path.isEmpty then [] else ["[" ++ ".".intercalate path ++ "]"]
  if lines.isEmpty && (path.isEmpty || entries.any isTable) then some []
  else some [header ++ lines]

mutual

/-- The sections of a table and of its subtables. -/
def sections? (path : List String) : Value → Option (List (List String))
  | .table entries => do
    let own ← section? path entries
    let below ← subsections? path entries
    some (own ++ below)
  | _ => some []

/-- The sections of the subtables among some entries. -/
def subsections? (path : List String) : List (String × Value) → Option (List (List String))
  | [] => some []
  | (k, v) :: rest => do
    let here ← sections? (path ++ [k]) v
    let more ← subsections? path rest
    some (here ++ more)

end

/-- The document that describes a table, if it has one. -/
def render? (v : Value) : Option String := do
  let all ← sections? [] v
  some ("\n".intercalate (all.map fun lines => String.join (lines.map (· ++ "\n"))))

end Toml
end BlockTransfer
