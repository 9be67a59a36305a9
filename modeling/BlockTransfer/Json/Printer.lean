import BlockTransfer.Value
/-!
# Writing JSON documents

Values are written over several lines with two blanks for every level; an empty
list or table takes one line. Control characters are escaped, all others stand as
they are.

Key definitions: `Json.quote`, `Json.render`.
-/

namespace BlockTransfer
namespace Json

/-- The four hexadecimal digits of a code point. -/
def hex4 (n : Nat) : List Char :=
  let digits := Nat.toDigits 16 n
  List.replicate (4 - digits.length) '0' ++ digits

def escapeChar (c : Char) : List Char :=
  if c = '"' then ['\\', '"']
  else if c = '\\' then ['\\', '\\']
  else if c = '\x08' then ['\\', 'b']
  else if c = '\x0c' then ['\\', 'f']
  else if c = '\n' then ['\\', 'n']
  else if c = '\r' then ['\\', 'r']
  else if c = '\t' then ['\\', 't']
  else if c.toNat < 0x20 then ['\\', 'u'] ++ hex4 c.toNat
  else [c]

def quote (s : String) : String := String.ofList ('"' :: s.toList.flatMap escapeChar ++ ['"'])

/-- A line break and the blanks of a level. -/
def breakTo (level : Nat) : String := "\n" ++ String.ofList (List.replicate (2 * level) ' ')

mutual

/-- The text of a value at a level. -/
def renderAt (level : Nat) : Value → String
  | .nil => "null"
  | .bool b => if b then "true" else "false"
  | .int i => toString i
  | .float x => x.render
  | .text s | .datetime s => quote s
  | .list [] => "[]"
  | .list items => "[" ++ renderItems (level + 1) items ++ breakTo level ++ "]"
  | .table [] => "\x7b\x7d"
  | .table entries => "\x7b" ++ renderEntries (level + 1) entries ++ breakTo level ++ "\x7d"

/-- The items of a list at a level, each on a line of its own. -/
def renderItems (level : Nat) : List Value → String
  | [] => ""
  | [v] => breakTo level ++ renderAt level v
  | v :: vs => breakTo level ++ renderAt level v ++ "," ++ renderItems level vs

/-- The entries of a table at a level, each on a line of its own. -/
def renderEntries (level : Nat) : List (String × Value) → String
  | [] => ""
  | [(k, v)] => breakTo level ++ quote k ++ ": " ++ renderAt level v
  | (k, v) :: es =>
    breakTo level ++ quote k ++ ": " ++ renderAt level v ++ "," ++ renderEntries level es

end

/-- The document of a value. -/
def render (v : Value) : String := renderAt 0 v

end Json
end BlockTransfer
