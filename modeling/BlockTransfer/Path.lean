/-
# Paths

A path is the text that names a file: names separated by slashes, absolute if
it starts with one. `Path.join` puts a path under another one, and
`Path.parts` lists its components. Nothing here looks at a file system.

Key definitions: `Path.join`, `Path.parts`.
-/

namespace BlockTransfer
namespace Path

/-- Cuts a list at every element that satisfies `p`; the cuts are dropped, so
`n` cuts leave `n + 1` pieces. -/
def pieces (p : Char → Bool) : List Char → List (List Char)
  | [] => [[]]
  | c :: cs =>
    if p c then [] :: pieces p cs
    else match pieces p cs with
      | [] => [[c]]
      | w :: ws => (c :: w) :: ws

/-- The texts between the slashes, empty ones too. -/
def segments (path : String) : List String :=
  (pieces (· == '/') path.toList).map String.ofList

def isAbsolute (path : String) : Bool := path.toList.head? == some '/'

def endsWithSlash (path : String) : Bool := path.toList.getLast? == some '/'

/-- The path `name` under `base`: an absolute `name` stands alone, nothing is
put before a `name` without a base, and no second slash follows one that ends
the base. -/
def join (base name : String) : String :=
  if isAbsolute name || base.isEmpty then name
  else if endsWithSlash base then base ++ name
  else base ++ "/" ++ name

/-- The components of a path: `/` at the start of an absolute one, then the
names. Empty names and `.` vanish, except a `.` that starts the path. -/
def parts (path : String) : List String :=
  let names := segments path
  let kept := (names.drop 1).filter fun s => !(s.isEmpty || s == ".")
  match names.head? with
  | none => []
  | some "" => if isAbsolute path then "/" :: kept else kept
  | some first => first :: kept

end Path
end BlockTransfer
