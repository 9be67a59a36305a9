import BlockTransfer.Toml.Scalar
import BlockTransfer.Toml.Text
/-!
# TOML documents

A document is a sequence of statements: table headers, headers of elements of
an array of tables, and keys with values. `Toml.Node` is the tree that they
build. It remembers how each table came about, because that decides what may
still be added to it: a table is opened by a header once, but may be named in
longer headers before; a table made by a dotted key is extended by dotted keys
only; and what is written as a value is closed.

Key definitions: `Toml.value?`, `Toml.Node`, `Toml.Draft.add?`, `Toml.read?`.
-/

namespace BlockTransfer
namespace Toml

/-! ### Keys -/

def isBareKeyChar (c : Char) : Bool := c.isAlphanum || c == '_' || c == '-'

/-- One part of a key. -/
def simpleKey? (cs : List Char) : Option (String × List Char) :=
  let bare := cs.takeWhile isBareKeyChar
  if bare.isEmpty then (lineString? cs).map fun (k, rest) => (String.ofList k, rest)
  else some (String.ofList bare, cs.drop bare.length)

/-- The parts of a key that points part, at most `fuel` of them. -/
def keyFuel? : Nat → List Char → Option (List String × List Char)
  | 0, _ => none
  | fuel + 1, cs => do
    let (k, rest) ← simpleKey? (skipBlanks cs)
    match skipBlanks rest with
    | '.' :: rest => (keyFuel? fuel rest).map fun (ks, rest) => (k :: ks, rest)
    | rest => some ([k], rest)

/-- A key, and the characters after it and the blanks that follow. -/
def key? (cs : List Char) : Option (List String × List Char) := keyFuel? (cs.length + 1) cs

/-! ### The tree of tables -/

/-- How a table came about. -/
inductive TableKind where
  /-- Named on the way in a longer header. -/
  | named
  /-- Opened by a header of its own. -/
  | opened
  /-- Made by a dotted key. -/
  | dotted
  deriving DecidableEq, Repr

/-- A part of a document under construction. -/
inductive Node where
  /-- A value, closed for good. -/
  | leaf (v : Value)
  | table (kind : TableKind) (entries : List (String × Node))
  /-- An array of tables, the oldest first. -/
  | tables (elements : List (List (String × Node)))

/-- The entries of a table under construction. -/
abbrev Entries := List (String × Node)

/-- The entries with one of them set. -/
def setNode (key : String) (n : Node) : Entries → Entries
  | [] => [(key, n)]
  | (k, m) :: es => if k = key then (k, n) :: es else (k, m) :: setNode key n es

mutual

/-- The value that a node stands for. -/
def Node.toValue : Node → Value
  | .leaf v => v
  | .table _ entries => .table (entriesToValue entries)
  | .tables elements => .list (elementsToValue elements)

/-- The values of a table's entries. -/
def entriesToValue : List (String × Node) → List (String × Value)
  | [] => []
  | (k, n) :: es => (k, n.toValue) :: entriesToValue es

/-- The tables of an array of tables. -/
def elementsToValue : List (List (String × Node)) → List Value
  | [] => []
  | es :: rest => .table (entriesToValue es) :: elementsToValue rest

end

/-- Changes the last table of an array of tables. -/
def mapLast? (f : Entries → Option Entries) (elements : List Entries) : Option (List Entries) := do
  let last ← elements.getLast?
  let last ← f last
  some (elements.dropLast ++ [last])

/-- Sets a value under a dotted key. Only tables made by dotted keys take new
entries this way; the way there may lead through tables named by headers. -/
def setValue? (v : Value) : List String → Entries → Option Entries
  | [], _ => none
  | [k], es => if (es.lookup k).isSome then none else some (setNode k (.leaf v) es)
  | k :: ks, es =>
    let atEnd := ks.length == 1
    match es.lookup k with
    | none => do
      let sub ← setValue? v ks []
      some (setNode k (.table .dotted sub) es)
    | some (.table .dotted sub) => do
      let sub ← setValue? v ks sub
      some (setNode k (.table .dotted sub) es)
    | some (.table .named sub) =>
      if atEnd then none
      else do
        let sub ← setValue? v ks sub
        some (setNode k (.table .named sub) es)
    | some (.tables elements) =>
      if atEnd then none
      else do
        let elements ← mapLast? (setValue? v ks) elements
        some (setNode k (.tables elements) es)
    | some _ => none

/-- Opens the table of a header. -/
def openTable? : List String → Entries → Option Entries
  | [], _ => none
  | [k], es =>
    match es.lookup k with
    | none => some (setNode k (.table .opened []) es)
    | some (.table .named sub) => some (setNode k (.table .opened sub) es)
    | some _ => none
  | k :: ks, es =>
    match es.lookup k with
    | none => do
      let sub ← openTable? ks []
      some (setNode k (.table .named sub) es)
    | some (.table kind sub) => do
      let sub ← openTable? ks sub
      some (setNode k (.table kind sub) es)
    | some (.tables elements) => do
      let elements ← mapLast? (openTable? ks) elements
      some (setNode k (.tables elements) es)
    | some (.leaf _) => none

/-- Adds an element to the array of tables of a header. -/
def openElement? : List String → Entries → Option Entries
  | [], _ => none
  | [k], es =>
    match es.lookup k with
    | none => some (setNode k (.tables [[]]) es)
    | some (.tables elements) => some (setNode k (.tables (elements ++ [[]])) es)
    | some _ => none
  | k :: ks, es =>
    match es.lookup k with
    | none => do
      let sub ← openElement? ks []
      some (setNode k (.table .named sub) es)
    | some (.table kind sub) => do
      let sub ← openElement? ks sub
      some (setNode k (.table kind sub) es)
    | some (.tables elements) => do
      let elements ← mapLast? (openElement? ks) elements
      some (setNode k (.tables elements) es)
    | some (.leaf _) => none

/-- Changes the table that a header opened. -/
def within? (f : Entries → Option Entries) : List String → Entries → Option Entries
  | [], es => f es
  | k :: ks, es =>
    match es.lookup k with
    | some (.table kind sub) => do
      let sub ← within? f ks sub
      some (setNode k (.table kind sub) es)
    | some (.tables elements) => do
      let elements ← mapLast? (within? f ks) elements
      some (setNode k (.tables elements) es)
    | _ => none

/-! ### Values -/

/-- How deep arrays and inline tables may nest. -/
def maxDepth : Nat := 80

mutual

/-- A value inside `depth` more levels of arrays and inline tables. -/
def valueFuel? : Nat → Nat → List Char → Option (Value × List Char)
  | 0, _, _ => none
  | fuel + 1, depth, cs =>
    match cs with
    | '"' :: _ | '\'' :: _ => (string? cs).map fun (s, rest) => (.text (String.ofList s), rest)
    | '[' :: rest =>
      match depth with
      | 0 => none
      | depth + 1 => do
        let rest ← skipTrivia? rest
        let (items, rest) ← itemsFuel? fuel depth rest
        some (.list items, rest)
    | '\x7b' :: rest =>
      match depth with
      | 0 => none
      | depth + 1 => do
        let rest ← skipTrivia? rest
        let (entries, rest) ← inlineFuel? fuel depth [] rest
        some (.table (entriesToValue entries), rest)
    | _ => scalar cs

/-- The items of an array up to its closing bracket. -/
def itemsFuel? : Nat → Nat → List Char → Option (List Value × List Char)
  | 0, _, _ => none
  | fuel + 1, depth, cs =>
    match cs with
    | ']' :: rest => some ([], rest)
    | _ => do
      let (v, rest) ← valueFuel? fuel depth cs
      let rest ← skipTrivia? rest
      match rest with
      | ',' :: rest =>
        let rest ← skipTrivia? rest
        (itemsFuel? fuel depth rest).map fun (vs, rest) => (v :: vs, rest)
      | ']' :: rest => some ([v], rest)
      | _ => none

/-- The entries of an inline table up to its closing brace. -/
def inlineFuel? : Nat → Nat → Entries → List Char → Option (Entries × List Char)
  | 0, _, _, _ => none
  | fuel + 1, depth, es, cs =>
    match cs with
    | '\x7d' :: rest => some (es, rest)
    | _ => do
      let (k, rest) ← key? cs
      let rest ← expect? '=' rest
      let (v, rest) ← valueFuel? fuel depth (skipBlanks rest)
      let es ← setValue? v k es
      let rest ← skipTrivia? rest
      match rest with
      | ',' :: rest =>
        let rest ← skipTrivia? rest
        inlineFuel? fuel depth es rest
      | '\x7d' :: rest => some (es, rest)
      | _ => none

end

/-- A value, and the characters after it. -/
def value? (cs : List Char) : Option (Value × List Char) :=
  valueFuel? (2 * cs.length + 2) maxDepth cs

/-! ### Statements -/

/-- A statement of a document. -/
inductive Statement where
  | header (key : List String)
  | element (key : List String)
  | entry (key : List String) (v : Value)

/-- One statement with its end of line. -/
def statement? (cs : List Char) : Option (Statement × List Char) :=
  match cs with
  | '[' :: '[' :: rest => do
    let (k, rest) ← key? rest
    let rest ← expect? ']' rest
    let rest ← expect? ']' rest
    let rest ← endOfLine? rest
    some (.element k, rest)
  | '[' :: rest => do
    let (k, rest) ← key? rest
    let rest ← expect? ']' rest
    let rest ← endOfLine? rest
    some (.header k, rest)
  | _ => do
    let (k, rest) ← key? cs
    let rest ← expect? '=' rest
    let (v, rest) ← value? (skipBlanks rest)
    let rest ← endOfLine? rest
    some (.entry k v, rest)

/-- The statements of a document, at most `fuel` of them. -/
def statementsFuel? : Nat → List Char → Option (List Statement)
  | 0, _ => none
  | fuel + 1, cs => do
    let rest ← skipTrivia? cs
    if rest.isEmpty then some []
    else
      let (s, rest) ← statement? rest
      (statementsFuel? fuel rest).map (s :: ·)

/-- A document under construction: all tables, and the one that entries go to. -/
structure Draft where
  entries : Entries := []
  current : List String := []

/-- Adds a statement to a document. -/
def Draft.add? (d : Draft) : Statement → Option Draft
  | .header k => (openTable? k d.entries).map fun es => ⟨es, k⟩
  | .element k => (openElement? k d.entries).map fun es => ⟨es, k⟩
  | .entry k v =>
    (within? (setValue? v k) d.current d.entries).map fun es => { d with entries := es }

/-- The text without a byte order mark at its start. -/
def dropMark (cs : List Char) : List Char :=
  match cs with
  | c :: rest => if c.toNat = 0xfeff then rest else cs
  | [] => []

/-- The table that a document describes, if it is one. -/
def read? (text : String) : Option Value := do
  let cs := dropMark text.toList
  let statements ← statementsFuel? (cs.length + 1) cs
  let draft ← statements.foldlM Draft.add? {}
  some (.table (entriesToValue draft.entries))

end Toml
end BlockTransfer
