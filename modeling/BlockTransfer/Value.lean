import BlockTransfer.Number.Binary64
/-!
# Values of configuration data

What a configuration file, a JSON document or an environment variable can hold:
nothing, a truth value, a whole number of any size, a double-precision number, a
text, a date or time as written, a list, or a table. A table keeps its entries in
order; no two of them share a key. Which order that is makes no difference to a
reader, so entries that come one by one are put in the order of their keys
(`Value.setEntry`).

Key definitions: `Value`, `Value.entryAt?`, `Value.setEntry`, `Value.intsBetween`.
-/

namespace BlockTransfer

/-- A value of configuration data. -/
inductive Value where
  | nil
  | bool (b : Bool)
  | int (i : Int)
  | float (x : Binary64)
  | text (s : String)
  | datetime (s : String)
  | list (items : List Value)
  | table (entries : List (String × Value))
  deriving Inhabited

namespace Value

mutual

/-- Whether every whole number in a value lies between two bounds. -/
def intsBetween (low high : Int) : Value → Bool
  | int i => low ≤ i && i ≤ high
  | list items => itemsBetween low high items
  | table entries => entriesBetween low high entries
  | _ => true

/-- `intsBetween` for the items of a list. -/
def itemsBetween (low high : Int) : List Value → Bool
  | [] => true
  | v :: vs => v.intsBetween low high && itemsBetween low high vs

/-- `intsBetween` for the entries of a table. -/
def entriesBetween (low high : Int) : List (String × Value) → Bool
  | [] => true
  | (_, v) :: es => v.intsBetween low high && entriesBetween low high es

end

/-- The entry of a table under a key. -/
def entryAt? (key : String) : Value → Option Value
  | table entries => entries.lookup key
  | _ => none

/-- A list of entries with one more, before the first that has a greater key. -/
def insertEntry (key : String) (v : Value) : List (String × Value) → List (String × Value)
  | [] => [(key, v)]
  | e :: es => if key < e.1 then (key, v) :: e :: es else e :: insertEntry key v es

/-- A list of entries with one of them set: in place if the key is there. -/
def setEntry (key : String) (v : Value) (es : List (String × Value)) : List (String × Value) :=
  if key ∈ es.map Prod.fst then es.map fun e => if e.1 = key then (key, v) else e
  else insertEntry key v es

end Value
end BlockTransfer
