/-
# Element types

The type of a buffer's elements fixes its stride. The names are lower case;
reading one back takes any ASCII case (`ElementType.ofName?`), while a stored
value has to be spelled exactly (`ElementType.ofExactName?`).

Key definitions: `ElementType`, `ElementType.size`, `ElementType.name`,
`ElementType.ofName?`.
-/

namespace BlockTransfer

/-- What one element of a buffer is. -/
inductive ElementType where
  | u8 | i8 | u16 | i16 | f16 | bf16 | u32 | i32 | f32 | u64 | i64 | f64
  deriving DecidableEq, Repr

namespace ElementType

/-- Every element type, in declaration order. -/
def all : List ElementType := [u8, i8, u16, i16, f16, bf16, u32, i32, f32, u64, i64, f64]

/-- The bytes that one element takes. -/
def size : ElementType → Nat
  | u8 | i8 => 1
  | u16 | i16 | f16 | bf16 => 2
  | u32 | i32 | f32 => 4
  | u64 | i64 | f64 => 8

/-- The lower-case name. -/
def name : ElementType → String
  | u8 => "u8"
  | i8 => "i8"
  | u16 => "u16"
  | i16 => "i16"
  | f16 => "f16"
  | bf16 => "bf16"
  | u32 => "u32"
  | i32 => "i32"
  | f32 => "f32"
  | u64 => "u64"
  | i64 => "i64"
  | f64 => "f64"

/-- The name with a capital, as diagnostics show it. -/
def label (t : ElementType) : String := t.name.capitalize

/-- The type of that name in any ASCII case. -/
def ofName? (s : String) : Option ElementType := all.find? (·.name == s.map Char.toLower)

/-- The type whose name is spelled exactly so. -/
def ofExactName? (s : String) : Option ElementType := all.find? (·.name == s)

theorem size_pos (t : ElementType) : 0 < t.size := by cases t <;> decide

theorem mem_all (t : ElementType) : t ∈ all := by cases t <;> decide

end ElementType

/-- A text that names no element type. -/
structure UnknownElementType where
  text : String
  deriving DecidableEq, Repr

/-- The wording of the error. -/
def UnknownElementType.message (e : UnknownElementType) : String :=
  s!"unknown element type: {e.text}"

/-- Reads an element type's name in any ASCII case. -/
def ElementType.parse (s : String) : Except UnknownElementType ElementType :=
  match ofName? s with
  | some t => .ok t
  | none => .error ⟨s⟩

end BlockTransfer
