import BlockTransfer.Device.Platform
import BlockTransfer.Text.Quoted
/-!
# Registries of builtin devices

The factories that are part of the program, by device type, in increasing order
of the types. A type is a nonempty name of lower-case ASCII letters, digits and
underscores, and is registered once.

Key definitions: `Registry`, `Registry.register`, `Registry.get?`.
-/

namespace BlockTransfer

/-- Why a factory cannot be registered. -/
inductive RegistrationError where
  | alreadyRegistered (deviceType : String)
  | invalidType (deviceType : String)
  deriving DecidableEq, Repr

/-- The wording of the error. -/
def RegistrationError.message : RegistrationError → String
  | alreadyRegistered t => s!"device type `{t}` is already registered"
  | invalidType t => s!"invalid device type `{t}`: use lowercase letters, digits and underscores"

/-- The factories of builtin devices, in increasing order of their types. -/
structure Registry (W D : Type) where
  factories : List (String × Factory W D) := []

namespace Registry

variable {W D : Type}

/-- A character of a device type. -/
def isTypeChar (c : Char) : Bool := c.isLower || c.isDigit || c == '_'

/-- Whether a text can be registered as a device type. -/
def isValidType (t : String) : Bool := !t.isEmpty && t.toList.all isTypeChar

/-- The factory of a device type. -/
def get? (r : Registry W D) (t : String) : Option (Factory W D) := r.factories.lookup t

def contains (r : Registry W D) (t : String) : Bool := (r.get? t).isSome

/-- The registered types, in increasing order. -/
def types (r : Registry W D) : List String := r.factories.map Prod.fst

def size (r : Registry W D) : Nat := r.factories.length

def isEmpty (r : Registry W D) : Bool := r.factories.isEmpty

/-- How a diagnostic shows the registry: as the set of its types. -/
def describe (r : Registry W D) : String :=
  "\x7b" ++ ", ".intercalate (r.types.map Quoted.encode) ++ "\x7d"

/-- Puts a factory at its place. -/
def insertSorted (t : String) (f : Factory W D) :
    List (String × Factory W D) → List (String × Factory W D)
  | [] => [(t, f)]
  | (u, g) :: rest => if t < u then (t, f) :: (u, g) :: rest else (u, g) :: insertSorted t f rest

/-- Registers a factory. -/
def register (r : Registry W D) (t : String) (f : Factory W D) :
    Except RegistrationError (Registry W D) :=
  if !isValidType t then .error (.invalidType t)
  else if r.contains t then .error (.alreadyRegistered t)
  else .ok ⟨insertSorted t f r.factories⟩

end Registry
end BlockTransfer
