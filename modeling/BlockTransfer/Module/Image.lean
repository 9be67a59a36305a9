import BlockTransfer.Bytes
/-!
# Module images

What a loadable module's file declares: the device entry with the version of
the binary interface, the version of the contract it was built against, and the
backend that it provides. A library may also have no device entry at all.

An image is stored as a few lines of text, so that any other file content is
recognised as no library (`ModuleImage.decode?`).

Key definitions: `ModuleImage`, `ModuleImage.encode`, `ModuleImage.decode?`.
-/

namespace BlockTransfer

/-- The backends that a module can provide. -/
inductive ModuleBackend where
  /-- A device that implements only its name. -/
  | bare
  /-- The portable device. -/
  | posix
  /-- Its factory always fails. -/
  | failing
  deriving DecidableEq, Repr

namespace ModuleBackend

def name : ModuleBackend → String
  | bare => "bare"
  | posix => "posix"
  | failing => "failing"

def ofName? (s : String) : Option ModuleBackend := [bare, posix, failing].find? (·.name == s)

end ModuleBackend

/-- A module's device entry. -/
structure ModuleEntry where
  abi : Nat
  contract : String
  backend : ModuleBackend
  deriving DecidableEq, Repr

/-- What a library declares; `none` stands for a library without a device entry. -/
structure ModuleImage where
  entry : Option ModuleEntry
  deriving DecidableEq, Repr

namespace ModuleImage

/-- The first line of every image. -/
def heading : String := "loadable device module"

/-- The lines of an image. -/
def lines (i : ModuleImage) : List String :=
  match i.entry with
  | none => [heading]
  | some e => [heading, toString e.abi, e.contract, e.backend.name]

/-- The file content of an image. -/
def encode (i : ModuleImage) : Bytes := ("\n".intercalate i.lines).toUTF8.toList

/-- Reads an image's lines. -/
def ofLines? : List String → Option ModuleImage
  | [first] => if first == heading then some ⟨none⟩ else none
  | [first, abi, contract, backend] =>
    if first == heading then do
      let abi ← abi.toNat?
      let backend ← ModuleBackend.ofName? backend
      some ⟨some ⟨abi, contract, backend⟩⟩
    else none
  | _ => none

/-- The image that a file content holds. -/
def decode? (data : Bytes) : Option ModuleImage := do
  let text ← String.fromUTF8? ⟨data.toArray⟩
  ofLines? (text.splitOn "\n")

end ModuleImage
end BlockTransfer
