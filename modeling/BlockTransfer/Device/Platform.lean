import BlockTransfer.Device.Request
import BlockTransfer.Settings
/-!
# Platforms: devices, factories and libraries

Everything above the devices is written for any kind of device. A `Platform`
says how devices of a type `D` act on a world of a type `W`: how they answer a
request, what giving one up does, and how libraries are opened and closed. A
factory makes a device from settings; it may fail, and it may panic.

Key definitions: `Platform`, `Factory`, `Library`.
-/

namespace BlockTransfer

/-- What a factory's panic carries. -/
inductive PanicPayload where
  | text (s : String)
  | other
  deriving DecidableEq, Repr

/-- The message of a panic. -/
def PanicPayload.message : PanicPayload → String
  | text s => s
  | other => "non-string panic payload"

/-- Why a factory made no device. -/
inductive FactoryFault where
  | failed (error : DeviceError)
  | panicked (payload : PanicPayload)
  deriving DecidableEq, Repr

/-- Makes a device from settings. -/
abbrev Factory (W D : Type) := DeviceSettings → W → Except FactoryFault D × W

/-- A module's device entry, as the host sees it. -/
structure LibraryEntry (W D : Type) where
  abi : Nat
  contract : String
  create : Factory W D

/-- An opened library: its number, and its device entry or the system's reason
why there is none. -/
structure Library (W D : Type) where
  number : Nat
  entry : Except String (LibraryEntry W D)

/-- How devices and libraries act on the world. -/
structure Platform (W D : Type) where
  /-- The device's own name. -/
  name : D → String
  /-- Answers a request. -/
  serve : Request → D → W → Except DeviceError Answer × D × W
  /-- What giving a device up does. -/
  discard : D → W → W
  /-- Opens the library at a path; the failure is the system's text. -/
  openLibrary : String → W → Except String (Library W D × W)
  /-- Closes an opened library. -/
  closeLibrary : Nat → W → W
  /-- The names in a directory that are not directories. -/
  listFiles : String → W → List String

/-- What a device answers to an operation that it does not have. -/
def unsupported (name : String) (r : Request) : DeviceError := .unsupported name r.operation

end BlockTransfer
