import BlockTransfer.Module.Discovery
import BlockTransfer.Registry
import BlockTransfer.Text.Quoted
/-!
# Loading devices by type

A device type is resolved to a builtin factory if one is registered, and to the
module file of that type under the plugins root otherwise. A module's entry has
to be there and to agree with the host on the binary interface and on the
contract before its factory runs. A load that fails closes the library it
opened.

Listing and loading agree: a builtin type hides a module file of the same type.

Key definitions: `Loader`, `Loader.load`, `Loader.available`, `LoadedDevice`,
`ResolutionError`.
-/

namespace BlockTransfer

/-- The version of the binary interface between host and modules. -/
def abiVersion : Nat := 1

/-- The version of the contract that host and modules are built against. -/
def contractVersion : String := "0.3.0"

/-- Why a device type could not be turned into a device. -/
inductive ResolutionError where
  | moduleOpen (deviceType path reason : String)
  | missingEntry (deviceType path reason : String)
  | abiMismatch (deviceType path : String) (found expected : Nat)
  | contractMismatch (deviceType path found : String)
  | construction (deviceType : String) (error : DeviceError)
  | panicked (deviceType message : String)
  deriving DecidableEq, Repr

namespace ResolutionError

/-- The device type that could not be resolved. -/
def deviceType : ResolutionError → String
  | moduleOpen t _ _ | missingEntry t _ _ | abiMismatch t _ _ _ | contractMismatch t _ _
  | construction t _ | panicked t _ => t

/-- The wording of the error. -/
def message : ResolutionError → String
  | moduleOpen t path reason => s!"cannot open module for device `{t}` at {path}: {reason}"
  | missingEntry t path reason => s!"module {path} for device `{t}` has no device entry: {reason}"
  | abiMismatch _ path found expected =>
    s!"module {path} uses device ABI {found}, host expects {expected}"
  | contractMismatch _ path found =>
    s!"module {path} was built against blockio-device {found}, host uses {contractVersion}"
  | construction t e => s!"device `{t}` failed to initialize: {e.message}"
  | panicked t message => s!"device `{t}` panicked during initialization: {message}"

/-- The text of the error that caused this one. -/
def source? : ResolutionError → Option String
  | moduleOpen _ _ reason | missingEntry _ _ reason => some reason
  | construction _ e => some e.message
  | _ => none

end ResolutionError

/-- Where a device's code comes from. -/
inductive Origin where
  | builtin
  /-- The module opened at `path`, as the library of that number. -/
  | module (path : String) (library : Nat)
  deriving DecidableEq, Repr

namespace Origin

def isDynamic : Origin → Bool
  | builtin => false
  | module .. => true

/-- The file that a module was opened from. -/
def path? : Origin → Option String
  | builtin => none
  | module path _ => some path

/-- How a diagnostic shows the origin. -/
def describe : Origin → String
  | builtin => "Builtin"
  | module path _ =>
    let path := Quoted.encode path
    s!"Dynamic \x7b path: {path} \x7d"

end Origin

/-- A device, the type it was loaded for, and where its code comes from. -/
structure LoadedDevice (D : Type) where
  device : D
  deviceType : String
  origin : Origin

namespace LoadedDevice

variable {W D : Type}

/-- How a diagnostic shows the loaded device. -/
def describe (P : Platform W D) (d : LoadedDevice D) : String :=
  let deviceType := Quoted.encode d.deviceType
  let device := Quoted.encode (P.name d.device)
  let origin := d.origin.describe
  s!"LoadedDevice \x7b device_type: {deviceType}, device: {device}, module: {origin} \x7d"

/-- Gives a device up, and closes its library after it. -/
def discard (P : Platform W D) (d : LoadedDevice D) (w : W) : W :=
  let w := P.discard d.device w
  match d.origin with
  | .builtin => w
  | .module _ library => P.closeLibrary library w

end LoadedDevice

/-- A device type that can be loaded, and the module file it comes from, if it
is not builtin. -/
structure AvailableDevice where
  deviceType : String
  module? : Option String
  deriving DecidableEq, Repr

/-- How a listing names the source of a device. -/
def AvailableDevice.source (a : AvailableDevice) : String := a.module?.getD "builtin"

/-- Where devices are looked for, and the settings that every factory gets. -/
structure Loader (W D : Type) where
  /-- The plugins root. -/
  root : String
  registry : Registry W D
  settings : DeviceSettings

namespace Loader

variable {W D : Type}

/-- Runs a factory; a failure and a panic both become resolution errors. -/
def instantiate (create : Factory W D) (t : String) (settings : DeviceSettings) (w : W) :
    Except ResolutionError D × W :=
  match create settings w with
  | (.ok d, w) => (.ok d, w)
  | (.error (.failed e), w) => (.error (.construction t e), w)
  | (.error (.panicked payload), w) => (.error (.panicked t payload.message), w)

theorem instantiate_ok {create : Factory W D} {t : String} {settings : DeviceSettings} {w w' : W}
    {device : D} (h : instantiate create t settings w = (.ok device, w')) :
    create settings w = (.ok device, w') := by
  unfold instantiate at h
  split at h <;> cases h
  assumption

theorem instantiate_error {create : Factory W D} {t : String} {settings : DeviceSettings}
    {w w' : W} {e : ResolutionError} (h : instantiate create t settings w = (.error e, w')) :
    ∃ fault, create settings w = (.error fault, w') := by
  unfold instantiate at h
  split at h <;> cases h
  · exact ⟨_, ‹_›⟩
  · exact ⟨_, ‹_›⟩

/-- The factory of an opened library, if its entry agrees with the host. -/
def checkEntry (t path : String) (library : Library W D) :
    Except ResolutionError (Factory W D) :=
  match library.entry with
  | .error reason => .error (.missingEntry t path reason)
  | .ok entry =>
    if entry.abi ≠ abiVersion then .error (.abiMismatch t path entry.abi abiVersion)
    else if entry.contract ≠ contractVersion then .error (.contractMismatch t path entry.contract)
    else .ok entry.create

theorem checkEntry_ok {t path : String} {library : Library W D} {create : Factory W D}
    (h : checkEntry t path library = .ok create) :
    ∃ entry, library.entry = .ok entry ∧ entry.create = create := by
  unfold checkEntry at h
  split at h
  · cases h
  · rename_i entry hentry
    split at h
    · cases h
    · split at h <;> cases h
      exact ⟨entry, hentry, rfl⟩

/-- Loads a device from the module at `path`. -/
def loadModule (P : Platform W D) (settings : DeviceSettings) (t path : String) (w : W) :
    Except ResolutionError (LoadedDevice D) × W :=
  match P.openLibrary path w with
  | .error reason => (.error (.moduleOpen t path reason), w)
  | .ok (library, w) =>
    match checkEntry t path library with
    | .error e => (.error e, P.closeLibrary library.number w)
    | .ok create =>
      match instantiate create t settings w with
      | (.error e, w) => (.error e, P.closeLibrary library.number w)
      | (.ok device, w) => (.ok ⟨device, t, .module path library.number⟩, w)

/-- Where the module of a device type is expected. -/
def modulePath (l : Loader W D) (t : String) : String := ModuleName.path l.root t

/-- Loads a device of a type. -/
def load (P : Platform W D) (l : Loader W D) (t : String) (w : W) :
    Except ResolutionError (LoadedDevice D) × W :=
  match l.registry.get? t with
  | some create =>
    match instantiate create t l.settings w with
    | (.error e, w) => (.error e, w)
    | (.ok device, w) => (.ok ⟨device, t, .builtin⟩, w)
  | none => loadModule P l.settings t (l.modulePath t) w

/-- The device types with a module file in the plugins root. -/
def discovered (P : Platform W D) (l : Loader W D) (w : W) : List String :=
  Discovery.ofFileNames (P.listFiles l.root w)

/-- Puts a device at its place in a list sorted by type. -/
def insertAvailable (a : AvailableDevice) : List AvailableDevice → List AvailableDevice
  | [] => [a]
  | b :: bs => if a.deviceType < b.deviceType then a :: b :: bs else b :: insertAvailable a bs

/-- Every device type that can be loaded, in increasing order. -/
def available (P : Platform W D) (l : Loader W D) (w : W) : List AvailableDevice :=
  let builtins := l.registry.types.map fun t => AvailableDevice.mk t none
  let modules := ((l.discovered P w).filter fun t => !l.registry.contains t).map fun t =>
    AvailableDevice.mk t (some (l.modulePath t))
  modules.foldl (fun all a => insertAvailable a all) builtins

end Loader
end BlockTransfer
