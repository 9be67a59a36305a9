import BlockTransfer.Device.Posix
import BlockTransfer.Device.Probe
import BlockTransfer.Dispatcher
import BlockTransfer.Module.Libraries
/-!
# The devices of this library and the world they act on

The world holds the files and the memory, the opened libraries, the next pool
number of the builtin posix backend, the board of the probe devices, and the host's
answers. Every copy of a library counts its own pool numbers, from 1, so the posix
devices of two copies may carry the same one. The builtin backend's count is the
process's: where it stands depends on what went on before.

Key definitions: `World`, `Device`, `Device.platform`, `Device.registry`.
-/

namespace BlockTransfer

/-- What devices act on. -/
structure World where
  storage : Storage := {}
  libraries : Libraries := {}
  /-- The pool number that the next builtin posix device gets. -/
  nextPool : Nat
  board : ProbeBoard := {}
  host : Host := {}

/-- A device of this library. -/
inductive Device where
  /-- A device that implements only its name. -/
  | bare (name : String)
  | posix (device : PosixDevice)
  | probe (device : Probe)
  deriving DecidableEq, Repr

namespace Device

/-- The device's own name. -/
def name : Device → String
  | bare name => name
  | posix _ => PosixDevice.typeName
  | probe p => p.name

/-- Answers a request. -/
def serve (r : Request) (d : Device) (w : World) : Except DeviceError Answer × Device × World :=
  match d with
  | bare name => (.error (unsupported name r), d, w)
  | posix p =>
    let (answer, p, storage) := p.serve w.storage r
    (answer, posix p, { w with storage })
  | probe p =>
    let (answer, p, board, storage) := p.serve w.board w.storage r
    (answer, probe p, { w with board, storage })

/-- What giving a device up does. -/
def discard (d : Device) (w : World) : World :=
  match d with
  | bare _ => w
  | posix p => { w with storage := p.discard w.storage }
  | probe p => { w with board := p.discard w.board }

/-! ### Factories -/

/-- A factory that makes devices of one fixed kind without a condition. -/
def always (d : Device) : Factory World Device := fun _ w => (.ok d, w)

/-- A factory that fails. -/
def failing (e : DeviceSettings → DeviceError) : Factory World Device :=
  fun settings w => (.error (.failed (e settings)), w)

/-- A factory that panics. -/
def panicking (payload : DeviceSettings → PanicPayload) : Factory World Device :=
  fun settings w => (.error (.panicked (payload settings)), w)

/-- The factory of the builtin posix backend. -/
def createPosix : Factory World Device := fun settings w =>
  match PosixDevice.create w.host settings w.nextPool with
  | .error fault => (.error fault, w)
  | .ok d => (.ok (.posix d), { w with nextPool := w.nextPool + 1 })

/-- The factory of the posix backend in an opened library. -/
def createPosixIn (library : Nat) : Factory World Device := fun settings w =>
  match PosixDevice.create w.host settings (w.libraries.nextPool library) with
  | .error fault => (.error fault, w)
  | .ok d => (.ok (.posix d), { w with libraries := w.libraries.usePool library })

/-- A factory of a counted probe device; it is given the count so far. -/
def createCounted (make : DeviceSettings → Nat → Probe) : Factory World Device :=
  fun settings w =>
    (.ok (.probe (make settings w.board.built)),
     { w with board := { w.board with built := w.board.built + 1 } })

/-- The factory behind a backend that an opened library provides. -/
def ofBackend (library : Nat) : ModuleBackend → Factory World Device
  | .bare => always (.bare "bare")
  | .posix => createPosixIn library
  | .failing => failing fun settings => .backend s!"no queue of depth {settings.queueDepth}"

/-- The factory known by a name: the posix backend, a probe device, a factory
that fails or panics, and otherwise a device that implements only that name. -/
def factoryNamed (name : String) : Factory World Device :=
  match name with
  | "posix" | "posix2" => createPosix
  | "alpha" => createCounted fun _ n => .newTagger "alpha" 512 n
  | "beta" => createCounted fun _ n => .newTagger "beta" 4096 n
  | "settings" => createCounted fun settings n => .newTagger "settings" settings.blockSize n
  | "gate" => createCounted fun _ _ => .gate
  | "corrupting" => always (.probe .corrupting)
  | "broken" => failing fun _ => .invalidSettings (.reported "queue depth too large")
  | "broken_backend" => failing fun _ => .backend "no rings left"
  | "broken_unsupported" => failing fun _ => .unsupported "gds" "create"
  | "broken_transfer" => failing fun _ => .transfer (.notFound "ring.sock")
  | "panicky" => panicking fun _ => .text "device init exploded"
  | "panicky_string" => panicking fun settings => .text s!"depth {settings.queueDepth} exploded"
  | "panicky_other" => panicking fun _ => .other
  | other => always (.bare other)

/-! ### Libraries -/

/-- Opens the library at a path. -/
def openLibrary (path : String) (w : World) : Except String (Library World Device × World) :=
  match w.libraries.openPath w.host w.storage.files path with
  | .error reason => .error reason
  | .ok (copy, libraries) =>
    let entry := match copy.image.entry with
      | none => .error s!"{path}: undefined symbol"
      | some e => .ok ⟨e.abi, e.contract, ofBackend copy.number e.backend⟩
    .ok (⟨copy.number, entry⟩, { w with libraries })

/-- How the devices of this library act on the world. -/
def platform : Platform World Device where
  name := name
  serve := serve
  discard := discard
  openLibrary := openLibrary
  closeLibrary library w := { w with libraries := w.libraries.close library }
  listFiles path w := w.storage.files.listFiles path

/-- Registers the factories known by some names, leaving out those that cannot
be registered. -/
def registerNamed (names : List String) (r : Registry World Device) : Registry World Device :=
  names.foldl (fun r name => (r.register name (factoryNamed name)).toOption.getD r) r

/-- The registry of the program itself: the posix backend. -/
def registry : Registry World Device := registerNamed [PosixDevice.typeName] {}

end Device
end BlockTransfer
