import BlockTransfer.Device.Platform
import BlockTransfer.Engine
import BlockTransfer.LockedPool
/-!
# The posix device

The portable device: synchronous transfers run on the calling thread,
asynchronous ones are handed to the worker engine, locked buffers come from the
device's pool. The file is opened (and for a write created, emptied and given
its length) by the caller in both modes, so a failure to open is the call's own
answer and nothing is submitted.

Key definitions: `PosixDevice`, `PosixDevice.create`, `PosixDevice.serve`,
`PosixDevice.discard`.
-/

namespace BlockTransfer

/-- The device's settings, its engine and its pool. -/
structure PosixDevice where
  settings : DeviceSettings
  engine : Engine
  pool : LockedPool
  deriving DecidableEq, Repr

namespace PosixDevice

/-- The device type. -/
def typeName : String := "posix"

/-- What the maker of a device learns of an engine that does not start. -/
def ofStartFault : StartFault → FactoryFault
  | .spawn reason => .failed (.backend s!"failed to spawn I/O worker: {reason}")
  | .capacity => .panicked (.text "capacity overflow")

/-- A device with the given settings, unless they break a rule or the engine does not
start; its locked buffers carry the pool number `pool`. -/
def create (host : Host) (settings : DeviceSettings) (pool : Nat) :
    Except FactoryFault PosixDevice :=
  match settings.check with
  | .error fault => .error (.failed (.invalidSettings fault))
  | .ok () =>
    match Engine.start host settings with
    | .error fault => .error (ofStartFault fault)
    | .ok engine => .ok ⟨settings, engine, ⟨pool, 1, []⟩⟩

/-- A device that is made has valid settings, an idle engine and an empty pool. -/
theorem eq_of_create {host : Host} {settings : DeviceSettings} {pool : Nat} {d : PosixDevice}
    (h : create host settings pool = .ok d) :
    settings.Valid ∧ d = ⟨settings, .idle settings, ⟨pool, 1, []⟩⟩ := by
  unfold create at h
  split at h
  · cases h
  · rename_i hcheck
    split at h <;> cases h
    obtain rfl := Engine.eq_idle_of_start ‹_›
    exact ⟨settings.check_eq_ok_iff.mp hcheck, rfl⟩

/-- Locked buffers handed out and not taken back. -/
def outstanding (d : PosixDevice) : Nat := d.pool.outstanding

/-- Asynchronous operations under way. -/
def inFlight (d : PosixDevice) : Nat := d.engine.completion.inFlight

/-- Reads or writes a whole buffer. -/
def transfer (d : PosixDevice) (c : Order) (mode : Mode) (s : Storage) :
    Except DeviceError Answer × PosixDevice × Storage :=
  match Operation.openFile c d.settings.blockSize s with
  | .error e => (.error (.transfer e), d, s)
  | .ok (o, s) =>
    match mode with
    | .sync =>
      match o.runInline s with
      | (.error e, s) => (.error (.transfer e), d, s)
      | (.ok (), s) => (.ok (.number c.buffer.len), d, s)
    | .async =>
      let (n, engine, s) := d.engine.submit o s
      (.ok (.number n), { d with engine }, s)

/-- Answers a request. -/
def serve (d : PosixDevice) (s : Storage) : Request →
    Except DeviceError Answer × PosixDevice × Storage
  | .blockSize => (.ok (.number d.settings.blockSize), d, s)
  | .queueDepth => (.ok (.number d.settings.queueDepth), d, s)
  | .singleSubmit => (.ok (.switch d.settings.singleSubmit), d, s)
  | .overlapEvents => (.ok (.switch d.settings.overlapEvents), d, s)
  | .threadCount => (.ok (.number d.engine.workerCount), d, s)
  | .read b path validate => d.transfer ⟨.read, b, path, validate⟩ .sync s
  | .write b path validate => d.transfer ⟨.write, b, path, validate⟩ .sync s
  | .pread b path validate mode => d.transfer ⟨.read, b, path, validate⟩ mode s
  | .pwrite b path validate mode => d.transfer ⟨.write, b, path, validate⟩ mode s
  | .memcpy dest src =>
    match s.memory.copy dest src with
    | .error e => (.error (.transfer e), d, s)
    | .ok memory => (.ok (.number dest.len), d, { s with memory })
  | .newLocked count like =>
    match d.pool.allocate s.memory like.elementType count with
    | (.error e, pool) => (.error (.transfer e), { d with pool }, s)
    | (.ok (b, memory), pool) => (.ok (.buffer b), { d with pool }, { s with memory })
  | .freeLocked b =>
    match d.pool.release b with
    | .error e => (.error (.lifecycle e), d, s)
    | .ok pool => (.ok .done, { d with pool }, s)
  | .wait =>
    match d.engine.drain s with
    | (.error e, engine, s) => (.error (.transfer e), { d with engine }, s)
    | (.ok n, engine, s) => (.ok (.number n), { d with engine }, s)

/-- Gives the device up: its asynchronous operations end first. -/
def discard (d : PosixDevice) (s : Storage) : Storage := (d.engine.settle s).2

end PosixDevice
end BlockTransfer
