import BlockTransfer.Device
/-!
# Posix devices side by side

One copy of the posix backend, the program's own or that of an opened library,
may make any number of devices in a process. The copy numbers the pools of its
devices in order, and every device numbers its locked buffers from 1, so buffers
of two devices may have the same number and differ in the pool only.

Every device can be asked anything at any time, also to free a buffer that
another device handed out, that was freed before, or that was never locked. The
buffers that requests are about come from the devices or from the ways to make
an ordinary buffer.

The journal tells what came of every act, in order. It is looked at only to tell
which buffers there are.

Key definitions: `Fleet`, `Fleet.step?`, `Fleet.run?`.
-/

namespace BlockTransfer

/-- The factory of a posix backend: the program's own, or that of an opened
library. -/
def Device.createFrom : Option Nat → Factory World Device
  | none => createPosix
  | some library => createPosixIn library

/-- The buffers that a request is about. -/
def Request.buffers : Request → List Buffer
  | blockSize | queueDepth | singleSubmit | overlapEvents | threadCount | wait => []
  | read b .. | write b .. | pread b .. | pwrite b .. => [b]
  | memcpy dest src => [dest, src]
  | newLocked _ like => [like]
  | freeLocked b => [b]

namespace Fleet

/-- A way to make an ordinary buffer. -/
inductive Recipe where
  | zeroed (type : ElementType) (count : Nat)
  | zeroedPlain (type : ElementType) (count : Nat)
  | ofBytes (type : ElementType) (data : Bytes)
  deriving DecidableEq, Repr

/-- Makes an ordinary buffer, if it can be had. -/
def Recipe.make? (m : Memory) : Recipe → Option (Buffer × Memory)
  | zeroed type count => (m.zeroed? type count).toOption
  | zeroedPlain type count => m.zeroedPlain? type count
  | ofBytes type data => (m.ofBytes? type data).toOption

/-- What is done next. -/
inductive Act where
  | create (settings : DeviceSettings)
  | make (recipe : Recipe)
  /-- A request to the device at that place. -/
  | ask (device : Nat) (request : Request)
  deriving DecidableEq, Repr

/-- What came of an act. -/
inductive Occurrence where
  | created
  | notCreated (fault : FactoryFault)
  | made (buffer : Buffer)
  | notMade
  | answered (device : Nat) (request : Request) (answer : Except DeviceError Answer)

namespace Occurrence

/-- The buffer that came of it, ordinary or locked. -/
def buffer? : Occurrence → Option Buffer
  | made b => some b
  | answered _ (.newLocked ..) (.ok (.buffer b)) => some b
  | _ => none

/-- The locked buffer that the device at place `i` handed out. -/
def handedOut? (i : Nat) : Occurrence → Option Buffer
  | answered j (.newLocked ..) (.ok (.buffer b)) => if j = i then some b else none
  | _ => none

/-- The locked buffer that the device at place `i` took back. -/
def takenBack? (i : Nat) : Occurrence → Option Buffer
  | answered j (.freeLocked b) (.ok .done) => if j = i then some b else none
  | _ => none

end Occurrence

/-- The buffers that there are. -/
def buffers (journal : List Occurrence) : List Buffer := journal.filterMap Occurrence.buffer?

/-- The locked buffers that a device handed out, in order. -/
def handedOut (journal : List Occurrence) (i : Nat) : List Buffer :=
  journal.filterMap (Occurrence.handedOut? i)

/-- The locked buffers that a device took back, in order. -/
def takenBack (journal : List Occurrence) (i : Nat) : List Buffer :=
  journal.filterMap (Occurrence.takenBack? i)

end Fleet

/-- The devices of one copy of the backend, the world that they act on, and what
happened so far. -/
structure Fleet where
  /-- The opened library whose backend it is, none for the program's own. -/
  source : Option Nat
  world : World
  devices : List Device := []
  journal : List Fleet.Occurrence := []

namespace Fleet

/-- One more entry in the journal. -/
def note (f : Fleet) (o : Occurrence) : Fleet := { f with journal := f.journal ++ [o] }

/-- A device is created. -/
def create (f : Fleet) (settings : DeviceSettings) : Fleet :=
  match Device.createFrom f.source settings f.world with
  | (.error fault, world) => { f with world }.note (.notCreated fault)
  | (.ok d, world) => { f with world, devices := f.devices ++ [d] }.note .created

/-- An ordinary buffer is made. -/
def make (f : Fleet) (recipe : Recipe) : Fleet :=
  match recipe.make? f.world.storage.memory with
  | none => f.note .notMade
  | some (b, memory) =>
    let storage := { f.world.storage with memory }
    { f with world := { f.world with storage } }.note (.made b)

/-- A device is asked something. -/
def ask (f : Fleet) (i : Nat) (d : Device) (r : Request) : Fleet :=
  let (answer, d, world) := d.serve r f.world
  { f with world, devices := f.devices.set i d }.note (.answered i r answer)

/-- The next act, if it is about a device and buffers that are there. -/
def step? (f : Fleet) : Act → Option Fleet
  | .create settings => some (f.create settings)
  | .make recipe => some (f.make recipe)
  | .ask i r =>
    match f.devices[i]? with
    | none => none
    | some d => if r.buffers ⊆ buffers f.journal then some (f.ask i d r) else none

/-- The acts of a run, if all of them are about what is there. -/
def run? (f : Fleet) (acts : List Act) : Option Fleet := acts.foldlM step? f

end Fleet
end BlockTransfer
