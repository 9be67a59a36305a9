import BlockTransfer.Loader
import BlockTransfer.LockedPool
/-!
# The dispatcher: one active device that can be switched

Every call goes to the one active device. Loading another device first waits
for the current one's asynchronous work, then (unless the policy only warns)
insists that its locked buffers were freed, then builds the new device, and only
then replaces the current one: a load that fails leaves the active device, its
locked buffers and the next generation number alone. What waiting takes from
the current device is taken all the same.

Each activation has a number, its generation. A caller that is inside a device
holds a snapshot of the activation; a replaced activation is released when the
last snapshot of it goes away, and releasing waits once more and then gives the
device up.

The single moves of a load (`enter`, `serveAt` for the wait, `checkOutstanding`,
the loader's `load`, `nextGeneration`, `swap`, `stepOut`, `releaseRetired`) and
of a call (`enter`, `serveAt`, `stepOut`) are what any interleaving of callers is
made of; `load` and `forward` are the ones that nobody comes between.

Key definitions: `Dispatcher`, `Dispatcher.load`, `Dispatcher.forward`,
`Dispatcher.newLocked`, `Dispatcher.freeLocked`, `DispatchError`.
-/

namespace BlockTransfer

/-- What a load does about locked buffers that were not freed. -/
inductive LockedBufferPolicy where
  | refuse
  | warn
  deriving DecidableEq, Repr

namespace LockedBufferPolicy

/-- The name in a configuration. -/
def name : LockedBufferPolicy → String
  | refuse => "refuse"
  | warn => "warn"

/-- The name with a capital, as diagnostics show it. -/
def label (p : LockedBufferPolicy) : String := p.name.capitalize

def ofName? (s : String) : Option LockedBufferPolicy := [refuse, warn].find? (·.name == s)

end LockedBufferPolicy

/-- What a caller can be told. -/
inductive DispatchError where
  | resolution (error : ResolutionError)
  /-- No device is active; `operation` is the call that was attempted. -/
  | noDevice (operation : String)
  | device (error : DeviceError)
  | lifecycle (error : LifecycleError)
  deriving DecidableEq, Repr

/-- The broad kind of a dispatch error. -/
inductive DispatchError.Kind where
  | resolution | noDevice | unsupported | transfer | lifecycle | backend
  deriving DecidableEq, Repr

namespace DispatchError

/-- The name of a kind. -/
def Kind.name : Kind → String
  | resolution => "Resolution"
  | noDevice => "NoDevice"
  | unsupported => "Unsupported"
  | transfer => "Transfer"
  | lifecycle => "Lifecycle"
  | backend => "Backend"

/-- Whether asking for something else can help: another device type, or loading
one first. -/
def Kind.isRetryable : Kind → Bool
  | resolution | noDevice => true
  | _ => false

def kind : DispatchError → Kind
  | resolution _ => .resolution
  | noDevice _ => .noDevice
  | lifecycle _ | device (.lifecycle _) => .lifecycle
  | device (.unsupported ..) => .unsupported
  | device (.transfer _) => .transfer
  | device (.invalidSettings _) | device (.backend _) => .backend

/-- The wording of the error; it does not depend on the operation attempted. -/
def message : DispatchError → String
  | resolution e => e.message
  | noDevice _ => "no device is loaded; call load_device first"
  | device e => e.message
  | lifecycle e => e.message

/-- The text of the error that caused this one. -/
def source? : DispatchError → Option String
  | resolution e => e.source?
  | device e => e.source?
  | _ => none

end DispatchError

/-- One time that a device was made active. -/
structure Activation (D : Type) where
  loaded : LoadedDevice D
  generation : Nat
  locked : LockedSet := {}
  /-- How many callers are inside the device. -/
  holders : Nat := 0

/-- The active device, what stays of replaced ones, and how to load others. -/
structure Dispatcher (W D : Type) where
  loader : Loader W D
  policy : LockedBufferPolicy := .refuse
  slot : Option (Activation D) := none
  /-- Replaced activations that callers are still inside of. -/
  retired : List (Activation D) := []
  /-- The number of the last activation. -/
  lastGeneration : Nat := 0

namespace Dispatcher

variable {W D : Type}

/-! ### Asking about the slot -/

def isLoaded (d : Dispatcher W D) : Bool := d.slot.isSome

def deviceType? (d : Dispatcher W D) : Option String := d.slot.map (·.loaded.deviceType)

def generation? (d : Dispatcher W D) : Option Nat := d.slot.map (·.generation)

/-- How many locked buffers of the active device were handed out and not freed. -/
def outstanding (d : Dispatcher W D) : Except DispatchError Nat :=
  match d.slot with
  | none => .error (.noDevice "outstanding_locked_buffers")
  | some a => .ok a.locked.size

/-- How a diagnostic shows the dispatcher. -/
def describe (d : Dispatcher W D) : String :=
  let deviceType := match d.deviceType? with
    | none => "None"
    | some t => "Some(" ++ Quoted.encode t ++ ")"
  let generation := match d.generation? with
    | none => "None"
    | some g => s!"Some({g})"
  let policy := d.policy.label
  s!"Trampoline \x7b device_type: {deviceType}, generation: {generation}, policy: {policy}, .. \x7d"

end Dispatcher

namespace Activation

variable {W D : Type}

/-- The activation after its device changed. -/
def setDevice (a : Activation D) (device : D) : Activation D :=
  { a with loaded := { a.loaded with device } }

/-- Waits for the device's asynchronous work. A device that cannot wait has
nothing to wait for. -/
def drain (P : Platform W D) (a : Activation D) (w : W) :
    Except DeviceError Unit × Activation D × W :=
  let (answer, device, w) := P.serve .wait a.loaded.device w
  (match answer with
    | .ok _ | .error (.unsupported ..) => .ok ()
    | .error e => .error e,
   a.setDevice device, w)

/-- Whether the activation's locked buffers allow it to be replaced. -/
def checkOutstanding (a : Activation D) (policy : LockedBufferPolicy) :
    Except LifecycleError Unit :=
  match policy with
  | .warn => .ok ()
  | .refuse => if a.locked.size = 0 then .ok () else .error (.outstanding a.locked.size)

/-- Whether the activation's device handed the buffer out through the dispatcher. -/
def checkOwned (a : Activation D) (b : Buffer) : Except LifecycleError PinTag :=
  match b.pin with
  | none => .error .notLocked
  | some tag => if a.locked.contains tag then .ok tag else .error (.unknown tag.id)

/-- The activation after its set of locked buffers changed. -/
def mapLocked (a : Activation D) (f : LockedSet → LockedSet) : Activation D :=
  { a with locked := f a.locked }

/-- Releases the activation: waits once more, whatever comes of it, and gives
the device up. -/
def release (P : Platform W D) (a : Activation D) (w : W) : W :=
  let (_, a, w) := a.drain P w
  a.loaded.discard P w

end Activation

namespace Dispatcher

variable {W D : Type}

/-! ### Callers inside a device -/

/-- The activation of that generation, active or retired. -/
def activation? (d : Dispatcher W D) (generation : Nat) : Option (Activation D) :=
  (d.slot.toList ++ d.retired).find? (·.generation == generation)

/-- Changes the activation of that generation, active or retired. -/
def mapActivation (d : Dispatcher W D) (generation : Nat) (f : Activation D → Activation D) :
    Dispatcher W D :=
  let change := fun a => if a.generation = generation then f a else a
  { d with slot := d.slot.map change, retired := d.retired.map change }

/-- A caller enters the active device; the answer names the activation. -/
def enter (d : Dispatcher W D) : Option (Nat × Dispatcher W D) :=
  d.slot.map fun a =>
    (a.generation, d.mapActivation a.generation fun a => { a with holders := a.holders + 1 })

/-- A caller steps out of an activation; tells whether a retired activation has
lost its last caller by that. -/
def stepOut (d : Dispatcher W D) (generation : Nat) : Bool × Dispatcher W D :=
  let d := d.mapActivation generation fun a => { a with holders := a.holders - 1 }
  (d.retired.any fun a => a.generation == generation && a.holders == 0, d)

/-- Releases a retired activation. -/
def releaseRetired (P : Platform W D) (d : Dispatcher W D) (generation : Nat) (w : W) :
    Dispatcher W D × W :=
  match d.retired.find? (·.generation == generation) with
  | none => (d, w)
  | some a =>
    ({ d with retired := d.retired.filter (·.generation != generation) }, a.release P w)

/-- A caller leaves an activation; a retired one is released with its last
caller. -/
def leave (P : Platform W D) (d : Dispatcher W D) (generation : Nat) (w : W) :
    Dispatcher W D × W :=
  let (last, d) := d.stepOut generation
  if last then d.releaseRetired P generation w else (d, w)

/-! ### Switching the device -/

/-- Takes the next generation number. -/
def nextGeneration (d : Dispatcher W D) : Nat × Dispatcher W D :=
  (d.lastGeneration + 1, { d with lastGeneration := d.lastGeneration + 1 })

/-- Makes a loaded device the active one under a generation number. The replaced
activation is retired, and whoever replaced it is inside of it until it leaves;
the answer is its generation. -/
def swap (d : Dispatcher W D) (generation : Nat) (loaded : LoadedDevice D) :
    Option Nat × Dispatcher W D :=
  let replaced := d.slot.map fun a => { a with holders := a.holders + 1 }
  (replaced.map (·.generation),
   { d with slot := some { loaded, generation }, retired := d.retired ++ replaced.toList })

/-- Makes a loaded device the active one. The replaced activation is released,
or stays retired while callers are inside of it. -/
def activate (P : Platform W D) (d : Dispatcher W D) (loaded : LoadedDevice D) (w : W) :
    Dispatcher W D × W :=
  let (generation, d) := d.nextGeneration
  match d.swap generation loaded with
  | (none, d) => (d, w)
  | (some replaced, d) => d.leave P replaced w

/-- Waits for the current device's work, if there is one. -/
def drainCurrent (P : Platform W D) (d : Dispatcher W D) (w : W) :
    Except DeviceError Unit × Dispatcher W D × W :=
  match d.slot with
  | none => (.ok (), d, w)
  | some a =>
    let (result, a, w) := a.drain P w
    (result, { d with slot := some a }, w)

/-- Whether the locked buffers of the current device, if there is one, allow it
to be replaced. -/
def checkOutstanding (d : Dispatcher W D) : Except LifecycleError Unit :=
  match d.slot with
  | none => .ok ()
  | some a => a.checkOutstanding d.policy

/-- Makes a device of the given type the active one. -/
def load (P : Platform W D) (d : Dispatcher W D) (t : String) (w : W) :
    Except DispatchError Unit × Dispatcher W D × W :=
  match d.drainCurrent P w with
  | (.error e, d, w) => (.error (.device e), d, w)
  | (.ok (), d, w) =>
    match d.checkOutstanding with
    | .error e => (.error (.lifecycle e), d, w)
    | .ok () =>
      match d.loader.load P t w with
      | (.error e, w) => (.error (.resolution e), d, w)
      | (.ok loaded, w) =>
        let (d, w) := d.activate P loaded w
        (.ok (), d, w)

/-- Loads the same type `n` times; the answer is how many loads succeeded. -/
def loadTimes (P : Platform W D) (t : String) : Nat → Dispatcher W D → W → Nat × Dispatcher W D × W
  | 0, d, w => (0, d, w)
  | n + 1, d, w =>
    match d.load P t w with
    | (.error _, d, w) => loadTimes P t n d w
    | (.ok (), d, w) =>
      let (succeeded, d, w) := loadTimes P t n d w
      (succeeded + 1, d, w)

/-! ### Calls to the active device -/

/-- Puts a request to the device of that generation, active or retired. -/
def serveAt (P : Platform W D) (d : Dispatcher W D) (generation : Nat) (r : Request) (w : W) :
    Option (Except DeviceError Answer × Dispatcher W D × W) :=
  (d.activation? generation).map fun a =>
    let (answer, device, w) := P.serve r a.loaded.device w
    (answer, d.mapActivation generation (·.setDevice device), w)

/-- Puts a request to the active device. -/
def serveActive (P : Platform W D) (d : Dispatcher W D) (operation : String) (r : Request)
    (w : W) : Except DispatchError Answer × Dispatcher W D × W :=
  match d.slot with
  | none => (.error (.noDevice operation), d, w)
  | some a =>
    let (answer, device, w) := P.serve r a.loaded.device w
    (answer.mapError .device, { d with slot := some (a.setDevice device) }, w)

/-- Forwards a call to the active device. -/
def forward (P : Platform W D) (d : Dispatcher W D) (c : Call) (w : W) :
    Except DispatchError Answer × Dispatcher W D × W :=
  d.serveActive P c.operation c.request w

/-- The dispatcher after the active device's locked buffers changed. -/
def mapLocked (d : Dispatcher W D) (f : LockedSet → LockedSet) : Dispatcher W D :=
  { d with slot := d.slot.map (·.mapLocked f) }

/-- A locked buffer of `count` elements of the type of `like`, from the active
device. A device that hands out an ordinary buffer instead is not believed. -/
def newLocked (P : Platform W D) (d : Dispatcher W D) (count : Nat) (like : Buffer) (w : W) :
    Except DispatchError Buffer × Dispatcher W D × W :=
  match d.serveActive P "new_locked_buffer" (.newLocked count like) w with
  | (.error e, d, w) => (.error e, d, w)
  | (.ok (.buffer b), d, w) =>
    match b.pin with
    | none => (.error (.lifecycle .notLocked), d, w)
    | some tag => (.ok b, d.mapLocked (·.insert tag), w)
  | (.ok _, d, w) => (.error (.lifecycle .notLocked), d, w)

/-- Frees a locked buffer of the active device. -/
def freeLocked (P : Platform W D) (d : Dispatcher W D) (b : Buffer) (w : W) :
    Except DispatchError Unit × Dispatcher W D × W :=
  match d.slot with
  | none => (.error (.noDevice "free_locked_buffer"), d, w)
  | some a =>
    match a.checkOwned b with
    | .error e => (.error (.lifecycle e), d, w)
    | .ok tag =>
      match d.serveActive P "free_locked_buffer" (.freeLocked b) w with
      | (.error e, d, w) => (.error e, d, w)
      | (.ok _, d, w) => (.ok (), d.mapLocked (·.erase tag), w)

/-! ### The end -/

/-- Ends the dispatcher: the active device is released. -/
def close (P : Platform W D) (d : Dispatcher W D) (w : W) : W :=
  match d.slot with
  | none => w
  | some a => a.release P w

end Dispatcher
end BlockTransfer
