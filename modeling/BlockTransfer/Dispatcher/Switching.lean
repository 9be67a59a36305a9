import BlockTransfer.Dispatcher
/-!
# Callers of a dispatcher, move by move

Any number of callers load devices and put calls to the active one at the same
time. An `Event` says whose turn it is; the one whose turn it is makes its next
atomic move, or cannot move. So a list of events is a schedule, and every
schedule of the callers is such a list.

A load takes the load lock, steps into the current activation, waits for its
work, counts its locked buffers, steps out, builds the new device, takes the
next generation number, swaps the device in, leaves the replaced activation, and
gives the lock back. Any other call steps into the current activation, puts its
request to that activation's device, whatever is active by then, and leaves.
Whoever leaves a replaced activation last releases it.

The devices' own work goes on between the moves of the callers; `Background`
says how, and when a device is ready to answer.

The journal tells what happened, in order; no move looks at it.

Key definitions: `Background`, `Switching`, `Switching.step?`, `Switching.run?`.
-/

namespace BlockTransfer

/-- How the asynchronous work of devices goes on by itself. -/
structure Background (W D : Type) where
  /-- How many asynchronous operations were accepted and have not ended. -/
  inFlight : D → Nat
  /-- Whether the device can answer a request now; a caller has to wait until it
  can. -/
  isReady : Request → D → Bool
  /-- A move of the device's own, one of several. -/
  advance? : Nat → D → W → Option (D × W)

namespace Switching

/-- What a caller does inside the active device. -/
inductive Visit where
  | forward (call : Call)
  | newLocked (count : Nat) (like : Buffer)
  | freeLocked (buffer : Buffer)
  deriving DecidableEq, Repr

/-- The name of the visit's operation. -/
def Visit.operation : Visit → String
  | forward call => call.operation
  | newLocked .. => "new_locked_buffer"
  | freeLocked _ => "free_locked_buffer"

/-- What a caller does with a dispatcher. -/
inductive Errand where
  | load (deviceType : String)
  | visit (visit : Visit)
  deriving DecidableEq, Repr

/-- What a caller is told. -/
abbrev Reply := Except DispatchError Answer

/-- What a caller does once it has left an activation. -/
inductive Next where
  /-- It goes on to build a device of that type. -/
  | build (deviceType : String)
  /-- Its load is over, and it gives the load lock back. -/
  | unlock (reply : Reply)
  /-- Its call is over. -/
  | finish (reply : Reply)
  deriving Repr

/-- How far a caller got with an errand. -/
inductive Stage (D : Type) where
  | free
  /-- The caller has the load lock. -/
  | admitted (deviceType : String)
  /-- The caller is inside the current activation and is to wait for its work. -/
  | draining (deviceType : String) (generation : Nat)
  /-- The current device's work is done; its locked buffers are to be counted. -/
  | counting (deviceType : String) (generation : Nat)
  /-- Nothing hinders the new device from being built. -/
  | building (deviceType : String)
  /-- The new device is built and has no generation number. -/
  | built (loaded : LoadedDevice D)
  /-- The new device is to be swapped in. -/
  | numbered (loaded : LoadedDevice D) (generation : Nat)
  /-- The load is over but for the lock. -/
  | unlocking (reply : Reply)
  /-- The caller is inside an activation and has yet to turn to its device. -/
  | inside (visit : Visit) (generation : Nat)
  /-- A locked buffer was handed out and is to be recorded. -/
  | recording (buffer : Buffer) (tag : PinTag) (generation : Nat)
  /-- A locked buffer is known and is to be given back to the device. -/
  | freeing (buffer : Buffer) (tag : PinTag) (generation : Nat)
  /-- A locked buffer was given back and is to be forgotten. -/
  | forgetting (tag : PinTag) (generation : Nat)
  /-- The caller is done inside an activation. -/
  | leaving (generation : Nat) (next : Next)
  /-- The caller was the last to leave a retired activation. -/
  | releasing (generation : Nat) (next : Next)

/-- A caller: its errands to come, and the replies so far. -/
structure Caller (D : Type) where
  errands : List Errand
  stage : Stage D := .free
  replies : List Reply := []

/-- What happened to the activations. -/
inductive Occurrence where
  /-- A device was built. -/
  | built
  /-- A caller stepped into the activation of that generation. -/
  | entered (caller generation : Nat)
  /-- A caller's request was answered by the device of that generation. -/
  | served (caller generation : Nat)
  /-- The device of that generation became the active one. -/
  | activated (generation : Nat)
  /-- A caller stepped out of the activation of that generation. -/
  | left (caller generation : Nat)
  /-- The activation of that generation was released. -/
  | released (generation : Nat)
  deriving DecidableEq, Repr

/-- What callers share. -/
structure Ground (W D : Type) where
  dispatcher : Dispatcher W D
  world : W
  /-- The caller that has the load lock. -/
  lock : Option Nat := none
  journal : List Occurrence := []

namespace Ground

variable {W D : Type}

/-- Adds to the journal. -/
def log (g : Ground W D) (o : Occurrence) : Ground W D := { g with journal := g.journal ++ [o] }

/-- A caller steps into the active device's activation. -/
def enter? (g : Ground W D) (caller : Nat) : Option (Nat × Ground W D) :=
  g.dispatcher.enter.map fun (generation, dispatcher) =>
    (generation, { g with dispatcher }.log (.entered caller generation))

/-- The device of that generation answers a request of a caller, if it is ready. -/
def serve? (P : Platform W D) (B : Background W D) (g : Ground W D) (caller generation : Nat)
    (r : Request) : Option (Except DeviceError Answer × Ground W D) :=
  (g.dispatcher.activation? generation).bind fun a =>
    if B.isReady r a.loaded.device then
      (g.dispatcher.serveAt P generation r g.world).map fun (answer, dispatcher, world) =>
        (answer, { g with dispatcher, world }.log (.served caller generation))
    else none

/-- Changes the set of locked buffers of the activation of that generation. -/
def mapLocked (g : Ground W D) (generation : Nat) (f : LockedSet → LockedSet) : Ground W D :=
  { g with dispatcher := g.dispatcher.mapActivation generation (·.mapLocked f) }

/-- Work of the device of that generation goes on. -/
def advance? (B : Background W D) (g : Ground W D) (generation choice : Nat) :
    Option (Ground W D) :=
  (g.dispatcher.activation? generation).bind fun a =>
    (B.advance? choice a.loaded.device g.world).map fun (device, world) =>
      { g with
        dispatcher := g.dispatcher.mapActivation generation (·.setDevice device)
        world }

end Ground

namespace Caller

variable {W D : Type}

/-- The caller with the reply to its present errand. -/
def reply (c : Caller D) (r : Reply) : Caller D := ⟨c.errands, .free, c.replies ++ [r]⟩

/-- The caller after it left an activation. -/
def goOn (c : Caller D) : Next → Caller D
  | .build t => { c with stage := .building t }
  | .unlock r => { c with stage := .unlocking r }
  | .finish r => c.reply r

/-- The caller, inside an activation with nothing left to do there. -/
def leaveWith (c : Caller D) (generation : Nat) (next : Next) : Caller D :=
  { c with stage := .leaving generation next }

/-- A free caller's move: it takes the load lock, or steps into the active
device. -/
def begin? (index : Nat) (c : Caller D) (g : Ground W D) : Option (Caller D × Ground W D) :=
  match c.errands with
  | [] => none
  | .load t :: errands =>
    if g.lock.isNone then
      some ({ c with errands, stage := .admitted t }, { g with lock := some index })
    else none
  | .visit v :: errands =>
    match g.enter? index with
    | none => some ({ c with errands }.reply (.error (.noDevice v.operation)), g)
    | some (generation, g) => some ({ c with errands, stage := .inside v generation }, g)

/-- The move of a caller that turns to the device it is inside of. -/
def visit? (P : Platform W D) (B : Background W D) (index generation : Nat) (c : Caller D)
    (g : Ground W D) : Visit → Option (Caller D × Ground W D)
  | .forward call =>
    (g.serve? P B index generation call.request).map fun (answer, g) =>
      (c.leaveWith generation (.finish (answer.mapError .device)), g)
  | .newLocked count like =>
    (g.serve? P B index generation (.newLocked count like)).map fun (answer, g) =>
      match answer with
      | .error e => (c.leaveWith generation (.finish (.error (.device e))), g)
      | .ok (.buffer b) =>
        match b.pin with
        | none => (c.leaveWith generation (.finish (.error (.lifecycle .notLocked))), g)
        | some tag => ({ c with stage := .recording b tag generation }, g)
      | .ok _ => (c.leaveWith generation (.finish (.error (.lifecycle .notLocked))), g)
  | .freeLocked b =>
    (g.dispatcher.activation? generation).map fun a =>
      match a.checkOwned b with
      | .error e => (c.leaveWith generation (.finish (.error (.lifecycle e))), g)
      | .ok tag => ({ c with stage := .freeing b tag generation }, g)

/-- The next move of the caller with that index. -/
def step? (P : Platform W D) (B : Background W D) (index : Nat) (c : Caller D)
    (g : Ground W D) : Option (Caller D × Ground W D) :=
  match c.stage with
  | .free => c.begin? index g
  | .admitted t =>
    match g.enter? index with
    | none => some ({ c with stage := .building t }, g)
    | some (generation, g) => some ({ c with stage := .draining t generation }, g)
  | .draining t generation =>
    (g.dispatcher.activation? generation).bind fun a =>
      if B.isReady .wait a.loaded.device then
        let (result, a, world) := a.drain P g.world
        let dispatcher := g.dispatcher.mapActivation generation (·.setDevice a.loaded.device)
        let g := { g with dispatcher, world }.log (.served index generation)
        match result with
        | .error e => some (c.leaveWith generation (.unlock (.error (.device e))), g)
        | .ok () => some ({ c with stage := .counting t generation }, g)
      else none
  | .counting t generation =>
    (g.dispatcher.activation? generation).map fun a =>
      match a.checkOutstanding g.dispatcher.policy with
      | .error e => (c.leaveWith generation (.unlock (.error (.lifecycle e))), g)
      | .ok () => (c.leaveWith generation (.build t), g)
  | .building t =>
    match g.dispatcher.loader.load P t g.world with
    | (.error e, world) =>
      some ({ c with stage := .unlocking (.error (.resolution e)) }, { g with world })
    | (.ok loaded, world) =>
      some ({ c with stage := .built loaded }, { g with world }.log .built)
  | .built loaded =>
    let (generation, dispatcher) := g.dispatcher.nextGeneration
    some ({ c with stage := .numbered loaded generation }, { g with dispatcher })
  | .numbered loaded generation =>
    let (replaced, dispatcher) := g.dispatcher.swap generation loaded
    let g := { g with dispatcher }.log (.activated generation)
    match replaced with
    | none => some ({ c with stage := .unlocking (.ok .done) }, g)
    | some old => some (c.leaveWith old (.unlock (.ok .done)), g)
  | .unlocking r => some (c.reply r, { g with lock := none })
  | .inside v generation => c.visit? P B index generation g v
  | .recording b tag generation =>
    some (c.leaveWith generation (.finish (.ok (.buffer b))),
      g.mapLocked generation (·.insert tag))
  | .freeing b tag generation =>
    (g.serve? P B index generation (.freeLocked b)).map fun (answer, g) =>
      match answer with
      | .error e => (c.leaveWith generation (.finish (.error (.device e))), g)
      | .ok _ => ({ c with stage := .forgetting tag generation }, g)
  | .forgetting tag generation =>
    some (c.leaveWith generation (.finish (.ok .done)), g.mapLocked generation (·.erase tag))
  | .leaving generation next =>
    let (last, dispatcher) := g.dispatcher.stepOut generation
    let g := { g with dispatcher }.log (.left index generation)
    some (if last then { c with stage := .releasing generation next } else c.goOn next, g)
  | .releasing generation next =>
    (g.dispatcher.activation? generation).bind fun a =>
      if B.isReady .wait a.loaded.device then
        let (dispatcher, world) := g.dispatcher.releaseRetired P generation g.world
        some (c.goOn next, { g with dispatcher, world }.log (.released generation))
      else none

end Caller

/-- Whose turn it is. -/
inductive Event where
  | caller (index : Nat)
  /-- Work of a device goes on; `choice` says which. -/
  | background (generation choice : Nat)
  deriving DecidableEq, Repr

end Switching

/-- The callers of one dispatcher. -/
structure Switching (W D : Type) where
  ground : Switching.Ground W D
  callers : List (Switching.Caller D)

namespace Switching

variable {W D : Type}

/-- Callers with the given errands come to a dispatcher. -/
def start (d : Dispatcher W D) (w : W) (errands : List (List Errand)) : Switching W D :=
  ⟨⟨d, w, none, []⟩, errands.map ({ errands := · })⟩

/-- The next move of the one whose turn it is, if there is one. -/
def step? (P : Platform W D) (B : Background W D) (x : Switching W D) :
    Event → Option (Switching W D)
  | .caller i => do
    let (c, ground) ← (← x.callers[i]?).step? P B i x.ground
    return { ground, callers := x.callers.set i c }
  | .background generation choice => do
    let ground ← x.ground.advance? B generation choice
    return { x with ground }

/-- The moves of a schedule, if all of them can be made. -/
def run? (P : Platform W D) (B : Background W D) (x : Switching W D) (schedule : List Event) :
    Option (Switching W D) :=
  schedule.foldlM (step? P B) x

end Switching
end BlockTransfer
