import BlockTransfer.LockedPool
/-!
# The two books on locked buffers, move by move

The locked buffers of an activation are booked twice: as live numbers in the
device's pool, and as tags in the set of whoever forwards to the device. Any
number of callers allocate and free locked buffers at the same time, and a call
changes the books one after the other: an allocation takes a number, makes the
buffer, enlists the number with the pool and then the tag in the set; a free
looks the tag up in the set, has the pool take the buffer back, and then erases
the tag. An `Event` is a caller's next atomic move, so a list of events is a
schedule of the callers.

The journal tells how the calls ended, in order; no move looks at it.

Key definitions: `Books`, `Books.step?`, `Books.run?`, `Books.isQuiet`.
-/

namespace BlockTransfer

namespace Books

/-- How far a caller got with a call. -/
inductive Stage where
  | free
  /-- A number was taken for a buffer of `count` elements that is to be made. -/
  | numbered (type : ElementType) (count : Nat) (tag : PinTag)
  /-- The buffer was made; the pool is to enlist its number. -/
  | made (buffer : Buffer) (tag : PinTag)
  /-- The pool has enlisted the number; the set is to get the tag. -/
  | enlisted (buffer : Buffer) (tag : PinTag)
  /-- A buffer to free has its tag in the set; the pool is to take it back. -/
  | known (buffer : Buffer) (tag : PinTag)
  /-- The pool has taken a buffer back; the set is to lose the tag. -/
  | returned (buffer : Buffer) (tag : PinTag)
  deriving DecidableEq, Repr

/-- How a call ended. -/
inductive Occurrence where
  | allocated (buffer : Buffer) (tag : PinTag)
  | notAllocated (error : TransferError)
  | freed (buffer : Buffer) (tag : PinTag)
  | notFreed (buffer : Buffer) (error : LifecycleError)
  deriving DecidableEq, Repr

/-- A caller's next move. A free caller starts a call; any other goes on with
the call it is in. -/
inductive Event where
  | allocate (caller : Nat) (type : ElementType) (count : Nat)
  | free (caller : Nat) (buffer : Buffer)
  | goOn (caller : Nat)
  deriving DecidableEq, Repr

/-- Whose move an event is. -/
def Event.caller : Event → Nat
  | allocate caller .. | free caller _ | goOn caller => caller

end Books

/-- The books of one activation, the memory, and the callers. -/
structure Books where
  pool : LockedPool
  set : LockedSet := {}
  memory : Memory
  callers : List Books.Stage
  journal : List Books.Occurrence := []

namespace Books

/-- `callers` callers and the empty books of a device with a new pool. -/
def start (poolNumber : Nat) (m : Memory) (callers : Nat) : Books :=
  { pool := { number := poolNumber }, memory := m, callers := List.replicate callers .free }

/-- The books after a caller moved on to a stage. -/
def move (b : Books) (caller : Nat) (stage : Stage) : Books :=
  { b with callers := b.callers.set caller stage }

/-- The books after a caller's call ended. -/
def finish (b : Books) (caller : Nat) (o : Occurrence) : Books :=
  { b.move caller .free with journal := b.journal ++ [o] }

/-- A caller asks for a buffer: it takes the pool's next number. -/
def allocate (b : Books) (caller : Nat) (type : ElementType) (count : Nat) : Books :=
  { b with pool := b.pool.advance }.move caller (.numbered type count b.pool.nextTag)

/-- A caller asks for a buffer to be freed: it looks the tag up in the set. -/
def free (b : Books) (caller : Nat) (buffer : Buffer) : Books :=
  match buffer.pin with
  | none => b.finish caller (.notFreed buffer .notLocked)
  | some tag =>
    if b.set.contains tag then b.move caller (.known buffer tag)
    else b.finish caller (.notFreed buffer (.unknown tag.id))

/-- A caller goes on with its call. -/
def goOn? (b : Books) (caller : Nat) : Stage → Option Books
  | .free => none
  | .numbered type count tag =>
    match b.memory.locked? type count tag with
    | .error e => some (b.finish caller (.notAllocated e))
    | .ok (buffer, memory) => some ({ b with memory }.move caller (.made buffer tag))
  | .made buffer tag =>
    some ({ b with pool := b.pool.enlist tag.id }.move caller (.enlisted buffer tag))
  | .enlisted buffer tag =>
    some ({ b with set := b.set.insert tag }.finish caller (.allocated buffer tag))
  | .known buffer tag =>
    match b.pool.release buffer with
    | .error e => some (b.finish caller (.notFreed buffer e))
    | .ok pool => some ({ b with pool }.move caller (.returned buffer tag))
  | .returned buffer tag =>
    some ({ b with set := b.set.erase tag }.finish caller (.freed buffer tag))

/-- The next move of a caller, if it can make it. -/
def step? (b : Books) (e : Event) : Option Books :=
  match e, b.callers[e.caller]? with
  | .allocate caller type count, some .free => some (b.allocate caller type count)
  | .free caller buffer, some .free => some (b.free caller buffer)
  | .goOn caller, some stage => b.goOn? caller stage
  | _, _ => none

/-- The moves of a schedule, if all of them can be made. -/
def run? (b : Books) (schedule : List Event) : Option Books := schedule.foldlM step? b

/-- Whether no call is in progress. -/
def isQuiet (b : Books) : Bool := b.callers.all (· == .free)

end Books
end BlockTransfer
