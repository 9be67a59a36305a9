import BlockTransfer.Device.Posix.Traffic
/-!
# A posix device is dropped, move by move

Who drops a device is alone with it: no caller is under way, but the workers may still
have jobs. The owner waits until nothing is in flight, puts a shutdown into every inbox in
turn, waiting for room as one does for a job, and joins the workers' threads in turn. A
worker takes what is in its inbox in order, so it finds the shutdown behind the jobs; its
thread ends there.

Key definitions: `Shutdown`, `Shutdown.start`, `Shutdown.step?`, `Shutdown.run?`.
-/

namespace BlockTransfer
namespace Shutdown

/-- How far the owner got with dropping the device. -/
inductive Owner where
  /-- It waits until nothing is in flight. -/
  | waiting
  /-- The shutdown is to be put into that worker's inbox. -/
  | telling (worker : Nat)
  /-- That worker's thread is to be joined. -/
  | joining (worker : Nat)
  | closed
  deriving DecidableEq, Repr

/-- A worker's thread. -/
inductive Thread where
  | running
  /-- A shutdown stands behind the jobs of the worker's inbox. -/
  | told
  | exited
  deriving DecidableEq, Repr

/-- Whose turn it is. -/
inductive Event where
  | owner
  | worker (index : Nat)
  deriving DecidableEq, Repr

end Shutdown

/-- A device that is dropped: its callers and workers, its owner, and one thread for each
worker. -/
structure Shutdown where
  traffic : Traffic
  owner : Shutdown.Owner
  threads : List Shutdown.Thread

namespace Shutdown

/-- The owner begins to drop the device. -/
def start (t : Traffic) : Shutdown := ⟨t, .waiting, t.workers.map fun _ => .running⟩

/-- How many entries a worker's inbox has, the shutdown included. -/
def entries (c : Shutdown) (worker : Nat) : Nat :=
  ((c.traffic.ground.engine.inboxes[worker]?.map List.length).getD 0) +
    if c.threads[worker]? = some .told then 1 else 0

/-- Whether the next thing that a worker takes from its inbox is the shutdown. -/
def isNext (c : Shutdown) (worker : Nat) : Bool :=
  c.threads[worker]? = some .told && c.traffic.ground.engine.inboxes[worker]? = some [] &&
    match c.traffic.workers[worker]? with
    | some .idle => true
    | _ => false

/-- The owner's next move. -/
def ownerStep? (c : Shutdown) : Option Shutdown :=
  match c.owner with
  | .waiting =>
    if c.traffic.ground.engine.completion.isIdle then some { c with owner := .telling 0 } else none
  | .telling i =>
    match c.threads[i]? with
    | none => some { c with owner := .joining 0 }
    | some _ =>
      if c.entries i < c.traffic.ground.engine.queueDepth then
        some { c with owner := .telling (i + 1), threads := c.threads.set i .told }
      else none
  | .joining i =>
    match c.threads[i]? with
    | none => some { c with owner := .closed }
    | some .exited => some { c with owner := .joining (i + 1) }
    | some _ => none
  | .closed => none

/-- A worker's next move: at the shutdown its thread ends, and before it does what it
always does. -/
def workerStep? (c : Shutdown) (i : Nat) : Option Shutdown :=
  if c.threads[i]? = some .exited then none
  else if c.isNext i then some { c with threads := c.threads.set i .exited }
  else (c.traffic.step? (.worker i)).map fun traffic => { c with traffic }

/-- The next move of the one whose turn it is, if there is one. -/
def step? (c : Shutdown) : Event → Option Shutdown
  | .owner => c.ownerStep?
  | .worker i => c.workerStep? i

/-- The moves of a schedule, if all of them can be made. -/
def run? (c : Shutdown) (schedule : List Event) : Option Shutdown := schedule.foldlM step? c

end Shutdown
end BlockTransfer
