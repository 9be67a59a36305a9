import BlockTransfer.Completion
import BlockTransfer.Host
import BlockTransfer.Operation
import BlockTransfer.Settings
/-!
# The worker engine

Asynchronous operations are cut into jobs, which are dealt to the workers in
turn. Every worker takes the jobs of its own inbox in order; an inbox holds at
most `queueDepth` of them. The job of an operation that ends last compares the
file if asked to and reports the operation's end, with the first failure among
its jobs. An engine starts only if the host has room for its workers and starts
their threads.

The single moves (`launch`, `turn`, `put?`, `take?`, `note`, `retire`,
`outcome`, `report`) are what any schedule of callers and workers is made of.
`submit` and `drain` are the schedule in which the workers are slow: one whose
inbox is full carries out a job to make room, and otherwise no worker moves
before a caller waits for all of them.

Key definitions: `Engine`, `Engine.start`, `Engine.submit`, `Engine.settle`,
`Engine.drain`.
-/

namespace BlockTransfer

/-- An operation under way: the jobs that have not ended, and the first failure. -/
structure Flight where
  operation : Operation
  remaining : Nat
  failure : Option TransferError := none
  deriving DecidableEq, Repr

/-- Why an engine does not start. -/
inductive StartFault where
  /-- The system starts no thread; the text is the system's. -/
  | spawn (reason : String)
  /-- The workers or the places of an inbox are too many to be held. -/
  | capacity
  deriving DecidableEq, Repr

/-- A range of an operation under way, to be moved by a worker. -/
structure Job where
  /-- The number of the operation. -/
  flight : Nat
  range : ByteRange
  deriving DecidableEq, Repr

/-- The workers' inboxes, the operations under way, and the completions. -/
structure Engine where
  queueDepth : Nat
  singleSubmit : Bool
  overlapEvents : Bool
  /-- One inbox per worker, the oldest job first. -/
  inboxes : List (List Job)
  /-- How many jobs were dealt so far; it chooses the next worker. -/
  dealt : Nat := 0
  flights : List (Nat × Flight) := []
  nextFlight : Nat := 0
  completion : Completion := {}
  deriving DecidableEq, Repr

namespace Engine

/-- An idle engine. -/
def idle (settings : DeviceSettings) : Engine :=
  { queueDepth := settings.queueDepth
    singleSubmit := settings.singleSubmit
    overlapEvents := settings.overlapEvents
    inboxes := List.replicate settings.threadCount [] }

/-- Why the worker at a place cannot be had, if it cannot. Its inbox is made before its
thread is started. -/
def workerFault? (host : Host) (queueDepth place : Nat) : Option StartFault :=
  if host.holdsJobs queueDepth then (host.spawnFault? place).map .spawn else some .capacity

/-- Starts an engine: the workers come one after the other, and the first that cannot be
had ends the start. -/
def start (host : Host) (settings : DeviceSettings) : Except StartFault Engine :=
  if host.holdsWorkers settings.threadCount then
    match (List.range settings.threadCount).findSome? (workerFault? host settings.queueDepth) with
    | some fault => .error fault
    | none => .ok (idle settings)
  else .error .capacity

/-- An engine that starts is idle. -/
theorem eq_idle_of_start {host : Host} {settings : DeviceSettings} {e : Engine}
    (h : start host settings = .ok e) : e = idle settings := by
  unfold start at h
  split at h
  · split at h <;> cases h
    rfl
  · cases h

def workerCount (e : Engine) : Nat := e.inboxes.length

/-! ### Single moves -/

/-- An operation starts with `jobs` jobs; the answer is its number. -/
def launch (e : Engine) (o : Operation) (jobs : Nat) : Nat × Engine :=
  (e.nextFlight,
   { e with
      flights := e.flights ++ [(e.nextFlight, ⟨o, jobs, none⟩)]
      nextFlight := e.nextFlight + 1
      completion := e.completion.begin })

/-- The jobs that an operation is cut into. -/
def plan (e : Engine) (o : Operation) : List ByteRange :=
  Plan.jobs o.buffer.len o.blockSize e.workerCount e.singleSubmit

/-- The worker whose turn it is gets the next job. -/
def turn (e : Engine) : Nat × Engine :=
  (e.dealt % e.workerCount, { e with dealt := e.dealt + 1 })

/-- Puts a job into a worker's inbox, if that has room. -/
def put? (e : Engine) (worker : Nat) (j : Job) : Option Engine :=
  match e.inboxes[worker]? with
  | none => none
  | some inbox =>
    if inbox.length < e.queueDepth then
      some { e with inboxes := e.inboxes.set worker (inbox ++ [j]) }
    else none

/-- A worker takes the oldest job of its inbox. -/
def take? (e : Engine) (worker : Nat) : Option (Job × Engine) :=
  match e.inboxes[worker]? with
  | some (j :: inbox) => some (j, { e with inboxes := e.inboxes.set worker inbox })
  | _ => none

/-- The operation of that number, while it is under way. -/
def flight? (e : Engine) (number : Nat) : Option Flight := e.flights.lookup number

/-- The engine with an operation under way replaced. -/
def setFlight (e : Engine) (number : Nat) (f : Flight) : Engine :=
  { e with flights := e.flights.map fun x => if x.1 = number then (number, f) else x }

/-- A failure of an operation is noted, unless one was noted before. -/
def note (e : Engine) (number : Nat) (error : TransferError) : Engine :=
  match e.flight? number with
  | none => e
  | some f => e.setFlight number { f with failure := some (f.failure.getD error) }

/-- A job of an operation ends; tells whether it was the last one. -/
def retire (e : Engine) (number : Nat) : Bool × Engine :=
  match e.flight? number with
  | none => (false, e)
  | some f =>
    (f.remaining = 1, e.setFlight number { f with remaining := f.remaining - 1 })

/-- How an operation ended whose jobs have all ended: with the failure noted, or
as the comparison of its file tells. -/
def outcome (e : Engine) (number : Nat) (s : Storage) : Except TransferError Unit :=
  match e.flight? number with
  | none => .ok ()
  | some f =>
    match f.failure with
    | some error => .error error
    | none => f.operation.validateIfAsked s

/-- The end of an operation is reported. -/
def report (e : Engine) (number : Nat) (result : Except TransferError Unit) : Engine :=
  { e with
    flights := e.flights.filter fun x => x.1 ≠ number
    completion := e.completion.finish result }

/-! ### One schedule -/

/-- Moves a job's range and notes a failure. -/
def execute (e : Engine) (j : Job) (s : Storage) : Engine × Storage :=
  match e.flight? j.flight with
  | none => (e, s)
  | some f =>
    match f.operation.transfer j.range s with
    | (.ok (), s) => (e, s)
    | (.error error, s) => (e.note j.flight error, s)

/-- An operation whose jobs have all ended is reported. -/
def conclude (e : Engine) (number : Nat) (s : Storage) : Engine :=
  e.report number (e.outcome number s)

/-- A worker takes one job and carries it out to the end. -/
def work (e : Engine) (worker : Nat) (s : Storage) : Engine × Storage :=
  match e.take? worker with
  | none => (e, s)
  | some (j, e) =>
    let (e, s) := e.execute j s
    let (last, e) := e.retire j.flight
    (if last then e.conclude j.flight s else e, s)

/-- A worker carries out `n` jobs. -/
def workMany (worker : Nat) : Nat → Engine × Storage → Engine × Storage
  | 0, es => es
  | n + 1, (e, s) => workMany worker n (e.work worker s)

/-- Every worker empties its inbox, one after the other. -/
def settle (e : Engine) (s : Storage) : Engine × Storage :=
  (List.range e.workerCount).foldl
    (fun (es : Engine × Storage) worker =>
      workMany worker ((es.1.inboxes[worker]?.map List.length).getD 0) es)
    (e, s)

/-- Deals a job; a worker whose inbox is full carries out its oldest job first. -/
def push (e : Engine) (j : Job) (s : Storage) : Engine × Storage :=
  let (worker, e) := e.turn
  match e.put? worker j with
  | some e => (e, s)
  | none =>
    let (e, s) := e.work worker s
    ((e.put? worker j).getD e, s)

/-- Deals the jobs of an operation in order. -/
def pushAll (number : Nat) : List ByteRange → Engine × Storage → Engine × Storage
  | [], es => es
  | r :: rs, (e, s) => pushAll number rs (e.push ⟨number, r⟩ s)

/-- Hands an operation to the workers; the answer is its length in bytes. With
no overlap allowed, what is under way ends first. -/
def submit (e : Engine) (o : Operation) (s : Storage) : Nat × Engine × Storage :=
  let (e, s) := if e.overlapEvents then (e, s) else e.settle s
  let jobs := e.plan o
  let (number, e) := e.launch o jobs.length
  if jobs.isEmpty then (0, e.conclude number s, s)
  else
    let (e, s) := pushAll number jobs (e, s)
    (o.buffer.len, e, s)

/-- Waits for all operations and takes their results. -/
def drain (e : Engine) (s : Storage) : Except TransferError Nat × Engine × Storage :=
  let (e, s) := e.settle s
  let (answer, completion) := e.completion.drain
  (answer, { e with completion }, s)

end Engine
end BlockTransfer
