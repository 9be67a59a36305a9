import BlockTransfer.Device.Posix
/-!
# Callers and workers of a posix device, move by move

Any number of callers hand asynchronous transfers to one posix device and wait
for them, while the device's workers carry the jobs out. An `Event` says whose
turn it is; the one whose turn it is makes its next atomic move, or cannot move:
a caller whose operation has to wait until nothing is in flight, a caller whose
job finds its worker's inbox full, a wait while something is in flight, a worker
with nothing in its inbox. So a list of events is a schedule, and every
schedule of callers and workers is such a list.

A caller opens the file of an operation first, in two moves, then waits for
idleness if the device does not overlap operations, then starts the operation
and deals its jobs one by one. A worker moves a job block by block. Whoever ends an operation's last
job compares the file if asked to and reports the end; the caller itself does so
for an operation that has no jobs.

The journal tells what happened, in order; no move looks at it.

Key definitions: `Errand`, `Traffic`, `Traffic.step?`, `Traffic.run?`,
`PosixDevice.serveAll`.
-/

namespace BlockTransfer

/-- Puts requests to a device one after the other; the answers are in order. -/
def PosixDevice.serveAll :
    List Request → PosixDevice → Storage → List (Except DeviceError Answer) × PosixDevice × Storage
  | [], d, s => ([], d, s)
  | r :: rs, d, s =>
    let (answer, d, s) := d.serve s r
    let (answers, d, s) := serveAll rs d s
    (answer :: answers, d, s)

/-- The request that an order is in the given mode. -/
def Order.request (mode : Mode) (c : Order) : Request :=
  match c.direction with
  | .read => .pread c.buffer c.path c.validate mode
  | .write => .pwrite c.buffer c.path c.validate mode

namespace Traffic

/-- What a caller does with a device: a transfer of a whole buffer, or a wait
for its asynchronous work. -/
inductive Errand where
  | transfer (order : Order)
  | wait
  deriving DecidableEq, Repr

/-- What happened to the operations of a device. -/
inductive Occurrence where
  /-- An operation started with these jobs. -/
  | started (number : Nat) (operation : Operation) (jobs : List ByteRange)
  /-- A job ended. -/
  | ran (job : Job) (result : Except TransferError Unit)
  /-- The end of an operation was reported. -/
  | reported (number : Nat) (result : Except TransferError Unit)
  /-- A wait was answered. -/
  | drained (answer : Except TransferError Nat)
  deriving Repr

/-- What callers and workers share. -/
structure Ground where
  engine : Engine
  storage : Storage
  journal : List Occurrence := []

/-- Adds to the journal. -/
def Ground.log (g : Ground) (o : Occurrence) : Ground := { g with journal := g.journal ++ [o] }

/-- How far a caller got with an errand. -/
inductive Stage where
  | free
  /-- The file is found, or it is created or emptied; its length is not looked at yet. -/
  | located (operation : Operation)
  /-- The file is open. -/
  | opened (operation : Operation)
  /-- Nothing hinders the operation from starting. -/
  | admitted (operation : Operation)
  /-- The operation has started; these jobs are to be dealt. -/
  | dealing (number len : Nat) (jobs : List ByteRange)
  /-- The first of these jobs is to be put into that worker's inbox. -/
  | placing (number len worker : Nat) (range : ByteRange) (jobs : List ByteRange)
  /-- The operation has no jobs. -/
  | ending (number : Nat)
  /-- It is known how an operation without jobs ended. -/
  | reporting (number : Nat) (result : Except TransferError Unit)
  deriving Repr

/-- A caller: its errands to come, and the answers so far. -/
structure Caller where
  errands : List Errand
  stage : Stage := .free
  answers : List (Except TransferError Nat) := []
  deriving Repr

/-- The caller with an answer to its present errand. -/
def Caller.answer (c : Caller) (a : Except TransferError Nat) : Caller :=
  ⟨c.errands, .free, c.answers ++ [a]⟩

/-- A free caller's move: it finds or creates a file, or its wait is answered. -/
def Caller.begin? (blockSize : Nat) (c : Caller) (g : Ground) : Option (Caller × Ground) :=
  match c.errands with
  | [] => none
  | .wait :: errands =>
    if g.engine.completion.isIdle then
      let (answer, completion) := g.engine.completion.drain
      let g := { g with engine := { g.engine with completion } }
      some ({ c with errands }.answer answer, g.log (.drained answer))
    else none
  | .transfer order :: errands =>
    match Operation.locate order blockSize g.storage with
    | .error e => some ({ c with errands }.answer (.error e), g)
    | .ok (o, storage) => some ({ c with errands, stage := .located o }, { g with storage })

/-- A caller's next move. -/
def Caller.step? (blockSize : Nat) (c : Caller) (g : Ground) : Option (Caller × Ground) :=
  match c.stage with
  | .free => c.begin? blockSize g
  | .located o =>
    match o.fit g.storage with
    | .error e => some (c.answer (.error e), g)
    | .ok storage => some ({ c with stage := .opened o }, { g with storage })
  | .opened o =>
    if g.engine.overlapEvents || g.engine.completion.isIdle then
      some ({ c with stage := .admitted o }, g)
    else none
  | .admitted o =>
    let jobs := g.engine.plan o
    let (number, engine) := g.engine.launch o jobs.length
    let stage := if jobs.isEmpty then .ending number else .dealing number o.buffer.len jobs
    some ({ c with stage }, { g with engine }.log (.started number o jobs))
  | .dealing _ len [] => some (c.answer (.ok len), g)
  | .dealing number len (range :: jobs) =>
    let (worker, engine) := g.engine.turn
    some ({ c with stage := .placing number len worker range jobs }, { g with engine })
  | .placing number len worker range jobs =>
    (g.engine.put? worker ⟨number, range⟩).map fun engine =>
      ({ c with stage := .dealing number len jobs }, { g with engine })
  | .ending number =>
    some ({ c with stage := .reporting number (g.engine.outcome number g.storage) }, g)
  | .reporting number result =>
    some (c.answer (.ok 0),
      { g with engine := g.engine.report number result }.log (.reported number result))

/-- What a worker is at. -/
inductive Worker where
  | idle
  /-- A job's blocks are moved; these are left. -/
  | moving (job : Job) (blocks : List ByteRange)
  /-- A block could not be moved; the failure is to be noted. -/
  | failed (job : Job) (error : TransferError)
  /-- A job of that operation is done and is to be counted. -/
  | done (number : Nat)
  /-- It was the operation's last job. -/
  | ending (number : Nat)
  /-- It is known how the operation ended. -/
  | reporting (number : Nat) (result : Except TransferError Unit)
  deriving Repr

/-- The next move of the worker with that index. -/
def Worker.step? (index : Nat) (w : Worker) (g : Ground) : Option (Worker × Ground) :=
  match w with
  | .idle =>
    (g.engine.take? index).bind fun (job, engine) =>
      (engine.flight? job.flight).map fun f =>
        (.moving job (f.operation.blocks job.range), { g with engine })
  | .moving job [] => some (.done job.flight, g.log (.ran job (.ok ())))
  | .moving job (block :: blocks) =>
    (g.engine.flight? job.flight).map fun f =>
      match f.operation.moveBlock job.range.stop block g.storage with
      | (.ok (), storage) => (.moving job blocks, { g with storage })
      | (.error e, storage) => (.failed job e, { g with storage })
  | .failed job e =>
    some (.done job.flight,
      { g with engine := g.engine.note job.flight e }.log (.ran job (.error e)))
  | .done number =>
    let (last, engine) := g.engine.retire number
    some (if last then .ending number else .idle, { g with engine })
  | .ending number => some (.reporting number (g.engine.outcome number g.storage), g)
  | .reporting number result =>
    some (.idle,
      { g with engine := g.engine.report number result }.log (.reported number result))

/-- Whose turn it is. -/
inductive Event where
  | caller (index : Nat)
  | worker (index : Nat)
  deriving DecidableEq, Repr

end Traffic

/-- The callers and workers of one device. -/
structure Traffic where
  ground : Traffic.Ground
  blockSize : Nat
  callers : List Traffic.Caller
  workers : List Traffic.Worker

namespace Traffic

/-- Callers with the given errands come to a device whose workers are idle. -/
def start (d : PosixDevice) (s : Storage) (errands : List (List Errand)) : Traffic :=
  { ground := ⟨d.engine, s, []⟩
    blockSize := d.settings.blockSize
    callers := errands.map ({ errands := · })
    workers := List.replicate d.engine.workerCount .idle }

/-- The next move of the one whose turn it is, if there is one. -/
def step? (t : Traffic) : Event → Option Traffic
  | .caller i => do
    let (c, ground) ← (← t.callers[i]?).step? t.blockSize t.ground
    return { t with ground, callers := t.callers.set i c }
  | .worker i => do
    let (w, ground) ← (← t.workers[i]?).step? i t.ground
    return { t with ground, workers := t.workers.set i w }

/-- The moves of a schedule, if all of them can be made. -/
def run? (t : Traffic) (schedule : List Event) : Option Traffic := schedule.foldlM step? t

/-- Whether every caller is through with its errands. -/
def isOver (t : Traffic) : Bool :=
  t.callers.all fun c => c.errands.isEmpty && match c.stage with
    | .free => true
    | _ => false

/-- The answers that a caller got. -/
def answers (t : Traffic) (caller : Nat) : List (Except TransferError Nat) :=
  (t.callers[caller]?.map Caller.answers).getD []

end Traffic
end BlockTransfer
