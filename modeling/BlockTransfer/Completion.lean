import BlockTransfer.Error
/-!
# Completions

Counts asynchronous operations between their start and their end. A drain takes
what ended since the last one: their number, or, if some of them failed, the
failure that came first. It takes effect only while nothing is in flight.

Key definitions: `Completion`, `Completion.begin`, `Completion.finish`,
`Completion.drain`.
-/

namespace BlockTransfer

/-- The operations in flight, and what ended since the last drain. -/
structure Completion where
  inFlight : Nat := 0
  completed : Nat := 0
  /-- The failures in the order in which they came. -/
  failures : List TransferError := []
  deriving DecidableEq, Repr

namespace Completion

/-- An operation starts. -/
def begin (c : Completion) : Completion := { c with inFlight := c.inFlight + 1 }

/-- An operation ends, with or without a failure. -/
def finish (c : Completion) (result : Except TransferError Unit) : Completion :=
  { inFlight := c.inFlight - 1
    completed := c.completed + 1
    failures := match result with
      | .ok _ => c.failures
      | .error e => c.failures ++ [e] }

def isIdle (c : Completion) : Bool := c.inFlight == 0

/-- Takes what ended since the last drain: the earliest failure, or the number
of operations. Both are forgotten. -/
def drain (c : Completion) : Except TransferError Nat × Completion :=
  (match c.failures with
    | [] => .ok c.completed
    | e :: _ => .error e,
   { inFlight := c.inFlight })

/-- What can happen to the count. -/
inductive Event where
  | begin
  | finish (result : Except TransferError Unit)
  | drain

/-- The effect of an event, and what a drain answers. An operation ends only if
one is in flight, and a drain waits until none is. -/
def step? (c : Completion) : Event → Option (Option (Except TransferError Nat) × Completion)
  | .begin => some (none, c.begin)
  | .finish result => if c.inFlight = 0 then none else some (none, c.finish result)
  | .drain =>
    if c.inFlight = 0 then
      let (answer, c) := c.drain
      some (some answer, c)
    else none

end Completion
end BlockTransfer
