import BlockTransfer.Device.Platform
import BlockTransfer.Transfer
import BlockTransfer.Verify
/-!
# Probe devices

Small devices that exercise whatever dispatches to them. A *tagger* has a fixed
block size and hands out locked buffers with numbers from 1; three one-shot
switches make the next wait fail, make the next free fail, or make the next
locked buffer an ordinary one. The *corrupting* device spoils the first byte of
what it reads. The *gate* blocks inside a read until it is let go.

A `ProbeBoard` holds the switches and counts how many taggers and gates were
made and given up.

Key definitions: `Probe`, `Probe.serve`, `ProbeBoard`.
-/

namespace BlockTransfer

/-- The switches of the probe devices, and the counts of those made. -/
structure ProbeBoard where
  failNextWait : Bool := false
  failNextFree : Bool := false
  unlockNextBuffer : Bool := false
  built : Nat := 0
  discarded : Nat := 0
  deriving DecidableEq, Repr

/-- A probe device. -/
inductive Probe where
  | tagger (name : String) (blockSize : Nat) (pool nextId : Nat)
  | corrupting
  | gate
  deriving DecidableEq, Repr

namespace Probe

/-- The pool number of the first tagger; it is far from those of the others. -/
def firstPool : Nat := 1 <<< 40

def name : Probe → String
  | tagger name .. => name
  | corrupting => "corrupting"
  | gate => "gate"

/-- Whether the device is counted on the board. -/
def isCounted : Probe → Bool
  | corrupting => false
  | _ => true

/-- A tagger that is the `n`-th device counted. -/
def newTagger (name : String) (blockSize n : Nat) : Probe :=
  tagger name blockSize (firstPool + n) 1

/-- Reads a whole file, spoils its first byte, and fills the buffer with it. -/
def corruptRead (b : Buffer) (path : String) (validate : Bool) (s : Storage) :
    Except TransferError Nat × Storage :=
  match s.files.openRead path with
  | .error kind => (.error (.ofOs path (.ofKind kind)), s)
  | .ok h =>
    match s.files.readAt h 0 (s.files.length h) with
    | .error kind => (.error (.ofOs path (.ofKind kind)), s)
    | .ok data =>
      let spoiled := match data with
        | [] => []
        | first :: rest => (first ^^^ 255) :: rest
      match s.memory.fill b spoiled with
      | .error e => (.error e, s)
      | .ok memory =>
        if validate then
          match Verify.check s.files path (memory.bytes b) with
          | .error e => (.error e, { s with memory })
          | .ok () => (.ok b.len, { s with memory })
        else (.ok b.len, { s with memory })

/-- Stores the buffer as the whole content of a file. -/
def storeFile (b : Buffer) (path : String) (s : Storage) : Except TransferError Nat × Storage :=
  match s.files.writeFile path (s.memory.bytes b) with
  | .error kind => (.error (.ofOs path (.ofKind kind)), s)
  | .ok files => (.ok b.len, { s with files })

/-- What a device answers to a transfer. -/
def ofTransfer (r : Except TransferError Nat) : Except DeviceError Answer :=
  match r with
  | .ok n => .ok (.number n)
  | .error e => .error (.transfer e)

/-- Answers a request. -/
def serve (p : Probe) (board : ProbeBoard) (s : Storage) (r : Request) :
    Except DeviceError Answer × Probe × ProbeBoard × Storage :=
  let refuse := (Except.error (unsupported p.name r), p, board, s)
  match p with
  | tagger name blockSize pool nextId =>
    let next := tagger name blockSize pool (nextId + 1)
    match r with
    | .blockSize => (.ok (.number blockSize), p, board, s)
    | .newLocked count like =>
      if board.unlockNextBuffer then
        let board := { board with unlockNextBuffer := false }
        match s.memory.zeroedPlain? like.elementType count with
        | none => (.error (.backend "capacity overflow"), next, board, s)
        | some (b, memory) => (.ok (.buffer b), next, board, { s with memory })
      else match s.memory.locked? like.elementType count ⟨pool, nextId⟩ with
        | .error e => (.error (.transfer e), next, board, s)
        | .ok (b, memory) => (.ok (.buffer b), next, board, { s with memory })
    | .freeLocked _ =>
      if board.failNextFree then
        (.error (.backend "injected free failure"), p, { board with failNextFree := false }, s)
      else (.ok .done, p, board, s)
    | .wait =>
      if board.failNextWait then
        (.error (.transfer (.invalidBuffer (.reported "injected completion failure"))), p,
          { board with failNextWait := false }, s)
      else (.ok (.number 0), p, board, s)
    | _ => refuse
  | corrupting =>
    match r with
    | .read b path validate =>
      let (answer, s) := corruptRead b path validate s
      (ofTransfer answer, p, board, s)
    | .write b path _ =>
      let (answer, s) := storeFile b path s
      (ofTransfer answer, p, board, s)
    | _ => refuse
  | gate =>
    match r with
    | .read .. => (.error (.backend "gate is not armed"), p, board, s)
    | _ => refuse

/-- What giving a probe device up leaves on the board. -/
def discard (p : Probe) (board : ProbeBoard) : ProbeBoard :=
  if p.isCounted then { board with discarded := board.discarded + 1 } else board

end Probe
end BlockTransfer
