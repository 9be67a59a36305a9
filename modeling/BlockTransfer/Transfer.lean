import BlockTransfer.Buffer
import BlockTransfer.FileSystem
import BlockTransfer.Plan
/-!
# Positional transfers

A transfer moves a range of a buffer to or from the same offsets of an opened
file, one block at a time. It works on a `Storage`, the files and the memory
together, and gives the storage back also when it fails: the blocks moved
before the failure stay moved, and a block that the file does not hold whole is
not moved at all.

Key definitions: `Storage`, `Transfer.moveBlock`, `Transfer.run`.
-/

namespace BlockTransfer

/-- The files and the memory that transfers move bytes between. -/
structure Storage where
  files : FileSystem := {}
  memory : Memory := {}

/-- Which way the bytes go. -/
inductive Direction where
  /-- From the file into the buffer. -/
  | read
  /-- From the buffer into the file. -/
  | write
  deriving DecidableEq, Repr

/-- The memory after bytes of a buffer are replaced from an offset on. -/
def Memory.patch (m : Memory) (b : Buffer) (offset : Nat) (data : Bytes) : Memory :=
  m.store b (Bytes.overwrite (m.bytes b) offset data)

namespace Transfer

/-- What a transfer goes between: an opened file, the path to name in an error,
and a buffer. -/
structure Endpoints where
  handle : FileSystem.Handle
  path : String
  buffer : Buffer
  deriving DecidableEq, Repr

/-- Reads one block of the file into the buffer, if the file holds it whole;
`stop` is the end that was asked for. -/
def readBlock (e : Endpoints) (stop : Nat) (block : ByteRange) (s : Storage) :
    Except TransferError Unit × Storage :=
  match s.files.readAt e.handle block.start block.length with
  | .error kind => (.error (.ofOs e.path (.ofKind kind)), s)
  | .ok data =>
    if data.length < block.length then (.error (.shortRead e.path stop block.start), s)
    else (.ok (), { s with memory := s.memory.patch e.buffer block.start data })

/-- Writes one block of the buffer into the file. -/
def writeBlock (e : Endpoints) (block : ByteRange) (s : Storage) : Storage :=
  let data := Bytes.slice (s.memory.bytes e.buffer) block.start block.length
  { s with files := s.files.writeAt e.handle block.start data }

/-- Moves one block of a transfer that ends at `stop`. -/
def moveBlock (direction : Direction) (e : Endpoints) (stop : Nat) (block : ByteRange)
    (s : Storage) : Except TransferError Unit × Storage :=
  match direction with
  | .read => readBlock e stop block s
  | .write => (.ok (), writeBlock e block s)

/-- Moves blocks in order, up to the first that cannot be moved. -/
def moveBlocks (direction : Direction) (e : Endpoints) (stop : Nat) :
    List ByteRange → Storage → Except TransferError Unit × Storage
  | [], s => (.ok (), s)
  | block :: blocks, s =>
    match moveBlock direction e stop block s with
    | (.error error, s) => (.error error, s)
    | (.ok (), s) => moveBlocks direction e stop blocks s

/-- Moves a range block by block. -/
def run (direction : Direction) (e : Endpoints) (range : ByteRange) (blockSize : Nat)
    (s : Storage) : Except TransferError Unit × Storage :=
  moveBlocks direction e range.stop (range.blocks blockSize) s

end Transfer
end BlockTransfer
