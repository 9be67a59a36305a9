import BlockTransfer.Transfer
import BlockTransfer.Verify
/-!
# Whole-buffer operations

An order asks for one read or write of a whole buffer; an operation is an order
with its file opened. Opening takes two moves. The first finds the file of a
read, or creates or empties the file of a write. The second refuses a read if
the file holds fewer bytes than the buffer, or gives a write's file the
buffer's length. Run inline, the blocks are moved one after the other, and the
file is compared with the buffer at the end if that was asked for.

Key definitions: `Order`, `Operation`, `Operation.openFile`, `Operation.runInline`.
-/

namespace BlockTransfer

/-- Asks for a read or write of a whole buffer. -/
structure Order where
  direction : Direction
  buffer : Buffer
  path : String
  /-- Whether the file is compared with the buffer at the end. -/
  validate : Bool
  deriving DecidableEq, Repr

/-- A read or write of a whole buffer, with its file opened. -/
structure Operation where
  direction : Direction
  endpoints : Transfer.Endpoints
  validate : Bool
  blockSize : Nat
  deriving DecidableEq, Repr

namespace Operation

def buffer (o : Operation) : Buffer := o.endpoints.buffer

def handle (o : Operation) : FileSystem.Handle := o.endpoints.handle

/-- Finds the file to read, or creates or empties the file to write. -/
def locate (c : Order) (blockSize : Nat) (s : Storage) :
    Except TransferError (Operation × Storage) :=
  match c.direction with
  | .read =>
    match s.files.openRead c.path with
    | .error kind => .error (.ofOs c.path (.ofKind kind))
    | .ok h => .ok (⟨.read, ⟨h, c.path, c.buffer⟩, c.validate, blockSize⟩, s)
  | .write =>
    match s.files.create c.path with
    | .error kind => .error (.ofOs c.path (.ofKind kind))
    | .ok (h, files) =>
      .ok (⟨.write, ⟨h, c.path, c.buffer⟩, c.validate, blockSize⟩, { s with files })

/-- A file to read has to hold at least as many bytes as the buffer; a file to
write gets the buffer's length. -/
def fit (o : Operation) (s : Storage) : Except TransferError Storage :=
  match o.direction with
  | .read =>
    if s.files.length o.handle < o.buffer.len then
      .error (.shortRead o.endpoints.path o.buffer.len (s.files.length o.handle))
    else .ok s
  | .write => .ok { s with files := s.files.setLength o.handle o.buffer.len }

/-- Opens the file that an order names. -/
def openFile (c : Order) (blockSize : Nat) (s : Storage) :
    Except TransferError (Operation × Storage) :=
  match locate c blockSize s with
  | .error e => .error e
  | .ok (o, s) => (o.fit s).map fun s => (o, s)

/-- The blocks of a range of the operation, in order. -/
def blocks (o : Operation) (range : ByteRange) : List ByteRange := range.blocks o.blockSize

/-- Moves one block of a range that ends at `stop`. -/
def moveBlock (o : Operation) (stop : Nat) (block : ByteRange) (s : Storage) :
    Except TransferError Unit × Storage :=
  Transfer.moveBlock o.direction o.endpoints stop block s

/-- Moves one range of the operation. -/
def transfer (o : Operation) (range : ByteRange) (s : Storage) :
    Except TransferError Unit × Storage :=
  Transfer.run o.direction o.endpoints range o.blockSize s

/-- Compares the file with the buffer if that was asked for. -/
def validateIfAsked (o : Operation) (s : Storage) : Except TransferError Unit :=
  if o.validate then Verify.check s.files o.endpoints.path (s.memory.bytes o.buffer) else .ok ()

/-- Runs the whole operation on the calling thread. -/
def runInline (o : Operation) (s : Storage) : Except TransferError Unit × Storage :=
  match o.transfer ⟨0, o.buffer.len⟩ s with
  | (.error e, s) => (.error e, s)
  | (.ok (), s) => (o.validateIfAsked s, s)

end Operation
end BlockTransfer
