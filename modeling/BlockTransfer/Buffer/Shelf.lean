import BlockTransfer.Transfer
/-!
# Buffers in use

Buffers are made, their handles cloned, and their bytes replaced: by data, by
another buffer's bytes, or by what a transfer reads from a file. Each of these
copies a slice of bytes over another, which works for two slices of one length
only; if they are not, or the slice is not there, the call breaks off.
`Memory.fill`, `Memory.copy` and `Transfer.run` do not look at the slices.
`Memory.fillSlice`, `Memory.copySlice` and `Transfer.runSlices` are the same calls
with every slice looked at.

An `Act` is what is done next. What an act is about is named by the place of a
handle on the shelf; a place without a handle leaves all as it is. An act holds the
locks of its buffers all the while, but for a transfer, which takes them block by
block: one that other acts come in between is an act for every part of its range.

The journal tells what came of every act, in order; no act looks at it.

Key definitions: `Ending`, `Memory.fillSlice`, `Memory.copySlice`,
`Transfer.runSlices`, `Shelf`, `Shelf.step`, `Shelf.run`.
-/

namespace BlockTransfer

/-- How a call ends that copies slices of bytes. -/
inductive Ending where
  | done
  | failed (error : TransferError)
  /-- A slice is not there, or two are not of one length. -/
  | brokenOff
  deriving DecidableEq, Repr

namespace Ending

/-- The ending of a call that does not break off. -/
def ofResult : Except TransferError Unit → Ending
  | .ok () => done
  | .error error => failed error

end Ending

namespace Memory

/-- Copies data over all of a buffer's region. -/
def overwrite (m : Memory) (b : Buffer) (data : Bytes) : Ending × Memory :=
  if data.length = (m.bytes b).length then (.done, m.store b data) else (.brokenOff, m)

/-- Replaces a buffer's content by data of its length. -/
def fillSlice (m : Memory) (b : Buffer) (data : Bytes) : Ending × Memory :=
  if data.length = b.len then m.overwrite b data
  else (.failed (.lengthMismatch b.len data.length), m)

/-- Copies one buffer's content into another of its length. -/
def copySlice (m : Memory) (dest src : Buffer) : Ending × Memory :=
  if src.len ≠ dest.len then (.failed (.lengthMismatch dest.len src.len), m)
  else if dest.sameRegion src then (.done, m)
  else m.overwrite dest (m.bytes src)

end Memory

namespace Transfer

/-- Moves one block, if the buffer's region has a slice for it. A read looks at the
file first. -/
def blockSlice (direction : Direction) (e : Endpoints) (stop : Nat) (block : ByteRange)
    (s : Storage) : Ending × Storage :=
  match moveBlock direction e stop block s with
  | (.error error, after) => (.failed error, after)
  | (.ok (), after) =>
    if block.stop ≤ (s.memory.bytes e.buffer).length then (.done, after) else (.brokenOff, s)

/-- Moves blocks in order, up to the first that cannot be moved. -/
def blockSlices (direction : Direction) (e : Endpoints) (stop : Nat) :
    List ByteRange → Storage → Ending × Storage
  | [], s => (.done, s)
  | block :: blocks, s =>
    match blockSlice direction e stop block s with
    | (.done, s) => blockSlices direction e stop blocks s
    | (ending, s) => (ending, s)

/-- Moves a range block by block. -/
def runSlices (direction : Direction) (e : Endpoints) (range : ByteRange) (blockSize : Nat)
    (s : Storage) : Ending × Storage :=
  blockSlices direction e range.stop (range.blocks blockSize) s

end Transfer

namespace Buffer

/-- A way to make a buffer. -/
inductive Recipe where
  | zeroed (type : ElementType) (count : Nat)
  | zeroedPlain (type : ElementType) (count : Nat)
  | locked (type : ElementType) (count : Nat) (tag : PinTag)
  | ofBytes (type : ElementType) (data : Bytes)
  deriving DecidableEq, Repr

namespace Recipe

def elementType : Recipe → ElementType
  | zeroed type _ | zeroedPlain type _ | locked type _ _ | ofBytes type _ => type

/-- How many elements are asked for, if data do not decide it. -/
def count? : Recipe → Option Nat
  | zeroed _ count | zeroedPlain _ count | locked _ count _ => some count
  | ofBytes .. => none

/-- Makes the buffer, or tells why it is not made; nothing is told where the call
breaks off. -/
def make (m : Memory) : Recipe → Except (Option TransferError) (Buffer × Memory)
  | zeroed type count => (m.zeroed? type count).mapError some
  | zeroedPlain type count =>
    match m.zeroedPlain? type count with
    | none => .error none
    | some made => .ok made
  | locked type count tag => (m.locked? type count tag).mapError some
  | ofBytes type data => (m.ofBytes? type data).mapError some

end Recipe
end Buffer

namespace Shelf

/-- What is done next. -/
inductive Act where
  | make (recipe : Buffer.Recipe)
  /-- One more handle to the buffer of the handle at that place. -/
  | clone (handle : Nat)
  | fill (handle : Nat) (data : Bytes)
  | copy (dest src : Nat)
  /-- A range of an opened file is moved to or from the same range of a buffer. -/
  | transfer (direction : Direction) (handle : Nat) (file : FileSystem.Handle) (path : String)
      (range : ByteRange) (blockSize : Nat)
  /-- Somebody else changes the files. -/
  | files (files : FileSystem)
  deriving DecidableEq, Repr

/-- What came of an act on buffers. -/
inductive Occurrence where
  | made (recipe : Buffer.Recipe) (buffer : Buffer)
  | notMade (recipe : Buffer.Recipe) (error : Option TransferError)
  | filled (buffer : Buffer) (ending : Ending)
  | copied (dest src : Buffer) (ending : Ending)
  | transferred (direction : Direction) (buffer : Buffer) (range : ByteRange) (ending : Ending)
  deriving DecidableEq, Repr

/-- How a copy of slices ended. -/
def Occurrence.ending? : Occurrence → Option Ending
  | made .. | notMade .. => none
  | filled _ ending | copied _ _ ending | transferred _ _ _ ending => some ending

end Shelf

/-- The handles that there are, in the order in which they came, the files and the
memory, and what happened so far. -/
structure Shelf where
  storage : Storage
  handles : List Buffer := []
  journal : List Shelf.Occurrence := []

namespace Shelf

def memory (s : Shelf) : Memory := s.storage.memory

/-- One more entry in the journal. -/
def note (s : Shelf) (o : Occurrence) : Shelf := { s with journal := s.journal ++ [o] }

/-- One more handle. -/
def put (s : Shelf) (b : Buffer) : Shelf := { s with handles := s.handles ++ [b] }

/-- The shelf with other memory. -/
def withMemory (s : Shelf) (memory : Memory) : Shelf :=
  { s with storage := { s.storage with memory } }

/-- A buffer is made. -/
def make (s : Shelf) (recipe : Buffer.Recipe) : Shelf :=
  match recipe.make s.memory with
  | .error error => s.note (.notMade recipe error)
  | .ok (b, memory) => ((s.withMemory memory).put b).note (.made recipe b)

/-- A buffer is filled. -/
def fill (s : Shelf) (b : Buffer) (data : Bytes) : Shelf :=
  let after := s.memory.fillSlice b data
  (s.withMemory after.2).note (.filled b after.1)

/-- A buffer is copied into another. -/
def copy (s : Shelf) (dest src : Buffer) : Shelf :=
  let after := s.memory.copySlice dest src
  (s.withMemory after.2).note (.copied dest src after.1)

/-- A range is moved between a buffer and a file. -/
def transfer (s : Shelf) (direction : Direction) (e : Transfer.Endpoints) (range : ByteRange)
    (blockSize : Nat) : Shelf :=
  let after := Transfer.runSlices direction e range blockSize s.storage
  { s with storage := after.2 }.note (.transferred direction e.buffer range after.1)

/-- The shelf after an act. -/
def step (s : Shelf) : Act → Shelf
  | .make recipe => s.make recipe
  | .clone i => (s.handles[i]?.map s.put).getD s
  | .fill i data => (s.handles[i]?.map (s.fill · data)).getD s
  | .copy i j => ((s.handles[i]?.bind fun dest => s.handles[j]?.map (s.copy dest))).getD s
  | .transfer direction i file path range blockSize =>
    (s.handles[i]?.map fun b => s.transfer direction ⟨file, path, b⟩ range blockSize).getD s
  | .files files => { s with storage := { s.storage with files } }

/-- The shelf after acts. -/
def run (s : Shelf) (acts : List Act) : Shelf := acts.foldl step s

end Shelf
end BlockTransfer
