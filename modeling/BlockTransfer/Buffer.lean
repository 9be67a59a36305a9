import BlockTransfer.Bytes
import BlockTransfer.Error
import BlockTransfer.Word
/-!
# Buffers

A buffer is a handle to a region of memory. The handle carries what never
changes (the region's number, the element type, the length in bytes, and the
tag of a locked buffer); the content lives in the `Memory`, so every handle of
one region sees the same bytes.

A buffer is made of zeros (`Memory.zeroed?`, `Memory.locked?`, and
`Memory.zeroedPlain?`, which does not tell why it fails) or from data
(`Memory.ofBytes?`). Whether memory can be had is the allocator's answer, about
which nothing is assumed. An operation on buffers of different lengths fails and
changes nothing.

Key definitions: `Buffer`, `Allocator`, `Memory`, `Memory.reserve`,
`Memory.zeroed?`, `Memory.ofBytes?`, `Memory.fill`, `Memory.copy`.
-/

namespace BlockTransfer

/-- Names a locked buffer: the pool that it comes from and its number there. -/
structure PinTag where
  pool : Nat
  id : Nat
  deriving DecidableEq, Repr

/-- A handle to a typed region of memory of a fixed length. -/
structure Buffer where
  region : Nat
  elementType : ElementType
  /-- The length in bytes. -/
  len : Nat
  /-- The tag of a locked buffer, none for an ordinary one. -/
  pin : Option PinTag
  deriving DecidableEq, Repr

namespace Buffer

/-- The bytes that one element takes. -/
def stride (b : Buffer) : Nat := b.elementType.size

/-- The number of elements. -/
def elementCount (b : Buffer) : Nat := b.len / b.stride

def isEmpty (b : Buffer) : Bool := b.len == 0

def isLocked (b : Buffer) : Bool := b.pin.isSome

/-- Whether two handles name the same region. -/
def sameRegion (a b : Buffer) : Bool := a.region == b.region

/-- How a diagnostic shows a tag. -/
def showPin : Option PinTag → String
  | none => "None"
  | some t => s!"Some(PinTag \x7b pool: {t.pool}, id: {t.id} \x7d)"

/-- How a diagnostic shows the buffer; the content is left out. -/
def describe (b : Buffer) : String :=
  let pin := showPin b.pin
  s!"Buffer \x7b element_type: {b.elementType.label}, len: {b.len}, pin: {pin}, .. \x7d"

end Buffer

/-- The answers of an allocator: whether, with that many regions there, it grants
that many bytes for a locked buffer of that tag, or for an ordinary one. -/
abbrev Allocator := Nat → Option PinTag → Nat → Bool

/-- An allocator that grants up to 2^50 - 1 bytes at a time. -/
def Allocator.ample : Allocator := fun _ _ len => len < 1 <<< 50

/-- The contents of all regions, and how further ones can be had; a region's number
is its place in the list. -/
structure Memory where
  regions : List Bytes := []
  grants : Allocator := .ample

namespace Memory

/-- The number of addresses: byte lengths are counted modulo it. -/
def addressSpace : Nat := Word.count

/-- The greatest byte length that one allocation may ask for. -/
def maxAllocation : Nat := Word.signedLimit - 1

/-- The content of a buffer. -/
def bytes (m : Memory) (b : Buffer) : Bytes := m.regions[b.region]?.getD []

/-- The memory after a buffer's content is replaced. -/
def store (m : Memory) (b : Buffer) (data : Bytes) : Memory :=
  { m with regions := m.regions.set b.region data }

/-- A new region with the given content. -/
def allocate (m : Memory) (type : ElementType) (pin : Option PinTag) (data : Bytes) :
    Buffer × Memory :=
  (⟨m.regions.length, type, data.length, pin⟩, { m with regions := m.regions ++ [data] })

theorem bytes_store (m : Memory) (b : Buffer) (data : Bytes) (h : b.region < m.regions.length) :
    (m.store b data).bytes b = data := by
  simp [store, bytes, h]

/-- Regions do not overlap. -/
theorem bytes_store_of_ne (m : Memory) {a b : Buffer} (data : Bytes) (h : a.region ≠ b.region) :
    (m.store a data).bytes b = m.bytes b := by
  simp [store, bytes, List.getElem?_set_ne h]

theorem bytes_allocate (m : Memory) (type : ElementType) (pin : Option PinTag) (data : Bytes) :
    (m.allocate type pin data).2.bytes (m.allocate type pin data).1 = data := by
  simp [allocate, bytes]

/-- Whether `len` bytes can be had for a buffer with or without a tag, or why not.
The allocator is not asked for no bytes. -/
def reserve (m : Memory) (pin : Option PinTag) (len : Nat) : Except BufferFault Unit :=
  if maxAllocation < len then .error (.tooLong len)
  else if len = 0 ∨ m.grants m.regions.length pin len then .ok ()
  else .error (.exhausted len)

/-- The byte length of `count` elements, if they can be had. -/
def reserveElements (m : Memory) (pin : Option PinTag) (type : ElementType) (count : Nat) :
    Except BufferFault Nat :=
  let len := count * type.size
  if addressSpace ≤ len then .error (.overflow count type)
  else (m.reserve pin len).map fun _ => len

/-- A zero-filled buffer of `count` elements, with or without a tag. -/
def zeroedWith? (m : Memory) (type : ElementType) (count : Nat) (pin : Option PinTag) :
    Except TransferError (Buffer × Memory) :=
  match m.reserveElements pin type count with
  | .error fault => .error (.invalidBuffer fault)
  | .ok len => .ok (m.allocate type pin (Bytes.zeros len))

/-- An ordinary zero-filled buffer of `count` elements. -/
def zeroed? (m : Memory) (type : ElementType) (count : Nat) :
    Except TransferError (Buffer × Memory) :=
  m.zeroedWith? type count none

/-- A zero-filled locked buffer of `count` elements under the given tag. -/
def locked? (m : Memory) (type : ElementType) (count : Nat) (tag : PinTag) :
    Except TransferError (Buffer × Memory) :=
  m.zeroedWith? type count (some tag)

/-- An ordinary zero-filled buffer of `count` elements, from a request that breaks
off where the byte length overflows or cannot be had; nothing is made then. -/
def zeroedPlain? (m : Memory) (type : ElementType) (count : Nat) : Option (Buffer × Memory) :=
  (m.zeroed? type count).toOption

/-- An ordinary buffer that holds `data`, which is a whole number of elements. -/
def ofBytes? (m : Memory) (type : ElementType) (data : Bytes) :
    Except TransferError (Buffer × Memory) :=
  if data.length % type.size = 0 then .ok (m.allocate type none data)
  else .error (.invalidBuffer (.ragged data.length type))

/-- Replaces a buffer's content by data of its length. -/
def fill (m : Memory) (b : Buffer) (data : Bytes) : Except TransferError Memory :=
  if data.length = b.len then .ok (m.store b data)
  else .error (.lengthMismatch b.len data.length)

/-- Copies one buffer's content into another of its length. -/
def copy (m : Memory) (dest src : Buffer) : Except TransferError Memory :=
  if src.len ≠ dest.len then .error (.lengthMismatch dest.len src.len)
  else if dest.sameRegion src then .ok m
  else .ok (m.store dest (m.bytes src))

/-- Sets one byte of a buffer, if it lies inside. -/
def poke? (m : Memory) (b : Buffer) (at_ : Nat) (byte : UInt8) : Option Memory :=
  if at_ < b.len then some (m.store b ((m.bytes b).set at_ byte)) else none

end Memory
end BlockTransfer
