import BlockTransfer.Buffer
/-!
# Pools and sets of locked buffers

A device hands out locked buffers from its pool, which numbers them from 1 and
knows which of them are live. A request uses up a number even if the buffer
cannot be made. Only the pool that handed a buffer out takes it back, once.

Whoever forwards to a device keeps a `LockedSet` of the tags handed out through
it, without asking the device.

Key definitions: `LockedPool.allocate`, `LockedPool.release`, `LockedSet`.
-/

namespace BlockTransfer

/-- The locked buffers of one device. -/
structure LockedPool where
  /-- Tells this pool from the others. -/
  number : Nat
  nextId : Nat := 1
  /-- The numbers handed out and not taken back. -/
  live : List Nat := []
  deriving DecidableEq, Repr

namespace LockedPool

/-- The tag that the next request gets. -/
def nextTag (p : LockedPool) : PinTag := ⟨p.number, p.nextId⟩

/-- The pool after the next number is used up. -/
def advance (p : LockedPool) : LockedPool := { p with nextId := p.nextId + 1 }

/-- The pool with one more live number. -/
def enlist (p : LockedPool) (id : Nat) : LockedPool := { p with live := p.live.insert id }

/-- Hands out a locked buffer of `count` elements. -/
def allocate (p : LockedPool) (m : Memory) (type : ElementType) (count : Nat) :
    Except TransferError (Buffer × Memory) × LockedPool :=
  match m.locked? type count p.nextTag with
  | .error e => (.error e, p.advance)
  | .ok (b, m) => (.ok (b, m), p.advance.enlist p.nextId)

/-- Takes a buffer back. -/
def release (p : LockedPool) (b : Buffer) : Except LifecycleError LockedPool :=
  match b.pin with
  | none => .error .notLocked
  | some tag =>
    if tag.pool ≠ p.number then .error (.foreign tag.id tag.pool p.number)
    else if tag.id ∈ p.live then .ok { p with live := p.live.erase tag.id }
    else .error (.unknown tag.id)

/-- How many buffers are handed out and not taken back. -/
def outstanding (p : LockedPool) : Nat := p.live.length

end LockedPool

/-- The tags of locked buffers that were handed out and not freed. -/
structure LockedSet where
  tags : List PinTag := []
  deriving DecidableEq, Repr

namespace LockedSet

def insert (s : LockedSet) (tag : PinTag) : LockedSet := ⟨s.tags.insert tag⟩

def contains (s : LockedSet) (tag : PinTag) : Bool := s.tags.contains tag

def erase (s : LockedSet) (tag : PinTag) : LockedSet := ⟨s.tags.erase tag⟩

def size (s : LockedSet) : Nat := s.tags.length

theorem contains_insert (s : LockedSet) (t u : PinTag) :
    (s.insert t).contains u = true ↔ u = t ∨ s.contains u = true := by
  simp [insert, contains, List.contains_eq_mem, List.mem_insert_iff]

end LockedSet
end BlockTransfer
