import BlockTransfer.Buffer
import Mathlib.Data.List.Basic
/-!
# Regions of memory

A buffer is one of a memory if its region is there and holds as many bytes as the
buffer's length says (`Memory.Stores`). A region is added at the end, and one that is
stored into keeps its length if what is stored has it, so a buffer of a memory stays
one (`Memory.stores_allocate`, `Memory.stores_store_iff`).

Key definitions: `Memory.Stores`, `Memory.Holds`.
Key theorems: `Memory.stores_store_iff`, `Memory.stores_allocate`,
`Memory.reserveElements_eq_ok_iff`.
-/

namespace BlockTransfer
namespace Memory

/-- The buffer is one of this memory: its region holds as many bytes as its
length says. -/
structure Stores (m : Memory) (b : Buffer) : Prop where
  region : b.region < m.regions.length
  length : (m.bytes b).length = b.len

/-- The buffer is one of this memory: its region holds as many bytes as its
length says, and no more than one allocation may ask for. -/
structure Holds (m : Memory) (b : Buffer) : Prop where
  region : b.region < m.regions.length
  length : (m.bytes b).length = b.len
  bound : b.len ≤ maxAllocation

instance (m : Memory) (b : Buffer) : Decidable (m.Holds b) :=
  decidable_of_iff (b.region < m.regions.length ∧ (m.bytes b).length = b.len ∧
      b.len ≤ maxAllocation)
    ⟨fun ⟨h1, h2, h3⟩ => ⟨h1, h2, h3⟩, fun ⟨h1, h2, h3⟩ => ⟨h1, h2, h3⟩⟩

variable {m : Memory} {a b : Buffer} {data : Bytes} {type : ElementType} {count len : Nat}
  {pin : Option PinTag}

theorem holds_iff : m.Holds b ↔ m.Stores b ∧ b.len ≤ maxAllocation :=
  ⟨fun h => ⟨⟨h.region, h.length⟩, h.bound⟩, fun h => ⟨h.1.region, h.1.length, h.2⟩⟩

/-! ### Storing -/

@[simp] theorem length_regions_store (m : Memory) (b : Buffer) (data : Bytes) :
    (m.store b data).regions.length = m.regions.length := by
  simp [store]

theorem store_store (m : Memory) (b : Buffer) (x y : Bytes) :
    (m.store b x).store b y = m.store b y := by
  simp [store, List.set_set]

theorem store_comm (m : Memory) {a b : Buffer} (x y : Bytes) (h : a.region ≠ b.region) :
    (m.store a x).store b y = (m.store b y).store a x := by
  simp only [store]
  rw [List.set_comm _ _ h]

theorem store_bytes (m : Memory) (b : Buffer) : m.store b (m.bytes b) = m := by
  by_cases h : b.region < m.regions.length
  · simp [store, bytes, h]
  · simp [store, List.set_eq_of_length_le (Nat.not_lt.mp h)]

/-- A buffer with a byte is one of the memory. -/
theorem region_lt_of_getElem? {m : Memory} {b : Buffer} {i : Nat} {x : UInt8}
    (h : (m.bytes b)[i]? = some x) : b.region < m.regions.length := by
  by_contra hlt
  rw [bytes, List.getElem?_eq_none (Nat.not_lt.mp hlt)] at h
  simp at h

/-- Handles of one region see the same bytes. -/
theorem bytes_congr (m : Memory) (h : a.region = b.region) : m.bytes a = m.bytes b := by
  simp only [bytes, h]

/-- No region changes its length if what is stored has that of its region. -/
theorem length_bytes_store (m : Memory) (a b : Buffer) (h : data.length = (m.bytes a).length) :
    ((m.store a data).bytes b).length = (m.bytes b).length := by
  by_cases hab : a.region = b.region
  · by_cases ha : a.region < m.regions.length
    · rw [← bytes_congr _ hab, bytes_store m a data ha, h, bytes_congr _ hab]
    · simp [store, List.set_eq_of_length_le (Nat.not_lt.mp ha)]
  · rw [bytes_store_of_ne m data hab]

theorem stores_store_iff (m : Memory) (a b : Buffer) (h : data.length = (m.bytes a).length) :
    (m.store a data).Stores b ↔ m.Stores b := by
  have hlen := length_bytes_store m a b h
  constructor
  · rintro ⟨hregion, hlength⟩
    exact ⟨by simpa using hregion, hlen ▸ hlength⟩
  · rintro ⟨hregion, hlength⟩
    exact ⟨by simpa using hregion, hlen.trans hlength⟩

/-- A region keeps its length if what is stored there has it. -/
theorem holds_store_iff (m : Memory) (a b : Buffer) {data : Bytes}
    (h : data.length = (m.bytes a).length) : (m.store a data).Holds b ↔ m.Holds b := by
  rw [holds_iff, holds_iff, stores_store_iff m a b h]

/-! ### Making room -/

theorem le_of_reserve (h : m.reserve pin len = .ok ()) : len ≤ maxAllocation := by
  unfold reserve at h
  split at h
  · cases h
  · exact Nat.not_lt.mp ‹_›

/-- A number of elements can be had exactly if their bytes can. -/
theorem reserveElements_eq_ok_iff {n : Nat} :
    m.reserveElements pin type count = .ok n ↔
      m.reserve pin (count * type.size) = .ok () ∧ n = count * type.size := by
  have hspace : maxAllocation < addressSpace := by decide
  unfold reserveElements
  dsimp only
  split
  · rename_i hle
    refine ⟨nofun, fun h => ?_⟩
    have := le_of_reserve h.1
    omega
  · cases m.reserve pin (count * type.size) with
    | error e => exact ⟨nofun, fun h => nomatch h.1⟩
    | ok u => exact ⟨fun h => ⟨rfl, (Except.ok.inj h).symm⟩, fun h => congrArg Except.ok h.2.symm⟩

/-- A region that was just added is its buffer's, and the others are there still. -/
theorem stores_allocate (m : Memory) (pin : Option PinTag) (data : Bytes) :
    (m.allocate type pin data).2.Stores (m.allocate type pin data).1 where
  region := by simp [allocate]
  length := by rw [bytes_allocate]; rfl

theorem Stores.allocate (h : m.Stores b) (type : ElementType) (pin : Option PinTag) (data : Bytes) :
    (m.allocate type pin data).2.Stores b where
  region := by
    have := h.region
    simp only [Memory.allocate, List.length_append]
    omega
  length := by
    have hget : (m.regions ++ [data])[b.region]? = m.regions[b.region]? :=
      List.getElem?_append_left h.region
    rw [← h.length, bytes, bytes, Memory.allocate, hget]

/-- A region that was just added holds its buffer. -/
theorem holds_allocate (m : Memory) (pin : Option PinTag) {data : Bytes}
    (h : data.length ≤ maxAllocation) :
    (m.allocate type pin data).2.Holds (m.allocate type pin data).1 :=
  holds_iff.mpr ⟨stores_allocate m pin data, h⟩

end Memory
end BlockTransfer
