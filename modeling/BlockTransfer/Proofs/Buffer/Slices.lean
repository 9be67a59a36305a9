import BlockTransfer.Buffer.Shelf
import BlockTransfer.Proofs.Buffer.Regions
import BlockTransfer.Proofs.Copying
/-!
# Slices that fit

Where the regions of the buffers are as long as their handles say, no slice copy is of
two lengths: filling and copying come to what they come to without a look at the
slices (`Memory.fillSlice_eq`, `Memory.copySlice_eq`), and so does a transfer of a range
that lies in its buffer (`Transfer.runSlices_eq`). One that does not breaks off, and
still no region changes its length (`Transfer.stores_runSlices`).

Key definitions: `Memory.Copies`.
Key theorems: `Memory.copies_fillSlice`, `Memory.copies_copySlice`,
`Transfer.runSlices_eq`, `Transfer.stores_runSlices`.
-/

namespace BlockTransfer

namespace Memory

variable {m : Memory} {b c dest src : Buffer} {data : Bytes}

/-! ### Filling and copying -/

theorem overwrite_eq (h : data.length = (m.bytes b).length) :
    m.overwrite b data = (.done, m.store b data) := if_pos h

theorem stores_overwrite (h : m.Stores c) (b : Buffer) (data : Bytes) :
    (m.overwrite b data).2.Stores c := by
  unfold overwrite
  split
  · exact (stores_store_iff m b c ‹_›).mpr h
  · exact h

theorem stores_fillSlice (h : m.Stores c) (b : Buffer) (data : Bytes) :
    (m.fillSlice b data).2.Stores c := by
  unfold fillSlice
  split
  · exact stores_overwrite h b data
  · exact h

theorem stores_copySlice (h : m.Stores c) (dest src : Buffer) :
    (m.copySlice dest src).2.Stores c := by
  unfold copySlice
  split
  · exact h
  · split
    · exact h
    · exact stores_overwrite h dest _

/-- The two ways in which data are copied into a buffer. -/
inductive Copies (m : Memory) (dest : Buffer) (data : Bytes) : Ending × Memory → Prop
  /-- The buffer holds the data, and every other region what it held. -/
  | done {after : Memory} (length : data.length = dest.len) (content : after.bytes dest = data)
      (others : ∀ b : Buffer, b.region ≠ dest.region → after.bytes b = m.bytes b) :
      Copies m dest data (.done, after)
  /-- The lengths differ, and nothing has changed. -/
  | mismatch (length : data.length ≠ dest.len) :
      Copies m dest data (.failed (.lengthMismatch dest.len data.length), m)

theorem copies_fillSlice (h : m.Stores b) (data : Bytes) :
    Copies m b data (m.fillSlice b data) := by
  unfold fillSlice
  split
  case isTrue hlen =>
    rw [overwrite_eq (hlen.trans h.length.symm)]
    exact .done hlen (bytes_store m b data h.region) fun c hc => bytes_store_of_ne m data hc.symm
  case isFalse hlen => exact .mismatch hlen

theorem copies_copySlice (hdest : m.Stores dest) (hsrc : m.Stores src) :
    Copies m dest (m.bytes src) (m.copySlice dest src) := by
  unfold copySlice
  split
  case isTrue hlen =>
    rw [← hsrc.length] at hlen ⊢
    exact .mismatch hlen
  case isFalse hlen =>
    have hsame : (m.bytes src).length = dest.len := hsrc.length.trans (not_not.mp hlen)
    split
    case isTrue hregion =>
      -- the two handles are of one region, which keeps its bytes
      exact .done hsame (bytes_congr m (by simpa [Buffer.sameRegion] using hregion)) fun _ _ => rfl
    case isFalse =>
      rw [overwrite_eq (hsame.trans hdest.length.symm)]
      exact .done hsame (bytes_store m dest _ hdest.region) fun c hc =>
        bytes_store_of_ne m _ hc.symm

theorem Copies.unbroken {after : Ending × Memory} (h : Copies m dest data after) :
    after.1 ≠ .brokenOff := by
  cases h <;> nofun

/-- A copy leaves its source as it was, also where the target is the same buffer. -/
theorem Copies.source {after : Ending × Memory} (h : Copies m dest (m.bytes src) after) :
    after.2.bytes src = m.bytes src := by
  cases h with
  | @done after _ content others =>
    by_cases hregion : src.region = dest.region
    · exact (bytes_congr after hregion).trans content
    · exact others src hregion
  | mismatch => rfl

end Memory

/-! ### Transfers -/

theorem ByteRange.stop_le_of_mem_blocks {r block : ByteRange} {blockSize : Nat}
    (h : block ∈ r.blocks blockSize) : block.stop ≤ r.stop := by
  obtain ⟨i, -, rfl⟩ := List.mem_map.mp h
  exact Nat.min_le_right _ _

/-- What is read is what is there. -/
theorem FileSystem.eq_slice_of_readAt {fs : FileSystem} {h : FileSystem.Handle} {offset n : Nat}
    {data : Bytes} (hread : fs.readAt h offset n = .ok data) :
    data = Bytes.slice (fs.content h) offset n := by
  unfold FileSystem.readAt at hread
  split at hread <;> cases hread
  rfl

namespace Transfer

variable {d : Direction} {e : Endpoints} {stop : Nat} {block : ByteRange} {s : Storage} {b : Buffer}

/-- A block is not moved, or it is copied over the same place of the file or of the
buffer. -/
theorem moveBlock_cases (d : Direction) (e : Endpoints) (stop : Nat) (block : ByteRange)
    (s : Storage) : (∃ error, moveBlock d e stop block s = (.error error, s)) ∨
      ∃ after, moveBlock d e stop block s = (.ok (), after) ∧ (after.memory = s.memory ∨
        ∃ source, after.memory =
          s.memory.store e.buffer (Bytes.copyRange source block (s.memory.bytes e.buffer))) := by
  cases d with
  | write => exact .inr ⟨_, rfl, .inl rfl⟩
  | read =>
    unfold moveBlock readBlock
    dsimp only
    split
    case h_1 error _ => exact .inl ⟨_, rfl⟩
    case h_2 data hread =>
      split
      · exact .inl ⟨_, rfl⟩
      · refine .inr ⟨_, rfl, .inr ⟨s.files.content e.handle, ?_⟩⟩
        rw [FileSystem.eq_slice_of_readAt hread]
        rfl

/-- A block that lies in its region is moved as it is without a look at the slice. -/
theorem blockSlice_eq (d : Direction) (stop : Nat)
    (h : block.stop ≤ (s.memory.bytes e.buffer).length) : blockSlice d e stop block s =
      (.ofResult (moveBlock d e stop block s).1, (moveBlock d e stop block s).2) := by
  unfold blockSlice
  split
  case h_1 error after hmove => rw [hmove]; rfl
  case h_2 after hmove => rw [hmove, if_pos h]; rfl

/-- Wherever a block lies, no region changes its length. -/
theorem stores_blockSlice (h : s.memory.Stores b) (d : Direction) (e : Endpoints) (stop : Nat)
    (block : ByteRange) : (blockSlice d e stop block s).2.memory.Stores b := by
  unfold blockSlice
  rcases moveBlock_cases d e stop block s with ⟨error, hmove⟩ | ⟨after, hmove, hmemory⟩
  · rw [hmove]
    exact h
  · rw [hmove]
    dsimp only
    split
    case isTrue hstop =>
      rcases hmemory with hmemory | ⟨source, hmemory⟩
      · exact hmemory ▸ h
      · rw [hmemory]
        exact (Memory.stores_store_iff _ _ _ (Bytes.length_copyRange_of_le hstop)).mpr h
    case isFalse => exact h

theorem stores_blockSlices : ∀ {blocks : List ByteRange} {s : Storage}, s.memory.Stores b →
    (blockSlices d e stop blocks s).2.memory.Stores b
  | [], _, h => h
  | block :: blocks, s, h => by
    have hblock := stores_blockSlice h d e stop block
    unfold blockSlices
    split
    case h_1 after hmove => exact stores_blockSlices (by rwa [hmove] at hblock)
    case h_2 ending after hmove => rwa [hmove] at hblock

theorem blockSlices_eq : ∀ {blocks : List ByteRange} {s : Storage}, s.memory.Stores e.buffer →
    (∀ block ∈ blocks, block.stop ≤ e.buffer.len) →
    blockSlices d e stop blocks s =
      (.ofResult (moveBlocks d e stop blocks s).1, (moveBlocks d e stop blocks s).2)
  | [], _, _, _ => rfl
  | block :: blocks, s, h, hin => by
    obtain ⟨hblock, hin⟩ := List.forall_mem_cons.mp hin
    have heq := blockSlice_eq d stop (h.length.symm ▸ hblock)
    have hstores := stores_blockSlice h d e stop block
    rw [blockSlices, moveBlocks]
    rcases moveBlock_cases d e stop block s with ⟨error, hmove⟩ | ⟨after, hmove, -⟩
    · rw [heq, hmove]
      rfl
    · rw [heq, hmove] at hstores
      rw [heq, hmove]
      exact blockSlices_eq hstores hin

variable {r : ByteRange} {blockSize : Nat}

/-- A range that lies in its buffer is moved as it is without a look at the slices. -/
theorem runSlices_eq (h : s.memory.Stores e.buffer) (hr : r.stop ≤ e.buffer.len) :
    runSlices d e r blockSize s =
      (.ofResult (run d e r blockSize s).1, (run d e r blockSize s).2) :=
  blockSlices_eq h fun _ hblock => Nat.le_trans (ByteRange.stop_le_of_mem_blocks hblock) hr

/-- Such a transfer does not break off. -/
theorem runSlices_unbroken (h : s.memory.Stores e.buffer) (hr : r.stop ≤ e.buffer.len) :
    (runSlices d e r blockSize s).1 ≠ .brokenOff := by
  rw [runSlices_eq h hr]
  cases (run d e r blockSize s).1 <;> nofun

theorem stores_runSlices (h : s.memory.Stores b) (d : Direction) (e : Endpoints) (r : ByteRange)
    (blockSize : Nat) : (runSlices d e r blockSize s).2.memory.Stores b :=
  stores_blockSlices h

end Transfer
end BlockTransfer
